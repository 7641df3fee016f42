/-!
Numbers as bytes, the lowest byte first.
-/

set_option autoImplicit false

namespace JoinIndex.LittleEndian

/-- The lowest `count` bytes of a natural number. -/
def ofNat : Nat → Nat → List UInt8
  | 0, _ => []
  | count + 1, n => n.toUInt8 :: ofNat count (n / 256)

/-- The lowest `count` bytes of an integer in two's complement. -/
def ofInt (count : Nat) (i : Int) : List UInt8 :=
  ofNat count (i % (1 <<< (8 * count) : Nat)).toNat

/-- The word whose bytes are given, at most four of them. -/
def word (bytes : List UInt8) : UInt32 :=
  bytes.foldr (fun b high ↦ high <<< 8 ||| b.toUInt32) 0

end JoinIndex.LittleEndian
