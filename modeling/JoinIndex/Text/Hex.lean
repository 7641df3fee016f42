/-!
Numbers and bytes in hexadecimal digits.
-/

set_option autoImplicit false

namespace JoinIndex.Text.Hex

/-- The value of a digit of either case. -/
def digit? (c : Char) : Option Nat :=
  if '0' ≤ c && c ≤ '9' then some (c.toNat - 48)
  else if 'a' ≤ c && c ≤ 'f' then some (c.toNat - 87)
  else if 'A' ≤ c && c ≤ 'F' then some (c.toNat - 55)
  else none

/-- The number that digits write in a base up to 16. -/
def number? (base : Nat) (digits : List Char) : Option Nat :=
  digits.foldlM (fun n c ↦ do
    let d ← digit? c
    if d < base then some (n * base + d) else none) 0

/-- A number in `width` digits at least. -/
def padded (width n : Nat) : String :=
  let digits := Nat.toDigits 16 n
  String.ofList (List.replicate (width - digits.length) '0' ++ digits)

/-- Two digits for each byte. -/
def ofBytes (data : List UInt8) : String :=
  String.join (data.map fun b ↦ padded 2 b.toNat)

def toBytes? : List Char → Option (List UInt8)
  | [] => some []
  | [_] => none
  | a :: b :: rest => do
    let n ← number? 16 [a, b]
    let data ← toBytes? rest
    some (n.toUInt8 :: data)

end JoinIndex.Text.Hex
