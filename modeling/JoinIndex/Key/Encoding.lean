import JoinIndex.LittleEndian
import JoinIndex.Value

/-!
The bytes a value is hashed by. The first byte tells the type, and values that are the same have
the same bytes: a zero has no sign, there is one NaN, and numbers drop trailing zeros.
-/

set_option autoImplicit false

namespace JoinIndex.Value

/-- Stands for null, which has no content of its own. -/
def nullMark : Nat := 0x5bd1e995

/-- The number that stands for all that are the same as it. -/
def canonicalBits (x : Binary64) : UInt64 :=
  if x.isZero then Binary64.zero.bits else if x.isNaN then Binary64.nan.bits else x.bits

/-- Scale in the third byte and sign in the highest bit of the first word, then the mantissa. -/
def numericBytes (x : Numeric) : List UInt8 :=
  let sign := if x.mantissa < 0 then 1 <<< 31 else 0
  LittleEndian.ofNat 4 ((x.scale <<< 16) + sign) ++ LittleEndian.ofNat 12 x.mantissa.natAbs

def keyBytes : Value → List UInt8
  | null => 0 :: LittleEndian.ofNat 4 nullMark
  | bool b => [1, if b then 1 else 0]
  | int64 i => 2 :: LittleEndian.ofInt 8 i.toInt
  | float64 x => 3 :: LittleEndian.ofNat 8 (canonicalBits x).toNat
  | numeric x => 4 :: numericBytes x.normalize
  | string s => 5 :: s.toUTF8.data.toList
  | bytes data => 6 :: data
  | date d => 7 :: LittleEndian.ofInt 4 d.day
  | dateTime m => 8 :: LittleEndian.ofInt 8 m.micros
  | timestamp m => 9 :: LittleEndian.ofInt 8 m.micros

end JoinIndex.Value
