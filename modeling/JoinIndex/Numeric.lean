/-!
Decimal numbers with a fixed count of decimal places. Numbers that differ only in trailing zeros
are the same number, and `normalize` gives them one form.
-/

set_option autoImplicit false

namespace JoinIndex

/-- The number `mantissa / 10 ^ scale`. -/
structure Numeric where
  mantissa : Int
  scale : Nat
  mantissa_lt : mantissa.natAbs < 1 <<< 96
  scale_le : scale ≤ 28
  deriving DecidableEq

namespace Numeric

def of? (mantissa : Int) (scale : Nat) : Option Numeric :=
  if hm : mantissa.natAbs < 1 <<< 96 then
    if hs : scale ≤ 28 then some ⟨mantissa, scale, hm, hs⟩ else none
  else none

/-- The mantissa of one whole at the scale of the number. -/
def unit (x : Numeric) : Nat :=
  Nat.pow 10 x.scale

/-- Equality of the numbers, whatever their scales. -/
def same (x y : Numeric) : Bool :=
  x.mantissa * y.unit = y.mantissa * x.unit

/-- Drops trailing zeros after the point, at most `scale` of them. -/
def stripZeros (mantissa : Int) : Nat → Int × Nat
  | 0 => (mantissa, 0)
  | scale + 1 =>
    if mantissa % 10 = 0 then stripZeros (mantissa / 10) scale else (mantissa, scale + 1)

theorem natAbs_stripZeros_le (mantissa : Int) (scale : Nat) :
    (stripZeros mantissa scale).1.natAbs ≤ mantissa.natAbs := by
  induction scale generalizing mantissa with
  | zero => simp [stripZeros]
  | succ scale ih =>
    unfold stripZeros
    split
    · exact Nat.le_trans (ih _) (by omega)
    · exact Nat.le_refl _

theorem stripZeros_scale_le (mantissa : Int) (scale : Nat) :
    (stripZeros mantissa scale).2 ≤ scale := by
  induction scale generalizing mantissa with
  | zero => simp [stripZeros]
  | succ scale ih =>
    unfold stripZeros
    split
    · exact Nat.le_trans (ih _) (Nat.le_succ _)
    · exact Nat.le_refl _

/-- The same number at the least scale that holds it. -/
def normalize (x : Numeric) : Numeric where
  mantissa := (stripZeros x.mantissa x.scale).1
  scale := (stripZeros x.mantissa x.scale).2
  mantissa_lt := Nat.lt_of_le_of_lt (natAbs_stripZeros_le _ _) x.mantissa_lt
  scale_le := Nat.le_trans (stripZeros_scale_le _ _) x.scale_le

/-- All decimal places of the scale are written. -/
def text (x : Numeric) : String :=
  let whole := toString (x.mantissa.natAbs / x.unit)
  let digits := Nat.toDigits 10 (x.mantissa.natAbs % x.unit)
  let places := List.replicate (x.scale - digits.length) '0' ++ digits
  let magnitude := if x.scale = 0 then whole else whole ++ "." ++ String.ofList places
  if x.mantissa < 0 then "-" ++ magnitude else magnitude

end Numeric

end JoinIndex
