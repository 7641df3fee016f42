import JoinIndex.Binary64

/-!
Decimal text of binary64 numbers: the fewest digits that read back as the number, and a fixed
count of decimal places. Both work on the exact value.
-/

set_option autoImplicit false

namespace JoinIndex.Binary64

def digitCount (n : Nat) : Nat :=
  (Nat.toDigits 10 n).length

/-- The decimal exponent of the leading digit of `num / den`. -/
def leadingExponent (num den : Nat) : Int :=
  if den ≤ num then (digitCount (num / den) : Int) - 1
  else -(digitCount ((den - 1) / num) : Int)

/-- The interval of values that read back as a number, as numerators over `4 * den`. Its ends
belong to it when the significand is even. -/
structure Neighbourhood where
  low : Nat
  high : Nat
  closed : Bool

/-- Halfway to the next number below and above. The gap below a power of two is half as wide,
unless the number is the least normal one. -/
def neighbourhood (x : Binary64) : Neighbourhood :=
  let (num, _) := x.magnitude
  let gap := 1 <<< (x.scale - 1074)
  let narrow := x.fraction = 0 && 1 < x.exponentField
  { low := 4 * num - (if narrow then gap else 2 * gap)
    high := 4 * num + 2 * gap
    closed := x.significand % 2 = 0 }

def Neighbourhood.holds (n : Neighbourhood) (v : Nat) (unit : Nat) : Bool :=
  if n.closed then n.low * unit ≤ v && v ≤ n.high * unit
  else n.low * unit < v && v < n.high * unit

/-- The multiple of `10 ^ place` nearest to the number among its two neighbours that read back,
or none if neither does. Of two equally near ones the upper is taken. -/
def nearestOnGrid? (x : Binary64) (place : Int) : Option Nat :=
  let (num, den) := x.magnitude
  let up := Nat.pow 10 place.toNat
  let down := Nat.pow 10 (-place).toNat
  -- the value is `num / den`; a grid point `k` is `k * up / down`
  let k := num * down / (den * up)
  let n := x.neighbourhood
  let fits := fun g ↦ n.holds (4 * den * g * up) down
  let below := num * down - k * (den * up)
  let above := (k + 1) * (den * up) - num * down
  match fits k, fits (k + 1) with
  | true, true => some (if below < above then k else k + 1)
  | true, false => some k
  | false, true => some (k + 1)
  | false, false => none

/-- The shortest decimal that reads back, tried from one digit up. Seventeen always suffice. -/
def shortestFrom (x : Binary64) (lead : Int) : Nat → Nat → Nat × Int
  | _, 0 => (0, 0)
  | count, tries + 1 =>
    let place := lead - (count : Int)
    match x.nearestOnGrid? place with
    | some digits => (digits, place)
    | none => shortestFrom x lead (count + 1) tries

/-- Digits of a decimal in positional notation, without an exponent and without a fraction for
whole numbers. -/
def positional (digits : Nat) (place : Int) : String :=
  if 0 ≤ place then toString (digits * Nat.pow 10 place.toNat)
  else
    let unit := Nat.pow 10 (-place).toNat
    let fraction := Nat.toDigits 10 (digits % unit)
    let padded := List.replicate ((-place).toNat - fraction.length) '0' ++ fraction
    let kept := (padded.reverse.dropWhile (· = '0')).reverse
    if kept.isEmpty then toString (digits / unit)
    else toString (digits / unit) ++ "." ++ String.ofList kept

/-- The number in the fewest digits that read back. -/
def shortestText (x : Binary64) : String :=
  if x.isNaN then "NaN"
  else
    let magnitude :=
      if x.isInfinite then "inf"
      else if x.isZero then "0"
      else
        let (num, den) := x.magnitude
        let (digits, place) := shortestFrom x (leadingExponent num den) 0 17
        positional digits place
    if x.negative then "-" ++ magnitude else magnitude

/-- A finite number that is not negative with two decimal places, a tie going to the even last
digit. -/
def twoPlaces (x : Binary64) : String :=
  let (num, den) := x.magnitude
  let hundredths := roundQuotient (num * 100) den
  let fraction := hundredths % 100
  toString (hundredths / 100) ++ "." ++ (if fraction < 10 then "0" else "") ++ toString fraction

end JoinIndex.Binary64
