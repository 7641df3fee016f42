/-!
Binary64 numbers as their bits, with exact arithmetic on what the bits mean: a finite number is
`magnitude` times a power of two, and a ratio of two naturals is rounded to the nearest number,
a tie to the one with an even last bit.
-/

set_option autoImplicit false

namespace JoinIndex

structure Binary64 where
  bits : UInt64
  deriving DecidableEq, Repr

namespace Binary64

def negative (x : Binary64) : Bool :=
  0x8000000000000000 ≤ x.bits.toNat

def exponentField (x : Binary64) : Nat :=
  (x.bits.toNat >>> 52) % 2048

def fraction (x : Binary64) : Nat :=
  x.bits.toNat % (1 <<< 52)

def isNaN (x : Binary64) : Bool :=
  x.exponentField = 2047 && x.fraction ≠ 0

def isInfinite (x : Binary64) : Bool :=
  x.exponentField = 2047 && x.fraction = 0

/-- Holds of both zeros. -/
def isZero (x : Binary64) : Bool :=
  x.exponentField = 0 && x.fraction = 0

def zero : Binary64 := ⟨0⟩

def nan : Binary64 := ⟨0x7ff8000000000000⟩

/-- The integer that a power of two scales to the absolute value of a finite number. -/
def significand (x : Binary64) : Nat :=
  if x.exponentField = 0 then x.fraction else (1 <<< 52) + x.fraction

/-- The exponent of that power, raised by 1074 so that it is never negative. -/
def scale (x : Binary64) : Nat :=
  x.exponentField - 1

/-- The absolute value of a finite number, as a numerator and a denominator. -/
def magnitude (x : Binary64) : Nat × Nat :=
  (x.significand <<< (x.scale - 1074), 1 <<< (1074 - x.scale))

/-- Numbers count as the same when both are NaN, when both are zero, or when their bits agree. -/
def same (x y : Binary64) : Bool :=
  (x.isNaN && y.isNaN) || (x.isZero && y.isZero) || x.bits == y.bits

/-- A quotient rounded to the nearest natural number, a tie to the even one. -/
def roundQuotient (num den : Nat) : Nat :=
  let q := num / den
  let twice := 2 * (num % den)
  if twice < den then q
  else if den < twice then q + 1
  else q + q % 2

/-- The largest `k` with `2 ^ k * den ≤ num * 2 ^ 1074`: the place of the leading bit of
`num / den`, raised by 1074. -/
def leadingPlace (num den : Nat) : Nat :=
  let scaled := num <<< 1074
  let k := scaled.log2 - den.log2
  if den <<< k ≤ scaled then k else k - 1

/-- The number nearest to `num / den`. A rounded significand of `2 ^ 53` carries into the
exponent by itself, because the fields of the bits stand side by side. -/
def ofRatio (num den : Nat) : Binary64 :=
  if num = 0 || den = 0 then zero
  else
    let shift := leadingPlace num den - 52
    let rounded := roundQuotient (num <<< 1074) (den <<< shift)
    ⟨(min ((shift <<< 52) + rounded) (2047 <<< 52)).toUInt64⟩

def ofNat (n : Nat) : Binary64 :=
  ofRatio n 1

def ofInt (i : Int) : Binary64 :=
  let x := ofNat i.natAbs
  if i < 0 then ⟨x.bits ||| 0x8000000000000000⟩ else x

/-- The quotient of two counts: each is rounded to a number first, then their ratio is. -/
def quotient (a b : Nat) : Binary64 :=
  let (p, q) := (ofNat a).magnitude
  let (r, s) := (ofNat b).magnitude
  ofRatio (p * s) (q * r)

end Binary64

end JoinIndex
