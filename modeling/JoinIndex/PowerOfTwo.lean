/-!
Powers of two: the test for one, and the least one that is not below a number.
-/

set_option autoImplicit false

namespace JoinIndex.PowerOfTwo

/-- Holds of the numbers `2 ^ k`. -/
def IsPower (n : Nat) : Prop :=
  n = 1 <<< n.log2

instance (n : Nat) : Decidable (IsPower n) :=
  inferInstanceAs (Decidable (n = 1 <<< n.log2))

/-- The least power of two that is at least `n`. -/
def ceil (n : Nat) : Nat :=
  if n ≤ 1 then 1 else 1 <<< ((n - 1).log2 + 1)

end JoinIndex.PowerOfTwo
