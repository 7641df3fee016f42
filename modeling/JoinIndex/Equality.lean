/-!
Lists seen through an equality of their elements: the table of all comparisons, and the number of
elements that differ from one another.
-/

set_option autoImplicit false

namespace JoinIndex.Equality

variable {α : Type}

/-- Row `i`, place `j` compares element `i` with element `j`. -/
def comparisons (same : α → α → Bool) (xs : List α) : List (List Bool) :=
  xs.map fun x ↦ xs.map (same x)

/-- The elements that no later element equals. -/
def representatives (same : α → α → Bool) : List α → List α
  | [] => []
  | x :: rest => if rest.any (same x) then representatives same rest
    else x :: representatives same rest

def countDistinct (same : α → α → Bool) (xs : List α) : Nat :=
  (representatives same xs).length

end JoinIndex.Equality
