import Mathlib

/-!
Arrays that are related entry by entry. Two arrays written alike stay related, whatever the relation
between what is written, so that a program that only moves entries about cannot tell them apart.
-/

set_option autoImplicit false
set_option relaxedAutoImplicit false

namespace JoinIndex

variable {α β : Type} {R S : α → β → Prop}

theorem optionRel_mono (hRS : ∀ x y, R x y → S x y) {o : Option α} {o' : Option β}
    (h : Option.Rel R o o') : Option.Rel S o o' := by
  cases h with
  | some h => exact .some (hRS _ _ h)
  | none => exact .none

theorem optionRel_map {γ δ : Type} {T : γ → δ → Prop} {f : α → γ} {g : β → δ}
    (hfg : ∀ x y, R x y → T (f x) (g y)) {o : Option α} {o' : Option β} (h : Option.Rel R o o') :
    Option.Rel T (o.map f) (o'.map g) := by
  cases h with
  | some h => exact .some (hfg _ _ h)
  | none => exact .none

theorem optionRel_bind {γ δ : Type} {T : γ → δ → Prop} {f : α → Option γ} {g : β → Option δ}
    (hfg : ∀ x y, R x y → Option.Rel T (f x) (g y)) {o : Option α} {o' : Option β}
    (h : Option.Rel R o o') : Option.Rel T (o.bind f) (o'.bind g) := by
  cases h with
  | some h => exact hfg _ _ h
  | none => exact .none

/-- What related options yield alike. -/
theorem map_eq_of_optionRel {γ : Type} {f : α → γ} {g : β → γ}
    (hfg : ∀ x y, R x y → f x = g y) {o : Option α} {o' : Option β} (h : Option.Rel R o o') :
    o.map f = o'.map g := by
  cases h with
  | some h => exact congrArg some (hfg _ _ h)
  | none => rfl

theorem bind_eq_of_optionRel {γ : Type} {f : α → Option γ} {g : β → Option γ}
    (hfg : ∀ x y, R x y → f x = g y) {o : Option α} {o' : Option β} (h : Option.Rel R o o') :
    o.bind f = o'.bind g := by
  cases h with
  | some h => exact hfg _ _ h
  | none => rfl

theorem any_eq_of_optionRel {f : α → Bool} {g : β → Bool}
    (hfg : ∀ x y, R x y → f x = g y) {o : Option α} {o' : Option β} (h : Option.Rel R o o') :
    o.any f = o'.any g := by
  cases h with
  | some h => exact hfg _ _ h
  | none => rfl

/-- Arrays of one length with related entries. -/
def Pointwise (R : α → β → Prop) (xs : Array α) (ys : Array β) : Prop :=
  ∀ i : ℕ, Option.Rel R xs[i]? ys[i]?

namespace Pointwise

variable {xs : Array α} {ys : Array β}

theorem mono (hRS : ∀ x y, R x y → S x y) (h : Pointwise R xs ys) : Pointwise S xs ys :=
  fun i ↦ optionRel_mono hRS (h i)

theorem refl {T : α → α → Prop} (hT : ∀ x, T x x) (xs : Array α) : Pointwise T xs xs := by
  intro i
  cases xs[i]? with
  | none => exact .none
  | some x => exact .some (hT x)

theorem eq {T : α → α → Prop} (hT : ∀ x y, T x y → x = y) {xs ys : Array α}
    (h : Pointwise T xs ys) : xs = ys := by
  refine Array.ext_getElem? fun i ↦ ?_
  have hentry := h i
  generalize xs[i]? = o at hentry
  generalize ys[i]? = o' at hentry
  cases hentry with
  | some hxy => rw [hT _ _ hxy]
  | none => rfl

theorem size_eq (h : Pointwise R xs ys) : xs.size = ys.size := by
  apply le_antisymm
  · by_contra hlt
    have hentry := h ys.size
    rw [Array.getElem?_eq_getElem (by omega), Array.getElem?_eq_none (le_refl _)] at hentry
    cases hentry
  · by_contra hlt
    have hentry := h xs.size
    rw [Array.getElem?_eq_none (le_refl _), Array.getElem?_eq_getElem (by omega)] at hentry
    cases hentry

theorem empty : Pointwise R (#[] : Array α) (#[] : Array β) :=
  fun _ ↦ .none

theorem replicate (n : ℕ) {x : α} {y : β} (hxy : R x y) :
    Pointwise R (Array.replicate n x) (Array.replicate n y) := by
  intro i
  rw [Array.getElem?_replicate, Array.getElem?_replicate]
  split_ifs
  · exact .some hxy
  · exact .none

theorem push (h : Pointwise R xs ys) {x : α} {y : β} (hxy : R x y) :
    Pointwise R (xs.push x) (ys.push y) := by
  intro i
  rw [Array.getElem?_push, Array.getElem?_push, h.size_eq]
  split_ifs
  · exact .some hxy
  · exact h i

theorem modify (h : Pointwise R xs ys) (k : ℕ) {f : α → α} {g : β → β}
    (hfg : ∀ x y, R x y → R (f x) (g y)) : Pointwise R (xs.modify k f) (ys.modify k g) := by
  intro i
  rw [Array.getElem?_modify, Array.getElem?_modify]
  split_ifs
  · exact optionRel_map hfg (h i)
  · exact h i

theorem setIfInBounds (h : Pointwise R xs ys) (k : ℕ) {x : α} {y : β} (hxy : R x y) :
    Pointwise R (xs.setIfInBounds k x) (ys.setIfInBounds k y) := by
  intro i
  rw [Array.getElem?_setIfInBounds, Array.getElem?_setIfInBounds, h.size_eq]
  split_ifs
  · exact .some hxy
  · exact .none
  · exact h i

theorem getD (h : Pointwise R xs ys) (i : ℕ) {x : α} {y : β} (hxy : R x y) :
    R (xs.getD i x) (ys.getD i y) := by
  rw [Array.getD_eq_getD_getElem?, Array.getD_eq_getD_getElem?]
  have hentry := h i
  generalize xs[i]? = o at hentry
  generalize ys[i]? = o' at hentry
  cases hentry with
  | some hentry => exact hentry
  | none => exact hxy

theorem back? (h : Pointwise R xs ys) : Option.Rel R xs.back? ys.back? := by
  rw [Array.back?_eq_getElem?, Array.back?_eq_getElem?, h.size_eq]
  exact h _

theorem forall₂_toList (h : Pointwise R xs ys) : List.Forall₂ R xs.toList ys.toList := by
  rw [List.forall₂_iff_get]
  refine ⟨h.size_eq, fun i hx hy ↦ ?_⟩
  have hentry := h i
  rw [Array.getElem?_eq_getElem hx, Array.getElem?_eq_getElem hy] at hentry
  cases hentry with
  | some h => exact h

end Pointwise

end JoinIndex
