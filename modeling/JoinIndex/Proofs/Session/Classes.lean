import JoinIndex.Proofs.Key.Sameness
import JoinIndex.Proofs.Session

/-!
Which rows share a bucket. Insertions are alike when they were made under the same hash with keys
that are the same. If every insertion that a table accepted was made with the key of its row, the
groups of the table are the classes of alike insertions, each group holding the rows of its class
from the latest to the first.

The groups are matched with a list of representatives, one insertion for each class. A row that is
taken in either represents a class of its own or joins the class whose bucket the search found; the
search does find the bucket of the class if there is one, because the paths are filled.
-/

set_option autoImplicit false
set_option relaxedAutoImplicit false

namespace JoinIndex

namespace Insertion

/-- The key evaluated last when the row was stored. -/
def key (i : Insertion) : List Value := i.context.key

/-- The key is the build key of the row that was stored. -/
structure Keyed (exprs : List KeyExpr) (i : Insertion) : Prop where
  buildExprs_eq : i.context.buildExprs = exprs
  exists_row : ∃ row, i.row? = some row ∧ i.key = KeyContext.buildKey exprs row

/-- Made under the same hash with keys that are the same. -/
def alike (i j : Insertion) : Bool :=
  i.hash == j.hash && Row.sameValues i.key j.key

variable {i j k : Insertion}

theorem alike_iff : i.alike j = true ↔ i.hash = j.hash ∧ Row.sameValues i.key j.key = true := by
  rw [alike, Bool.and_eq_true, beq_iff_eq]

theorem alike_refl (i : Insertion) : i.alike i = true :=
  alike_iff.mpr ⟨rfl, Row.sameValues_refl _⟩

theorem alike_symm (h : i.alike j = true) : j.alike i = true := by
  rw [alike_iff] at h ⊢
  exact ⟨h.1.symm, Row.sameValues_symm h.2⟩

theorem alike_trans (hij : i.alike j = true) (hjk : j.alike k = true) : i.alike k = true := by
  rw [alike_iff] at hij hjk ⊢
  exact ⟨hij.1.trans hjk.1, Row.sameValues_trans hij.2 hjk.2⟩

/-- The hash and the rows of the insertions that are like this one. -/
def classOf (kept : List Insertion) (i : Insertion) : UInt32 × List RowRef :=
  (i.hash, (kept.filter i.alike).map ref)

theorem classOf_cons_of_not_alike {kept : List Insertion} (h : i.alike j = false) :
    i.classOf (j :: kept) = i.classOf kept := by
  rw [classOf, classOf, List.filter_cons_of_neg (by simp [h])]

theorem classOf_cons_of_alike {kept : List Insertion} (h : i.alike j = true) :
    i.classOf (j :: kept) = (i.hash, j.ref :: (i.classOf kept).2) := by
  rw [classOf, classOf, List.filter_cons_of_pos h, List.map_cons]

/-- An insertion that was kept is in its class, so the class has a latest member. -/
theorem exists_head?_classOf {kept : List Insertion} (hi : i ∈ kept) :
    ∃ j ∈ kept, i.alike j = true ∧ (i.classOf kept).2.head? = some j.ref := by
  have hmem : i ∈ kept.filter i.alike := List.mem_filter.mpr ⟨hi, i.alike_refl⟩
  rw [classOf]
  cases hclass : kept.filter i.alike with
  | nil =>
    rw [hclass] at hmem
    cases hmem
  | cons j rest =>
    have hj : j ∈ kept.filter i.alike := by
      rw [hclass]
      exact List.mem_cons_self
    exact ⟨j, (List.mem_filter.mp hj).1, (List.mem_filter.mp hj).2, rfl⟩

end Insertion

open Insertion

variable {shapes : List (UInt32 × List RowRef)} {kept reps : List Insertion}

/-- The groups are the classes of the insertions, one for each representative. -/
structure Classes (shapes : List (UInt32 × List RowRef)) (kept reps : List Insertion) : Prop where
  perm : shapes.Perm (reps.map (classOf kept))
  pairwise : reps.Pairwise fun i j ↦ i.alike j = false
  mem : ∀ r ∈ reps, r ∈ kept
  exists_alike : ∀ i ∈ kept, ∃ r ∈ reps, r.alike i = true

namespace Classes

theorem nil : Classes [] [] [] where
  perm := List.Perm.refl _
  pairwise := List.Pairwise.nil
  mem := fun _ hr ↦ absurd hr List.not_mem_nil
  exists_alike := fun _ hi ↦ absurd hi List.not_mem_nil

theorem of_perm {shapes' : List (UInt32 × List RowRef)} (h : Classes shapes kept reps)
    (hperm : shapes'.Perm shapes) : Classes shapes' kept reps :=
  ⟨hperm.trans h.perm, h.pairwise, h.mem, h.exists_alike⟩

/-- Every group is the class of a representative. -/
theorem exists_rep (h : Classes shapes kept reps) {shape : UInt32 × List RowRef}
    (hshape : shape ∈ shapes) : ∃ r ∈ reps, r.classOf kept = shape :=
  List.mem_map.mp (h.perm.mem_iff.mp hshape)

theorem classOf_mem (h : Classes shapes kept reps) {r : Insertion} (hr : r ∈ reps) :
    r.classOf kept ∈ shapes :=
  h.perm.mem_iff.mpr (List.mem_map_of_mem hr)

/-- The representatives may be listed in the order of the groups. -/
theorem exists_reps_eq (h : Classes shapes kept reps) :
    ∃ ordered, shapes = ordered.map (classOf kept) ∧ Classes shapes kept ordered := by
  have hcomp : Relation.Comp (fun l m ↦ l = m.map (classOf kept)) List.Perm shapes reps := by
    rw [List.eq_map_comp_perm]
    exact h.perm
  obtain ⟨ordered, heq, hperm⟩ := hcomp
  have hsymm : ∀ {i j : Insertion}, i.alike j = false → j.alike i = false := by
    intro i j hij
    rw [Bool.eq_false_iff] at hij ⊢
    exact fun hji ↦ hij (alike_symm hji)
  refine ⟨ordered, heq, ?_, ?_, ?_, ?_⟩
  · rw [heq]
  · exact (hperm.pairwise_iff hsymm).mpr h.pairwise
  · exact fun r hr ↦ h.mem r (hperm.mem_iff.mp hr)
  · intro i hi
    obtain ⟨r, hr, hri⟩ := h.exists_alike i hi
    exact ⟨r, hperm.mem_iff.mpr hr, hri⟩

/-- An insertion like none before makes a class of its own. -/
theorem cons_new {i : Insertion} (h : Classes shapes kept reps)
    (hnew : ∀ r ∈ reps, r.alike i = false) :
    Classes ((i.hash, [i.ref]) :: shapes) (i :: kept) (i :: reps) := by
  have hnone : kept.filter i.alike = [] := by
    rw [List.filter_eq_nil_iff]
    intro j hj hij
    obtain ⟨r, hr, hrj⟩ := h.exists_alike j hj
    have hri := alike_trans hrj (alike_symm hij)
    rw [hnew r hr] at hri
    cases hri
  have hself : i.classOf (i :: kept) = (i.hash, [i.ref]) := by
    rw [classOf_cons_of_alike i.alike_refl, classOf, hnone]
    rfl
  have hothers : reps.map (classOf (i :: kept)) = reps.map (classOf kept) :=
    List.map_congr_left fun r hr ↦ classOf_cons_of_not_alike (hnew r hr)
  constructor
  · rw [List.map_cons, hself, hothers]
    exact h.perm.cons _
  · refine List.pairwise_cons.mpr ⟨fun r hr ↦ ?_, h.pairwise⟩
    rw [Bool.eq_false_iff]
    intro hir
    exact absurd (alike_symm hir) (by simp [hnew r hr])
  · intro r hr
    rcases List.mem_cons.mp hr with rfl | hr
    · exact List.mem_cons_self
    · exact List.mem_cons_of_mem _ (h.mem r hr)
  · intro j hj
    rcases List.mem_cons.mp hj with rfl | hj
    · exact ⟨j, List.mem_cons_self, j.alike_refl⟩
    · obtain ⟨r, hr, hrj⟩ := h.exists_alike j hj
      exact ⟨r, List.mem_cons_of_mem _ hr, hrj⟩

/-- Two representatives that are like one insertion are the same one. -/
theorem not_alike_of_mem_others {r i : Insertion} {front back : List Insertion}
    (hpairwise : (front ++ r :: back).Pairwise fun i j ↦ i.alike j = false)
    (hr : r.alike i = true) {q : Insertion} (hq : q ∈ front ++ back) : q.alike i = false := by
  rw [Bool.eq_false_iff]
  intro hqi
  rw [List.pairwise_append, List.pairwise_cons] at hpairwise
  obtain ⟨-, ⟨hback, -⟩, hfront⟩ := hpairwise
  rcases List.mem_append.mp hq with hq | hq
  · have hqr := alike_trans hqi (alike_symm hr)
    rw [hfront q hq r List.mem_cons_self] at hqr
    cases hqr
  · have hrq := alike_trans hr (alike_symm hqi)
    rw [hback q hq] at hrq
    cases hrq

/-- An insertion like a representative joins its class as the latest member. -/
theorem cons_old {r i : Insertion} {others : List (UInt32 × List RowRef)}
    (h : Classes (r.classOf kept :: others) kept reps) (hr : r ∈ reps) (hi : r.alike i = true) :
    Classes ((r.hash, i.ref :: (r.classOf kept).2) :: others) (i :: kept) reps := by
  obtain ⟨front, back, rfl⟩ := List.append_of_mem hr
  have hsplit : (front ++ r :: back).Perm (r :: (front ++ back)) := List.perm_middle
  have hmiddle : (r.classOf kept :: others).Perm
      (r.classOf kept :: (front ++ back).map (classOf kept)) := by
    have hmap := h.perm.trans (hsplit.map (classOf kept))
    rwa [List.map_cons] at hmap
  have hothers : (front ++ back).map (classOf (i :: kept)) = (front ++ back).map (classOf kept) :=
    List.map_congr_left fun q hq ↦
      classOf_cons_of_not_alike (not_alike_of_mem_others h.pairwise hi hq)
  constructor
  · have hperm := hsplit.map (classOf (i :: kept))
    rw [List.map_cons, hothers, classOf_cons_of_alike hi] at hperm
    exact ((hmiddle.cons_inv).cons _).trans hperm.symm
  · exact h.pairwise
  · exact fun q hq ↦ List.mem_cons_of_mem _ (h.mem q hq)
  · intro j hj
    rcases List.mem_cons.mp hj with rfl | hj
    · exact ⟨r, hr, hi⟩
    · exact h.exists_alike j hj

end Classes

end JoinIndex
