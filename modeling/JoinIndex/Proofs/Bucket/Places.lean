import Mathlib
import JoinIndex.Bucket

/-!
Buckets and their places in an array. What is true of the filled buckets as a collection does not
depend on where they stand, so that moving them to other places keeps it; `filledBuckets` lists
them, and the lemmas say how the list changes when one place is written.
-/

set_option autoImplicit false
set_option relaxedAutoImplicit false

namespace JoinIndex

namespace Bucket

@[simp] theorem hash?_empty : empty.hash? = none := rfl

theorem hash?_eq_none_iff {b : Bucket} : b.hash? = none ↔ b = empty := by
  cases b <;> simp [hash?]

@[simp] theorem isFilled_empty : empty.isFilled = false := rfl

theorem isFilled_iff {b : Bucket} : b.isFilled = true ↔ ∃ hash, b.hash? = some hash := by
  cases b <;> simp [hash?, isFilled]

theorem isFilled_of_hash? {b : Bucket} {hash : UInt32} (h : b.hash? = some hash) :
    b.isFilled = true :=
  isFilled_iff.mpr ⟨hash, h⟩

@[simp] theorem hash?_setMatched (b : Bucket) : b.setMatched.hash? = b.hash? := by
  cases b <;> rfl

@[simp] theorem isFilled_setMatched (b : Bucket) : b.setMatched.isFilled = b.isFilled := by
  cases b <;> rfl

@[simp] theorem hasOverflow_setMatched (b : Bucket) : b.setMatched.hasOverflow = b.hasOverflow := by
  cases b <;> rfl

@[simp] theorem head?_setMatched (b : Bucket) : b.setMatched.head? = b.head? := by
  cases b <;> rfl

theorem hasOverflow_eq_isSome_head? (b : Bucket) : b.hasOverflow = b.head?.isSome := by
  cases b <;> rfl

end Bucket

/-- The bucket at a place; past the last place there are only empty ones. -/
def bucketAt (buckets : Array Bucket) (p : Nat) : Bucket :=
  buckets.getD p .empty

theorem bucketAt_of_lt {buckets : Array Bucket} {p : Nat} (hp : p < buckets.size) :
    bucketAt buckets p = buckets[p] := by
  simp [bucketAt, hp]

theorem lt_size_of_isFilled {buckets : Array Bucket} {p : Nat}
    (h : (bucketAt buckets p).isFilled = true) : p < buckets.size := by
  by_contra hp
  rw [bucketAt, Array.getD_eq_getD_getElem?, Array.getElem?_eq_none (by omega)] at h
  exact absurd h (by decide)

theorem bucketAt_setIfInBounds {buckets : Array Bucket} {p : Nat} (hp : p < buckets.size)
    (b : Bucket) (q : Nat) :
    bucketAt (buckets.setIfInBounds p b) q = if p = q then b else bucketAt buckets q := by
  rw [bucketAt, bucketAt, Array.getD_eq_getD_getElem?, Array.getD_eq_getD_getElem?,
    Array.getElem?_setIfInBounds]
  split_ifs <;> rfl

theorem bucketAt_modify (buckets : Array Bucket) (p : Nat) (f : Bucket → Bucket)
    (hf : f .empty = .empty) (q : Nat) :
    bucketAt (buckets.modify p f) q = if p = q then f (bucketAt buckets q) else
      bucketAt buckets q := by
  rw [bucketAt, bucketAt, Array.getD_eq_getD_getElem?, Array.getD_eq_getD_getElem?,
    Array.getElem?_modify]
  split_ifs with hpq
  · cases buckets[q]? <;> simp [hf]
  · rfl

@[simp] theorem bucketAt_replicate (n p : Nat) :
    bucketAt (Array.replicate n .empty) p = .empty := by
  rw [bucketAt, Array.getD_eq_getD_getElem?, Array.getElem?_replicate]
  split_ifs <;> rfl

/-- The filled buckets in the order of their places. -/
def filledBuckets (buckets : Array Bucket) : List Bucket :=
  buckets.toList.filter Bucket.isFilled

theorem mem_filledBuckets {buckets : Array Bucket} {b : Bucket} :
    b ∈ filledBuckets buckets ↔ b.isFilled = true ∧ ∃ p, bucketAt buckets p = b := by
  rw [filledBuckets, List.mem_filter, and_comm, and_congr_right_iff]
  intro hb
  rw [Array.mem_toList_iff, Array.mem_iff_getElem]
  constructor
  · rintro ⟨p, hp, rfl⟩
    exact ⟨p, bucketAt_of_lt hp⟩
  · rintro ⟨p, rfl⟩
    have hp := lt_size_of_isFilled hb
    exact ⟨p, hp, (bucketAt_of_lt hp).symm⟩

theorem bucketAt_mem_filledBuckets {buckets : Array Bucket} {p : Nat}
    (h : (bucketAt buckets p).isFilled = true) : bucketAt buckets p ∈ filledBuckets buckets :=
  mem_filledBuckets.mpr ⟨h, p, rfl⟩

@[simp] theorem filledBuckets_replicate (n : Nat) :
    filledBuckets (Array.replicate n .empty) = [] := by
  rw [filledBuckets, Array.toList_replicate, List.filter_replicate_of_neg (by simp)]

theorem exists_empty_of_length_lt {buckets : Array Bucket}
    (h : (filledBuckets buckets).length < buckets.size) :
    ∃ p < buckets.size, bucketAt buckets p = .empty := by
  by_contra hnone
  push Not at hnone
  have hall : filledBuckets buckets = buckets.toList := by
    rw [filledBuckets, List.filter_eq_self]
    intro b hb
    obtain ⟨p, hp, rfl⟩ := Array.mem_iff_getElem.mp (Array.mem_toList_iff.mp hb)
    have hne := hnone p hp
    rw [bucketAt_of_lt hp] at hne
    rw [Bucket.isFilled_iff]
    exact Option.ne_none_iff_exists'.mp fun hh ↦ hne (Bucket.hash?_eq_none_iff.mp hh)
  rw [hall, Array.length_toList] at h
  exact Nat.lt_irrefl _ h

/-- Writing a bucket leaves what stands at the other places. -/
theorem exists_filledBuckets_perm {buckets : Array Bucket} {p : Nat} (hp : p < buckets.size)
    (b : Bucket) : ∃ others : List Bucket,
      (filledBuckets buckets).Perm ([bucketAt buckets p].filter Bucket.isFilled ++ others) ∧
      (filledBuckets (buckets.setIfInBounds p b)).Perm
        ([b].filter Bucket.isFilled ++ others) := by
  have hp' : p < buckets.toList.length := by simpa using hp
  refine ⟨(buckets.toList.eraseIdx p).filter Bucket.isFilled, ?_, ?_⟩
  · rw [← List.filter_append, bucketAt_of_lt hp, filledBuckets]
    have hperm := (List.getElem_cons_eraseIdx_perm hp').symm
    simpa using hperm.filter Bucket.isFilled
  · rw [← List.filter_append, filledBuckets, Array.toList_setIfInBounds]
    exact (List.set_perm_cons_eraseIdx hp' b).filter Bucket.isFilled

theorem filledBuckets_setIfInBounds_of_empty {buckets : Array Bucket} {p : Nat}
    (hp : p < buckets.size) (hempty : bucketAt buckets p = .empty) {b : Bucket}
    (hb : b.isFilled = true) :
    (filledBuckets (buckets.setIfInBounds p b)).Perm (b :: filledBuckets buckets) := by
  obtain ⟨others, hbefore, hafter⟩ := exists_filledBuckets_perm hp b
  rw [hempty] at hbefore
  rw [List.filter_cons_of_pos hb] at hafter
  exact hafter.trans (List.Perm.cons b hbefore.symm)

theorem filledBuckets_setIfInBounds_of_filled {buckets : Array Bucket} {p : Nat}
    (hfilled : (bucketAt buckets p).isFilled = true) {b : Bucket} (hb : b.isFilled = true) :
    ∃ others : List Bucket, (filledBuckets buckets).Perm (bucketAt buckets p :: others) ∧
      (filledBuckets (buckets.setIfInBounds p b)).Perm (b :: others) := by
  obtain ⟨others, hbefore, hafter⟩ :=
    exists_filledBuckets_perm (lt_size_of_isFilled hfilled) b
  rw [List.filter_cons_of_pos hfilled] at hbefore
  rw [List.filter_cons_of_pos hb] at hafter
  exact ⟨others, hbefore, hafter⟩

theorem map_filter_modify {α β : Type} (g : α → β) (keeps : α → Bool) (f : α → α)
    (hg : ∀ x, g (f x) = g x) (hkeeps : ∀ x, keeps (f x) = keeps x) (l : List α) (k : Nat) :
    ((l.modify k f).filter keeps).map g = (l.filter keeps).map g := by
  induction l generalizing k with
  | nil => simp
  | cons x l ih =>
    cases k with
    | zero =>
      rw [List.modify_zero_cons, List.filter_cons, List.filter_cons, hkeeps]
      split_ifs
      · rw [List.map_cons, List.map_cons, hg]
      · rfl
    | succ k =>
      rw [List.modify_succ_cons, List.filter_cons, List.filter_cons]
      split_ifs
      · rw [List.map_cons, List.map_cons, ih]
      · exact ih k

/-- A change that some property of buckets does not see does not change the list of it. -/
theorem map_filledBuckets_modify {β : Type} (g : Bucket → β) (f : Bucket → Bucket)
    (hg : ∀ b, g (f b) = g b) (hf : ∀ b, (f b).isFilled = b.isFilled) (buckets : Array Bucket)
    (p : Nat) : (filledBuckets (buckets.modify p f)).map g = (filledBuckets buckets).map g := by
  rw [filledBuckets, Array.toList_modify]
  exact map_filter_modify g Bucket.isFilled f hg hf buckets.toList p

/-- Two places of a relation that holds of any two filled buckets. -/
theorem rel_of_pairwise_filledBuckets {buckets : Array Bucket} {R : Bucket → Bucket → Prop}
    (hR : (filledBuckets buckets).Pairwise R) (hsymm : ∀ a b, R a b → R b a) {p q : Nat}
    (hp : (bucketAt buckets p).isFilled = true) (hq : (bucketAt buckets q).isFilled = true)
    (hpq : p ≠ q) : R (bucketAt buckets p) (bucketAt buckets q) := by
  rw [filledBuckets, List.pairwise_filter, List.pairwise_iff_getElem] at hR
  have hps := lt_size_of_isFilled hp
  have hqs := lt_size_of_isFilled hq
  rw [bucketAt_of_lt hps] at hp ⊢
  rw [bucketAt_of_lt hqs] at hq ⊢
  rcases Nat.lt_or_gt_of_ne hpq with hlt | hgt
  · exact hR p q (by simpa using hps) (by simpa using hqs) hlt (by simpa using hp)
      (by simpa using hq)
  · exact hsymm _ _ (hR q p (by simpa using hqs) (by simpa using hps) hgt (by simpa using hq)
      (by simpa using hp))

end JoinIndex
