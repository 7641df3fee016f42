import JoinIndex.Proofs.Probe.Search
import JoinIndex.Table

/-!
Moving the filled buckets of a table into an array of another size. The collection of filled buckets
stays what it was, no empty bucket comes to stand on the way to a filled one, and the move succeeds
whenever the new array has a place for each of them.
-/

set_option autoImplicit false
set_option relaxedAutoImplicit false

namespace JoinIndex.Table

open Probe

variable {mode : ProbingMode} {buckets moved result : Array Bucket}

theorem relocate_eq_foldlM (mode : ProbingMode) (buckets : Array Bucket) (size : Nat) :
    relocate mode buckets size =
      buckets.toList.foldlM (relocate.place mode) (Array.replicate size .empty) := by
  rw [relocate, Array.foldlM_toList]

/-- A filled bucket is written to an empty place that its hash leads to. -/
theorem place_eq_some {b : Bucket} {hash : UInt32} (hhash : b.hash? = some hash)
    (h : relocate.place mode moved b = some result) :
    ∃ p, result = moved.setIfInBounds p b ∧ p < moved.size ∧ bucketAt moved p = .empty ∧
      Reaches mode moved hash p := by
  have hanswers := answers_run mode moved hash fun _ ↦ false
  rw [relocate.place, hhash] at h
  cases hresult : (run mode moved hash fun _ ↦ false).result with
  | found p => simp [hresult] at h
  | exhausted => simp [hresult] at h
  | vacant p =>
    simp only [hresult, Option.some.injEq] at h
    rw [hresult] at hanswers
    exact ⟨p, h.symm, hanswers.reaches.lt_size, hanswers.eq_empty, hanswers.reaches⟩

/-- What the buckets moved so far keep: their number of places, the filled paths, and the filled
buckets as a collection. -/
theorem foldlM_place {rest : List Bucket} (hpaths : PathsFilled mode moved)
    (h : rest.foldlM (relocate.place mode) moved = some result) :
    result.size = moved.size ∧ PathsFilled mode result ∧
      (filledBuckets result).Perm (rest.filter Bucket.isFilled ++ filledBuckets moved) := by
  induction rest generalizing moved with
  | nil =>
    obtain rfl : moved = result := Option.some.inj h
    exact ⟨rfl, hpaths, List.Perm.refl _⟩
  | cons b rest ih =>
    rw [List.foldlM_cons, Option.bind_eq_bind, Option.bind_eq_some_iff] at h
    obtain ⟨next, hplace, hrest⟩ := h
    cases hhash : b.hash? with
    | none =>
      obtain rfl : b = .empty := Bucket.hash?_eq_none_iff.mp hhash
      obtain rfl : moved = next := Option.some.inj hplace
      exact ih hpaths hrest
    | some hash =>
      have hb := Bucket.isFilled_of_hash? hhash
      obtain ⟨p, rfl, hp, hempty, hreaches⟩ := place_eq_some hhash hplace
      obtain ⟨hsize, hpaths', hperm⟩ := ih (hpaths.setIfInBounds hhash hreaches) hrest
      refine ⟨by rw [hsize, Array.size_setIfInBounds], hpaths', hperm.trans ?_⟩
      rw [List.filter_cons_of_pos hb]
      exact ((filledBuckets_setIfInBounds_of_empty hp hempty hb).append_left _).trans
        List.perm_middle

theorem relocate_eq_some {size : Nat} (h : relocate mode buckets size = some result) :
    result.size = size ∧ PathsFilled mode result ∧
      (filledBuckets result).Perm (filledBuckets buckets) := by
  rw [relocate_eq_foldlM] at h
  obtain ⟨hsize, hpaths, hperm⟩ := foldlM_place (pathsFilled_replicate mode size) h
  rw [filledBuckets_replicate, List.append_nil] at hperm
  exact ⟨by rw [hsize, Array.size_replicate], hpaths, hperm⟩

theorem exists_place_eq_some (b : Bucket) (hsize : PowerOfTwo.IsPower moved.size)
    (hroom : b.isFilled = true → (filledBuckets moved).length < moved.size) :
    ∃ next, relocate.place mode moved b = some next := by
  cases hhash : b.hash? with
  | none =>
    obtain rfl : b = .empty := Bucket.hash?_eq_none_iff.mp hhash
    exact ⟨moved, rfl⟩
  | some hash =>
    obtain ⟨p, hp, hempty⟩ := exists_empty_of_length_lt (hroom (Bucket.isFilled_of_hash? hhash))
    rw [relocate.place, hhash]
    cases hresult : (run mode moved hash fun _ ↦ false).result with
    | found q => exact absurd hresult not_found_of_no_match
    | exhausted => exact absurd hresult (exists_vacant_of_empty hsize hp hempty)
    | vacant q => exact ⟨moved.setIfInBounds q b, by simp [hresult]⟩

theorem exists_foldlM_place {rest : List Bucket} (hsize : PowerOfTwo.IsPower moved.size)
    (hpaths : PathsFilled mode moved)
    (hroom : (rest.filter Bucket.isFilled).length + (filledBuckets moved).length ≤ moved.size) :
    ∃ result, rest.foldlM (relocate.place mode) moved = some result := by
  induction rest generalizing moved with
  | nil => exact ⟨moved, rfl⟩
  | cons b rest ih =>
    obtain ⟨next, hplace⟩ : ∃ next, relocate.place mode moved b = some next := by
      refine exists_place_eq_some b hsize fun hb ↦ ?_
      rw [List.filter_cons_of_pos hb, List.length_cons] at hroom
      omega
    have hstep : [b].foldlM (relocate.place mode) moved = some next := by
      rw [List.foldlM_cons, hplace]
      rfl
    obtain ⟨hnext, hpaths', hperm⟩ := foldlM_place hpaths hstep
    rw [List.foldlM_cons, hplace]
    refine ih (by rwa [hnext]) hpaths' ?_
    have hcount : (([b] ++ rest).filter Bucket.isFilled).length + (filledBuckets moved).length ≤
        moved.size := hroom
    rw [List.filter_append, List.length_append] at hcount
    rw [hperm.length_eq, List.length_append, hnext]
    omega

theorem exists_relocate_eq_some {size : Nat} (hsize : PowerOfTwo.IsPower size)
    (hroom : (filledBuckets buckets).length ≤ size) :
    ∃ result, relocate mode buckets size = some result := by
  rw [relocate_eq_foldlM]
  refine exists_foldlM_place (by rwa [Array.size_replicate]) (pathsFilled_replicate mode size) ?_
  rw [filledBuckets_replicate, Array.size_replicate]
  exact hroom

end JoinIndex.Table
