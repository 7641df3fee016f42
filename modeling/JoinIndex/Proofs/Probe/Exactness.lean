import JoinIndex.Proofs.Probe.Search

/-!
How far a search goes and what it counts. The places visited are described by the steps that lead
from each of them to the next; in a table whose size is a power of two these are the places of
`ProbingMode.slot`, so that every bucket is visited once. A search therefore ends at the first
visited bucket that is empty or that it looks for, and is exhausted when there is no such bucket at
all. It counts the steps up to its end and the buckets on the way that have its hash.
-/

set_option autoImplicit false
set_option relaxedAutoImplicit false

namespace JoinIndex

namespace ProbingMode

/-- The length of the step after `k` steps. -/
def stride : ProbingMode → Nat → Nat
  | linear, _ => 1
  | quadratic, k => k + 1

/-- The place after `k` steps, each of them taken from the place before it and cut to the bits of a
place. -/
def visit (mode : ProbingMode) (n : Nat) (hash : UInt32) : Nat → Nat
  | 0 => hash.toNat &&& (n - 1)
  | k + 1 => (mode.visit n hash k + mode.stride k) &&& (n - 1)

theorem offset_succ (mode : ProbingMode) (k : Nat) :
    mode.offset (k + 1) = mode.offset k + mode.stride k := by
  cases mode with
  | linear => rfl
  | quadratic =>
    have hnow := two_mul_offset_quadratic k
    have hnext := two_mul_offset_quadratic (k + 1)
    have hsplit : (k + 1) * (k + 1 + 1) = k * (k + 1) + 2 * (k + 1) := by ring
    change quadratic.offset (k + 1) = quadratic.offset k + (k + 1)
    omega

theorem visit_eq_slot {n : Nat} (hn : PowerOfTwo.IsPower n) (mode : ProbingMode) (hash : UInt32)
    (k : Nat) : mode.visit n hash k = mode.slot n hash k := by
  obtain ⟨m, rfl⟩ := PowerOfTwo.isPower_iff.mp hn
  induction k with
  | zero =>
    have hzero : mode.offset 0 = 0 := by cases mode <;> rfl
    rw [visit, Nat.and_two_pow_sub_one_eq_mod, slot, hzero, Nat.add_zero]
  | succ k ih =>
    rw [visit, Nat.and_two_pow_sub_one_eq_mod, ih, slot, slot, offset_succ, Nat.mod_add_mod,
      Nat.add_assoc]

end ProbingMode

namespace Probe

variable {mode : ProbingMode} {buckets : Array Bucket} {hash : UInt32} {isMatch : Bucket → Bool}

instance (buckets : Array Bucket) (hash : UInt32) (isMatch : Bucket → Bool) (p : Nat) :
    Decidable (Passes buckets hash isMatch p) :=
  inferInstanceAs (Decidable (_ ∧ _))

/-- How many of the first `k` buckets visited have the hash. -/
def sameHash (mode : ProbingMode) (buckets : Array Bucket) (hash : UInt32) (k : Nat) : Nat :=
  (List.range k).countP fun j ↦
    (bucketAt buckets (mode.slot buckets.size hash j)).hash? == some hash

theorem sameHash_succ (k : Nat) :
    sameHash mode buckets hash (k + 1) = sameHash mode buckets hash k +
      if (bucketAt buckets (mode.slot buckets.size hash k)).hash? = some hash then 1 else 0 := by
  rw [sameHash, List.range_succ, List.countP_append, List.countP_singleton, ← sameHash]
  simp only [beq_iff_eq]

/-- A search passed `k` buckets and counted them. -/
structure EndsAfter (mode : ProbingMode) (buckets : Array Bucket) (hash : UInt32)
    (isMatch : Bucket → Bool) (k : Nat) (probe : Probe) : Prop where
  le_size : k ≤ buckets.size
  passes : PassesUntil mode buckets hash isMatch k
  travel_eq : probe.travel = k
  collisions_eq : probe.collisions = sameHash mode buckets hash k
  ends : match probe.result with
    | .found p => k < buckets.size ∧ mode.slot buckets.size hash k = p ∧
        (bucketAt buckets p).hash? = some hash ∧ isMatch (bucketAt buckets p) = true
    | .vacant p => k < buckets.size ∧ mode.slot buckets.size hash k = p ∧
        bucketAt buckets p = .empty
    | .exhausted => k = buckets.size

/-- The induction is on the buckets left; the buckets passed and counted before are the
invariant. -/
theorem exists_walk_endsAfter (left travel : Nat) (hsize : travel + left = buckets.size)
    (hpassed : PassesUntil mode buckets hash isMatch travel) :
    ∃ k, EndsAfter mode buckets hash isMatch k
      (walk mode buckets hash isMatch travel (sameHash mode buckets hash travel) left) := by
  induction left generalizing travel with
  | zero => exact ⟨travel, by omega, hpassed, rfl, rfl, hsize⟩
  | succ left ih =>
    have htravel : travel < buckets.size := by omega
    have hcount : sameHash mode buckets hash (travel + 1) = _ := sameHash_succ travel
    rw [walk_succ]
    cases hhash : (bucketAt buckets (mode.slot buckets.size hash travel)).hash? with
    | none =>
      simp only [hhash]
      exact ⟨travel, htravel.le, hpassed, rfl, rfl, htravel, rfl,
        Bucket.hash?_eq_none_iff.mp hhash⟩
    | some h =>
      have hfilled := Bucket.isFilled_of_hash? hhash
      rw [hhash] at hcount
      simp only [hhash]
      split_ifs with heq hmatch
      · exact ⟨travel, htravel.le, hpassed, rfl, rfl, htravel, rfl, by rw [hhash, heq], hmatch⟩
      · rw [heq, if_pos rfl] at hcount
        rw [← hcount]
        refine ih (travel + 1) (by omega) (hpassed.succ ⟨hfilled, fun _ ↦ ?_⟩)
        exact eq_false_of_ne_true hmatch
      · have hsame : sameHash mode buckets hash (travel + 1) =
            sameHash mode buckets hash travel := by
          rw [hcount, if_neg fun h' ↦ heq (Option.some.inj h'), Nat.add_zero]
        rw [← hsame]
        refine ih (travel + 1) (by omega) (hpassed.succ ⟨hfilled, fun h' ↦ ?_⟩)
        rw [hhash, Option.some.injEq] at h'
        exact absurd h' heq

theorem exists_run_endsAfter (mode : ProbingMode) (buckets : Array Bucket) (hash : UInt32)
    (isMatch : Bucket → Bool) :
    ∃ k, EndsAfter mode buckets hash isMatch k (run mode buckets hash isMatch) :=
  exists_walk_endsAfter buckets.size 0 (Nat.zero_add _) (fun _ hj ↦ absurd hj (Nat.not_lt_zero _))

/-- The bucket that a search ends at is not one that it passes. -/
theorem EndsAfter.not_passes {k p : Nat} {probe : Probe}
    (h : EndsAfter mode buckets hash isMatch k probe)
    (hresult : probe.result = .vacant p ∨ probe.result = .found p) :
    k < buckets.size ∧ mode.slot buckets.size hash k = p ∧ ¬ Passes buckets hash isMatch p := by
  have hends := h.ends
  rcases hresult with hresult | hresult
  · rw [hresult] at hends
    obtain ⟨hlt, hslot, hempty⟩ := hends
    refine ⟨hlt, hslot, fun hpass ↦ ?_⟩
    rw [Passes, hempty] at hpass
    exact absurd hpass.1 Bool.noConfusion
  · rw [hresult] at hends
    obtain ⟨hlt, hslot, hhash, hmatch⟩ := hends
    refine ⟨hlt, hslot, fun hpass ↦ ?_⟩
    rw [hpass.2 hhash] at hmatch
    cases hmatch

/-- A search ends at the first bucket visited that it does not pass. -/
theorem EndsAfter.eq_of_not_passes {j k : Nat} {probe : Probe}
    (h : EndsAfter mode buckets hash isMatch k probe) (hj : j < buckets.size)
    (hpassed : PassesUntil mode buckets hash isMatch j)
    (hstops : ¬ Passes buckets hash isMatch (mode.slot buckets.size hash j)) :
    k = j ∧ probe.result ≠ .exhausted := by
  have hle : k ≤ j := by
    by_contra hlt
    exact hstops (h.passes j (by omega))
  have hended : probe.result ≠ .exhausted := by
    intro hresult
    have hends := h.ends
    rw [hresult] at hends
    omega
  refine ⟨le_antisymm hle ?_, hended⟩
  by_contra hlt
  have hpass := hpassed k (by omega)
  cases hresult : probe.result with
  | exhausted => exact hended hresult
  | vacant p =>
    obtain ⟨-, hslot, hnot⟩ := h.not_passes (Or.inl hresult)
    exact hnot (hslot ▸ hpass)
  | found p =>
    obtain ⟨-, hslot, hnot⟩ := h.not_passes (Or.inr hresult)
    exact hnot (hslot ▸ hpass)

theorem EndsAfter.vacant_iff {k p : Nat} {probe : Probe}
    (h : EndsAfter mode buckets hash isMatch k probe) : probe.result = .vacant p ↔
      ∃ j < buckets.size, mode.slot buckets.size hash j = p ∧
        PassesUntil mode buckets hash isMatch j ∧ bucketAt buckets p = .empty := by
  have hends := h.ends
  constructor
  · intro hresult
    rw [hresult] at hends
    exact ⟨k, hends.1, hends.2.1, h.passes, hends.2.2⟩
  · rintro ⟨j, hj, rfl, hpassed, hempty⟩
    have hstops : ¬ Passes buckets hash isMatch (mode.slot buckets.size hash j) := by
      rw [Passes, hempty]
      exact fun hpass ↦ Bool.false_ne_true hpass.1
    obtain ⟨rfl, hended⟩ := h.eq_of_not_passes hj hpassed hstops
    cases hresult : probe.result with
    | exhausted => exact absurd hresult hended
    | vacant q =>
      rw [hresult] at hends
      rw [hends.2.1]
    | found q =>
      rw [hresult] at hends
      obtain ⟨-, rfl, hhash, -⟩ := hends
      rw [hempty] at hhash
      cases hhash

theorem EndsAfter.found_iff {k p : Nat} {probe : Probe}
    (h : EndsAfter mode buckets hash isMatch k probe) : probe.result = .found p ↔
      ∃ j < buckets.size, mode.slot buckets.size hash j = p ∧
        PassesUntil mode buckets hash isMatch j ∧ (bucketAt buckets p).hash? = some hash ∧
          isMatch (bucketAt buckets p) = true := by
  have hends := h.ends
  constructor
  · intro hresult
    rw [hresult] at hends
    exact ⟨k, hends.1, hends.2.1, h.passes, hends.2.2⟩
  · rintro ⟨j, hj, rfl, hpassed, hhash, hmatch⟩
    have hstops : ¬ Passes buckets hash isMatch (mode.slot buckets.size hash j) := by
      intro hpass
      rw [hpass.2 hhash] at hmatch
      cases hmatch
    obtain ⟨rfl, hended⟩ := h.eq_of_not_passes hj hpassed hstops
    cases hresult : probe.result with
    | exhausted => exact absurd hresult hended
    | vacant q =>
      rw [hresult] at hends
      obtain ⟨-, rfl, hempty⟩ := hends
      rw [hempty] at hhash
      cases hhash
    | found q =>
      rw [hresult] at hends
      rw [hends.2.1]

/-- A search is exhausted when it would pass every bucket of the table. -/
theorem EndsAfter.exhausted_iff {k : Nat} {probe : Probe}
    (h : EndsAfter mode buckets hash isMatch k probe)
    (hsize : PowerOfTwo.IsPower buckets.size) :
    probe.result = .exhausted ↔ ∀ p < buckets.size, Passes buckets hash isMatch p := by
  constructor
  · intro hresult p hp
    have hends := h.ends
    rw [hresult] at hends
    obtain ⟨j, hj, rfl⟩ := ProbingMode.exists_slot_eq hsize mode hash hp
    exact h.passes j (hends ▸ hj)
  · intro hall
    cases hresult : probe.result with
    | exhausted => rfl
    | vacant p =>
      obtain ⟨hlt, hslot, hnot⟩ := h.not_passes (Or.inl hresult)
      exact absurd (hall p (hslot ▸ ProbingMode.slot_lt (by omega) mode hash k)) hnot
    | found p =>
      obtain ⟨hlt, hslot, hnot⟩ := h.not_passes (Or.inr hresult)
      exact absurd (hall p (hslot ▸ ProbingMode.slot_lt (by omega) mode hash k)) hnot

/-- What an answer says of the buckets on the way determines it. -/
theorem answers_iff {result : ProbeResult} :
    Answers mode buckets hash isMatch result ↔ (run mode buckets hash isMatch).result = result := by
  obtain ⟨k, hk⟩ := exists_run_endsAfter mode buckets hash isMatch
  cases result with
  | vacant p => exact hk.vacant_iff.symm
  | found p => exact hk.found_iff.symm
  | exhausted =>
    constructor
    · intro hpassed
      cases hresult : (run mode buckets hash isMatch).result with
      | exhausted => rfl
      | vacant p =>
        obtain ⟨hlt, hslot, hnot⟩ := hk.not_passes (Or.inl hresult)
        exact absurd (hslot ▸ hpassed k hlt) hnot
      | found p =>
        obtain ⟨hlt, hslot, hnot⟩ := hk.not_passes (Or.inr hresult)
        exact absurd (hslot ▸ hpassed k hlt) hnot
    · intro hresult
      have hends := hk.ends
      rw [hresult] at hends
      obtain rfl : k = buckets.size := hends
      exact hk.passes

theorem answers_unique {result result' : ProbeResult}
    (h : Answers mode buckets hash isMatch result)
    (h' : Answers mode buckets hash isMatch result') : result = result' := by
  rw [← answers_iff.mp h, ← answers_iff.mp h']

theorem answers_exhausted_iff (hsize : PowerOfTwo.IsPower buckets.size) :
    Answers mode buckets hash isMatch .exhausted ↔
      ∀ p < buckets.size, Passes buckets hash isMatch p := by
  obtain ⟨k, hk⟩ := exists_run_endsAfter mode buckets hash isMatch
  rw [answers_iff, hk.exhausted_iff hsize]

/-- In a table whose size is a power of two the places visited in as many steps as there are
buckets are all places, each once. The search answers the first of them whose bucket is empty, or
has the hash and is accepted, and is exhausted if every bucket is filled and none is both. It counts
itself, the place of its answer in the order of the visits, and the buckets before that with the
hash. -/
theorem run_exact (hsize : PowerOfTwo.IsPower buckets.size) (mode : ProbingMode) (hash : UInt32)
    (isMatch : Bucket → Bool) (counts : ProbeCounts) :
    let visit := mode.visit buckets.size hash
    let result := (run mode buckets hash isMatch).result
    let counted := counts.add (run mode buckets hash isMatch)
    (∀ j < buckets.size, ∀ k < buckets.size, visit j = visit k → j = k) ∧
      (∀ p, p < buckets.size ↔ ∃ k < buckets.size, visit k = p) ∧
      (∀ p, result = .vacant p ↔ ∃ k < buckets.size, visit k = p ∧
        (∀ j < k, Passes buckets hash isMatch (visit j)) ∧ bucketAt buckets p = .empty) ∧
      (∀ p, result = .found p ↔ ∃ k < buckets.size, visit k = p ∧
        (∀ j < k, Passes buckets hash isMatch (visit j)) ∧
          (bucketAt buckets p).hash? = some hash ∧ isMatch (bucketAt buckets p) = true) ∧
      (result = .exhausted ↔ ∀ p < buckets.size, (bucketAt buckets p).isFilled = true ∧
        ((bucketAt buckets p).hash? = some hash → isMatch (bucketAt buckets p) = false)) ∧
      ∃ k, (∀ p, result = .vacant p ∨ result = .found p → k < buckets.size ∧ visit k = p) ∧
        (result = .exhausted → k = buckets.size) ∧
        counted.probes = counts.probes + 1 ∧ counted.travel = counts.travel + k ∧
        counted.collisions = counts.collisions + (List.range k).countP fun j ↦
          (bucketAt buckets (visit j)).hash? == some hash := by
  obtain ⟨k, hk⟩ := exists_run_endsAfter mode buckets hash isMatch
  have hvisit : mode.visit buckets.size hash = mode.slot buckets.size hash :=
    funext (ProbingMode.visit_eq_slot hsize mode hash)
  simp only [hvisit]
  refine ⟨fun j hj k hk ↦ ProbingMode.slot_injOn hsize mode hash hj hk, fun p ↦ ⟨?_, ?_⟩,
    fun p ↦ hk.vacant_iff, fun p ↦ hk.found_iff, hk.exhausted_iff hsize, k, fun p hresult ↦ ?_,
    fun hresult ↦ ?_, rfl, ?_, ?_⟩
  · exact ProbingMode.exists_slot_eq hsize mode hash
  · rintro ⟨j, hj, rfl⟩
    exact ProbingMode.slot_lt (by omega) mode hash j
  · obtain ⟨hlt, hslot, -⟩ := hk.not_passes hresult
    exact ⟨hlt, hslot⟩
  · have hends := hk.ends
    rw [hresult] at hends
    exact hends
  · rw [ProbeCounts.add, hk.travel_eq]
  · rw [ProbeCounts.add, hk.collisions_eq]
    rfl

/-- Two buckets with the hash that is looked for, neither of them accepted, before an empty one. -/
theorem run_exact_quadratic :
    let row := RowRef.indexed ⟨0, 0⟩
    let buckets : Array Bucket := #[.empty, .inline 5 false row, .inline 5 true row, .empty]
    PowerOfTwo.IsPower buckets.size ∧
      (run .quadratic buckets 5 fun _ ↦ false).result = .vacant 0 ∧
      ProbeCounts.zero.add (run .quadratic buckets 5 fun _ ↦ false) = ⟨1, 2, 2⟩ := by
  intro row buckets
  have hsize : PowerOfTwo.IsPower buckets.size := by decide
  obtain ⟨hinj, -, hvacant, -, -, k, hends, -, hprobes, htravel, hcollisions⟩ :=
    run_exact hsize .quadratic 5 (fun _ ↦ false) ProbeCounts.zero
  have hresult : (run .quadratic buckets 5 fun _ ↦ false).result = .vacant 0 :=
    (hvacant 0).mpr ⟨2, by decide, by decide, by decide, by decide⟩
  obtain ⟨hlt, hvisit⟩ := hends 0 (Or.inl hresult)
  obtain rfl : k = 2 := hinj k hlt 2 (by decide) (hvisit.trans (by decide))
  refine ⟨hsize, hresult, ?_⟩
  rw [ProbeCounts.mk.injEq]
  exact ⟨hprobes, hcollisions.trans (by decide), htravel⟩

end Probe

end JoinIndex
