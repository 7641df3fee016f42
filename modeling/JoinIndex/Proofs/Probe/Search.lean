import JoinIndex.Proofs.Bucket.Places
import JoinIndex.Proofs.Probe.Order

/-!
What the answer of a search says of the buckets. A search answers the first bucket on its way that
is empty or that it looks for; it is exhausted only in a table without an empty bucket.

The invariant that makes searches find what was stored is `PathsFilled`: on the way to a filled
bucket there is no empty one. Writing a filled bucket where a search for its hash ended keeps it.
-/

set_option autoImplicit false
set_option relaxedAutoImplicit false

namespace JoinIndex.Probe

variable {mode : ProbingMode} {buckets : Array Bucket} {hash : UInt32} {isMatch : Bucket → Bool}

/-- Holds of the places that a search goes on from: the bucket is filled and not the one that is
looked for. -/
def Passes (buckets : Array Bucket) (hash : UInt32) (isMatch : Bucket → Bool) (p : Nat) : Prop :=
  (bucketAt buckets p).isFilled = true ∧
    ((bucketAt buckets p).hash? = some hash → isMatch (bucketAt buckets p) = false)

/-- A search passes every place that it visits in fewer than `k` steps. -/
def PassesUntil (mode : ProbingMode) (buckets : Array Bucket) (hash : UInt32)
    (isMatch : Bucket → Bool) (k : Nat) : Prop :=
  ∀ j < k, Passes buckets hash isMatch (mode.slot buckets.size hash j)

/-- What an answer says of the buckets on the way. -/
def Answers (mode : ProbingMode) (buckets : Array Bucket) (hash : UInt32)
    (isMatch : Bucket → Bool) : ProbeResult → Prop
  | .found p => ∃ k < buckets.size, mode.slot buckets.size hash k = p ∧
      PassesUntil mode buckets hash isMatch k ∧ (bucketAt buckets p).hash? = some hash ∧
        isMatch (bucketAt buckets p) = true
  | .vacant p => ∃ k < buckets.size, mode.slot buckets.size hash k = p ∧
      PassesUntil mode buckets hash isMatch k ∧ bucketAt buckets p = .empty
  | .exhausted => PassesUntil mode buckets hash isMatch buckets.size

theorem PassesUntil.succ {k : Nat} (h : PassesUntil mode buckets hash isMatch k)
    (hk : Passes buckets hash isMatch (mode.slot buckets.size hash k)) :
    PassesUntil mode buckets hash isMatch (k + 1) := by
  intro j hj
  rcases Nat.lt_succ_iff_lt_or_eq.mp hj with hlt | rfl
  · exact h j hlt
  · exact hk

theorem walk_succ (travel collisions left : Nat) :
    walk mode buckets hash isMatch travel collisions (left + 1) =
      let place := mode.slot buckets.size hash travel
      match (bucketAt buckets place).hash? with
      | none => ⟨.vacant place, travel, collisions⟩
      | some h =>
        if h = hash then
          if isMatch (bucketAt buckets place) then ⟨.found place, travel, collisions⟩
          else walk mode buckets hash isMatch (travel + 1) (collisions + 1) left
        else walk mode buckets hash isMatch (travel + 1) collisions left := rfl

/-- The induction is on the buckets left; the places passed before are the invariant. -/
theorem answers_walk (left travel collisions : Nat) (hsize : travel + left = buckets.size)
    (hpassed : PassesUntil mode buckets hash isMatch travel) :
    Answers mode buckets hash isMatch
      (walk mode buckets hash isMatch travel collisions left).result := by
  induction left generalizing travel collisions with
  | zero =>
    rw [Nat.add_zero] at hsize
    rw [walk, Answers, ← hsize]
    exact hpassed
  | succ left ih =>
    have htravel : travel < buckets.size := by omega
    rw [walk_succ]
    cases hhash : (bucketAt buckets (mode.slot buckets.size hash travel)).hash? with
    | none =>
      simp only [hhash]
      exact ⟨travel, htravel, rfl, hpassed, Bucket.hash?_eq_none_iff.mp hhash⟩
    | some h =>
      have hfilled := Bucket.isFilled_of_hash? hhash
      simp only [hhash]
      split_ifs with heq hmatch
      · exact ⟨travel, htravel, rfl, hpassed, by rw [hhash, heq], hmatch⟩
      · refine ih (travel + 1) (collisions + 1) (by omega) (hpassed.succ ⟨hfilled, fun _ ↦ ?_⟩)
        exact eq_false_of_ne_true hmatch
      · refine ih (travel + 1) collisions (by omega) (hpassed.succ ⟨hfilled, fun h' ↦ ?_⟩)
        rw [hhash, Option.some.injEq] at h'
        exact absurd h' heq

theorem answers_run (mode : ProbingMode) (buckets : Array Bucket) (hash : UInt32)
    (isMatch : Bucket → Bool) :
    Answers mode buckets hash isMatch (run mode buckets hash isMatch).result :=
  answers_walk buckets.size 0 0 (Nat.zero_add _) (fun _ hj ↦ absurd hj (Nat.not_lt_zero _))

/-- A search is not exhausted in a table with an empty bucket. -/
theorem not_answers_exhausted {p : Nat} (hsize : PowerOfTwo.IsPower buckets.size)
    (hp : p < buckets.size) (hempty : bucketAt buckets p = .empty) :
    ¬ Answers mode buckets hash isMatch .exhausted := by
  intro hanswers
  obtain ⟨k, hk, hslot⟩ := ProbingMode.exists_slot_eq hsize mode hash hp
  have hfilled := (hanswers k hk).1
  rw [hslot, hempty] at hfilled
  exact absurd hfilled (by decide)

theorem exists_vacant_of_empty {p : Nat} (hsize : PowerOfTwo.IsPower buckets.size)
    (hp : p < buckets.size) (hempty : bucketAt buckets p = .empty) :
    (run mode buckets hash isMatch).result ≠ .exhausted := by
  intro hexhausted
  have hanswers := answers_run mode buckets hash isMatch
  rw [hexhausted] at hanswers
  exact not_answers_exhausted hsize hp hempty hanswers

theorem not_found_of_no_match {p : Nat} :
    (run mode buckets hash fun _ ↦ false).result ≠ .found p := by
  intro hfound
  have hanswers := answers_run mode buckets hash fun _ ↦ false
  rw [hfound] at hanswers
  obtain ⟨_, _, _, _, _, hmatch⟩ := hanswers
  exact Bool.false_ne_true hmatch

/-- A search for a hash visits this place, and only filled buckets before. -/
def Reaches (mode : ProbingMode) (buckets : Array Bucket) (hash : UInt32) (p : Nat) : Prop :=
  ∃ k < buckets.size, mode.slot buckets.size hash k = p ∧
    ∀ j < k, (bucketAt buckets (mode.slot buckets.size hash j)).isFilled = true

theorem Reaches.lt_size {p : Nat} (h : Reaches mode buckets hash p) : p < buckets.size := by
  obtain ⟨k, hk, hslot, -⟩ := h
  rw [← hslot]
  exact ProbingMode.slot_lt (by omega) mode hash k

/-- No empty bucket stands on the way to a filled one. -/
def PathsFilled (mode : ProbingMode) (buckets : Array Bucket) : Prop :=
  ∀ p hash, (bucketAt buckets p).hash? = some hash → Reaches mode buckets hash p

theorem PassesUntil.reaches {p k : Nat} (h : PassesUntil mode buckets hash isMatch k)
    (hk : k < buckets.size) (hslot : mode.slot buckets.size hash k = p) :
    Reaches mode buckets hash p :=
  ⟨k, hk, hslot, fun j hj ↦ (h j hj).1⟩

theorem Answers.hash?_eq {p : Nat} (h : Answers mode buckets hash isMatch (.found p)) :
    (bucketAt buckets p).hash? = some hash := by
  obtain ⟨_, _, _, _, hhash, _⟩ := h
  exact hhash

theorem Answers.isFilled {p : Nat} (h : Answers mode buckets hash isMatch (.found p)) :
    (bucketAt buckets p).isFilled = true :=
  Bucket.isFilled_of_hash? h.hash?_eq

theorem Answers.eq_empty {p : Nat} (h : Answers mode buckets hash isMatch (.vacant p)) :
    bucketAt buckets p = .empty := by
  obtain ⟨_, _, _, _, hempty⟩ := h
  exact hempty

theorem Answers.reaches {p : Nat} (h : Answers mode buckets hash isMatch (.vacant p)) :
    Reaches mode buckets hash p := by
  obtain ⟨k, hk, hslot, hpassed, _⟩ := h
  exact hpassed.reaches hk hslot

theorem pathsFilled_replicate (mode : ProbingMode) (n : Nat) :
    PathsFilled mode (Array.replicate n .empty) := by
  intro p hash h
  rw [bucketAt_replicate, Bucket.hash?_empty] at h
  cases h

/-- Paths depend on the hashes of the buckets and on nothing else. -/
theorem PathsFilled.congr {buckets' : Array Bucket} (h : PathsFilled mode buckets)
    (hsize : buckets'.size = buckets.size)
    (hhash : ∀ p, (bucketAt buckets' p).hash? = (bucketAt buckets p).hash?) :
    PathsFilled mode buckets' := by
  intro p hash hp
  rw [hhash] at hp
  obtain ⟨k, hk, hslot, hfilled⟩ := h p hash hp
  rw [Reaches, hsize]
  refine ⟨k, hk, hslot, fun j hj ↦ ?_⟩
  obtain ⟨h', hh'⟩ := Bucket.isFilled_iff.mp (hfilled j hj)
  exact Bucket.isFilled_iff.mpr ⟨h', by rw [hhash, hh']⟩

theorem Reaches.setIfInBounds {p q : Nat} {b : Bucket} (h : Reaches mode buckets hash q)
    (hb : b.isFilled = true) : Reaches mode (buckets.setIfInBounds p b) hash q := by
  obtain ⟨k, hk, hslot, hfilled⟩ := h
  rw [Reaches, Array.size_setIfInBounds]
  refine ⟨k, hk, hslot, fun j hj ↦ ?_⟩
  have hold := hfilled j hj
  by_cases hp : p < buckets.size
  · rw [bucketAt_setIfInBounds hp]
    split_ifs
    · exact hb
    · exact hold
  · rw [Array.setIfInBounds_eq_of_size_le (by omega)]
    exact hold

/-- A bucket may be written where its hash leads without passing an empty bucket. -/
theorem PathsFilled.setIfInBounds {p : Nat} {b : Bucket} (h : PathsFilled mode buckets)
    (hhash : b.hash? = some hash) (hreaches : Reaches mode buckets hash p) :
    PathsFilled mode (buckets.setIfInBounds p b) := by
  have hb := Bucket.isFilled_of_hash? hhash
  intro q hash' hq
  by_cases hp : p < buckets.size
  · rw [bucketAt_setIfInBounds hp] at hq
    split_ifs at hq with hpq
    · rw [hhash, Option.some.injEq] at hq
      rw [← hpq, ← hq]
      exact hreaches.setIfInBounds hb
    · exact (h q hash' hq).setIfInBounds hb
  · rw [Array.setIfInBounds_eq_of_size_le (by omega)] at hq ⊢
    exact h q hash' hq

/-- A search for the hash of a filled bucket does not pass it if it is the one looked for: the
search ends there or before. -/
theorem PathsFilled.found_of_answers {p : Nat} {result : ProbeResult}
    (h : PathsFilled mode buckets) (hhash : (bucketAt buckets p).hash? = some hash)
    (hmatch : isMatch (bucketAt buckets p) = true)
    (hanswers : Answers mode buckets hash isMatch result) : ∃ q, result = .found q := by
  obtain ⟨k, hk, hslot, hfilled⟩ := h p hash hhash
  have hends : ¬ Passes buckets hash isMatch (mode.slot buckets.size hash k) := by
    rintro ⟨-, hpass⟩
    rw [hslot] at hpass
    exact absurd (hpass hhash) (by simp [hmatch])
  cases result with
  | found q => exact ⟨q, rfl⟩
  | exhausted => exact absurd (hanswers k hk) hends
  | vacant q =>
    obtain ⟨k', -, hslot', hpassed, hempty⟩ := hanswers
    rcases Nat.lt_trichotomy k k' with hlt | heq | hgt
    · exact absurd (hpassed k hlt) hends
    · rw [← heq, hslot] at hslot'
      rw [hslot', hempty, Bucket.hash?_empty] at hhash
      cases hhash
    · have hfull := hfilled k' hgt
      rw [hslot', hempty] at hfull
      exact absurd hfull (by decide)

end JoinIndex.Probe
