import JoinIndex.Proofs.Table.Soundness

/-!
How many buckets it takes to fill a given number of them within three quarters. There are two
computations of it: the closed form of `estimateBuckets`, in which the count of rows times four
stops at the largest word, and the doublings of `roomyCount?`. They agree on every table, also on
one that is fuller than three quarters, and as long as the largest table has room.
-/

set_option autoImplicit false
set_option relaxedAutoImplicit false

namespace JoinIndex.Table

variable {t : Table}

theorem withinFill_iff {filled size : Nat} :
    withinFill filled size = true ↔ 4 * filled ≤ 3 * size := by
  rw [withinFill, decide_eq_true_iff]

/-! ### The estimate -/

/-- A power of two is enough for the estimate when three quarters of it are enough for the rows.
Where the product with four stops at the largest word, no such power is enough for either. -/
theorem estimateBuckets_le_iff {rows k : Nat} (hk : k ≤ 62) :
    estimateBuckets rows ≤ 2 ^ k ↔ 4 * rows ≤ 3 * 2 ^ k := by
  have hrange : Budget.wordRange = 2 ^ 64 := rfl
  have hle : 2 ^ k ≤ 2 ^ 62 := Nat.pow_le_pow_right (by decide) hk
  have hpos : 1 ≤ 2 ^ k := Nat.one_le_two_pow
  rw [estimateBuckets, PowerOfTwo.ceil_le_two_pow_iff, hrange]
  generalize 2 ^ k = size at hle hpos
  omega

theorem exists_estimateBuckets_eq (rows : Nat) : ∃ k, estimateBuckets rows = 2 ^ k :=
  PowerOfTwo.isPower_iff.mp (PowerOfTwo.isPower_ceil _)

/-- No estimate is past the largest power of two of a 64-bit word. -/
theorem estimateBuckets_le (rows : Nat) : estimateBuckets rows ≤ 2 ^ 63 := by
  have hrange : Budget.wordRange = 2 ^ 64 := rfl
  refine PowerOfTwo.ceil_le ?_
  rw [hrange]
  omega

theorem estimateBuckets_mono {rows more : Nat} (h : rows ≤ more) :
    estimateBuckets rows ≤ estimateBuckets more := by
  refine PowerOfTwo.ceil_mono ?_
  have hproduct : min (4 * rows) (Budget.wordRange - 1) ≤ min (4 * more) (Budget.wordRange - 1) :=
    min_le_min_right _ (Nat.mul_le_mul_left 4 h)
  omega

/-- The estimate has room for the rows as long as the largest power of two of a word has it. -/
theorem four_mul_le_estimateBuckets {rows : Nat} (h : rows ≤ 3 * 2 ^ 61) :
    4 * rows ≤ 3 * estimateBuckets rows := by
  obtain ⟨k, hk⟩ := exists_estimateBuckets_eq rows
  rw [hk]
  by_cases hle : k ≤ 62
  · exact (estimateBuckets_le_iff hle).mp hk.le
  · have hlarge : 2 ^ 63 ≤ 2 ^ k := Nat.pow_le_pow_right (by decide) (by omega)
    omega

theorem isLeast_estimateBuckets {rows : Nat} (h : rows ≤ 3 * 2 ^ 61) :
    IsLeast {size | PowerOfTwo.IsPower size ∧ 4 * rows ≤ 3 * size} (estimateBuckets rows) := by
  refine ⟨⟨PowerOfTwo.isPower_ceil _, four_mul_le_estimateBuckets h⟩, ?_⟩
  rintro size ⟨hpower, hroom⟩
  obtain ⟨k, rfl⟩ := PowerOfTwo.isPower_iff.mp hpower
  by_cases hle : k ≤ 62
  · exact (estimateBuckets_le_iff hle).mpr hroom
  · exact (estimateBuckets_le rows).trans (Nat.pow_le_pow_right (by decide) (by omega))

/-- Some power of two of a word has room for the rows if and only if the largest one has. -/
theorem exists_isPower_roomy_iff {rows : Nat} :
    (∃ size ≤ 2 ^ 63, PowerOfTwo.IsPower size ∧ 4 * rows ≤ 3 * size) ↔ rows ≤ 3 * 2 ^ 61 := by
  constructor
  · rintro ⟨size, hle, -, hroom⟩
    omega
  · intro h
    exact ⟨2 ^ 63, le_refl _, PowerOfTwo.isPower_two_pow 63, by omega⟩

/-- Below the capacity of the largest table the estimate is the least power of two with room. -/
theorem estimateBuckets_le_maxBuckets_iff {rows : Nat} :
    estimateBuckets rows ≤ Config.maxBuckets ↔ 4 * rows ≤ 3 * Config.maxBuckets :=
  estimateBuckets_le_iff (k := 30) (by decide)

/-! ### Doubling -/

/-- The doublings arrive at the estimate, unless there was room from the start or they end before
there is room. -/
theorem roomyCount?_two_pow {filled k doublings : Nat} (h : k + doublings ≤ 61) :
    roomyCount? filled (2 ^ k) doublings =
      if 4 * filled ≤ 3 * 2 ^ (k + doublings) then
        some (max (2 ^ k) (estimateBuckets filled))
      else none := by
  have hstays : 4 * filled ≤ 3 * 2 ^ k → max (2 ^ k) (estimateBuckets filled) = 2 ^ k :=
    fun hroom ↦ max_eq_left ((estimateBuckets_le_iff (by omega)).mpr hroom)
  induction doublings generalizing k with
  | zero =>
    rw [roomyCount?, Nat.add_zero]
    by_cases hroom : 4 * filled ≤ 3 * 2 ^ k
    · rw [if_pos (withinFill_iff.mpr hroom), if_pos hroom, hstays hroom]
    · rw [if_neg (mt withinFill_iff.mp hroom), if_neg hroom]
  | succ doublings ih =>
    rw [roomyCount?]
    by_cases hroom : 4 * filled ≤ 3 * 2 ^ k
    · have hlater : 2 ^ k ≤ 2 ^ (k + (doublings + 1)) :=
        Nat.pow_le_pow_right (by decide) (Nat.le_add_right _ _)
      rw [if_pos (withinFill_iff.mpr hroom), if_pos (by omega), hstays hroom]
    · -- The estimate is a larger power of two, so that it is not below the doubled count either.
      have hmore : max (2 ^ (k + 1)) (estimateBuckets filled) =
          max (2 ^ k) (estimateBuckets filled) := by
        obtain ⟨e, he⟩ := exists_estimateBuckets_eq filled
        rw [← estimateBuckets_le_iff (by omega : k ≤ 62), he, not_le,
          Nat.pow_lt_pow_iff_right (by decide)] at hroom
        rw [he, max_eq_right (Nat.pow_le_pow_right (by decide) hroom),
          max_eq_right (Nat.pow_le_pow_right (by decide) hroom.le)]
      have hstep := ih (k := k + 1) (by omega)
        fun hroom ↦ max_eq_left ((estimateBuckets_le_iff (by omega)).mpr hroom)
      rw [if_neg (mt withinFill_iff.mp hroom), ← pow_succ', hstep, hmore,
        Nat.add_right_comm k 1 doublings]
      rfl

/-- The bucket count that room for `needed` filled buckets is made with. -/
def roomTarget (t : Table) (needed : Nat) : Nat :=
  max t.buckets.size (estimateBuckets needed)

/-- A table can have the target's buckets, and they have room. -/
theorem roomTarget_fits (h : t.Sound) {needed : Nat}
    (hneeded : 4 * needed ≤ 3 * Config.maxBuckets) :
    PowerOfTwo.IsPower (t.roomTarget needed) ∧ t.roomTarget needed ≤ Config.maxBuckets ∧
      4 * needed ≤ 3 * t.roomTarget needed := by
  have hestimate := estimateBuckets_le_maxBuckets_iff.mpr hneeded
  obtain ⟨e, he⟩ := exists_estimateBuckets_eq needed
  have he30 : e ≤ 30 := by
    rw [he] at hestimate
    exact (Nat.pow_le_pow_iff_right (by decide)).mp hestimate
  have hroom : 4 * needed ≤ 3 * estimateBuckets needed := by
    rw [he]
    exact (estimateBuckets_le_iff (by omega)).mp he.le
  refine ⟨?_, max_le h.size_le hestimate,
    hroom.trans (Nat.mul_le_mul_left 3 (le_max_right _ _))⟩
  rcases max_choice t.buckets.size (estimateBuckets needed) with hsize | hsize
  · rw [roomTarget, hsize]
    exact h.size_isPower
  · rw [roomTarget, hsize]
    exact PowerOfTwo.isPower_ceil _

/-- Making room is a resize to the estimate, where this is more than the buckets that there are. It
is refused when even the largest table has too few. -/
theorem makeRoom_eq (h : t.Sound) (budget : Budget) (more : Nat) :
    let needed := min (t.filled + more) (Budget.wordRange - 1)
    t.makeRoom budget more =
      if 3 * Config.maxBuckets < 4 * needed then
        .ok ⟨.error (.capacity (.beyondLargest needed Config.maxBuckets)), t, budget⟩
      else if t.roomTarget needed = t.buckets.size then .ok ⟨.ok (), t, budget⟩
      else t.resize budget (t.roomTarget needed) := by
  dsimp only
  rw [makeRoom]
  generalize min (t.filled + more) (Budget.wordRange - 1) = needed
  obtain ⟨k, hk, hsize⟩ := h.exists_size_eq
  have hcount : roomyCount? needed t.buckets.size
      (Config.maxBuckets.log2 - t.buckets.size.log2) =
        if 4 * needed ≤ 3 * Config.maxBuckets then some (t.roomTarget needed) else none := by
    have hlog : Config.maxBuckets.log2 = 30 := by decide
    have hmax : Config.maxBuckets = 2 ^ (k + (30 - k)) := by
      rw [Nat.add_sub_cancel' hk]
      rfl
    rw [roomTarget, hlog, hsize, Nat.log2_two_pow, roomyCount?_two_pow (by omega), hmax]
  rw [hcount]
  by_cases hroom : 4 * needed ≤ 3 * Config.maxBuckets
  · rw [if_pos hroom, if_neg (Nat.not_lt.mpr hroom)]
  · rw [if_neg hroom, if_pos (Nat.lt_of_not_le hroom)]

end JoinIndex.Table
