import JoinIndex.Proofs.Hash.XxHash32
import JoinIndex.Proofs.Key.Histories

/-!
The seeds of the levels. Each seed is an affine function of the first one, so that two levels share
a seed for the solutions of a congruence modulo `2 ^ 32` and for no other first seed. Levels an odd
number apart never do, because the seeds are odd and even in turn. Levels an even number apart may:
of all first seeds `clashes` lists those under which two levels share one, 118 for the seventeen
levels that use no multiplier twice.

From level 1 on, levels that share a seed hash every key alike, and others hash every key apart
whose components are short.

There is room for the seeds of fewer than `2 ^ 61` levels. A context for more levels cannot be made.
-/

set_option autoImplicit false
set_option relaxedAutoImplicit false

namespace JoinIndex

namespace Hash.Seeds

open scoped UInt32.CommRing

/-! ### Affine functions -/

/-- The seed of a level. -/
def seedAt (initial : UInt32) : ℕ → UInt32
  | 0 => initial
  | level + 1 => seedAt initial level * multiplier level + increment

theorem listFrom_eq (initial : UInt32) (level count : ℕ) :
    listFrom level (seedAt initial level) count =
      (List.range count).map fun k ↦ seedAt initial (level + k) := by
  induction count generalizing level with
  | zero => rfl
  | succ count ih =>
    have hrest := ih (level + 1)
    rw [seedAt] at hrest
    rw [listFrom, hrest, List.range_succ_eq_map, List.map_cons, List.map_map]
    refine congrArg₂ List.cons rfl (List.map_congr_left fun k _ ↦ ?_)
    rw [Function.comp_apply, Nat.succ_eq_add_one, Nat.add_right_comm, Nat.add_assoc]

theorem values_new (initial : UInt32) (levels : ℕ) :
    (new initial levels).values = (List.range (max levels 1)).map (seedAt initial) := by
  have hlist := listFrom_eq initial 0 (max levels 1)
  simp only [Nat.zero_add] at hlist
  exact hlist

theorem length_new (initial : UInt32) (levels : ℕ) :
    (new initial levels).length = max levels 1 := by
  rw [length, values_new, List.length_map, List.length_range]

theorem get?_new {initial : UInt32} {levels level : ℕ}
    (h : level < (new initial levels).length) :
    (new initial levels).get? level = some (seedAt initial level) := by
  rw [length_new] at h
  rw [get?, values_new, List.getElem?_map, List.getElem?_range h, Option.map_some]

/-- What the first seed is multiplied by up to a level. -/
def slope : ℕ → UInt32
  | 0 => 1
  | level + 1 => slope level * multiplier level

/-- The seed of a level under the first seed 0. -/
def offset : ℕ → UInt32
  | 0 => 0
  | level + 1 => offset level * multiplier level + increment

theorem seedAt_eq (initial : UInt32) (level : ℕ) :
    seedAt initial level = slope level * initial + offset level := by
  induction level with
  | zero => exact (by ring : initial = 1 * initial + 0)
  | succ level ih =>
    rw [seedAt, slope, offset, ih]
    ring

/-! ### Odd and even seeds -/

theorem multiplier_odd (level : ℕ) : (multiplier level).toNat % 2 = 1 := by
  have hall : ∀ k < 16, (multipliers.getD k 0).toNat % 2 = 1 := by decide
  exact hall _ (Nat.mod_lt _ (by decide))

theorem seedAt_parity (initial : UInt32) (level : ℕ) :
    (seedAt initial level).toNat % 2 = (initial.toNat + level) % 2 := by
  induction level with
  | zero => rfl
  | succ level ih =>
    have hodd := multiplier_odd level
    have hincrement : increment.toNat % 2 = 1 := by decide
    rw [seedAt, UInt32.toNat_add, UInt32.toNat_mul, Nat.mod_mod_of_dvd _ (by decide : 2 ∣ 2 ^ 32),
      Nat.add_mod, Nat.mod_mod_of_dvd _ (by decide : 2 ∣ 2 ^ 32), Nat.mul_mod, hodd, ih, hincrement]
    omega

theorem seedAt_ne_of_parity {initial : UInt32} {i j : ℕ} (h : i % 2 ≠ j % 2) :
    seedAt initial i ≠ seedAt initial j := by
  intro heq
  have hi := seedAt_parity initial i
  have hj := seedAt_parity initial j
  rw [heq] at hi
  omega

/-! ### First seeds under which levels clash -/

/-- The solutions below `2 ^ bits` of a linear congruence modulo `2 ^ bits`. Each is a solution with
one bit less, with that bit or without it. -/
def roots (a b : ℕ) : ℕ → List ℕ
  | 0 => [0]
  | bits + 1 => ((roots a b bits).flatMap fun x ↦ [x, x + 2 ^ bits]).filter fun x ↦
      2 ^ (bits + 1) ∣ a * x + b

theorem mem_roots {a b bits x : ℕ} :
    x ∈ roots a b bits ↔ x < 2 ^ bits ∧ 2 ^ bits ∣ a * x + b := by
  induction bits generalizing x with
  | zero => simp [roots]
  | succ bits ih =>
    rw [roots, List.mem_filter, decide_eq_true_iff, List.mem_flatMap]
    refine and_congr_left fun hroot ↦ ?_
    have hpow : 2 ^ (bits + 1) = 2 ^ bits + 2 ^ bits := by omega
    have hlower : 2 ^ bits ∣ a * x + b := (pow_dvd_pow 2 (Nat.le_succ bits)).trans hroot
    constructor
    · rintro ⟨y, hy, hx⟩
      have hlt := (ih.mp hy).1
      rw [List.mem_pair] at hx
      omega
    · intro hlt
      by_cases hbit : x < 2 ^ bits
      · exact ⟨x, ih.mpr ⟨hbit, hlower⟩, List.mem_cons_self⟩
      · refine ⟨x - 2 ^ bits, ih.mpr ⟨by omega, ?_⟩, ?_⟩
        · have hsplit : a * x + b = a * (x - 2 ^ bits) + b + a * 2 ^ bits := by
            rw [Nat.add_right_comm, ← Nat.mul_add, Nat.sub_add_cancel (Nat.le_of_not_lt hbit)]
          rw [hsplit] at hlower
          exact (Nat.dvd_add_iff_left (Nat.dvd_mul_left _ _)).mpr hlower
        · rw [List.mem_pair]
          omega

/-- The first seeds under which two levels share a seed. -/
def sharers (i j : ℕ) : List ℕ :=
  roots (slope j - slope i).toNat (offset j - offset i).toNat 32

theorem mem_sharers {initial : UInt32} {i j : ℕ} :
    initial.toNat ∈ sharers i j ↔ seedAt initial i = seedAt initial j := by
  have hzero : ∀ a b : UInt32, a * initial + b = 0 ↔
      2 ^ 32 ∣ a.toNat * initial.toNat + b.toNat := by
    intro a b
    rw [← UInt32.toNat_inj, UInt32.toNat_add, UInt32.toNat_mul, Nat.mod_add_mod,
      Nat.dvd_iff_mod_eq_zero]
    rfl
  rw [sharers, mem_roots, ← hzero, seedAt_eq, seedAt_eq, and_iff_right initial.toNat_lt]
  constructor
  · intro h
    linear_combination -h
  · intro h
    linear_combination -h

/-- The first seeds under which two of some levels share a seed. -/
def clashes (levels : ℕ) : List ℕ :=
  (List.range levels).flatMap fun j ↦ (List.range j).flatMap fun i ↦ sharers i j

theorem mem_clashes {initial : UInt32} {levels : ℕ} :
    initial.toNat ∈ clashes levels ↔
      ∃ i j, i < j ∧ j < levels ∧ seedAt initial i = seedAt initial j := by
  simp only [clashes, List.mem_flatMap, List.mem_range, mem_sharers]
  constructor
  · rintro ⟨j, hj, i, hi, h⟩
    exact ⟨i, j, hi, hj, h⟩
  · rintro ⟨i, j, hi, hj, h⟩
    exact ⟨j, hj, i, hi, h⟩

theorem clashes_subset {levels more : ℕ} (h : levels ≤ more) : clashes levels ⊆ clashes more := by
  intro x hx
  obtain ⟨j, hj, hx⟩ := List.mem_flatMap.mp hx
  exact List.mem_flatMap.mpr
    ⟨j, List.mem_range.mpr ((List.mem_range.mp hj).trans_le h), hx⟩

theorem nodup_values_new_iff {initial : UInt32} {levels : ℕ} :
    (new initial levels).values.Nodup ↔ initial.toNat ∉ clashes (max levels 1) := by
  rw [values_new, mem_clashes, List.Nodup, List.pairwise_map, List.pairwise_iff_getElem]
  simp only [List.getElem_range, List.length_range]
  constructor
  · rintro h ⟨i, j, hij, hj, heq⟩
    exact h i j (hij.trans hj) hj hij heq
  · intro h i j _ hj hij heq
    exact h ⟨i, j, hij, hj, heq⟩

theorem length_clashes : (clashes 17).Nodup ∧ (clashes 17).length = 118 := by
  decide +kernel

theorem get?_new_ne_of_parity {initial : UInt32} {levels i j : ℕ}
    (hi : i < (new initial levels).length) (hj : j < (new initial levels).length)
    (h : i % 2 ≠ j % 2) : (new initial levels).get? i ≠ (new initial levels).get? j := by
  rw [get?_new hi, get?_new hj, Ne, Option.some.injEq]
  exact seedAt_ne_of_parity h

/-! ### Room for the seeds -/

theorem create_eq_ok (initial : UInt32) {levels : ℕ} (h : levels < 2 ^ 61) :
    create initial levels = .ok (new initial levels) := by
  have hbytes : max levels 1 * seedBytes ≤ maxSequenceBytes := by
    rw [seedBytes, maxSequenceBytes]
    omega
  rw [create, if_pos hbytes]

theorem create_eq_error (initial : UInt32) {levels : ℕ} (h : 2 ^ 61 ≤ levels) :
    create initial levels = .error .capacityOverflow := by
  have hbytes : ¬ max levels 1 * seedBytes ≤ maxSequenceBytes := by
    rw [seedBytes, maxSequenceBytes]
    omega
  rw [create, if_neg hbytes]

end Hash.Seeds

namespace KeyContext

open Hash

variable {seeds : Seeds} {i j : ℕ} {config : Config} {buildExprs probeExprs : List KeyExpr}

/-! ### Contexts that are made -/

/-- Where there is room for the seeds, nothing faults. -/
theorem create_eq_ok (hlevels : config.levels < 2 ^ 61) :
    create config buildExprs probeExprs = .ok (ofConfig config buildExprs probeExprs) := by
  rw [create, ofConfig, Config.createSeeds, Seeds.create_eq_ok _ hlevels]
  cases checkExprs config buildExprs probeExprs <;> rfl

/-- Where there is none, no context is made for expressions that pass all checks. -/
theorem create_eq_error (hlevels : 2 ^ 61 ≤ config.levels)
    (hchecked : checkExprs config buildExprs probeExprs = .ok ()) :
    create config buildExprs probeExprs = .error .capacityOverflow := by
  rw [create, hchecked, Config.createSeeds, Seeds.create_eq_error _ hlevels]
  rfl

/-! ### Hashes of deeper levels -/

theorem hashAt_eq_foldl {level : ℕ} (hlevel : 1 ≤ level) (key : List Value) :
    hashAt seeds level key =
      key.foldl (fun hash v ↦ XxHash32.hash hash v.keyBytes) ((seeds.get? level).getD 0) := by
  have hfun : Hash.hashBytes level = XxHash32.hash := by
    funext seed bytes
    exact if_neg (Nat.ne_of_gt hlevel)
  rw [hashAt, hfun]

/-- Levels that share a seed hash every key alike. -/
theorem hashAt_eq_of_get?_eq (hi : 1 ≤ i) (hj : 1 ≤ j) (hseed : seeds.get? i = seeds.get? j)
    (key : List Value) : hashAt seeds i key = hashAt seeds j key := by
  rw [hashAt_eq_foldl hi, hashAt_eq_foldl hj, hseed]

theorem foldl_hash_injective {key : List Value} (hkey : ∀ v ∈ key, v.keyBytes.length < 16) :
    Function.Injective fun seed : UInt32 ↦
      key.foldl (fun hash v ↦ XxHash32.hash hash v.keyBytes) seed := by
  induction key with
  | nil => exact fun _ _ h ↦ h
  | cons v key ih =>
    exact (ih fun w hw ↦ hkey w (List.mem_cons_of_mem _ hw)).comp
      (XxHash32.hash_injective_seed (hkey v List.mem_cons_self))

/-- Levels with different seeds hash every key apart that has short components only. -/
theorem hashAt_ne_of_get?_ne (hi : 1 ≤ i) (hj : 1 ≤ j) (hin : i < seeds.length)
    (hjn : j < seeds.length) (hseed : seeds.get? i ≠ seeds.get? j) {key : List Value}
    (hkey : ∀ v ∈ key, v.keyBytes.length < 16) : hashAt seeds i key ≠ hashAt seeds j key := by
  have hgi : seeds.get? i = some seeds.values[i] := List.getElem?_eq_getElem hin
  have hgj : seeds.get? j = some seeds.values[j] := List.getElem?_eq_getElem hjn
  rw [hashAt_eq_foldl hi, hashAt_eq_foldl hj]
  intro h
  have hvalue := foldl_hash_injective hkey h
  rw [hgi, hgj, Option.getD_some, Option.getD_some] at hvalue
  exact hseed (by rw [hgi, hgj, hvalue])

/-- The seeds of some levels are different for all first seeds but those listed by `clashes`, of
which there are 118 among the `2 ^ 32` for up to seventeen levels; levels an odd number apart have
different seeds in any case. From level 1 on, two levels hash every key alike if and only if they
share a seed, and if they do not, they hash every key apart whose components are written by fewer
bytes than a stripe. -/
theorem seeds_nodup_iff (initial : UInt32) (levels : ℕ) :
    let seeds := Seeds.new initial levels
    (seeds.values.Nodup ↔ initial.toNat ∉ Seeds.clashes (max levels 1)) ∧
    ((Seeds.clashes 17).Nodup ∧ (Seeds.clashes 17).length = 118) ∧
    (levels ≤ 17 → initial.toNat ∉ Seeds.clashes 17 → seeds.values.Nodup) ∧
    (∀ i < seeds.length, ∀ j < seeds.length, i % 2 ≠ j % 2 → seeds.get? i ≠ seeds.get? j) ∧
    ∀ i < seeds.length, ∀ j < seeds.length, 1 ≤ i → 1 ≤ j →
      ((∀ key ≠ [], hashAt seeds i key = hashAt seeds j key) ↔ seeds.get? i = seeds.get? j) ∧
      (seeds.get? i ≠ seeds.get? j → ∀ key : List Value,
        (∀ v ∈ key, v.keyBytes.length < 16) → hashAt seeds i key ≠ hashAt seeds j key) := by
  refine ⟨Seeds.nodup_values_new_iff, Seeds.length_clashes, fun hlevels hinitial ↦ ?_,
    fun i hi j hj ↦ Seeds.get?_new_ne_of_parity hi hj, fun i hi j hj hi' hj' ↦
      ⟨⟨fun hkeys ↦ ?_, fun hseed key _ ↦ hashAt_eq_of_get?_eq hi' hj' hseed key⟩, fun hne key ↦
        hashAt_ne_of_get?_ne hi' hj' hi hj hne⟩⟩
  · refine Seeds.nodup_values_new_iff.mpr fun hclash ↦ hinitial ?_
    exact Seeds.clashes_subset (max_le hlevels (by decide)) hclash
  · by_contra hne
    exact hashAt_ne_of_get?_ne hi' hj' hi hj hne (by decide) (hkeys [.null] (by decide))

/-- The standard first seed gives seventeen different seeds. -/
theorem seeds_nodup_iff_standard :
    (1 : UInt32).toNat ∉ Seeds.clashes 17 ∧ (Seeds.new 1 17).values.Nodup ∧
      hashAt (Seeds.new 1 17) 2 [.int64 7, .null] ≠
        hashAt (Seeds.new 1 17) 16 [.int64 7, .null] := by
  have hclash : (1 : UInt32).toNat ∉ Seeds.clashes 17 := by decide +kernel
  obtain ⟨-, -, hnodup, -, hlevels⟩ := seeds_nodup_iff 1 17
  obtain ⟨-, hapart⟩ := hlevels 2 (by decide) 16 (by decide) (by decide) (by decide)
  exact ⟨hclash, hnodup (le_refl 17) hclash, hapart (by decide) _ (by decide)⟩

/-- Under one first seed the levels 0 and 2 share a seed, and under another one the levels 1 and 3
do, which hash every key alike. -/
theorem seeds_clash :
    (¬ ∀ (initial : UInt32) (levels : ℕ), levels ≤ 17 → (Seeds.new initial levels).values.Nodup) ∧
      (Seeds.new 62460144 3).values = [62460144, 3632978025, 62460144] ∧
      (Seeds.new 237202728 4).values = [237202728, 2075644545, 2068067800, 2075644545] ∧
      ∀ key, hashAt (Seeds.new 237202728 4) 1 key = hashAt (Seeds.new 237202728 4) 3 key := by
  refine ⟨fun h ↦ ?_, by decide, by decide,
    hashAt_eq_of_get?_eq (by decide) (by decide) (by decide)⟩
  exact absurd (h 62460144 3 (by decide)) (by decide)

end KeyContext

end JoinIndex
