import JoinIndex.Probe
import JoinIndex.Proofs.PowerOfTwo

/-!
The order in which a search visits the buckets. In a table whose size is a power of two the places
visited in as many steps as there are buckets are distinct, and so they are all of them. For linear
probing this is clear of every size; for quadratic probing it is a fact about triangular numbers
that fails for other sizes.
-/

set_option autoImplicit false
set_option relaxedAutoImplicit false

namespace JoinIndex.ProbingMode

theorem two_mul_offset_quadratic (k : Nat) : 2 * quadratic.offset k = k * (k + 1) :=
  Nat.mul_div_cancel' (Nat.even_mul_succ_self k).two_dvd

theorem slot_lt {n : Nat} (hn : 0 < n) (mode : ProbingMode) (hash : UInt32) (k : Nat) :
    mode.slot n hash k < n :=
  Nat.mod_lt _ hn

/-- Twice the difference of two triangular numbers is a product of two factors whose sum is odd, so
that the factor which is even holds every power of two that the product holds. -/
theorem offset_quadratic_not_modEq {m j k : Nat} (hk : k < 2 ^ m) (hjk : j < k) :
    ¬ quadratic.offset j ≡ quadratic.offset k [MOD 2 ^ m] := by
  intro h
  have hfactors : 2 * (quadratic.offset k - quadratic.offset j) = (k - j) * (k + j + 1) := by
    rw [Nat.mul_sub, two_mul_offset_quadratic, two_mul_offset_quadratic]
    zify [hjk.le, Nat.mul_le_mul hjk.le (Nat.succ_le_succ hjk.le)]
    ring
  have hmono : quadratic.offset j ≤ quadratic.offset k := by
    have h1 := two_mul_offset_quadratic j
    have h2 := two_mul_offset_quadratic k
    have h3 : j * (j + 1) ≤ k * (k + 1) := Nat.mul_le_mul hjk.le (by omega)
    omega
  have hdvd : 2 ^ (m + 1) ∣ (k - j) * (k + j + 1) := by
    rw [← hfactors, pow_succ, mul_comm]
    exact mul_dvd_mul_left 2 ((Nat.modEq_iff_dvd' hmono).mp h)
  rcases Nat.even_or_odd (k - j) with heven | hodd
  · have hodd : Odd (k + j + 1) := by
      obtain ⟨d, hd⟩ := heven
      exact ⟨d + j, by omega⟩
    have hcoprime : Nat.Coprime (2 ^ (m + 1)) (k + j + 1) :=
      Nat.Coprime.pow_left _ (Nat.coprime_two_left.mpr hodd)
    have hle := Nat.le_of_dvd (by omega) (hcoprime.dvd_of_dvd_mul_right hdvd)
    rw [pow_succ] at hle
    omega
  · have hcoprime : Nat.Coprime (2 ^ (m + 1)) (k - j) :=
      Nat.Coprime.pow_left _ (Nat.coprime_two_left.mpr hodd)
    have hle := Nat.le_of_dvd (by omega) (hcoprime.dvd_of_dvd_mul_left hdvd)
    rw [pow_succ] at hle
    omega

theorem offset_linear_not_modEq {n j k : Nat} (hk : k < n) (hjk : j < k) :
    ¬ linear.offset j ≡ linear.offset k [MOD n] := by
  intro h
  have hmod : j % n = k % n := h
  rw [Nat.mod_eq_of_lt (hjk.trans hk), Nat.mod_eq_of_lt hk] at hmod
  omega

theorem slot_ne_of_lt {n j k : Nat} (hn : PowerOfTwo.IsPower n) (mode : ProbingMode)
    (hash : UInt32) (hk : k < n) (hjk : j < k) : mode.slot n hash j ≠ mode.slot n hash k := by
  intro h
  have hoffset : mode.offset j ≡ mode.offset k [MOD n] := Nat.ModEq.add_left_cancel' _ h
  cases mode with
  | linear => exact offset_linear_not_modEq hk hjk hoffset
  | quadratic =>
    obtain ⟨m, rfl⟩ := PowerOfTwo.isPower_iff.mp hn
    exact offset_quadratic_not_modEq hk hjk hoffset

/-- No bucket is visited twice. -/
theorem slot_injOn {n j k : Nat} (hn : PowerOfTwo.IsPower n) (mode : ProbingMode) (hash : UInt32)
    (hj : j < n) (hk : k < n) (h : mode.slot n hash j = mode.slot n hash k) : j = k := by
  rcases Nat.lt_trichotomy j k with hlt | heq | hgt
  · exact absurd h (slot_ne_of_lt hn mode hash hk hlt)
  · exact heq
  · exact absurd h.symm (slot_ne_of_lt hn mode hash hj hgt)

/-- Every bucket is visited. -/
theorem exists_slot_eq {n p : Nat} (hn : PowerOfTwo.IsPower n) (mode : ProbingMode)
    (hash : UInt32) (hp : p < n) : ∃ k < n, mode.slot n hash k = p := by
  let visit : Fin n → Fin n := fun k ↦ ⟨mode.slot n hash k, slot_lt (by omega) mode hash k⟩
  have hinj : Function.Injective visit := by
    intro j k h
    exact Fin.ext (slot_injOn hn mode hash j.isLt k.isLt (congrArg Fin.val h))
  obtain ⟨k, hk⟩ := Finite.injective_iff_surjective.mp hinj ⟨p, hp⟩
  exact ⟨k, k.isLt, congrArg Fin.val hk⟩

end JoinIndex.ProbingMode
