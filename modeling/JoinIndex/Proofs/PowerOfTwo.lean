import Mathlib
import JoinIndex.PowerOfTwo

/-!
Powers of two as the numbers `2 ^ k`, and the least of them that is not below a number.
-/

set_option autoImplicit false
set_option relaxedAutoImplicit false

namespace JoinIndex.PowerOfTwo

theorem isPower_two_pow (k : Nat) : IsPower (2 ^ k) := by
  rw [IsPower, Nat.log2_two_pow, Nat.one_shiftLeft]

theorem isPower_iff {n : Nat} : IsPower n ↔ ∃ k, n = 2 ^ k := by
  constructor
  · intro h
    rw [IsPower, Nat.one_shiftLeft] at h
    exact ⟨n.log2, h⟩
  · rintro ⟨k, rfl⟩
    exact isPower_two_pow k

theorem ceil_of_two_le {n : Nat} (h : 2 ≤ n) : ceil n = 2 ^ ((n - 1).log2 + 1) := by
  rw [ceil, if_neg (by omega), Nat.one_shiftLeft]

theorem ceil_of_le_one {n : Nat} (h : n ≤ 1) : ceil n = 1 :=
  if_pos h

theorem isPower_ceil (n : Nat) : IsPower (ceil n) := by
  by_cases h : n ≤ 1
  · rw [ceil_of_le_one h]
    exact isPower_two_pow 0
  · rw [ceil_of_two_le (by omega)]
    exact isPower_two_pow _

theorem le_ceil (n : Nat) : n ≤ ceil n := by
  by_cases hn : n ≤ 1
  · rw [ceil_of_le_one hn]
    exact hn
  · rw [ceil_of_two_le (by omega)]
    have h : n - 1 < 2 ^ ((n - 1).log2 + 1) := Nat.lt_log2_self
    omega

/-- No smaller power of two will do. -/
theorem ceil_le {n k : Nat} (h : n ≤ 2 ^ k) : ceil n ≤ 2 ^ k := by
  by_cases hn : n ≤ 1
  · rw [ceil_of_le_one hn]
    exact Nat.one_le_two_pow
  · rw [ceil_of_two_le (by omega)]
    have hn : n - 1 ≠ 0 := by omega
    have hk : (n - 1).log2 < k := (Nat.log2_lt hn).2 (by omega)
    exact Nat.pow_le_pow_right (by omega) hk

theorem ceil_le_two_pow_iff {n k : Nat} : ceil n ≤ 2 ^ k ↔ n ≤ 2 ^ k :=
  ⟨(le_ceil n).trans, ceil_le⟩

theorem ceil_mono {m n : Nat} (h : m ≤ n) : ceil m ≤ ceil n := by
  obtain ⟨k, hk⟩ := isPower_iff.mp (isPower_ceil n)
  rw [hk]
  exact ceil_le (h.trans ((le_ceil n).trans hk.le))

theorem ceil_of_isPower {n : Nat} (h : IsPower n) : ceil n = n := by
  obtain ⟨k, rfl⟩ := isPower_iff.mp h
  exact le_antisymm (ceil_le (le_refl _)) (le_ceil _)

end JoinIndex.PowerOfTwo
