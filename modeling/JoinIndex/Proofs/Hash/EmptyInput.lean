import JoinIndex.Hash
import JoinIndex.Proofs.Hash.Crc32
import JoinIndex.Proofs.Hash.FixedPoint
import JoinIndex.Proofs.Hash.XxHash32

/-!
The hash of nothing, which is to differ from the seed at every level. At level 0 it does: a seed
with its halves exchanged differs from the seed by two halves that are alike, and the salt has
halves that are not. At the deeper levels it does for every seed but one.

Nor is a seed to come back when nothing is hashed again under its hash. At the deeper levels the
mixing can be undone, so that a seed comes back if and only if its hash is the seed that it is the
hash under itself. This happens for the seed that is its own hash and for two that are each the
hash under the other.
-/

set_option autoImplicit false
set_option relaxedAutoImplicit false

namespace JoinIndex.Hash

namespace XxHash32

/-! ### The seed of a hash -/

/-- The seed under which nothing has the hash `h`: the steps of the mixing undone, the last one
first. -/
def origin (h : UInt32) : UInt32 :=
  let h := (h ^^^ (h >>> 16)) * 2828982549
  let h := (h ^^^ (h >>> 13) ^^^ (h >>> 26)) * 3066638151
  (h ^^^ (h >>> 15) ^^^ (h >>> 30)) - prime5

theorem toNat_shiftRight_of_lt {k : UInt32} (hk : k.toNat < 32) (x : UInt32) :
    (x >>> k).toNat = x.toNat / 2 ^ k.toNat := by
  rw [UInt32.toNat_shiftRight, Nat.mod_eq_of_lt hk, Nat.shiftRight_eq_div_pow]

/-- An exclusive or with higher bits is undone by one with as many shifts as leave a bit. -/
theorem xor_shiftRight_undone {k x w y : UInt32} (hlt : k.toNat < 32) (hlast : 32 ≤ 3 * k.toNat)
    (hw : w.toNat = x.toNat / 2 ^ (2 * k.toNat)) (hy : y = x ^^^ (x >>> k) ^^^ w) :
    y ^^^ (y >>> k) = x := by
  have hgone : x.toNat / 2 ^ (3 * k.toNat) = 0 :=
    Nat.div_eq_of_lt (x.toNat_lt.trans_le (Nat.pow_le_pow_right (by decide) hlast))
  have htwice : x.toNat / 2 ^ k.toNat / 2 ^ k.toNat = x.toNat / 2 ^ (2 * k.toNat) := by
    rw [Nat.div_div_eq_div_mul, ← pow_add, ← Nat.two_mul]
  have hthrice : x.toNat / 2 ^ (2 * k.toNat) / 2 ^ k.toNat = 0 := by
    rw [Nat.div_div_eq_div_mul, ← pow_add, ← Nat.succ_mul, hgone]
  refine UInt32.toNat_inj.mp ?_
  rw [UInt32.toNat_xor, toNat_shiftRight_of_lt hlt, hy, UInt32.toNat_xor, UInt32.toNat_xor,
    toNat_shiftRight_of_lt hlt, hw, Nat.xor_div_two_pow, Nat.xor_div_two_pow, htwice, hthrice,
    Nat.xor_zero, Nat.xor_assoc x.toNat, Nat.xor_xor_cancel_right]

theorem xor_shiftRight_sixteen (x : UInt32) :
    (x ^^^ (x >>> 16)) ^^^ ((x ^^^ (x >>> 16)) >>> 16) = x := by
  have hgone : (0 : UInt32).toNat = x.toNat / 2 ^ (2 * (16 : UInt32).toNat) :=
    (Nat.div_eq_of_lt x.toNat_lt).symm
  exact xor_shiftRight_undone (by decide) (by decide) hgone UInt32.xor_zero.symm

theorem avalanche_origin (h : UInt32) : avalanche (origin h + prime5) = h := by
  have hsecond (x : UInt32) : x * 3066638151 * prime2 = x := by
    rw [UInt32.mul_assoc, (by decide : (3066638151 : UInt32) * prime2 = 1), UInt32.mul_one]
  have hthird (x : UInt32) : x * 2828982549 * prime3 = x := by
    rw [UInt32.mul_assoc, (by decide : (2828982549 : UInt32) * prime3 = 1), UInt32.mul_one]
  have hfifteen (x : UInt32) := xor_shiftRight_undone (by decide : (15 : UInt32).toNat < 32)
    (by decide) (toNat_shiftRight_of_lt (by decide : (30 : UInt32).toNat < 32) x) rfl
  have hthirteen (x : UInt32) := xor_shiftRight_undone (by decide : (13 : UInt32).toNat < 32)
    (by decide) (toNat_shiftRight_of_lt (by decide : (26 : UInt32).toNat < 32) x) rfl
  unfold avalanche origin
  dsimp only
  rw [UInt32.sub_add_cancel, hfifteen, hsecond, hthirteen, hthird, xor_shiftRight_sixteen]

/-- Nothing hashed under the origin of a hash has that hash. -/
theorem hash_origin_nil (h : UInt32) : hash (origin h) [] = h := by
  rw [hash_nil, avalanche_origin]

/-- A seed comes back after two hashes if and only if its hash is the seed that it is the hash
under. -/
theorem hash_hash_nil_eq_iff (seed : UInt32) :
    hash (hash seed []) [] = seed ↔ hash seed [] = origin seed := by
  constructor
  · intro h
    apply @hash_injective_seed [] (by decide)
    dsimp only
    rw [h, hash_origin_nil]
  · intro h
    rw [h, hash_origin_nil]

end XxHash32

/-! ### Level 0 -/

theorem continued_nil (start : UInt32) : Crc32.continued start [] = start := by
  simp [Crc32.continued]

/-- What a word and the word with its halves exchanged differ by has two halves that are alike. -/
theorem halves_rotateLeft_xor (x : UInt32) :
    (XxHash32.rotateLeft x 16 ^^^ x).toNat / 2 ^ 16 =
      (XxHash32.rotateLeft x 16 ^^^ x).toNat % 2 ^ 16 := by
  have hrotated : (XxHash32.rotateLeft x 16).toNat =
      2 ^ 16 * (x.toNat % 2 ^ 16) + x.toNat / 2 ^ 16 :=
    XxHash32.toNat_rotateLeft (by decide) (by decide) x
  have hx := x.toNat_lt
  have hupper : (2 ^ 16 * (x.toNat % 2 ^ 16) + x.toNat / 2 ^ 16) / 2 ^ 16 = x.toNat % 2 ^ 16 := by
    omega
  have hlower : (2 ^ 16 * (x.toNat % 2 ^ 16) + x.toNat / 2 ^ 16) % 2 ^ 16 = x.toNat / 2 ^ 16 := by
    omega
  rw [UInt32.toNat_xor, hrotated, Nat.xor_div_two_pow, Nat.xor_mod_two_pow, hupper, hlower,
    Nat.xor_comm]

theorem hashBytes_zero_nil_ne (seed : UInt32) : hashBytes 0 seed [] ≠ seed := by
  intro h
  rw [hashBytes, if_pos rfl, continued_nil] at h
  have hsalt : XxHash32.rotateLeft seed 16 ^^^ seed = levelZeroSalt := by
    calc XxHash32.rotateLeft seed 16 ^^^ seed
        = XxHash32.rotateLeft seed 16 ^^^ (XxHash32.rotateLeft seed 16 ^^^ levelZeroSalt) := by
          rw [h]
      _ = levelZeroSalt := by
          rw [← UInt32.xor_assoc, UInt32.xor_self, UInt32.zero_xor]
  have halves := halves_rotateLeft_xor seed
  rw [hsalt] at halves
  exact absurd halves (by decide)

/-! ### Every level -/

theorem hashBytes_nil_injective (level : ℕ) :
    Function.Injective fun seed ↦ hashBytes level seed [] := by
  by_cases hlevel : level = 0
  · simp only [hashBytes, if_pos hlevel]
    intro s t h
    have hrotated := (UInt32.xor_left_inj _).mp h
    exact Crc32.continued_injective []
      (XxHash32.rotateLeft_injective 16 (by decide) (by decide) hrotated)
  · simp only [hashBytes, if_neg hlevel]
    exact XxHash32.hash_injective_seed (by decide)

theorem hashBytes_succ (level : ℕ) (seed : UInt32) (bytes : List UInt8) :
    hashBytes (level + 1) seed bytes = XxHash32.hash seed bytes :=
  if_neg (Nat.succ_ne_zero level)

/-- The hash of nothing is never the seed at level 0, and at the deeper levels for one seed. There a
seed comes back after two hashes if and only if its hash is the seed that it is the hash under,
which happens for that seed and for two more. No two seeds give nothing one hash. -/
theorem hashBytes_nil_exact (level : ℕ) (seed : UInt32) :
    hashBytes 0 seed [] ≠ seed ∧
    (hashBytes (level + 1) seed [] = seed ↔ seed = 3223629365) ∧
    (hashBytes (level + 1) (hashBytes (level + 1) seed []) [] = seed ↔
      hashBytes (level + 1) seed [] = XxHash32.origin seed) ∧
    (seed ∈ [3223629365, 1903511900, 2709931368] →
      hashBytes (level + 1) (hashBytes (level + 1) seed []) [] = seed) ∧
    ∀ other, hashBytes level other [] = hashBytes level seed [] → other = seed := by
  simp only [hashBytes_succ]
  refine ⟨hashBytes_zero_nil_ne seed, XxHash32.hash_nil_eq_iff seed,
    XxHash32.hash_hash_nil_eq_iff seed, fun hseed ↦ ?_,
    fun other h ↦ hashBytes_nil_injective level h⟩
  have hself : XxHash32.hash 3223629365 [] = 3223629365 := by decide
  have hthere : XxHash32.hash 1903511900 [] = 2709931368 := by decide
  have hback : XxHash32.hash 2709931368 [] = 1903511900 := by decide
  simp only [List.mem_cons, List.not_mem_nil, or_false] at hseed
  rcases hseed with rfl | rfl | rfl
  · rw [hself, hself]
  · rw [hthere, hback]
  · rw [hback, hthere]

/-- At level 1 a seed is the hash of nothing under itself, and two more return after two hashes. -/
theorem hashBytes_nil_returns :
    (¬ ∀ (seed : UInt32) (level : ℕ), hashBytes level seed [] ≠ seed) ∧
      (¬ ∀ (seed : UInt32) (level : ℕ), 1 ≤ level →
        hashBytes level (hashBytes level seed []) [] ≠ seed) ∧
      hashBytes 1 3223629365 [] = 3223629365 ∧
      hashBytes 1 1903511900 [] = 2709931368 ∧ hashBytes 1 2709931368 [] = 1903511900 := by
  have hself : hashBytes 1 3223629365 [] = 3223629365 := by decide
  have hthere : hashBytes 1 1903511900 [] = 2709931368 := by decide
  have hback : hashBytes 1 2709931368 [] = 1903511900 := by decide
  refine ⟨fun h ↦ h 3223629365 1 hself, fun h ↦ h 1903511900 1 le_rfl ?_, hself, hthere, hback⟩
  rw [hthere, hback]

end JoinIndex.Hash
