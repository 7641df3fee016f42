import Mathlib
import JoinIndex.Hash.XxHash32

/-!
How the seed goes into an xxHash. Every step on the state of a hash can be undone: a rotation, a sum
with a word, a product with an odd number, and an exclusive or with higher bits of the state itself.
Bytes too few for a stripe meet one state that begins at the seed, so that two seeds never give such
bytes one hash.
-/

set_option autoImplicit false
set_option relaxedAutoImplicit false

namespace JoinIndex.Hash.XxHash32

/-! ### Steps that can be undone -/

section

variable {count : UInt32}

/-- Bits above some of the 32 bits of a word. -/
theorem toNat_div_lt (hlt : count.toNat < 32) (x : UInt32) :
    x.toNat / 2 ^ (32 - count.toNat) < 2 ^ count.toNat := by
  rw [Nat.div_lt_iff_lt_mul (Nat.two_pow_pos _), ← pow_add, Nat.add_sub_cancel' hlt.le]
  exact x.toNat_lt

/-- The bits that a rotation moves out at the top come in at the bottom. -/
theorem toNat_rotateLeft (hpos : 0 < count.toNat) (hlt : count.toNat < 32) (x : UInt32) :
    (rotateLeft x count).toNat =
      2 ^ count.toNat * (x.toNat % 2 ^ (32 - count.toNat)) + x.toNat / 2 ^ (32 - count.toNat) := by
  have hpow : 2 ^ (32 - count.toNat) * 2 ^ count.toNat = 2 ^ 32 := by
    rw [← pow_add, Nat.sub_add_cancel hlt.le]
  have hcount : (32 - count).toNat = 32 - count.toNat := by
    rw [UInt32.toNat_sub_of_le _ _ (UInt32.le_iff_toNat_le.mpr hlt.le)]
    rfl
  rw [rotateLeft, UInt32.toNat_or, UInt32.toNat_shiftLeft, UInt32.toNat_shiftRight, hcount,
    Nat.mod_eq_of_lt hlt, Nat.mod_eq_of_lt (by omega : 32 - count.toNat < 32), Nat.shiftLeft_eq,
    Nat.shiftRight_eq_div_pow, ← hpow, Nat.mul_mod_mul_right, Nat.mul_comm (_ % _),
    ← Nat.two_pow_add_eq_or_of_lt (toNat_div_lt hlt x)]

theorem rotateLeft_injective (count : UInt32) (hpos : 0 < count.toNat) (hlt : count.toNat < 32) :
    Function.Injective (rotateLeft · count) := by
  intro x y h
  have hvalue := congrArg UInt32.toNat h
  dsimp only at hvalue
  rw [toNat_rotateLeft hpos hlt, toNat_rotateLeft hpos hlt] at hvalue
  have hx := toNat_div_lt hlt x
  have hy := toNat_div_lt hlt y
  have hhigh := congrArg (· % 2 ^ count.toNat) hvalue
  have hlow := congrArg (· / 2 ^ count.toNat) hvalue
  rw [Nat.mul_add_mod, Nat.mul_add_mod, Nat.mod_eq_of_lt hx, Nat.mod_eq_of_lt hy] at hhigh
  rw [Nat.mul_add_div (Nat.two_pow_pos _), Nat.mul_add_div (Nat.two_pow_pos _),
    Nat.div_eq_of_lt hx, Nat.div_eq_of_lt hy, Nat.add_zero, Nat.add_zero] at hlow
  refine UInt32.toNat_inj.mp ?_
  rw [← Nat.div_add_mod x.toNat (2 ^ (32 - count.toNat)), hhigh, hlow, Nat.div_add_mod]

end

/-- A product with a number that has an inverse is undone by the inverse. -/
theorem mul_injective {p q : UInt32} (h : p * q = 1) : Function.Injective (· * p) := by
  intro x y hxy
  have hback := congrArg (· * q) hxy
  dsimp only at hback
  rwa [UInt32.mul_assoc, UInt32.mul_assoc, h, UInt32.mul_one, UInt32.mul_one] at hback

theorem xor_shiftRight_injective {k : UInt32} (hk : 0 < k.toNat % 32) :
    Function.Injective fun x : UInt32 ↦ x ^^^ (x >>> k) := by
  intro x y h
  dsimp only at h
  rw [← UInt32.xor_eq_zero_iff]
  -- The difference is its own shift by some bits, and only zero is.
  have hself : x ^^^ y = (x ^^^ y) >>> k := by
    calc x ^^^ y = (x ^^^ (x >>> k)) ^^^ ((x >>> k) ^^^ y) := by
          rw [UInt32.xor_assoc, ← UInt32.xor_assoc (x >>> k), UInt32.xor_self, UInt32.zero_xor]
      _ = ((y >>> k) ^^^ y) ^^^ (y ^^^ (x >>> k)) := by
          rw [h, UInt32.xor_comm y, UInt32.xor_comm (x >>> k)]
      _ = (x ^^^ y) >>> k := by
          rw [UInt32.xor_assoc, ← UInt32.xor_assoc y, UInt32.xor_self, UInt32.zero_xor,
            UInt32.shiftRight_xor, UInt32.xor_comm]
  have hvalue := congrArg UInt32.toNat hself
  rw [UInt32.toNat_shiftRight, Nat.shiftRight_eq_div_pow] at hvalue
  refine UInt32.toNat_inj.mp ?_
  by_contra hne
  have hpow : 1 < 2 ^ (k.toNat % 32) := Nat.one_lt_two_pow hk.ne'
  exact absurd hvalue (Nat.div_lt_self (Nat.pos_of_ne_zero hne) hpow).ne'

theorem avalanche_injective : Function.Injective avalanche := by
  have hsecond : prime2 * 3066638151 = 1 := by decide
  have hthird : prime3 * 2828982549 = 1 := by decide
  exact (xor_shiftRight_injective (k := 16) (by decide)).comp
    ((mul_injective hthird).comp ((xor_shiftRight_injective (k := 13) (by decide)).comp
      ((mul_injective hsecond).comp (xor_shiftRight_injective (k := 15) (by decide)))))

/-! ### The state of a short hash -/

theorem absorbByte_injective (b : UInt8) : Function.Injective (absorbByte · b) := by
  have hfirst : prime1 * 244002641 = 1 := by decide
  exact (mul_injective hfirst).comp ((rotateLeft_injective 11 (by decide)
    (by decide)).comp fun _ _ h ↦ (UInt32.add_left_inj _).mp h)

theorem foldl_absorbByte_injective (bytes : List UInt8) :
    Function.Injective fun h ↦ bytes.foldl absorbByte h := by
  induction bytes with
  | nil => exact fun _ _ h ↦ h
  | cons b rest ih => exact ih.comp (absorbByte_injective b)

/-- The bytes that are left over do not depend on the state. -/
theorem snd_absorbWords (h : UInt32) (count : ℕ) (bytes : List UInt8) :
    (absorbWords h count bytes).2 = bytes.drop (4 * count) := by
  induction count generalizing h bytes with
  | zero => rfl
  | succ count ih => rw [absorbWords, ih, List.drop_drop, Nat.mul_succ, Nat.add_comm]

theorem fst_absorbWords_injective (count : ℕ) (bytes : List UInt8) :
    Function.Injective fun h ↦ (absorbWords h count bytes).1 := by
  have hfourth : prime4 * 2701016015 = 1 := by decide
  induction count generalizing bytes with
  | zero => exact fun _ _ h ↦ h
  | succ count ih =>
    exact (ih (bytes.drop 4)).comp ((mul_injective hfourth).comp
      ((rotateLeft_injective 17 (by decide) (by decide)).comp
        fun _ _ h ↦ (UInt32.add_left_inj _).mp h))

/-- Fewer bytes than a stripe are hashed apart under different seeds. -/
theorem hash_injective_seed {bytes : List UInt8} (h : bytes.length < 16) :
    Function.Injective fun seed ↦ hash seed bytes := by
  intro s t heq
  simp only [hash, if_pos h] at heq
  have hstate := avalanche_injective heq
  rw [snd_absorbWords, snd_absorbWords] at hstate
  have hwords := fst_absorbWords_injective _ _ (foldl_absorbByte_injective _ hstate)
  exact (UInt32.add_left_inj _).mp ((UInt32.add_left_inj _).mp hwords)

end JoinIndex.Hash.XxHash32
