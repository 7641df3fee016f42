import JoinIndex.Hash.Crc32
import JoinIndex.Proofs.Key.Bytes

/-!
What a checksum keeps apart. Moving the register down by a bit is linear in exclusive or, and it can
be undone, because the polynomial sets the highest bit that moving down has left free. So no bytes
make two registers equal. Four bytes are taken in as if they had been put into the register at once,
so that strings that differ in four bytes side by side leave different registers behind.
-/

set_option autoImplicit false
set_option relaxedAutoImplicit false

namespace JoinIndex

namespace LittleEndian

theorem toNat_lt (bytes : List UInt8) : toNat bytes < 256 ^ bytes.length := by
  induction bytes with
  | nil => exact Nat.one_pos
  | cons b rest ih =>
    have hb := b.toNat_lt
    rw [toNat, List.length_cons, pow_succ']
    omega

/-- Bytes are told apart by the number that they write, if there are as many of them. -/
theorem toNat_inj {as bs : List UInt8} (hlength : as.length = bs.length)
    (h : toNat as = toNat bs) : as = bs := by
  induction as generalizing bs with
  | nil => exact (List.eq_nil_of_length_eq_zero hlength.symm).symm
  | cons a as ih =>
    cases bs with
    | nil => cases hlength
    | cons b bs =>
      have ha := a.toNat_lt
      have hb := b.toNat_lt
      rw [toNat, toNat] at h
      have hfirst : a = b := UInt8.toNat_inj.mp (by omega)
      rw [hfirst, ih (Nat.succ_injective hlength) (by omega)]

theorem word_cons (b : UInt8) (rest : List UInt8) :
    word (b :: rest) = word rest <<< 8 ||| b.toUInt32 := rfl

/-- A word holds the number that up to four bytes write. -/
theorem toNat_word {bytes : List UInt8} (h : bytes.length ≤ 4) :
    (word bytes).toNat = toNat bytes := by
  induction bytes with
  | nil => rfl
  | cons b rest ih =>
    rw [List.length_cons] at h
    have hrest : toNat rest < 256 ^ 3 :=
      (toNat_lt rest).trans_le (Nat.pow_le_pow_right (by decide) (by omega))
    have hfits : toNat rest <<< 8 < 2 ^ 32 := by
      rw [Nat.shiftLeft_eq]
      omega
    have hshift : (word rest <<< 8).toNat = toNat rest <<< 8 := by
      rw [UInt32.toNat_shiftLeft, ih (by omega)]
      exact Nat.mod_eq_of_lt hfits
    rw [word_cons, UInt32.toNat_or, hshift, UInt8.toNat_toUInt32,
      ← Nat.shiftLeft_add_eq_or_of_lt b.toNat_lt, Nat.shiftLeft_eq, toNat]
    omega

end LittleEndian

namespace Hash.Crc32

/-! ### The register -/

theorem shift_of_even {r : UInt32} (h : r.toNat % 2 = 0) : shift r = r >>> 1 := by
  refine if_neg fun hodd ↦ ?_
  have hbit := congrArg UInt32.toNat hodd
  rw [UInt32.toNat_and] at hbit
  change r.toNat &&& 1 = 1 at hbit
  rw [Nat.and_one_is_mod] at hbit
  omega

theorem shift_of_odd {r : UInt32} (h : r.toNat % 2 = 1) : shift r = (r >>> 1) ^^^ polynomial := by
  refine if_pos (UInt32.toNat_inj.mp ?_)
  rw [UInt32.toNat_and]
  change r.toNat &&& 1 = 1
  rw [Nat.and_one_is_mod, h]

theorem shift_xor (r s : UInt32) : shift (r ^^^ s) = shift r ^^^ shift s := by
  have hbit : (r ^^^ s).toNat % 2 = (r.toNat + s.toNat) % 2 := by
    rw [UInt32.toNat_xor, Nat.xor_mod_two_eq]
  rcases Nat.mod_two_eq_zero_or_one r.toNat with hr | hr <;>
    rcases Nat.mod_two_eq_zero_or_one s.toNat with hs | hs
  · rw [shift_of_even (by omega), shift_of_even hr, shift_of_even hs, UInt32.shiftRight_xor]
  · rw [shift_of_odd (by omega), shift_of_even hr, shift_of_odd hs, UInt32.shiftRight_xor,
      UInt32.xor_assoc]
  · rw [shift_of_odd (by omega), shift_of_odd hr, shift_of_even hs, UInt32.shiftRight_xor,
      UInt32.xor_assoc, UInt32.xor_assoc, UInt32.xor_comm polynomial]
  · rw [shift_of_even (by omega), shift_of_odd hr, shift_of_odd hs, UInt32.shiftRight_xor,
      UInt32.xor_assoc, ← UInt32.xor_assoc polynomial, UInt32.xor_comm polynomial,
      UInt32.xor_assoc (s >>> 1), UInt32.xor_self, UInt32.xor_zero]

theorem toNat_shiftRight_one (r : UInt32) : (r >>> 1).toNat = r.toNat / 2 := by
  rw [UInt32.toNat_shiftRight]
  exact Nat.shiftRight_one r.toNat

/-- Only the register without a bit is moved down to it. -/
theorem eq_zero_of_shift_eq_zero {r : UInt32} (h : shift r = 0) : r = 0 := by
  have hlt := r.toNat_lt
  have hhalf := toNat_shiftRight_one r
  rcases Nat.mod_two_eq_zero_or_one r.toNat with hr | hr
  · rw [shift_of_even hr] at h
    rw [h] at hhalf
    exact UInt32.toNat_inj.mp (show r.toNat = 0 by change 0 = _ at hhalf; omega)
  · -- The polynomial has the highest bit, which is not there after moving down.
    rw [shift_of_odd hr, UInt32.xor_eq_zero_iff] at h
    rw [h] at hhalf
    have htop : polynomial.toNat = 0xedb88320 := rfl
    omega

theorem shift_injective : Function.Injective shift := by
  intro r s h
  rw [← UInt32.xor_eq_zero_iff]
  refine eq_zero_of_shift_eq_zero ?_
  rw [shift_xor, h, UInt32.xor_self]

theorem shift8_eq_iterate (r : UInt32) : shift8 r = shift^[8] r := rfl

theorem shift8_injective : Function.Injective shift8 :=
  shift_injective.iterate 8

theorem shift8_xor (r s : UInt32) : shift8 (r ^^^ s) = shift8 r ^^^ shift8 s := by
  simp only [shift8, shift_xor]

/-- As long as no bit falls out, moving down halves the register. -/
theorem toNat_iterate_shift {r : UInt32} {k : ℕ} (h : 2 ^ k ∣ r.toNat) :
    (shift^[k] r).toNat = r.toNat / 2 ^ k := by
  induction k with
  | zero => exact (Nat.div_one _).symm
  | succ k ih =>
    obtain ⟨n, hn⟩ := h
    have hpos : 0 < 2 ^ k := Nat.two_pow_pos k
    have hhalves : r.toNat = 2 ^ k * (2 * n) := by
      rw [hn, pow_succ, Nat.mul_assoc]
    have hbefore := ih ⟨2 * n, hhalves⟩
    rw [hhalves, Nat.mul_div_cancel_left _ hpos] at hbefore
    rw [Function.iterate_succ_apply', shift_of_even (by omega), toNat_shiftRight_one, hbefore, hn,
      Nat.mul_div_cancel_left _ (Nat.two_pow_pos _), Nat.mul_div_cancel_left _ Nat.two_pos]

/-- A register whose lowest byte is zero moves down by a byte. -/
theorem shift8_shiftLeft {r : UInt32} (h : r.toNat < 2 ^ 24) : shift8 (r <<< 8) = r := by
  have hshift : (r <<< 8).toNat = 2 ^ 8 * r.toNat := by
    rw [UInt32.toNat_shiftLeft]
    change r.toNat <<< 8 % 2 ^ 32 = _
    rw [Nat.shiftLeft_eq, Nat.mod_eq_of_lt (by omega), Nat.mul_comm]
  refine UInt32.toNat_inj.mp ?_
  rw [shift8_eq_iterate, toNat_iterate_shift ⟨_, hshift⟩, hshift,
    Nat.mul_div_cancel_left _ (Nat.two_pow_pos 8)]

/-! ### Bytes -/

theorem feed_injective (b : UInt8) : Function.Injective (feed · b) := by
  intro r s h
  exact (UInt32.xor_left_inj b.toUInt32).mp (shift8_injective h)

theorem foldl_feed_injective (bytes : List UInt8) :
    Function.Injective fun r ↦ bytes.foldl feed r := by
  induction bytes with
  | nil => exact fun _ _ h ↦ h
  | cons b rest ih => exact ih.comp (feed_injective b)

/-- The bits of the lowest byte are free after a shift by a byte. -/
theorem word_cons_eq_xor (b : UInt8) (rest : List UInt8) :
    LittleEndian.word (b :: rest) = b.toUInt32 ^^^ (LittleEndian.word rest <<< 8) := by
  rw [LittleEndian.word_cons]
  refine UInt32.toNat_inj.mp (Nat.eq_of_testBit_eq fun i ↦ ?_)
  rw [UInt32.toNat_or, UInt32.toNat_xor, Nat.testBit_or, Nat.testBit_xor, UInt8.toNat_toUInt32,
    UInt32.toNat_shiftLeft]
  change (((_ <<< 8) % 2 ^ 32).testBit i || _) = (_ ^^ ((_ <<< 8) % 2 ^ 32).testBit i)
  by_cases hi : i < 8
  · have hshifted : ((LittleEndian.word rest).toNat <<< 8 % 2 ^ 32).testBit i = false := by
      rw [Nat.testBit_mod_two_pow, Nat.testBit_shiftLeft, decide_eq_false (by omega : ¬ 8 ≤ i),
        Bool.false_and, Bool.and_false]
    rw [hshifted, Bool.false_or, Bool.xor_false]
  · have hbyte : b.toNat.testBit i = false :=
      Nat.testBit_lt_two_pow (b.toNat_lt.trans_le (Nat.pow_le_pow_right (by decide) (by omega)))
    rw [hbyte, Bool.or_false, Bool.false_xor]

/-- Up to four bytes are taken in as if the word that they make had been put into the register at
once. -/
theorem foldl_feed_eq {bytes : List UInt8} (h : bytes.length ≤ 4) (r : UInt32) :
    bytes.foldl feed r = shift8^[bytes.length] (r ^^^ LittleEndian.word bytes) := by
  induction bytes generalizing r with
  | nil => exact UInt32.xor_zero.symm
  | cons b rest ih =>
    rw [List.length_cons] at h
    have hsmall : (LittleEndian.word rest).toNat < 256 ^ 3 := by
      rw [LittleEndian.toNat_word (by omega)]
      exact (LittleEndian.toNat_lt rest).trans_le (Nat.pow_le_pow_right (by decide) (by omega))
    have hstep : feed r b ^^^ LittleEndian.word rest =
        shift8 (r ^^^ LittleEndian.word (b :: rest)) := by
      rw [word_cons_eq_xor, ← UInt32.xor_assoc, shift8_xor, shift8_shiftLeft hsmall]
      rfl
    rw [List.foldl_cons, ih (by omega), hstep, List.length_cons, Function.iterate_succ_apply]

theorem foldl_feed_window {as bs : List UInt8} (hlength : as.length = bs.length)
    (h : as.length ≤ 4) {r : UInt32} (heq : as.foldl feed r = bs.foldl feed r) : as = bs := by
  rw [foldl_feed_eq h, foldl_feed_eq (hlength ▸ h), hlength] at heq
  have hword := (UInt32.xor_right_inj r).mp (shift8_injective.iterate _ heq)
  have hvalue := congrArg UInt32.toNat hword
  rw [LittleEndian.toNat_word h, LittleEndian.toNat_word (hlength ▸ h)] at hvalue
  exact LittleEndian.toNat_inj hlength hvalue

/-! ### Checksums -/

theorem continued_injective (bytes : List UInt8) :
    Function.Injective fun start ↦ continued start bytes := by
  intro s t h
  exact UInt32.not_inj.mp (foldl_feed_injective bytes (UInt32.not_inj.mp h))

/-- Bytes in the middle of a string, four at most, show in its checksum. -/
theorem continued_window {start : UInt32} {front as bs back : List UInt8}
    (hlength : as.length = bs.length) (h : as.length ≤ 4)
    (heq : continued start (front ++ as ++ back) = continued start (front ++ bs ++ back)) :
    as = bs := by
  have hfold := UInt32.not_inj.mp heq
  rw [List.foldl_append, List.foldl_append, List.foldl_append, List.foldl_append] at hfold
  exact foldl_feed_window hlength h (foldl_feed_injective back hfold)

end Hash.Crc32

end JoinIndex
