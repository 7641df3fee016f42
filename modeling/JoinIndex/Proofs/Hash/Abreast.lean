import Mathlib

/-!
Many words in one number. A number with room for `2 ^ k` words of 64 bits has a word in each of its
lanes, and an operation on the number is the same operation on all of its words, as long as no word
outgrows its lane. `Packs` keeps account of how long the words are. `Layout` holds the operations
that depend on where a word ends, so that a computation is written once, for a word by itself and
for words abreast.
-/

set_option autoImplicit false
set_option relaxedAutoImplicit false

namespace JoinIndex.Abreast

/-- The number of `2 ^ k` lanes of which lane `i` holds `f i`. -/
def pack (f : ℕ → ℕ) : ℕ → ℕ
  | 0 => f 0
  | k + 1 => pack f k + 2 ^ (64 * 2 ^ k) * pack (fun i ↦ f (2 ^ k + i)) k

/-- Every lane holds 1. A product goes down one branch where a sum would go down two. -/
def ones : ℕ → ℕ
  | 0 => 1
  | k + 1 => ones k * (2 ^ (64 * 2 ^ k) + 1)

/-- Every lane holds its own number. -/
def indices : ℕ → ℕ
  | 0 => 0
  | k + 1 => indices k * (2 ^ (64 * 2 ^ k) + 1) + 2 ^ (64 * 2 ^ k) * (2 ^ k * ones k)

/-- One lane holds 1 and the others nothing. -/
def lone (i : ℕ) : ℕ :=
  2 ^ (64 * i)

theorem testBit_lone (i j : ℕ) : (lone i).testBit (64 * j) = decide (i = j) := by
  rw [lone, Nat.testBit_two_pow]
  exact decide_eq_decide.mpr (by omega)

section

variable {f g : ℕ → ℕ} {k : ℕ}

theorem pack_add : pack f k + pack g k = pack (fun i ↦ f i + g i) k := by
  induction k generalizing f g with
  | zero => rfl
  | succ k ih =>
    unfold pack
    rw [← ih, ← ih]
    ring

theorem pack_mul (c : ℕ) : pack f k * c = pack (fun i ↦ f i * c) k := by
  induction k generalizing f with
  | zero => rfl
  | succ k ih =>
    unfold pack
    rw [← ih, ← ih]
    ring

theorem ones_eq_pack : ones k = pack (fun _ ↦ 1) k := by
  induction k with
  | zero => rfl
  | succ k ih =>
    unfold ones pack
    rw [ih]
    ring

theorem indices_eq_pack : indices k = pack (fun i ↦ i) k := by
  induction k with
  | zero => rfl
  | succ k ih =>
    have hupper : indices k + 2 ^ k * ones k = pack (fun i ↦ 2 ^ k + i) k := by
      rw [ih, ones_eq_pack, Nat.mul_comm, pack_mul, pack_add]
      simp only [Nat.one_mul, Nat.add_comm]
    unfold indices pack
    rw [← hupper, ← ih]
    ring

/-! ### Bits of the lanes -/

theorem pack_lt (h : ∀ i < 2 ^ k, f i < 2 ^ 64) : pack f k < 2 ^ (64 * 2 ^ k) := by
  induction k generalizing f with
  | zero => exact h 0 (by decide)
  | succ k ih =>
    have hpow : 2 ^ (k + 1) = 2 ^ k + 2 ^ k := by omega
    have hlower := ih fun i hi ↦ h i (by omega)
    have hupper : pack (fun i ↦ f (2 ^ k + i)) k + 1 ≤ 2 ^ (64 * 2 ^ k) :=
      ih fun i hi ↦ h (2 ^ k + i) (by omega)
    unfold pack
    rw [hpow, Nat.mul_add, pow_add]
    calc pack f k + 2 ^ (64 * 2 ^ k) * pack (fun i ↦ f (2 ^ k + i)) k
        < 2 ^ (64 * 2 ^ k) * (pack (fun i ↦ f (2 ^ k + i)) k + 1) := by
          rw [Nat.mul_succ]
          omega
      _ ≤ 2 ^ (64 * 2 ^ k) * 2 ^ (64 * 2 ^ k) := Nat.mul_le_mul_left _ hupper

/-- A bit of the number is a bit of one of its words. -/
theorem testBit_pack (h : ∀ i < 2 ^ k, f i < 2 ^ 64) (j : ℕ) :
    (pack f k).testBit j = (decide (j / 64 < 2 ^ k) && (f (j / 64)).testBit (j % 64)) := by
  induction k generalizing f j with
  | zero =>
    unfold pack
    by_cases hj : j < 64
    · simp [Nat.div_eq_of_lt hj, Nat.mod_eq_of_lt hj]
    · have hpow : 2 ^ 64 ≤ 2 ^ j := Nat.pow_le_pow_right (by decide) (by omega)
      rw [Nat.testBit_eq_false_of_lt ((h 0 (by decide)).trans_le hpow), decide_eq_false (by omega),
        Bool.false_and]
  | succ k ih =>
    have hpow : 2 ^ (k + 1) = 2 ^ k + 2 ^ k := by omega
    have hlower : ∀ i < 2 ^ k, f i < 2 ^ 64 := fun i hi ↦ h i (by omega)
    have hupper : ∀ i < 2 ^ k, f (2 ^ k + i) < 2 ^ 64 := fun i hi ↦ h (2 ^ k + i) (by omega)
    unfold pack
    rw [Nat.add_comm, Nat.testBit_two_pow_mul_add _ (pack_lt hlower), ih hlower, ih hupper]
    by_cases hj : j < 64 * 2 ^ k
    · rw [if_pos hj, decide_eq_true (by omega : j / 64 < 2 ^ k),
        decide_eq_true (by omega : j / 64 < 2 ^ (k + 1))]
    · have hlane : 2 ^ k + (j - 64 * 2 ^ k) / 64 = j / 64 := by omega
      have hbit : (j - 64 * 2 ^ k) % 64 = j % 64 := by omega
      rw [if_neg hj, hlane, hbit]
      exact congrArg (· && _) (decide_eq_decide.mpr (by omega))

end

/-! ### Words of a known length -/

/-- The lanes of `x` hold the words `f`, of `bits` bits each. -/
structure Packs (k x bits : ℕ) (f : ℕ → ℕ) : Prop where
  eq_pack : x = pack f k
  lt : ∀ i < 2 ^ k, f i < 2 ^ bits

namespace Packs

variable {f g : ℕ → ℕ} {k x y bits more : ℕ}

theorem mono (h : Packs k x bits f) (hle : bits ≤ more) : Packs k x more f :=
  ⟨h.eq_pack, fun i hi ↦ (h.lt i hi).trans_le (Nat.pow_le_pow_right (by decide) hle)⟩

theorem add (hx : Packs k x bits f) (hy : Packs k y bits g) :
    Packs k (x + y) (bits + 1) fun i ↦ f i + g i := by
  refine ⟨by rw [hx.eq_pack, hy.eq_pack, pack_add], fun i hi ↦ ?_⟩
  have hfi := hx.lt i hi
  have hgi := hy.lt i hi
  omega

theorem mul_const {c : ℕ} (hx : Packs k x bits f) (hc : c < 2 ^ more) :
    Packs k (x * c) (bits + more) fun i ↦ f i * c := by
  refine ⟨by rw [hx.eq_pack, pack_mul], fun i hi ↦ ?_⟩
  rw [pow_add]
  exact Nat.mul_lt_mul'' (hx.lt i hi) hc

theorem mul_two_pow (hx : Packs k x bits f) (shift : ℕ) :
    Packs k (x * 2 ^ shift) (bits + shift) fun i ↦ f i * 2 ^ shift := by
  refine ⟨by rw [hx.eq_pack, pack_mul], fun i hi ↦ ?_⟩
  rw [pow_add]
  exact Nat.mul_lt_mul_of_pos_right (hx.lt i hi) (Nat.two_pow_pos _)

/-- An operation on single bits works in every lane by itself. -/
theorem bitwise {op : ℕ → ℕ → ℕ} {bit : Bool → Bool → Bool}
    (hop : ∀ m n j, (op m n).testBit j = bit (m.testBit j) (n.testBit j))
    (hfalse : bit false false = false) (hx : Packs k x 64 f) (hy : Packs k y 64 g)
    (hlt : ∀ i < 2 ^ k, op (f i) (g i) < 2 ^ bits) (hbits : bits ≤ 64) :
    Packs k (op x y) bits fun i ↦ op (f i) (g i) := by
  have hlane : ∀ i < 2 ^ k, op (f i) (g i) < 2 ^ 64 := fun i hi ↦
    (hlt i hi).trans_le (Nat.pow_le_pow_right (by decide) hbits)
  refine ⟨?_, hlt⟩
  rw [hx.eq_pack, hy.eq_pack]
  apply Nat.eq_of_testBit_eq
  intro j
  rw [hop, testBit_pack hx.lt, testBit_pack hy.lt, testBit_pack hlane, hop]
  by_cases hj : j / 64 < 2 ^ k <;> simp [hj, hfalse]

theorem xor (hx : Packs k x bits f) (hy : Packs k y bits g) (hbits : bits ≤ 64) :
    Packs k (x ^^^ y) bits fun i ↦ f i ^^^ g i :=
  bitwise Nat.testBit_xor rfl (hx.mono hbits) (hy.mono hbits)
    (fun i hi ↦ Nat.xor_lt_two_pow (hx.lt i hi) (hy.lt i hi)) hbits

theorem or (hx : Packs k x bits f) (hy : Packs k y bits g) (hbits : bits ≤ 64) :
    Packs k (x ||| y) bits fun i ↦ f i ||| g i :=
  bitwise Nat.testBit_or rfl (hx.mono hbits) (hy.mono hbits)
    (fun i hi ↦ Nat.or_lt_two_pow (hx.lt i hi) (hy.lt i hi)) hbits

theorem zero : Packs k 0 bits fun _ ↦ 0 := by
  refine ⟨?_, fun _ _ ↦ Nat.two_pow_pos bits⟩
  simpa only [Nat.mul_zero] using (pack_mul (f := fun _ ↦ 0) (k := k) 0)

theorem ones : Packs k (ones k) 1 fun _ ↦ 1 :=
  ⟨ones_eq_pack, fun _ _ ↦ by decide⟩

theorem indices : Packs k (indices k) k fun i ↦ i :=
  ⟨indices_eq_pack, fun _ hi ↦ hi⟩

/-- A constant in every lane. -/
theorem const {c : ℕ} (hc : c < 2 ^ bits) : Packs k (Abreast.ones k * c) bits fun _ ↦ c := by
  refine ⟨?_, fun _ _ ↦ hc⟩
  rw [ones_eq_pack, pack_mul]
  simp only [Nat.one_mul]

theorem mask (low : ℕ) : Packs k (Abreast.ones k * (2 ^ low - 1)) low fun _ ↦ 2 ^ low - 1 :=
  const (Nat.sub_lt (Nat.two_pow_pos low) one_pos)

theorem and_mask (hx : Packs k x bits f) (hbits : bits ≤ 64) {low : ℕ} (hlow : low ≤ 64) :
    Packs k (x &&& Abreast.ones k * (2 ^ low - 1)) low fun i ↦ f i % 2 ^ low := by
  have hlt : ∀ i < 2 ^ k, f i &&& 2 ^ low - 1 < 2 ^ low := by
    intro i _
    rw [Nat.and_two_pow_sub_one_eq_mod]
    exact Nat.mod_lt _ (Nat.two_pow_pos low)
  simp only [← Nat.and_two_pow_sub_one_eq_mod]
  exact bitwise Nat.testBit_and rfl (hx.mono hbits) ((mask low).mono hlow) hlt hlow

/-- A shift moves the lower bits of a word into the lane below it, above the bits which that lane
keeps, and the mask takes them away. -/
theorem shiftRight_and_mask (hx : Packs k x bits f) (hbits : bits ≤ 64) {low : ℕ}
    (hlow : low ≤ 64) :
    Packs k ((x >>> low) &&& Abreast.ones k * (2 ^ (64 - low) - 1)) (bits - low)
      fun i ↦ f i / 2 ^ low := by
  have hmask := mask (k := k) (64 - low)
  have hlt : ∀ i < 2 ^ k, f i / 2 ^ low < 2 ^ (bits - low) := by
    intro i hi
    rw [Nat.div_lt_iff_lt_mul (Nat.two_pow_pos _), ← pow_add]
    exact (hx.lt i hi).trans_le (Nat.pow_le_pow_right (by decide) (by omega))
  refine ⟨?_, hlt⟩
  rw [hx.eq_pack, hmask.eq_pack]
  apply Nat.eq_of_testBit_eq
  intro j
  rw [Nat.testBit_and, Nat.testBit_shiftRight, testBit_pack (hx.mono hbits).lt,
    testBit_pack (hmask.mono (by omega)).lt, testBit_pack (mono ⟨rfl, hlt⟩ (by omega)).lt,
    Nat.testBit_two_pow_sub_one, Nat.testBit_div_two_pow]
  by_cases hj : j % 64 < 64 - low
  · have hlane : (low + j) / 64 = j / 64 := by omega
    have hbit : (low + j) % 64 = j % 64 + low := by omega
    rw [hlane, hbit, decide_eq_true hj, Bool.and_true]
    by_cases hin : j / 64 < 2 ^ k <;> simp [hin]
  · rw [decide_eq_false hj, Bool.and_false, Bool.and_false]
    by_cases hin : j / 64 < 2 ^ k
    · have hpow : 2 ^ 64 ≤ 2 ^ (j % 64 + low) := Nat.pow_le_pow_right (by decide) (by omega)
      rw [Nat.testBit_eq_false_of_lt (((hx.mono hbits).lt _ hin).trans_le hpow), Bool.and_false]
    · rw [decide_eq_false hin, Bool.false_and]

/-- What a word holds is read off the number. -/
theorem testBit_lane (hx : Packs k x bits f) (hbits : bits ≤ 64) {i : ℕ} (hi : i < 2 ^ k) {j : ℕ}
    (hj : j < 64) : x.testBit (64 * i + j) = (f i).testBit j := by
  have hlane : (64 * i + j) / 64 = i := by omega
  have hbit : (64 * i + j) % 64 = j := by omega
  rw [hx.eq_pack, testBit_pack (hx.mono hbits).lt, hlane, hbit, decide_eq_true hi, Bool.true_and]

end Packs

/-! ### One word or many -/

/-- The operations that depend on where words end, and the number that holds a 1 for each word. -/
structure Layout where
  unit : ℕ
  low : ℕ → ℕ → ℕ
  high : ℕ → ℕ → ℕ

namespace Layout

/-- A word by itself. -/
def single : Layout :=
  ⟨1, fun bits x ↦ x % 2 ^ bits, fun bits x ↦ x / 2 ^ bits⟩

/-- Words in `2 ^ k` lanes. -/
def abreast (k : ℕ) : Layout :=
  ⟨ones k, fun bits x ↦ x &&& ones k * (2 ^ bits - 1),
    fun bits x ↦ (x >>> bits) &&& ones k * (2 ^ (64 - bits) - 1)⟩

@[simp]
theorem single_unit : single.unit = 1 := rfl

@[simp]
theorem single_low (bits x : ℕ) : single.low bits x = x % 2 ^ bits := rfl

@[simp]
theorem single_high (bits x : ℕ) : single.high bits x = x / 2 ^ bits := rfl

/-- One layout does to `2 ^ k` words what the other one does to each. -/
structure Spreads (k : ℕ) (many one : Layout) : Prop where
  unit : Packs k many.unit 1 fun _ ↦ one.unit
  low : ∀ {x bits : ℕ} {f : ℕ → ℕ}, Packs k x bits f → bits ≤ 64 → ∀ {low : ℕ}, low ≤ 64 →
    Packs k (many.low low x) low fun i ↦ one.low low (f i)
  high : ∀ {x bits : ℕ} {f : ℕ → ℕ}, Packs k x bits f → bits ≤ 64 → ∀ {low : ℕ}, low ≤ 64 →
    Packs k (many.high low x) (bits - low) fun i ↦ one.high low (f i)

theorem spreads_abreast (k : ℕ) : Spreads k (abreast k) single :=
  ⟨Packs.ones, fun hx hbits _ hlow ↦ hx.and_mask hbits hlow,
    fun hx hbits _ hlow ↦ hx.shiftRight_and_mask hbits hlow⟩

end Layout

end JoinIndex.Abreast
