import JoinIndex.Proofs.Calendar
import JoinIndex.Proofs.Key.Sameness

/-!
The bytes a value is hashed by tell the value. The first byte gives the type and the others the
content, so that values with the same bytes are the same. Only moments are cut short: their bytes
give the microseconds, and two moments have the same bytes if they fall into one microsecond, a leap
second being counted with the minute after it.

Each kind of content is led back to a number that its bytes write in the base 256; numbers are told
apart by as many bytes as they need.
-/

set_option autoImplicit false
set_option relaxedAutoImplicit false

namespace JoinIndex

namespace LittleEndian

/-- The number that bytes write, the lowest byte first. -/
def toNat : List UInt8 → ℕ
  | [] => 0
  | b :: rest => b.toNat + 256 * toNat rest

@[simp] theorem length_ofNat (count n : ℕ) : (ofNat count n).length = count := by
  induction count generalizing n with
  | zero => rfl
  | succ count ih => simp [ofNat, ih]

theorem toNat_ofNat (count n : ℕ) : toNat (ofNat count n) = n % 256 ^ count := by
  induction count generalizing n with
  | zero => simp [ofNat, toNat, Nat.mod_one]
  | succ count ih =>
    show n.toUInt8.toNat + 256 * toNat (ofNat count (n / 256)) = _
    rw [ih, pow_succ', Nat.mod_mul]
    simp

/-- Numbers that the bytes suffice for are told apart. -/
theorem ofNat_inj {count n m : ℕ} (hn : n < 256 ^ count) (hm : m < 256 ^ count) :
    ofNat count n = ofNat count m ↔ n = m := by
  refine ⟨fun h ↦ ?_, fun h ↦ h ▸ rfl⟩
  have hvalue := congrArg toNat h
  rwa [toNat_ofNat, toNat_ofNat, Nat.mod_eq_of_lt hn, Nat.mod_eq_of_lt hm] at hvalue

/-- Integers are told apart that lie less than the range of the bytes from each other. -/
theorem ofInt_inj {count : ℕ} {i j : ℤ} (hij : |i - j| < 256 ^ count) :
    ofInt count i = ofInt count j ↔ i = j := by
  have hrange : ((1 <<< (8 * count) : ℕ) : ℤ) = 256 ^ count := by
    rw [Nat.one_shiftLeft, pow_mul]
    norm_num
  have hpos : (0 : ℤ) < 256 ^ count := by positivity
  refine ⟨fun h ↦ ?_, fun h ↦ h ▸ rfl⟩
  unfold ofInt at h
  rw [hrange] at h
  have hlt : ∀ k : ℤ, (k % 256 ^ count).toNat < 256 ^ count := by
    intro k
    rw [Int.toNat_lt (Int.emod_nonneg _ hpos.ne')]
    exact_mod_cast Int.emod_lt_of_pos k hpos
  rw [ofNat_inj (hlt i) (hlt j)] at h
  have hmod : i % 256 ^ count = j % 256 ^ count := by
    have hi := Int.emod_nonneg i hpos.ne'
    have hj := Int.emod_nonneg j hpos.ne'
    omega
  rw [Int.emod_eq_emod_iff_emod_sub_eq_zero] at hmod
  have hzero := Int.eq_zero_of_abs_lt_dvd (Int.dvd_of_emod_eq_zero hmod) hij
  exact Int.eq_of_sub_eq_zero hzero

end LittleEndian

namespace Numeric

/-- The number that a mantissa and a scale stand for. -/
def toRat (x : Numeric) : ℚ :=
  x.mantissa / 10 ^ x.scale

theorem same_iff_toRat {x y : Numeric} : x.same y = true ↔ x.toRat = y.toRat := by
  have hx : (10 : ℚ) ^ x.scale ≠ 0 := pow_ne_zero _ (by norm_num)
  have hy : (10 : ℚ) ^ y.scale ≠ 0 := pow_ne_zero _ (by norm_num)
  rw [same_iff, toRat, toRat, div_eq_div_iff hx hy]
  norm_cast

end Numeric

namespace Value

variable {v w : Value}

/-! ### The content of each type -/

theorem same_canonicalBits (x : Binary64) : x.same ⟨canonicalBits x⟩ = true := by
  rw [Binary64.same_iff]
  unfold canonicalBits
  by_cases hzero : x.isZero = true
  · rw [if_pos hzero]
    exact Or.inr (Or.inl ⟨hzero, by decide⟩)
  · rw [if_neg hzero]
    by_cases hnan : x.isNaN = true
    · rw [if_pos hnan]
      exact Or.inl ⟨hnan, by decide⟩
    · rw [if_neg hnan]
      exact Or.inr (Or.inr rfl)

theorem same_of_canonicalBits_eq {x y : Binary64} (h : canonicalBits x = canonicalBits y) :
    x.same y = true := by
  have hx := same_canonicalBits x
  rw [h] at hx
  exact Binary64.same_trans hx (Binary64.same_symm (same_canonicalBits y))

/-- Scale and sign share a word, in which neither touches the other. -/
theorem numericBytes_injective : Function.Injective numericBytes := by
  intro x y h
  unfold numericBytes at h
  obtain ⟨hword, hmantissa⟩ := List.append_inj h (by simp)
  have hx := x.scale_le
  have hy := y.scale_le
  have hsign : ∀ z : Numeric,
      (z.scale <<< 16) + (if z.mantissa < 0 then 1 <<< 31 else 0) < 256 ^ 4 := by
    intro z
    have hz := z.scale_le
    rw [Nat.shiftLeft_eq]
    split_ifs <;> norm_num <;> omega
  have hmagnitude : ∀ z : Numeric, z.mantissa.natAbs < 256 ^ 12 := fun z ↦ z.mantissa_lt
  rw [LittleEndian.ofNat_inj (hsign x) (hsign y), Nat.shiftLeft_eq, Nat.shiftLeft_eq] at hword
  rw [LittleEndian.ofNat_inj (hmagnitude x) (hmagnitude y)] at hmantissa
  have hparts : x.mantissa = y.mantissa ∧ x.scale = y.scale := by
    by_cases hneg : x.mantissa < 0 <;> by_cases hneg' : y.mantissa < 0 <;>
      simp only [hneg, hneg', if_true, if_false, Nat.reducePow] at hword <;>
      omega
  cases x
  cases y
  simpa using hparts

theorem same_of_numericBytes_eq {x y : Numeric}
    (h : numericBytes x.normalize = numericBytes y.normalize) : x.same y = true := by
  have hx := x.normalize_same
  rw [numericBytes_injective h] at hx
  exact Numeric.same_trans hx (Numeric.same_iff.mpr (Numeric.same_iff.mp y.normalize_same).symm)

theorem toUTF8_inj {s t : String} (h : s.toUTF8.data.toList = t.toUTF8.data.toList) : s = t :=
  String.toByteArray_inj.mp (ByteArray.ext (Array.toList_inj.mp h))

theorem dayBytes_inj {d e : Date} :
    LittleEndian.ofInt 4 d.day = LittleEndian.ofInt 4 e.day ↔ d = e := by
  have hd := d.in_range
  have he := e.in_range
  rw [LittleEndian.ofInt_inj (abs_lt.mpr ⟨by omega, by omega⟩)]
  cases d
  cases e
  simp

/-- The microseconds of every moment fit eight bytes. -/
theorem microsBytes_inj {m n : Moment} :
    LittleEndian.ofInt 8 m.micros = LittleEndian.ofInt 8 n.micros ↔
      m.epochNanos / 1000 = n.epochNanos / 1000 := by
  rw [← Moment.micros_eq, ← Moment.micros_eq]
  have hm := m.in_range
  have hn := n.in_range
  have hm' := m.nanos_lt
  have hn' := n.nanos_lt
  refine LittleEndian.ofInt_inj (abs_lt.mpr ⟨?_, ?_⟩) <;> unfold Moment.micros <;> omega

/-! ### The first byte -/

/-- The first byte of the values of a type. -/
def tag : ValueType → UInt8
  | .unknown => 0
  | .bool => 1
  | .int64 => 2
  | .float64 => 3
  | .numeric => 4
  | .string => 5
  | .bytes => 6
  | .date => 7
  | .dateTime => 8
  | .timestamp => 9

theorem tag_injective : Function.Injective tag := by
  intro a b h
  cases a <;> cases b <;> first | rfl | exact absurd h (by decide)

theorem head?_keyBytes (v : Value) : v.keyBytes.head? = some (tag v.type) := by
  cases v <;> rfl

theorem type_eq_of_keyBytes_eq (h : v.keyBytes = w.keyBytes) : v.type = w.type := by
  have htag := congrArg List.head? h
  rw [head?_keyBytes, head?_keyBytes, Option.some.injEq] at htag
  exact tag_injective htag

/-- Values are the same if they are equal, binary and decimal numbers also if they stand for one
number. -/
theorem same_iff : v.same w = true ↔
    v = w ∨
      (∃ x y, v = float64 x ∧ w = float64 y ∧
        (x.isNaN = true ∧ y.isNaN = true ∨ x.isZero = true ∧ y.isZero = true)) ∨
      ∃ x y, v = numeric x ∧ w = numeric y ∧ x.toRat = y.toRat := by
  constructor
  · intro h
    rcases same_cases h with h | ⟨x, y, rfl, rfl, hxy⟩ | ⟨x, y, rfl, rfl, hxy⟩
    · exact Or.inl h
    · rcases Binary64.same_iff.mp hxy with hnan | hzero | rfl
      · exact Or.inr (Or.inl ⟨x, y, rfl, rfl, Or.inl hnan⟩)
      · exact Or.inr (Or.inl ⟨x, y, rfl, rfl, Or.inr hzero⟩)
      · exact Or.inl rfl
    · exact Or.inr (Or.inr ⟨x, y, rfl, rfl, Numeric.same_iff_toRat.mp hxy⟩)
  · rintro (rfl | ⟨x, y, rfl, rfl, hnan | hzero⟩ | ⟨x, y, rfl, rfl, hxy⟩)
    · exact same_refl v
    · exact Binary64.same_iff.mpr (Or.inl hnan)
    · exact Binary64.same_iff.mpr (Or.inr (Or.inl hzero))
    · exact Numeric.same_iff_toRat.mpr hxy

/-- Values with the same bytes are the same, if they are no moments. -/
theorem same_of_keyBytes_eq (h : v.keyBytes = w.keyBytes) :
    v.same w = true ∨ (∃ m n, v = dateTime m ∧ w = dateTime n) ∨
      ∃ m n, v = timestamp m ∧ w = timestamp n := by
  have htype := type_eq_of_keyBytes_eq h
  cases v <;> cases w <;> simp only [type, reduceCtorEq] at htype <;>
    simp only [keyBytes, List.cons.injEq, true_and] at h
  case null.null => exact Or.inl rfl
  case bool.bool a b => cases a <;> cases b <;> simp_all [same]
  case int64.int64 i j =>
    have hi := Int64.le_toInt i
    have hi' := Int64.toInt_lt i
    have hj := Int64.le_toInt j
    have hj' := Int64.toInt_lt j
    rw [LittleEndian.ofInt_inj (abs_lt.mpr ⟨by omega, by omega⟩), Int64.toInt_inj] at h
    exact Or.inl (by simp [same, h])
  case float64.float64 x y =>
    have hbits : ∀ x : Binary64, (canonicalBits x).toNat < 256 ^ 8 :=
      fun x ↦ (canonicalBits x).toNat_lt
    rw [LittleEndian.ofNat_inj (hbits x) (hbits y), UInt64.toNat_inj] at h
    exact Or.inl (same_of_canonicalBits_eq h)
  case numeric.numeric x y => exact Or.inl (same_of_numericBytes_eq h)
  case string.string s t => exact Or.inl (by simp [same, toUTF8_inj h])
  case bytes.bytes a b => exact Or.inl (by simp [same, h])
  case date.date d e => exact Or.inl (by simp [same, dayBytes_inj.mp h])
  case dateTime.dateTime m n => exact Or.inr (Or.inl ⟨m, n, rfl, rfl⟩)
  case timestamp.timestamp m n => exact Or.inr (Or.inr ⟨m, n, rfl, rfl⟩)

theorem keyBytes_dateTime_inj {m n : Moment} :
    (dateTime m).keyBytes = (dateTime n).keyBytes ↔ m.epochNanos / 1000 = n.epochNanos / 1000 := by
  rw [keyBytes, keyBytes, List.cons.injEq, microsBytes_inj]
  simp

theorem keyBytes_timestamp_inj {m n : Moment} :
    (timestamp m).keyBytes = (timestamp n).keyBytes ↔
      m.epochNanos / 1000 = n.epochNanos / 1000 := by
  rw [keyBytes, keyBytes, List.cons.injEq, microsBytes_inj]
  simp

/-- The days that civil dates name have the same bytes only if the civil dates are one. -/
theorem keyBytes_date_inj {c c' : CivilDay} {d d' : Date} (h : Date.ofCivil? c = some d)
    (h' : Date.ofCivil? c' = some d') : (date d).keyBytes = (date d').keyBytes ↔ c = c' := by
  obtain ⟨hvalid, hday⟩ := Date.ofCivil?_eq_some_iff.mp h
  obtain ⟨hvalid', hday'⟩ := Date.ofCivil?_eq_some_iff.mp h'
  constructor
  · intro hbytes
    rw [keyBytes, keyBytes, List.cons.injEq, dayBytes_inj] at hbytes
    refine CivilDay.eq_of_number_eq hvalid hvalid' ?_
    rw [← hday, ← hday', hbytes.2]
  · rintro rfl
    rw [Option.some.inj (h.symm.trans h')]

/-- The bytes of values agree for values that are the same and for moments of one type in one
microsecond, and for no others. So values with the same bytes have one type, the bytes of days tell
the civil dates apart, and moments are the same only at one civil time. -/
theorem keyBytes_eq_iff (v w : Value) :
    (v.keyBytes = w.keyBytes ↔
      v.same w = true ∨
        ∃ m n : Moment, m.epochNanos / 1000 = n.epochNanos / 1000 ∧
          (v = dateTime m ∧ w = dateTime n ∨ v = timestamp m ∧ w = timestamp n)) ∧
    (v.keyBytes = w.keyBytes → v.type = w.type) ∧
    (v.same w = true ↔
      v = w ∨
        (∃ x y, v = float64 x ∧ w = float64 y ∧
          (x.isNaN = true ∧ y.isNaN = true ∨ x.isZero = true ∧ y.isZero = true)) ∨
        ∃ x y, v = numeric x ∧ w = numeric y ∧ x.toRat = y.toRat) ∧
    (∀ c c' d d', Date.ofCivil? c = some d → Date.ofCivil? c' = some d' →
      ((date d).keyBytes = (date d').keyBytes ↔ c = c')) ∧
    ∀ c c' hour hour' minute minute' second second' nanos nanos' m m',
      Moment.ofCivil? c hour minute second nanos = some m →
      Moment.ofCivil? c' hour' minute' second' nanos' = some m' →
        (m = m' ↔
          c = c' ∧ hour = hour' ∧ minute = minute' ∧ second = second' ∧ nanos = nanos') := by
  refine ⟨⟨?_, ?_⟩, type_eq_of_keyBytes_eq, same_iff, fun _ _ _ _ h h' ↦ keyBytes_date_inj h h',
    fun _ _ _ _ _ _ _ _ _ _ _ _ h h' ↦ Moment.eq_iff_of_ofCivil? h h'⟩
  · intro h
    rcases same_of_keyBytes_eq h with hsame | ⟨m, n, rfl, rfl⟩ | ⟨m, n, rfl, rfl⟩
    · exact Or.inl hsame
    · exact Or.inr ⟨m, n, keyBytes_dateTime_inj.mp h, Or.inl ⟨rfl, rfl⟩⟩
    · exact Or.inr ⟨m, n, keyBytes_timestamp_inj.mp h, Or.inr ⟨rfl, rfl⟩⟩
  · rintro (hsame | ⟨m, n, hmicros, ⟨rfl, rfl⟩ | ⟨rfl, rfl⟩⟩)
    · exact keyBytes_eq_of_same hsame
    · exact keyBytes_dateTime_inj.mpr hmicros
    · exact keyBytes_timestamp_inj.mpr hmicros

/-- A leap second and the midnight after it are two moments with the same bytes. The leap day of the
year 0 and the day after it have different bytes. -/
theorem keyBytes_eq_iff_leap_second :
    (∃ m n : Moment,
      Moment.ofCivil? ⟨2016, 12, 31⟩ 23 59 59 1000000000 = some m ∧
      Moment.ofCivil? ⟨2017, 1, 1⟩ 0 0 0 999 = some n ∧
      (timestamp m).keyBytes = (timestamp n).keyBytes ∧ m ≠ n) ∧
    ∃ d d' : Date, Date.ofCivil? ⟨0, 2, 29⟩ = some d ∧ Date.ofCivil? ⟨0, 3, 1⟩ = some d' ∧
      (date d).keyBytes ≠ (date d').keyBytes := by
  let m : Moment := ⟨1483228799, 1000000000, by decide, by decide⟩
  let n : Moment := ⟨1483228800, 999, by decide, by decide⟩
  let d : Date := ⟨-306, by decide⟩
  let d' : Date := ⟨-305, by decide⟩
  have hm : Moment.ofCivil? ⟨2016, 12, 31⟩ 23 59 59 1000000000 = some m := by decide
  have hn : Moment.ofCivil? ⟨2017, 1, 1⟩ 0 0 0 999 = some n := by decide
  have hd : Date.ofCivil? ⟨0, 2, 29⟩ = some d := by decide
  have hd' : Date.ofCivil? ⟨0, 3, 1⟩ = some d' := by decide
  obtain ⟨hbytes, -, -, hdate, hmoment⟩ := keyBytes_eq_iff (timestamp m) (timestamp n)
  refine ⟨⟨m, n, hm, hn, ?_, ?_⟩, d, d', hd, hd', ?_⟩
  · exact hbytes.mpr (Or.inr ⟨m, n, by decide, Or.inr ⟨rfl, rfl⟩⟩)
  · rw [Ne, hmoment _ _ _ _ _ _ _ _ _ _ _ _ hm hn]
    decide
  · rw [Ne, hdate _ _ _ _ hd hd']
    decide

end Value

end JoinIndex
