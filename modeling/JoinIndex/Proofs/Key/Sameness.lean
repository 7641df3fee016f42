import Mathlib
import JoinIndex.Key.Context

/-!
The equality that keys are compared by. It is an equivalence on values and on keys, and keys that
are the same have the same hash, because values that are the same are hashed by the same bytes. For
numbers with decimal places this is the fact that a number has one form without trailing zeros.
-/

set_option autoImplicit false
set_option relaxedAutoImplicit false

namespace JoinIndex

namespace Numeric

variable {x y z : Numeric}

theorem unit_cast (x : Numeric) : (x.unit : ℤ) = 10 ^ x.scale :=
  Nat.cast_pow 10 x.scale

theorem same_iff : x.same y = true ↔ x.mantissa * 10 ^ y.scale = y.mantissa * 10 ^ x.scale := by
  rw [same, decide_eq_true_iff, unit_cast, unit_cast]

theorem same_trans (hxy : x.same y = true) (hyz : y.same z = true) : x.same z = true := by
  rw [same_iff] at hxy hyz ⊢
  have hne : (10 : ℤ) ^ y.scale ≠ 0 := pow_ne_zero _ (by decide)
  refine mul_right_cancel₀ hne ?_
  calc x.mantissa * 10 ^ z.scale * 10 ^ y.scale
      = x.mantissa * 10 ^ y.scale * 10 ^ z.scale := by ring
    _ = y.mantissa * 10 ^ z.scale * 10 ^ x.scale := by rw [hxy]; ring
    _ = z.mantissa * 10 ^ x.scale * 10 ^ y.scale := by rw [hyz]; ring

/-- The form without trailing zeros that a number is brought into. -/
theorem stripZeros_spec (mantissa : ℤ) (scale : ℕ) :
    mantissa * 10 ^ (stripZeros mantissa scale).2 =
        (stripZeros mantissa scale).1 * 10 ^ scale ∧
      ((stripZeros mantissa scale).2 = 0 ∨ ¬ (10 : ℤ) ∣ (stripZeros mantissa scale).1) := by
  induction scale generalizing mantissa with
  | zero => exact ⟨rfl, Or.inl rfl⟩
  | succ scale ih =>
    rw [stripZeros]
    split_ifs with hzero
    · obtain ⟨hvalue, hform⟩ := ih (mantissa / 10)
      refine ⟨?_, hform⟩
      have hten : mantissa = mantissa / 10 * 10 := by omega
      generalize mantissa / 10 = tenth at hten hvalue
      rw [hten, mul_right_comm, hvalue, pow_succ, mul_assoc]
    · exact ⟨rfl, Or.inr fun hdvd ↦ hzero (Int.emod_eq_zero_of_dvd hdvd)⟩

theorem normalize_same (x : Numeric) : x.same x.normalize = true :=
  same_iff.mpr (stripZeros_spec x.mantissa x.scale).1

/-- Of two equal numbers without trailing zeros neither has more decimal places. -/
theorem scale_le_of_same (h : x.same y = true) (hy : y.scale = 0 ∨ ¬ (10 : ℤ) ∣ y.mantissa) :
    y.scale ≤ x.scale := by
  by_contra hlt
  rcases hy with hy | hy
  · omega
  · obtain ⟨k, hk⟩ := Nat.exists_eq_add_of_lt (Nat.lt_of_not_le hlt)
    rw [same_iff, hk] at h
    have hne : (10 : ℤ) ^ x.scale ≠ 0 := pow_ne_zero _ (by decide)
    have hmantissa : x.mantissa * 10 ^ (k + 1) = y.mantissa := by
      refine mul_right_cancel₀ hne ?_
      rw [← h]
      ring
    rw [← hmantissa, pow_succ, ← mul_assoc] at hy
    exact hy (dvd_mul_left 10 _)

/-- Equal numbers have one form without trailing zeros. -/
theorem normalize_eq_of_same (h : x.same y = true) : x.normalize = y.normalize := by
  have hxy : x.normalize.same y.normalize = true := by
    have hx : x.normalize.same x = true := by
      rw [same_iff]
      exact (same_iff.mp x.normalize_same).symm
    exact same_trans (same_trans hx h) y.normalize_same
  have hyx : y.normalize.same x.normalize = true := by
    rw [same_iff] at hxy ⊢
    exact hxy.symm
  have hscale : x.normalize.scale = y.normalize.scale :=
    le_antisymm (scale_le_of_same hyx (stripZeros_spec x.mantissa x.scale).2)
      (scale_le_of_same hxy (stripZeros_spec y.mantissa y.scale).2)
  have hmantissa : x.normalize.mantissa = y.normalize.mantissa := by
    rw [same_iff, hscale] at hxy
    exact mul_right_cancel₀ (pow_ne_zero _ (by decide)) hxy
  generalize x.normalize = a at hscale hmantissa
  generalize y.normalize = b at hscale hmantissa
  cases a
  cases b
  simp only [mk.injEq]
  exact ⟨hmantissa, hscale⟩

end Numeric

namespace Binary64

variable {x y z : Binary64}

theorem same_iff : x.same y = true ↔
    (x.isNaN = true ∧ y.isNaN = true) ∨ (x.isZero = true ∧ y.isZero = true) ∨ x = y := by
  have hbits : x = y ↔ x.bits = y.bits := by
    cases x
    cases y
    rw [mk.injEq]
  rw [same, Bool.or_eq_true, Bool.or_eq_true, Bool.and_eq_true, Bool.and_eq_true, beq_iff_eq,
    hbits, or_assoc]

theorem not_isZero_of_isNaN (h : x.isNaN = true) : x.isZero = false := by
  rw [isNaN, Bool.and_eq_true, decide_eq_true_iff] at h
  rw [isZero, h.1]
  rfl

theorem same_symm (h : x.same y = true) : y.same x = true := by
  rw [same_iff] at h ⊢
  rcases h with ⟨hx, hy⟩ | ⟨hx, hy⟩ | rfl
  · exact Or.inl ⟨hy, hx⟩
  · exact Or.inr (Or.inl ⟨hy, hx⟩)
  · exact Or.inr (Or.inr rfl)

theorem same_trans (hxy : x.same y = true) (hyz : y.same z = true) : x.same z = true := by
  rw [same_iff] at hxy
  rcases hxy with ⟨hx, hy⟩ | ⟨hx, hy⟩ | rfl
  · rw [same_iff] at hyz ⊢
    rcases hyz with ⟨-, hz⟩ | ⟨hy', -⟩ | rfl
    · exact Or.inl ⟨hx, hz⟩
    · rw [not_isZero_of_isNaN hy] at hy'
      cases hy'
    · exact Or.inl ⟨hx, hy⟩
  · rw [same_iff] at hyz ⊢
    rcases hyz with ⟨hy', -⟩ | ⟨-, hz⟩ | rfl
    · rw [not_isZero_of_isNaN hy'] at hy
      cases hy
    · exact Or.inr (Or.inl ⟨hx, hz⟩)
    · exact Or.inr (Or.inl ⟨hx, hy⟩)
  · exact hyz

end Binary64

namespace Value

variable {u v w : Value}

theorem same_refl (v : Value) : v.same v = true := by
  cases v with
  | null => rfl
  | float64 x => exact Binary64.same_iff.mpr (Or.inr (Or.inr rfl))
  | numeric x => exact Numeric.same_iff.mpr rfl
  | _ => simp [same]

/-- Values that are the same are equal, except for binary and decimal numbers. -/
theorem same_cases (h : v.same w = true) :
    v = w ∨ (∃ x y, v = float64 x ∧ w = float64 y ∧ x.same y = true) ∨
      ∃ x y, v = numeric x ∧ w = numeric y ∧ x.same y = true := by
  cases v <;> cases w <;> simp_all [same]

theorem same_symm (h : v.same w = true) : w.same v = true := by
  rcases same_cases h with rfl | ⟨x, y, rfl, rfl, hxy⟩ | ⟨x, y, rfl, rfl, hxy⟩
  · exact h
  · exact Binary64.same_symm hxy
  · exact Numeric.same_iff.mpr (Numeric.same_iff.mp hxy).symm

theorem same_trans (huv : u.same v = true) (hvw : v.same w = true) : u.same w = true := by
  rcases same_cases huv with rfl | ⟨x, y, rfl, rfl, hxy⟩ | ⟨x, y, rfl, rfl, hxy⟩
  · exact hvw
  · rcases same_cases hvw with rfl | ⟨y', z, hy, rfl, hyz⟩ | ⟨y', z, hy, -, -⟩
    · exact hxy
    · rw [float64.injEq] at hy
      subst hy
      exact Binary64.same_trans hxy hyz
    · cases hy
  · rcases same_cases hvw with rfl | ⟨y', z, hy, -, -⟩ | ⟨y', z, hy, rfl, hyz⟩
    · exact hxy
    · cases hy
    · rw [numeric.injEq] at hy
      subst hy
      exact Numeric.same_trans hxy hyz

theorem canonicalBits_eq_of_same {x y : Binary64} (h : x.same y = true) :
    canonicalBits x = canonicalBits y := by
  rcases Binary64.same_iff.mp h with ⟨hx, hy⟩ | ⟨hx, hy⟩ | rfl
  · rw [canonicalBits, canonicalBits, Binary64.not_isZero_of_isNaN hx,
      Binary64.not_isZero_of_isNaN hy, hx, hy]
    rfl
  · rw [canonicalBits, canonicalBits, hx, hy]
    rfl
  · rfl

/-- Values that are the same are hashed by the same bytes. -/
theorem keyBytes_eq_of_same (h : v.same w = true) : v.keyBytes = w.keyBytes := by
  rcases same_cases h with rfl | ⟨x, y, rfl, rfl, hxy⟩ | ⟨x, y, rfl, rfl, hxy⟩
  · rfl
  · rw [keyBytes, keyBytes, canonicalBits_eq_of_same hxy]
  · rw [keyBytes, keyBytes, Numeric.normalize_eq_of_same hxy]

end Value

namespace Row

variable {as bs cs : List Value}

theorem sameValues_refl (as : List Value) : sameValues as as = true := by
  induction as with
  | nil => rfl
  | cons a as ih => rw [sameValues, Value.same_refl, ih, Bool.and_self]

theorem sameValues_symm (h : sameValues as bs = true) : sameValues bs as = true := by
  induction as generalizing bs with
  | nil =>
    cases bs with
    | nil => rfl
    | cons => cases h
  | cons a as ih =>
    cases bs with
    | nil => cases h
    | cons b bs =>
      rw [sameValues, Bool.and_eq_true] at h ⊢
      exact ⟨Value.same_symm h.1, ih h.2⟩

theorem sameValues_trans (hab : sameValues as bs = true) (hbc : sameValues bs cs = true) :
    sameValues as cs = true := by
  induction as generalizing bs cs with
  | nil =>
    cases bs with
    | nil => exact hbc
    | cons => cases hab
  | cons a as ih =>
    cases bs with
    | nil => cases hab
    | cons b bs =>
      cases cs with
      | nil => cases hbc
      | cons c cs =>
        rw [sameValues, Bool.and_eq_true] at hab hbc ⊢
        exact ⟨Value.same_trans hab.1 hbc.1, ih hab.2 hbc.2⟩

end Row

theorem Config.probeKeys_eq_of_validate {config : Config} (h : config.validate = .ok ()) :
    config.probeKeys = config.buildKeys := by
  rw [validate] at h
  split_ifs at h with _ hne
  exact (not_not.mp hne).symm

namespace KeyContext

/-- The key of a row that is stored. -/
def buildKey (exprs : List KeyExpr) (row : Row) : List Value :=
  exprs.map (·.eval row)

/-- A configuration is accepted with as many expressions on one side as on the other, and nothing
was evaluated in its context. -/
theorem ofConfig_eq_ok {config : Config} {buildExprs probeExprs : List KeyExpr}
    {base : KeyContext} (h : ofConfig config buildExprs probeExprs = .ok base) :
    probeExprs.length = buildExprs.length ∧
      base = new buildExprs probeExprs config.storesNulls config.findsNulls config.seeds := by
  rw [ofConfig, checkExprs] at h
  cases hvalid : config.validate with
  | error e =>
    rw [hvalid] at h
    cases h
  | ok valid =>
    rw [hvalid] at h
    by_cases hbuild : buildExprs.length = config.buildKeys
    · by_cases hprobe : probeExprs.length = config.probeKeys
      · refine ⟨by rw [hprobe, hbuild, Config.probeKeys_eq_of_validate hvalid], ?_⟩
        simp [hbuild, hprobe] at h
        exact h.symm
      · simp [hbuild, hprobe] at h
        cases h
    · simp [hbuild] at h
      cases h

/-- A context whose key has a component for every build expression compares it with the build key
of a stored row. -/
theorem equals_eq_sameValues {ctx : KeyContext} (hlength : ctx.key.length = ctx.buildExprs.length)
    (stored : Row) :
    ctx.equals stored = Row.sameValues (buildKey ctx.buildExprs stored) ctx.key := by
  rw [equals]
  generalize ctx.buildExprs = exprs at hlength
  generalize ctx.key = key at hlength
  induction exprs generalizing key with
  | nil =>
    obtain rfl := List.length_eq_zero_iff.mp hlength
    rfl
  | cons e exprs ih =>
    cases key with
    | nil => cases hlength
    | cons v key =>
      rw [List.zip_cons_cons, List.all_cons, buildKey, List.map_cons, Row.sameValues,
        ih key (Nat.succ_injective hlength)]
      rfl

end KeyContext

/-- A hash function of keys that does not tell keys apart that are the same. -/
structure KeyHash where
  toFun : List Value → UInt32
  eq_of_same : ∀ as bs, Row.sameValues as bs = true → toFun as = toFun bs

namespace KeyHash

/-- All keys collide. -/
def constant (hash : UInt32) : KeyHash :=
  ⟨fun _ ↦ hash, fun _ _ _ ↦ rfl⟩

/-- The hash of a context at its level, of any key. -/
def ofContext (ctx : KeyContext) : KeyHash where
  toFun key := ({ ctx with key } : KeyContext).keyHash
  eq_of_same as bs h := by
    change as.foldl (fun hash v ↦ ctx.hash hash v.keyBytes) ctx.seed =
      bs.foldl (fun hash v ↦ ctx.hash hash v.keyBytes) ctx.seed
    generalize ctx.seed = seed
    induction as generalizing bs seed with
    | nil =>
      cases bs with
      | nil => rfl
      | cons => cases h
    | cons a as ih =>
      cases bs with
      | nil => cases h
      | cons b bs =>
        rw [Row.sameValues, Bool.and_eq_true] at h
        rw [List.foldl_cons, List.foldl_cons, Value.keyBytes_eq_of_same h.1]
        exact ih bs h.2 _

end KeyHash

end JoinIndex
