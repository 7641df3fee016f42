import JoinIndex.Proofs.Budget.History

/-!
What the bytes left in a budget say about the next charge. A budget with a limit grants a charge if
and only if that many bytes are left, so that an error of an operation that it refused always tells
of a request for more than was left. A budget without a limit says at any time that the largest word
is left, and refuses a charge that would take its sum past that word.
-/

set_option autoImplicit false
set_option relaxedAutoImplicit false

namespace JoinIndex

theorem Config.validate_ne_memoryLimit (config : Config) (requested remaining : ℕ) :
    config.validate ≠ .error (.memoryLimit requested remaining) := by
  unfold Config.validate
  split_ifs <;> simp

namespace Budget

variable {b : Budget} {most : UInt64} {bytes requested remaining : ℕ}

/-! ### Bytes left -/

theorem remaining_of_limit (h : b.limit = some most) :
    b.remaining = most.toNat - b.consumed := by
  simp [Budget.remaining, h]

theorem remaining_of_no_limit (h : b.limit = none) : b.remaining = 2 ^ 64 - 1 := by
  simp [Budget.remaining, h, wordRange]

/-- A limit is a word itself, so that nothing within it passes the range of words. -/
theorem Sound.admits_iff_of_limit (hsound : b.Sound) (h : b.limit = some most) :
    b.admits bytes = true ↔ bytes ≤ b.remaining := by
  have hconsumed : b.consumed ≤ most.toNat :=
    hsound.consumed_le.trans (hsound.peak_le most h)
  have hrange : most.toNat < wordRange := most.toNat_lt
  simp only [admits_iff, remaining_of_limit h, h, Option.mem_some_iff, forall_eq']
  omega

theorem Sound.admits_iff_of_no_limit (hsound : b.Sound) (h : b.limit = none) :
    b.admits bytes = true ↔ bytes ≤ b.remaining - b.consumed := by
  have hconsumed : b.consumed < wordRange := hsound.consumed_le.trans_lt hsound.peak_lt
  have hrange : wordRange = 2 ^ 64 := rfl
  simp only [admits_iff, remaining_of_no_limit h, h, Option.not_mem_none, false_imp_iff,
    implies_true, and_true]
  omega

/-! ### Errors -/

/-- The errors that operations answer which were given a budget. -/
inductive Answers (b : Budget) (e : Error) : Prop where
  | new (config : Config) (h : (Table.new config b).1 = .error e)
  | withRowStore (config : Config) (h : (Table.withRowStore config b).1 = .error e)
  | resize (t : Table) (size : ℕ) (o : Outcome (Except Error Unit))
      (hrun : t.resize b size = .ok o) (h : o.answer = .error e)
  | makeRoom (t : Table) (more : ℕ) (o : Outcome (Except Error Unit))
      (hrun : t.makeRoom b more = .ok o) (h : o.answer = .error e)
  | append (store : RowStore) (row : Row) (h : (store.append (some b) row).index = .error e)

/-- The charge that an error tells of was refused, and the error tells what was left. -/
def Tells (b : Budget) (requested remaining : ℕ) : Prop :=
  ¬ b.admits requested = true ∧ remaining = b.remaining

theorem tells_of_create {config : Config}
    (h : (Table.create config b).1 = .error (.memoryLimit requested remaining)) :
    b.Tells requested remaining := by
  unfold Table.create at h
  cases hvalid : config.validate with
  | error e =>
    simp only [hvalid, Except.error.injEq] at h
    exact absurd (hvalid.trans (congrArg Except.error h)) (config.validate_ne_memoryLimit _ _)
  | ok valid =>
    simp only [hvalid] at h
    split_ifs at h with hadmits
    simp only [Except.error.injEq, Error.memoryLimit.injEq] at h
    exact ⟨h.1 ▸ hadmits, h.2.symm⟩

theorem tells_of_resize {t : Table} {size : ℕ} {o : Outcome (Except Error Unit)}
    (hrun : t.resize b size = .ok o)
    (h : o.answer = .error (.memoryLimit requested remaining)) : b.Tells requested remaining := by
  unfold Table.resize at hrun
  split_ifs at hrun with hpower hfill hadmits
  · simp [← Except.ok.inj hrun] at h
  · simp [← Except.ok.inj hrun] at h
  · -- What follows a charge that was granted gives no error of this kind.
    dsimp only [bind, Except.bind] at hrun
    split at hrun <;> split at hrun
    · cases hrun
    · simp [← Except.ok.inj hrun] at h
    · cases hrun
    · simp [← Except.ok.inj hrun] at h
  · simp only [← Except.ok.inj hrun, Except.error.injEq, Error.memoryLimit.injEq] at h
    exact ⟨h.1 ▸ hadmits, h.2.symm⟩

theorem tells_of_makeRoom {t : Table} {more : ℕ} {o : Outcome (Except Error Unit)}
    (hrun : t.makeRoom b more = .ok o)
    (h : o.answer = .error (.memoryLimit requested remaining)) : b.Tells requested remaining := by
  unfold Table.makeRoom at hrun
  dsimp only at hrun
  split at hrun
  · simp [← Except.ok.inj hrun] at h
  · split_ifs at hrun
    · simp [← Except.ok.inj hrun] at h
    · exact tells_of_resize hrun h

theorem tells_of_append {store : RowStore} {row : Row}
    (h : (store.append (some b) row).index = .error (.memoryLimit requested remaining)) :
    b.Tells requested remaining := by
  unfold RowStore.append at h
  dsimp only at h
  split_ifs at h with hadmits
  · unfold RowStore.lastIndex at h
    dsimp only at h
    split_ifs at h
    simp at h
  · simp only [Except.error.injEq, Error.memoryLimit.injEq] at h
    exact ⟨h.1 ▸ hadmits, h.2.symm⟩

theorem Answers.tells (h : b.Answers (.memoryLimit requested remaining)) :
    b.Tells requested remaining := by
  cases h with
  | new config h =>
    unfold Table.new at h
    split_ifs at h
    · exact tells_of_create h
    · simp at h
  | withRowStore config h =>
    unfold Table.withRowStore at h
    split_ifs at h
    · exact tells_of_create h
    · simp at h
  | resize t size o hrun h => exact tells_of_resize hrun h
  | makeRoom t more o hrun h => exact tells_of_makeRoom hrun h
  | append store row h => exact tells_of_append h

/-! ### Any history -/

/-- Whatever a new budget was asked for before, with a limit it grants a charge if and only if that
many bytes are left. Without a limit the largest word is said to be left at any time, and a charge
is granted if and only if it fits into what that word exceeds the charges by. An error of an
operation that was refused its charge tells what was left just before, which under a limit is less
than was requested. -/
theorem run_remaining_exact (label : String) (limit : Option UInt64) (requests : List Request) :
    let b := (new label limit).after requests
    (∀ most, limit = some most → ∀ bytes : UInt64,
      (b.serve (.charge bytes)).1 = .granted ↔ bytes.toNat ≤ b.remaining) ∧
    (limit = none → b.remaining = 2 ^ 64 - 1 ∧ ∀ bytes : UInt64,
      (b.serve (.charge bytes)).1 = .granted ↔ bytes.toNat ≤ b.remaining - b.consumed) ∧
    ∀ requested remaining, b.Answers (.memoryLimit requested remaining) →
      remaining = b.remaining ∧
      (∀ most, limit = some most → remaining < requested) ∧
      (limit = none → remaining = 2 ^ 64 - 1 ∧ remaining - b.consumed < requested) := by
  intro b
  have h : (new label limit).Recorded requests b := recorded_after (sound_new label limit) rfl _
  have hlimit : b.limit = limit := h.limit_eq
  refine ⟨fun most hmost bytes ↦ ?_, fun hnone ↦ ⟨?_, fun bytes ↦ ?_⟩,
    fun requested remaining herror ↦ ?_⟩
  · rw [serve_charge_granted_iff]
    exact h.sound.admits_iff_of_limit (hlimit.trans hmost)
  · exact remaining_of_no_limit (hlimit.trans hnone)
  · rw [serve_charge_granted_iff]
    exact h.sound.admits_iff_of_no_limit (hlimit.trans hnone)
  · obtain ⟨hrefused, rfl⟩ := herror.tells
    refine ⟨rfl, fun most hmost ↦ ?_, fun hnone ↦ ⟨?_, ?_⟩⟩
    · rw [h.sound.admits_iff_of_limit (hlimit.trans hmost)] at hrefused
      exact Nat.lt_of_not_le hrefused
    · exact remaining_of_no_limit (hlimit.trans hnone)
    · rw [h.sound.admits_iff_of_no_limit (hlimit.trans hnone)] at hrefused
      exact Nat.lt_of_not_le hrefused

/-- Without a limit, a charge of the largest word is refused after one byte, although as much is
said to be left; and a table of 24 bytes is refused, with an error that tells so, when others have
charged all but nine bytes of that word. -/
theorem remaining_unlimited_refuses :
    (¬ ∀ (label : String) (limit : Option UInt64) (requests : List Request) (bytes : UInt64),
      let b := (new label limit).after requests
      (b.serve (.charge bytes)).1 = .granted ↔ bytes.toNat ≤ b.remaining) ∧
    ((unlimited "all").after [.charge 1]).remaining = 18446744073709551615 ∧
    (((unlimited "all").after [.charge 1]).serve (.charge 18446744073709551615)).1 = .refused ∧
    ((unlimited "all").after [.charge 18446744073709551606]).Answers
      (.memoryLimit 24 18446744073709551615) := by
  refine ⟨fun h ↦ ?_, by decide, by decide, .new (Config.linear 1) (by cbv)⟩
  exact absurd ((h "all" none [.charge 1] 18446744073709551615).mpr (by decide)) (by decide)

end Budget

end JoinIndex
