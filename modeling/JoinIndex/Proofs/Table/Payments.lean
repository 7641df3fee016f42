import JoinIndex.Proofs.Table.Pages

/-!
Payments to the last byte. Whenever an operation changes the bytes of a table, the charges of the
budget change by the same number, also when it is refused or fails half-way: a resize pays for both
arrays of buckets before it gives one of them back. No charge passes the limit, not even for a
moment, which the peak of a budget remembers.
-/

set_option autoImplicit false
set_option relaxedAutoImplicit false

namespace JoinIndex

namespace Budget

variable {b b' b'' : Budget} {old now bytes : ℕ}

/-- What is true of a budget at any time: what was ever charged at once fits a word and is within
the limit. -/
structure Sound (b : Budget) : Prop where
  consumed_le : b.consumed ≤ b.peak
  peak_lt : b.peak < wordRange
  peak_le : ∀ limit ∈ b.limit, b.peak ≤ limit.toNat

theorem sound_new (label : String) (limit : Option UInt64) : (new label limit).Sound where
  consumed_le := le_refl 0
  peak_lt := (by decide : 0 < wordRange)
  peak_le := fun _ _ ↦ Nat.zero_le _

theorem admits_iff : b.admits bytes = true ↔
    b.consumed + bytes < wordRange ∧ ∀ limit ∈ b.limit, b.consumed + bytes ≤ limit.toNat := by
  rw [admits, Bool.and_eq_true, decide_eq_true_iff]
  cases b.limit <;> simp

/-- The charges of one owner change from `old` bytes to `now` ones, and no others do. -/
structure Settles (b : Budget) (old now : ℕ) (b' : Budget) : Prop where
  consumed_eq : b'.consumed + old = b.consumed + now
  limit_eq : b'.limit = b.limit
  sound : b.Sound → b'.Sound

theorem Settles.refl (b : Budget) (old : ℕ) : b.Settles old old b :=
  ⟨rfl, rfl, id⟩

theorem Settles.refuse (b : Budget) (old : ℕ) : b.Settles old old b.refuse :=
  ⟨rfl, rfl, fun h ↦ ⟨h.1, h.2, h.3⟩⟩

/-- A charge that is granted may be given back in part. -/
theorem Settles.charge_then (h : b.admits bytes = true) {after : ℕ}
    (hle : after ≤ b.consumed + bytes) (heq : after + old = b.consumed + now) :
    b.Settles old now { b.charge bytes with consumed := after } := by
  obtain ⟨hrange, hlimit⟩ := admits_iff.mp h
  refine ⟨heq, rfl, fun hsound ↦ ⟨?_, ?_, fun limit hmem ↦ ?_⟩⟩
  · exact hle.trans (le_max_right _ _)
  · exact max_lt hsound.peak_lt hrange
  · exact max_le (hsound.peak_le limit hmem) (hlimit limit hmem)

theorem Settles.charge (h : b.admits bytes = true) (old : ℕ) :
    b.Settles old (old + bytes) (b.charge bytes) :=
  Settles.charge_then h (le_refl _) (by omega)

theorem Settles.trans {mid : ℕ} (h : b.Settles old mid b') (h' : b'.Settles mid now b'') :
    b.Settles old now b'' := by
  refine ⟨?_, h'.limit_eq.trans h.limit_eq, fun hsound ↦ h'.sound (h.sound hsound)⟩
  have hfirst := h.consumed_eq
  have hsecond := h'.consumed_eq
  omega

/-- What is charged can be given back. -/
theorem exists_release_eq_ok (hle : bytes ≤ b.consumed) (old : ℕ) :
    ∃ b', b.release bytes = .ok b' ∧ b.Settles (old + bytes) old b' := by
  refine ⟨{ b with consumed := b.consumed - bytes }, if_pos hle, ?_, rfl, fun h ↦ ?_⟩
  · show b.consumed - bytes + (old + bytes) = b.consumed + old
    omega
  · exact ⟨(Nat.sub_le _ _).trans h.consumed_le, h.peak_lt, h.peak_le⟩

theorem tryConsume_settles (b : Budget) (bytes old : ℕ) :
    b.Settles old (if b.admits bytes then old + bytes else old) (b.tryConsume bytes).2 := by
  rw [tryConsume]
  split_ifs with hadmits
  · exact Settles.charge hadmits old
  · exact Settles.refuse b old

end Budget

theorem Arena.Ensured.settles {a arena : Arena} {budget charged : Budget} {count : ℕ}
    (h : a.Ensured budget count arena charged) :
    budget.Settles a.byteSize arena.byteSize charged := by
  cases h with
  | free => exact .refl budget _
  | page _ hadmits => exact .charge hadmits _

namespace Table

variable {t : Table} {budget : Budget} {isKey : RowRef → Bool} {row : RowRef} {hash : UInt32}

/-- The buckets of a table cost what they did before. -/
theorem settles_of_arena {u : Table} {b' : Budget} (hsize : u.buckets.size = t.buckets.size)
    (h : budget.Settles t.arena.byteSize u.arena.byteSize b') :
    budget.Settles t.byteSize u.byteSize b' := by
  refine ⟨?_, h.limit_eq, h.sound⟩
  have hconsumed := h.consumed_eq
  rw [byteSize, byteSize, hsize]
  omega

theorem Inserted.settles {o : Outcome Bool} (h : Inserted t budget isKey row hash o) :
    budget.Settles t.byteSize o.table.byteSize o.budget := by
  cases h with
  | wrongKind => exact .refl budget _
  | full => exact .refl budget _
  | refused => exact .refuse budget _
  | first => exact settles_of_arena Array.size_setIfInBounds (.refl budget _)
  | second _ _ _ _ _ _ _ _ _ hensured =>
    exact settles_of_arena Array.size_setIfInBounds hensured.settles
  | further _ _ _ _ _ _ _ _ hensured =>
    exact settles_of_arena Array.size_setIfInBounds hensured.settles

theorem Resized.settles {size : ℕ} {o : Outcome (Except Error Unit)}
    (h : Resized t budget size o) (hcharged : bucketBytes t.buckets.size ≤ budget.consumed) :
    budget.Settles t.byteSize o.table.byteSize o.budget := by
  cases h with
  | notPower => exact .refl budget _
  | tooFull => exact .refl budget _
  | refused => exact .refuse budget _
  | stuck _ _ _ hadmits => exact .charge_then hadmits (Nat.le_add_right _ _) rfl
  | moved buckets _ _ _ hadmits hmoved =>
    refine .charge_then hadmits (Nat.sub_le _ _) ?_
    show budget.consumed + bucketBytes size - bucketBytes t.buckets.size +
      (bucketBytes t.buckets.size + t.arena.byteSize) =
        budget.consumed + (bucketBytes buckets.size + t.arena.byteSize)
    rw [(relocate_eq_some hmoved).1]
    omega

/-- Making room costs nothing if there is room. -/
theorem exists_makeRoom_settles (more : ℕ) (hcharged : t.Charged budget) :
    ∃ o, t.makeRoom budget more = .ok o ∧
      budget.Settles t.byteSize o.table.byteSize o.budget := by
  have hbuckets : bucketBytes t.buckets.size ≤ budget.consumed :=
    (Nat.le_add_right _ _).trans hcharged
  obtain ⟨o, ho, ⟨htable, hbudget⟩ | ⟨size, hresized⟩⟩ := exists_makeRoom_eq_ok more hbuckets
  · refine ⟨o, ho, ?_⟩
    rw [htable, hbudget]
    exact .refl budget _
  · exact ⟨o, ho, hresized.settles hbuckets⟩

theorem exists_clear_settles (hcharged : t.Charged budget) :
    ∃ b', t.clear budget = .ok (t.cleared, b') ∧
      budget.Settles t.byteSize t.cleared.byteSize b' := by
  have hnodes : t.arena.byteSize ≤ budget.consumed := (Nat.le_add_left _ _).trans hcharged
  obtain ⟨b', hrelease, hsettles⟩ := Budget.exists_release_eq_ok hnodes 0
  refine ⟨b', ?_, settles_of_arena Array.size_replicate ?_⟩
  · rw [clear, Arena.release, hrelease]
    rfl
  · rwa [Nat.zero_add] at hsettles

/-- A table gives back all that it cost. -/
theorem exists_close_settles (hcharged : t.Charged budget) :
    ∃ b', t.close budget = .ok b' ∧ budget.Settles t.byteSize 0 b' := by
  have hsum : bucketBytes t.buckets.size + t.arena.byteSize ≤ budget.consumed := hcharged
  have hbuckets : bucketBytes t.buckets.size ≤ budget.consumed := by omega
  obtain ⟨mid, hmid, hfirst⟩ := Budget.exists_release_eq_ok hbuckets t.arena.byteSize
  have hmidConsumed := hfirst.consumed_eq
  have hnodes : t.arena.byteSize ≤ mid.consumed := by omega
  obtain ⟨b', hb', hsecond⟩ := Budget.exists_release_eq_ok hnodes 0
  refine ⟨b', ?_, ?_⟩
  · rw [close, hmid]
    exact hb'
  · rw [byteSize, Nat.add_comm]
    rw [Nat.zero_add] at hsecond
    exact hfirst.trans hsecond

end Table

end JoinIndex
