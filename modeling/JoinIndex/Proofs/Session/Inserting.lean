import JoinIndex.Proofs.Probe.Exactness
import JoinIndex.Proofs.Session

/-!
Inserting into a table in use. A row is refused if it is not of the table's kind, if it would need a
bucket of its own and there is none, or if it would need free slots for nodes and the budget refuses
the page for them; in no other case. A refusal leaves everything but the counts of searches and
refusals as it was. A row that is taken in changes one bucket, of which it becomes the first row.
-/

set_option autoImplicit false
set_option relaxedAutoImplicit false

namespace JoinIndex

namespace Table

open Probe

variable {t : Table} {budget : Budget} {isKey : RowRef → Bool} {row : RowRef} {hash : UInt32}
  {o : Outcome Bool}

theorem slotsToJoin_of_isFilled {b : Bucket} (h : b.isFilled = true) :
    b.slotsToJoin = if b.hasOverflow then 1 else 2 := by
  cases b with
  | empty => cases h
  | inline => rfl
  | chain => rfl

/-- Slots that were made available were not refused. -/
theorem not_refused_of_ensured {a arena : Arena} {charged : Budget} {count : Nat}
    (h : a.Ensured budget count arena charged) :
    ¬ (a.free < count ∧ budget.admits (a.nextCapacity * Arena.nodeBytes) = false) := by
  rintro ⟨hfree, hrefused⟩
  cases h with
  | free hle => omega
  | page _ hadmits =>
    rw [hadmits] at hrefused
    cases hrefused

/-- The reasons for which a row is refused. -/
def Refuses (t : Table) (budget : Budget) (isKey : RowRef → Bool) (row : RowRef)
    (hash : UInt32) : Prop :=
  row.storage ≠ t.storage ∨
    (∀ p < t.buckets.size, (bucketAt t.buckets p).isFilled = true ∧
      ((bucketAt t.buckets p).hash? = some hash →
        t.holdsKey isKey (bucketAt t.buckets p) = false)) ∨
    ∃ p, Answers t.probing t.buckets hash (t.holdsKey isKey) (.found p) ∧
      t.arena.free < (bucketAt t.buckets p).slotsToJoin ∧
      (budget.tryConsume (t.arena.nextCapacity * Arena.nodeBytes)).1 = false

theorem not_refuses_of_found {p count : Nat} {arena : Arena} {charged : Budget}
    (hsize : PowerOfTwo.IsPower t.buckets.size) (hkind : row.storage = t.storage)
    (hanswers : Answers t.probing t.buckets hash (t.holdsKey isKey) (.found p))
    (hcount : (bucketAt t.buckets p).slotsToJoin = count)
    (hensured : t.arena.Ensured budget count arena charged) :
    ¬ t.Refuses budget isKey row hash := by
  rintro (hnot | hall | ⟨q, hq, hfree, hrefused⟩)
  · exact hnot hkind
  · cases answers_unique hanswers ((answers_exhausted_iff hsize).mpr hall)
  · obtain rfl : p = q := ProbeResult.found.inj (answers_unique hanswers hq)
    rw [hcount] at hfree
    rw [fst_tryConsume] at hrefused
    exact not_refused_of_ensured hensured ⟨hfree, hrefused⟩

theorem Inserted.answer_eq_false_iff (h : Inserted t budget isKey row hash o)
    (hsize : PowerOfTwo.IsPower t.buckets.size) :
    o.answer = false ↔ t.Refuses budget isKey row hash := by
  cases h with
  | wrongKind hkind => exact iff_of_true rfl (Or.inl hkind)
  | full probe hkind hanswers =>
    exact iff_of_true rfl (Or.inr (Or.inl ((answers_exhausted_iff hsize).mp hanswers)))
  | refused probe p count hkind hanswers hcount hfree hadmits =>
    refine iff_of_true rfl (Or.inr (Or.inr ⟨p, hanswers, ?_, ?_⟩))
    · rw [slotsToJoin_of_isFilled hanswers.isFilled, ← hcount]
      exact hfree
    · rw [fst_tryConsume]
      exact hadmits
  | first probe p hkind hanswers =>
    refine iff_of_false Bool.noConfusion ?_
    rintro (hnot | hall | ⟨q, hq, -⟩)
    · exact hnot hkind
    · cases answers_unique hanswers ((answers_exhausted_iff hsize).mpr hall)
    · cases answers_unique hanswers hq
  | second probe p matched first arena charged hkind hanswers hbucket hensured =>
    exact iff_of_false Bool.noConfusion
      (not_refuses_of_found hsize hkind hanswers (by rw [hbucket]; rfl) hensured)
  | further probe p head arena charged hkind hanswers hbucket hensured =>
    exact iff_of_false Bool.noConfusion
      (not_refuses_of_found hsize hkind hanswers (by rw [hbucket]; rfl) hensured)

/-- What is different once a row was taken in, at the place `p`. What concerns chains asks for an
arena of at most `2 ^ 32` pages, past which the indices of nodes would repeat. -/
structure TakesIn (t u : Table) (isKey : RowRef → Bool) (row : RowRef) (hash : UInt32) (p : Nat) :
    Prop where
  lt_size : p < t.buckets.size
  size_eq : u.buckets.size = t.buckets.size
  others : ∀ q, q ≠ p → bucketAt u.buckets q = bucketAt t.buckets q
  /-- The bucket was empty and holds the row now, or it was that of the key and has a chain now. -/
  bucket : (Answers t.probing t.buckets hash (t.holdsKey isKey) (.vacant p) ∧
      bucketAt t.buckets p = .empty ∧ bucketAt u.buckets p = .inline hash false row) ∨
    (Answers t.probing t.buckets hash (t.holdsKey isKey) (.found p) ∧
      (bucketAt t.buckets p).hash? = some hash ∧ ∃ head, bucketAt u.buckets p = .chain hash head)
  /-- The row stands without a mark in front of the rows that were there, with their marks. -/
  rows : u.arena.Addressable → (bucketAt u.buckets p).entries u.arena =
    ⟨row, false⟩ :: (bucketAt t.buckets p).entries t.arena
  /-- The other buckets keep their rows and marks. -/
  others_rows : u.arena.Addressable → ∀ q, q ≠ p →
    (bucketAt u.buckets q).entries u.arena = (bucketAt t.buckets q).entries t.arena
  entries_eq : u.entries = t.entries + 1
  filled_eq : u.filled + (bucketAt t.buckets p).isFilled.toNat = t.filled + 1
  overflowing_eq : u.overflowing + (bucketAt t.buckets p).hasOverflow.toNat =
    t.overflowing + (bucketAt u.buckets p).hasOverflow.toNat
  numNodes_eq : u.arena.numNodes = t.arena.numNodes + (bucketAt t.buckets p).slotsToJoin
  hasMatches_eq : u.hasMatches = t.hasMatches

theorem numNodes_of_ensured {a arena : Arena} {charged : Budget} {count : Nat}
    (h : a.Ensured budget count arena charged) : arena.numNodes = a.numNodes := by
  cases h <;> rfl

/-- What is different once the bucket at a place is written, read off the bucket. -/
theorem takesIn_of_write {u : Table} {p : Nat} {b : Bucket} (hp : p < t.buckets.size)
    (hbuckets : u.buckets = t.buckets.setIfInBounds p b)
    (hbucket : (Answers t.probing t.buckets hash (t.holdsKey isKey) (.vacant p) ∧
        bucketAt t.buckets p = .empty ∧ b = .inline hash false row) ∨
      (Answers t.probing t.buckets hash (t.holdsKey isKey) (.found p) ∧
        (bucketAt t.buckets p).hash? = some hash ∧ ∃ head, b = .chain hash head))
    (hplaced : u.arena.Addressable → t.Linked ∧ Placed t u hash row p)
    (hentries : u.entries = t.entries + 1)
    (hfilled : u.filled + (bucketAt t.buckets p).isFilled.toNat = t.filled + 1)
    (hoverflowing : u.overflowing + (bucketAt t.buckets p).hasOverflow.toNat =
      t.overflowing + b.hasOverflow.toNat)
    (hnodes : u.arena.numNodes = t.arena.numNodes + (bucketAt t.buckets p).slotsToJoin)
    (hmatches : u.hasMatches = t.hasMatches) : TakesIn t u isKey row hash p := by
  have hat : ∀ q, bucketAt u.buckets q = if p = q then b else bucketAt t.buckets q := by
    rw [hbuckets]
    exact bucketAt_setIfInBounds hp b
  have hself : bucketAt u.buckets p = b := (hat p).trans (if_pos rfl)
  refine ⟨hp, ?_, fun q hq ↦ (hat q).trans (if_neg hq.symm), hself ▸ hbucket,
    fun haddr ↦ (hplaced haddr).2.entries_eq (hplaced haddr).1,
    fun haddr q hq ↦ ((hplaced haddr).2.others (hplaced haddr).1 hq).2, hentries, hfilled,
    hself ▸ hoverflowing, hnodes, hmatches⟩
  rw [hbuckets, Array.size_setIfInBounds]

theorem Inserted.exists_takesIn (hins : Inserted t budget isKey row hash o)
    (htrue : o.answer = true) (h : t.Intact) : ∃ p, TakesIn t o.table isKey row hash p := by
  have hplaced : ∀ p, (Answers t.probing t.buckets hash (t.holdsKey isKey) (.vacant p) ∨
      Answers t.probing t.buckets hash (t.holdsKey isKey) (.found p)) →
      o.table.arena.Addressable → t.Linked ∧ Placed t o.table hash row p := by
    intro p hanswers haddr
    obtain ⟨q, hq, hplaced⟩ := hins.exists_placed htrue h haddr
    have heq : p = q := by
      rcases hanswers with hp | hp <;> rcases hq with hq | hq <;>
        cases answers_unique hp hq <;> rfl
    exact ⟨h.linked (hins.addressable haddr), heq ▸ hplaced⟩
  cases hins with
  | wrongKind => cases htrue
  | full => cases htrue
  | refused => cases htrue
  | first probe p _ hanswers =>
    have hplaced := hplaced p (Or.inl hanswers)
    have hempty := hanswers.eq_empty
    exact ⟨p, takesIn_of_write hanswers.reaches.lt_size rfl (Or.inl ⟨hanswers, hempty, rfl⟩) hplaced
      rfl (by rw [hempty]; rfl) (by rw [hempty]; rfl) (by rw [hempty]; rfl) rfl⟩
  | second probe p matched first arena charged _ hanswers hbucket hensured =>
    have hplaced := hplaced p (Or.inr hanswers)
    have hp := lt_size_of_isFilled hanswers.isFilled
    have hnodes := numNodes_of_ensured hensured
    exact ⟨p, takesIn_of_write hp rfl (Or.inr ⟨hanswers, hanswers.hash?_eq, _, rfl⟩) hplaced rfl
      (by rw [hbucket]; rfl) (by rw [hbucket]; rfl) (by rw [hbucket, ← hnodes]; rfl) rfl⟩
  | further probe p old arena charged _ hanswers hbucket hensured =>
    have hplaced := hplaced p (Or.inr hanswers)
    have hp := lt_size_of_isFilled hanswers.isFilled
    have hnodes := numNodes_of_ensured hensured
    exact ⟨p, takesIn_of_write hp rfl (Or.inr ⟨hanswers, hanswers.hash?_eq, _, rfl⟩) hplaced rfl
      (by rw [hbucket]; rfl) (by rw [hbucket]; rfl) (by rw [hbucket, ← hnodes]; rfl) rfl⟩

/-- What the table charges more, the budget has granted. -/
theorem Inserted.byteSize_eq (h : Inserted t budget isKey row hash o) :
    o.table.byteSize + budget.consumed = t.byteSize + o.budget.consumed := by
  obtain ⟨pages, -, hsize, -, hbytes, hconsumed, -⟩ := h.exists_pages
  rw [byteSize, byteSize, hsize, hbytes, hconsumed]
  omega

end Table

namespace Session

open Table

variable {s : Session}

/-- After any operations on a new table, for any context, reference and hash: an insertion answers
false for the reasons of `Refuses` and for no others, and leaves the table and the budget as they
were but for the counts of searches and of refusals; if it answers true, one bucket has the row in
front of its rows, and the others are as they were. What the table is larger by, the budget was
charged for. -/
theorem run_insert_exact {config : Config} {stored : Bool} {budget : Budget} {rows : RowStore}
    (h : create config stored budget rows = .ok s) (ops : List Op) :
    ∃ s', s.run ops = .ok s' ∧ ∀ (context : KeyContext) (row : RowRef) (hash : UInt32),
      let isKey := context.holds s'.rows
      let o := s'.table.insert s'.budget s'.rows context row hash
      (o.answer = false ↔ s'.table.Refuses s'.budget isKey row hash) ∧
      (o.answer = false →
        o.table = { s'.table with counts := o.table.counts } ∧
        o.budget = { s'.budget with refusals := o.budget.refusals } ∧
        (row.storage ≠ s'.table.storage → o.table = s'.table ∧ o.budget = s'.budget)) ∧
      (o.answer = true → ∃ p, TakesIn s'.table o.table isKey row hash p) ∧
      o.table.byteSize + s'.budget.consumed = s'.table.byteSize + o.budget.consumed := by
  obtain ⟨s', hrun, -, hintact⟩ := exists_run_eq_ok (P := fun s ↦ s.table.Intact)
    (fun _ _ hs hchanges ↦ hchanges.intact hs) (solvent_create h) (intact_create h) ops
  refine ⟨s', hrun, fun context row hash ↦ ?_⟩
  have hins := insert_inserted s'.table s'.budget s'.rows context row hash
  exact ⟨hins.answer_eq_false_iff hintact.sound.size_isPower, hins.unchanged,
    fun htrue ↦ hins.exists_takesIn htrue hintact, hins.byteSize_eq⟩

/-- The small session has two rows with the key 1, and a third one joins them. An index into a row
store is no row for its table. -/
theorem run_insert_exact_small :
    create (.linear 2) false (Budget.unlimited "small") (.new 1) = .ok smallStart ∧
      ∃ s', smallStart.run smallOps = .ok s' ∧
        (s'.table.insert s'.budget s'.rows (intContext 1) (.indexed ⟨0, 0⟩) 5).answer = false ∧
        let o := s'.table.insert s'.budget s'.rows (intContext 1) (intRow 4 1) 5
        o.answer = true ∧ o.table.arena.Addressable ∧
          ∃ p, (bucketAt o.table.buckets p).entries o.table.arena =
            ⟨intRow 4 1, false⟩ :: (bucketAt s'.table.buckets p).entries s'.table.arena := by
  obtain ⟨s', hrun, hall⟩ := run_insert_exact create_small smallOps
  have hstate : (smallStart.run smallOps).map (fun s ↦
      let o := s.table.insert s.budget s.rows (intContext 1) (intRow 4 1) 5
      (s.table.storage, o.answer, o.table.arena.pages.size)) = .ok (.direct, true, 1) := by cbv
  rw [hrun] at hstate
  obtain ⟨hstorage, hrest⟩ := Prod.mk.inj (Except.ok.inj hstate)
  obtain ⟨htrue, hpages⟩ := Prod.mk.inj hrest
  have haddr : (s'.table.insert s'.budget s'.rows (intContext 1)
      (intRow 4 1) 5).table.arena.Addressable := by
    rw [Arena.Addressable, hpages]
    decide
  obtain ⟨hindex, -⟩ := hall (intContext 1) (.indexed ⟨0, 0⟩) 5
  obtain ⟨-, -, htakes, -⟩ := hall (intContext 1) (intRow 4 1) 5
  obtain ⟨p, hp⟩ := htakes htrue
  refine ⟨create_small, s', hrun, hindex.mpr (Or.inl ?_), htrue, haddr, p, hp.rows haddr⟩
  rw [hstorage]
  decide

end Session

end JoinIndex
