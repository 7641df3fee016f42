import JoinIndex.Proofs.Cursor.Related
import JoinIndex.Proofs.Table.Moves

/-!
What a table counts for statistics, its searches and its resizes, no operation reads. A table that
counts on from earlier totals goes the way of a table that counts from zero: each operation answers
the same on both, the cursors are the same, and afterwards the totals are as far apart as before.
-/

set_option autoImplicit false
set_option relaxedAutoImplicit false

namespace JoinIndex

/-- The totals of two series of searches. -/
def ProbeCounts.plus (c d : ProbeCounts) : ProbeCounts :=
  ⟨c.probes + d.probes, c.collisions + d.collisions, c.travel + d.travel⟩

theorem ProbeCounts.plus_add (c d : ProbeCounts) (p : Probe) :
    (c.plus d).add p = c.plus (d.add p) := by
  simp [plus, add, Nat.add_assoc]

/-- The table as it is if it has counted on from earlier searches and resizes. -/
def Table.countingFrom (counts : ProbeCounts) (resizes : ℕ) (t : Table) : Table :=
  { t with counts := counts.plus t.counts, resizes := resizes + t.resizes }

def Outcome.countingFrom {α : Type} (counts : ProbeCounts) (resizes : ℕ) (o : Outcome α) :
    Outcome α :=
  { o with table := o.table.countingFrom counts resizes }

variable (counts : ProbeCounts) (resizes : ℕ) (t : Table)

namespace Table

@[simp] theorem buckets_countingFrom : (t.countingFrom counts resizes).buckets = t.buckets :=
  rfl

@[simp] theorem arena_countingFrom : (t.countingFrom counts resizes).arena = t.arena :=
  rfl

@[simp] theorem filled_countingFrom : (t.countingFrom counts resizes).filled = t.filled :=
  rfl

@[simp] theorem probing_countingFrom : (t.countingFrom counts resizes).probing = t.probing :=
  rfl

@[simp] theorem storage_countingFrom : (t.countingFrom counts resizes).storage = t.storage :=
  rfl

end Table

/-! ### Cursors -/

namespace Cursor

variable (c : Cursor)

theorem nextNode?_countingFrom : c.nextNode? (t.countingFrom counts resizes) = c.nextNode? t :=
  rfl

theorem isMatched_countingFrom : c.isMatched (t.countingFrom counts resizes) = c.isMatched t :=
  rfl

theorem view_countingFrom : c.view (t.countingFrom counts resizes) = c.view t :=
  rfl

end Cursor

namespace Table

theorem firstFilled?_countingFrom (start count : ℕ) :
    (t.countingFrom counts resizes).firstFilled? start count = t.firstFilled? start count := by
  induction count generalizing start with
  | zero => rfl
  | succ count ih =>
    rw [firstFilled?, firstFilled?, ih]
    rfl

theorem seek_countingFrom (start : ℕ) :
    (t.countingFrom counts resizes).seek start = t.seek start := by
  rw [seek, seek, firstFilled?_countingFrom]
  rfl

end Table

namespace Cursor

variable (c : Cursor)

theorem next_countingFrom : c.next (t.countingFrom counts resizes) = c.next t := by
  cases c with
  | atEnd => rfl
  | on p node =>
    rw [next, next, nextNode?_countingFrom, Table.seek_countingFrom]

theorem nextDuplicate_countingFrom :
    c.nextDuplicate (t.countingFrom counts resizes) = c.nextDuplicate t :=
  rfl

theorem skipMatched_countingFrom (steps : ℕ) :
    c.skipMatched (t.countingFrom counts resizes) steps = c.skipMatched t steps := by
  induction steps generalizing c with
  | zero => rfl
  | succ steps ih =>
    rw [skipMatched, skipMatched, isMatched_countingFrom, next_countingFrom, ih]

theorem advance_countingFrom (way : Advance) :
    c.advance (t.countingFrom counts resizes) way = c.advance t way := by
  cases way with
  | next => exact c.next_countingFrom counts resizes t
  | duplicate => exact c.nextDuplicate_countingFrom counts resizes t
  | unmatched =>
    rw [advance, advance, nextUnmatched, nextUnmatched, next_countingFrom,
      skipMatched_countingFrom]
    rfl

theorem positions_countingFrom (way : Advance) :
    c.positions (t.countingFrom counts resizes) way = c.positions t way := by
  have hupTo : ∀ (count : ℕ) (c : Cursor),
      c.positionsUpTo (t.countingFrom counts resizes) way count = c.positionsUpTo t way count := by
    intro count
    induction count with
    | zero => exact fun _ ↦ rfl
    | succ count ih =>
      intro c
      cases c with
      | atEnd => rfl
      | on p node => rw [positionsUpTo, positionsUpTo, advance_countingFrom, ih]
  exact hupTo t.entries c

theorem setMatched_countingFrom :
    c.setMatched (t.countingFrom counts resizes) =
      (c.setMatched t).countingFrom counts resizes := by
  match c with
  | .atEnd => rfl
  | .on _ (some _) => rfl
  | .on _ none => rfl

theorem take_countingFrom (rows : RowStore) (step : Step) :
    c.take (t.countingFrom counts resizes) rows step =
      ((c.take t rows step).1, (c.take t rows step).2.1,
        (c.take t rows step).2.2.countingFrom counts resizes) := by
  cases step with
  | advance way => rw [take, take, advance_countingFrom]
  | mark => rw [take, take, setMatched_countingFrom]
  | row => rfl
  | ref => rfl
  | readAll way =>
    rw [take, take, positions_countingFrom]
    rfl

/-- The induction is on the steps: the cursor and the table are whatever the step before left. -/
theorem walk_countingFrom (rows : RowStore) (steps : List Step) :
    c.walk (t.countingFrom counts resizes) rows steps =
      ((c.walk t rows steps).1, (c.walk t rows steps).2.countingFrom counts resizes) := by
  induction steps generalizing c t with
  | nil => rfl
  | cons step steps ih =>
    rw [walk, walk, take_countingFrom]
    dsimp only
    rw [ih, view_countingFrom]

end Cursor

namespace Table

theorem firstUnmatched_countingFrom :
    (t.countingFrom counts resizes).firstUnmatched = t.firstUnmatched := by
  rw [firstUnmatched, firstUnmatched, first, first, seek_countingFrom,
    Cursor.skipMatched_countingFrom]
  rfl

/-! ### Searching and taking in a row -/

theorem searched_countingFrom (p : Probe) :
    (t.countingFrom counts resizes).searched p = (t.searched p).countingFrom counts resizes := by
  unfold searched countingFrom
  rw [ProbeCounts.plus_add]

theorem probe_countingFrom (isKey : RowRef → Bool) (hash : UInt32) :
    (t.countingFrom counts resizes).probe isKey hash =
      ((t.probe isKey hash).1, (t.probe isKey hash).2.countingFrom counts resizes) :=
  congrArg (Prod.mk _) (t.searched_countingFrom counts resizes _)

theorem find_countingFrom (rows : RowStore) (context : KeyContext) (hash : UInt32) :
    (t.countingFrom counts resizes).find rows context hash =
      ((t.find rows context hash).1, (t.find rows context hash).2.countingFrom counts resizes) := by
  rw [find, find, probe_countingFrom]
  obtain ⟨result, searched⟩ := t.probe (context.holds rows) hash
  cases result <;> rfl

theorem addDuplicate_countingFrom (budget : Budget) (p : ℕ) (row : RowRef) :
    (t.countingFrom counts resizes).addDuplicate budget p row =
      (t.addDuplicate budget p row).countingFrom counts resizes := by
  rw [addDuplicate, addDuplicate, buckets_countingFrom, arena_countingFrom]
  cases t.buckets.getD p .empty with
  | empty => rfl
  | inline hash matched first =>
    dsimp only
    obtain ⟨granted, arena, charged⟩ := t.arena.ensure budget 2
    cases granted <;> rfl
  | chain hash head =>
    dsimp only
    obtain ⟨granted, arena, charged⟩ := t.arena.ensure budget 1
    cases granted <;> rfl

theorem insert_countingFrom (budget : Budget) (rows : RowStore) (context : KeyContext)
    (row : RowRef) (hash : UInt32) :
    (t.countingFrom counts resizes).insert budget rows context row hash =
      (t.insert budget rows context row hash).countingFrom counts resizes := by
  rw [insert, insert, storage_countingFrom, probe_countingFrom]
  split_ifs
  · obtain ⟨result, searched⟩ := t.probe (context.holds rows) hash
    cases result with
    | vacant p => rfl
    | found p => exact searched.addDuplicate_countingFrom counts resizes budget p row
    | exhausted => rfl
  · rfl

/-! ### Resizing and clearing -/

theorem resize_countingFrom (budget : Budget) (size : ℕ) :
    (t.countingFrom counts resizes).resize budget size =
      (t.resize budget size).map (Outcome.countingFrom counts resizes) := by
  rw [resize, resize, buckets_countingFrom, filled_countingFrom, probing_countingFrom]
  split_ifs
  · rfl
  · rfl
  · cases relocate t.probing t.buckets size with
    | none =>
      dsimp only
      cases (budget.charge (bucketBytes size)).release (bucketBytes size) <;> rfl
    | some buckets =>
      dsimp only
      cases (budget.charge (bucketBytes size)).release (bucketBytes t.buckets.size) <;> rfl
  · rfl

theorem makeRoom_countingFrom (budget : Budget) (more : ℕ) :
    (t.countingFrom counts resizes).makeRoom budget more =
      (t.makeRoom budget more).map (Outcome.countingFrom counts resizes) := by
  rw [makeRoom, makeRoom, buckets_countingFrom, filled_countingFrom]
  cases roomyCount? (min (t.filled + more) (Budget.wordRange - 1)) t.buckets.size
      (Config.maxBuckets.log2 - t.buckets.size.log2) with
  | none => rfl
  | some size =>
    dsimp only
    split_ifs
    · rfl
    · exact t.resize_countingFrom counts resizes budget size

theorem clear_countingFrom (budget : Budget) :
    (t.countingFrom counts resizes).clear budget =
      (t.clear budget).map fun r ↦ (r.1.countingFrom counts resizes, r.2) := by
  rw [clear, clear, arena_countingFrom]
  cases t.arena.release budget <;> rfl

end Table

end JoinIndex
