import JoinIndex.Proofs.Table.Chains

/-!
Where a row goes that is taken in. It goes into one bucket, in front of the rows that the bucket
had, and all other buckets keep their rows and marks. `Placed` gives the three ways in which the
bucket is written; each of them is a `Writes`, so that the chains of the table come with it.

A row that joins others needs free slots, which are reserved for all its nodes at once. The slots
are there when the nodes are allocated: `allocDuplicate_eq` takes the row in node by node, and no
allocation after the reservation asks the budget for anything.
-/

set_option autoImplicit false
set_option relaxedAutoImplicit false

namespace JoinIndex

namespace Bucket

/-- The free slots that one more row takes: one for itself, and one for a row that is in no chain
yet. -/
def slotsToJoin : Bucket → Nat
  | empty => 0
  | inline _ _ _ => 2
  | chain _ _ => 1

end Bucket

namespace Table

open Probe

variable {t u : Table} {budget : Budget} {isKey : RowRef → Bool} {row : RowRef} {hash : UInt32}
  {p : Nat} {o : Outcome Bool}

/-! ### The bucket that is written -/

/-- The ways in which a row is put into the bucket at a place. -/
inductive Placed (t u : Table) (hash : UInt32) (row : RowRef) (p : Nat) : Prop where
  | alone (hempty : bucketAt t.buckets p = .empty)
      (hwrites : Writes t u p (.inline hash false row) []) : Placed t u hash row p
  | second (matched : Bool) (first : RowRef) (head tail : NodeIndex)
      (hbucket : bucketAt t.buckets p = .inline hash matched first)
      (hwrites : Writes t u p (.chain hash head) [head, tail])
      (hhead : u.arena.get? head = some ⟨row, false, some tail⟩)
      (htail : u.arena.get? tail = some ⟨first, matched, none⟩) : Placed t u hash row p
  | further (old head : NodeIndex) (hbucket : bucketAt t.buckets p = .chain hash old)
      (hwrites : Writes t u p (.chain hash head) [head])
      (hhead : u.arena.get? head = some ⟨row, false, some old⟩) : Placed t u hash row p

theorem Writes.bucketAt_self {b : Bucket} {added : List NodeIndex} (hw : Writes t u p b added) :
    bucketAt u.buckets p = b := by
  rw [hw.buckets_eq, bucketAt_setIfInBounds hw.lt_size, if_pos rfl]

theorem Writes.bucketAt_of_ne {b : Bucket} {added : List NodeIndex} (hw : Writes t u p b added)
    {q : Nat} (hq : q ≠ p) : bucketAt u.buckets q = bucketAt t.buckets q := by
  rw [hw.buckets_eq, bucketAt_setIfInBounds hw.lt_size, if_neg hq.symm]

theorem adds_of_ensured {a b arena : Arena} {charged : Budget} {count : Nat}
    {added : List NodeIndex} (hensured : a.Ensured budget count arena charged)
    (h : arena.Adds b added) : a.Adds b added := by
  cases hensured with
  | free => exact h
  | page =>
    refine ⟨⟨fun i node hi ↦ h.get?_eq i node ?_, h.numNodes_le⟩, h.nodup, fun i hi ↦ ?_,
      fun i ↦ ?_, h.numNodes_eq⟩
    · rwa [Arena.get?_grown]
    · rw [← Arena.get?_grown]
      exact h.get?_eq_none i hi
    · rw [h.isSome_get?_iff, Arena.get?_grown]

theorem nodes_of_ensured {a arena : Arena} {charged : Budget} {count : Nat}
    (hensured : a.Ensured budget count arena charged) (b : Bucket) : b.nodes arena = b.nodes a := by
  cases hensured with
  | free => rfl
  | page => exact Arena.trail_congr (fun i ↦ by rw [Arena.get?_grown]) _ _

/-- Slots that were made available before a bucket is written make no difference to it. -/
theorem Writes.of_ensured {probe : Probe} {arena : Arena} {charged : Budget} {count : Nat}
    {b : Bucket} {added : List NodeIndex} (hensured : t.arena.Ensured budget count arena charged)
    (hw : Writes ((t.searched probe).withArena arena) u p b added) : Writes t u p b added := by
  have hnodes := nodes_of_ensured hensured (bucketAt t.buckets p)
  have hlinks := hw.links
  have htwo := hw.two_le
  change u.arena.Links b.head? (added ++ (bucketAt t.buckets p).nodes arena) at hlinks
  change b.hasOverflow = true →
    2 ≤ (added ++ (bucketAt t.buckets p).nodes arena).length at htwo
  rw [hnodes] at hlinks htwo
  exact ⟨hw.lt_size, hw.buckets_eq, hw.isFilled, adds_of_ensured hensured hw.adds, hlinks, htwo⟩

/-- Making slots available moves no row. -/
theorem Intact.withArena {budget charged : Budget} {count : Nat} {arena : Arena} (h : t.Intact)
    (probe : Probe) (hensured : t.arena.Ensured budget count arena charged) :
    ((t.searched probe).withArena arena).Intact :=
  (moves_withArena_of_ensured probe hensured).intact h

/-- A row that is taken in is put into the bucket that the search answers. -/
theorem Inserted.exists_placed (hins : Inserted t budget isKey row hash o)
    (htrue : o.answer = true) (h : t.Intact) (haddr : o.table.arena.Addressable) :
    ∃ p, (Answers t.probing t.buckets hash (t.holdsKey isKey) (.vacant p) ∨
      Answers t.probing t.buckets hash (t.holdsKey isKey) (.found p)) ∧
      Placed t o.table hash row p := by
  cases hins with
  | wrongKind => cases htrue
  | full => cases htrue
  | refused => cases htrue
  | first probe p _ hanswers =>
    have hempty := hanswers.eq_empty
    have hw : Writes ((t.searched probe).withArena t.arena) ((t.searched probe).fill p hash row) p
        (.inline hash false row) [] := writes_fill row hempty hanswers.reaches.lt_size
    have hensured : t.arena.Ensured budget 0 t.arena budget := .free (Nat.zero_le _)
    exact ⟨p, Or.inl hanswers, .alone hempty (hw.of_ensured hensured)⟩
  | second probe p matched first arena charged _ hanswers hbucket hensured =>
    have hintact := h.withArena probe hensured
    have hfree : 2 ≤ arena.free := hensured.le_free h.sound.arena (by decide)
    have haddr : arena.Addressable := by
      rwa [promote, Arena.Addressable, Arena.size_pages_push, Arena.size_pages_push] at haddr
    obtain ⟨htail, hhead, -⟩ := @promote_nodes ((t.searched probe).withArena arena) hash matched
      first p row hintact.sound.arena haddr hfree
    have hw := writes_promote (t := (t.searched probe).withArena arena) row hintact.sound.arena
      haddr hbucket hfree
    exact ⟨p, Or.inr hanswers,
      .second matched first _ _ hbucket (hw.of_ensured hensured) hhead htail⟩
  | further probe p old arena charged _ hanswers hbucket hensured =>
    have hintact := h.withArena probe hensured
    have hfree : 1 ≤ arena.free := hensured.le_free h.sound.arena (by decide)
    have haddr : arena.Addressable := by
      rwa [prepend, Arena.Addressable, Arena.size_pages_push] at haddr
    have hhead := @get?_prepend ((t.searched probe).withArena arena) hash old p row
      hintact.sound.arena haddr hfree
    have hw := writes_prepend (t := (t.searched probe).withArena arena) row
      (hintact.linked haddr) hintact.sound.arena haddr hbucket hfree
    exact ⟨p, Or.inr hanswers, .further old _ hbucket (hw.of_ensured hensured) hhead⟩

/-- A refusal moves the counts of searches and of refusals at most, and these only for a row of the
table's kind. -/
theorem Inserted.unchanged (h : Inserted t budget isKey row hash o) (hfalse : o.answer = false) :
    o.table = { t with counts := o.table.counts } ∧
      o.budget = { budget with refusals := o.budget.refusals } ∧
      (row.storage ≠ t.storage → o.table = t ∧ o.budget = budget) := by
  cases h with
  | wrongKind => exact ⟨rfl, rfl, fun _ ↦ ⟨rfl, rfl⟩⟩
  | full probe hkind => exact ⟨rfl, rfl, fun hnot ↦ absurd hkind hnot⟩
  | refused probe p count hkind => exact ⟨rfl, rfl, fun hnot ↦ absurd hkind hnot⟩
  | first => cases hfalse
  | second => cases hfalse
  | further => cases hfalse

/-- An insertion sets no mark. -/
theorem Inserted.hasMatches_eq (h : Inserted t budget isKey row hash o) :
    o.table.hasMatches = t.hasMatches := by
  cases h <;> rfl

theorem Placed.exists_writes (h : Placed t u hash row p) :
    ∃ b added, Writes t u p b added ∧ bucketAt u.buckets p = b := by
  cases h with
  | alone _ hw => exact ⟨_, _, hw, hw.bucketAt_self⟩
  | second _ _ _ _ _ hw => exact ⟨_, _, hw, hw.bucketAt_self⟩
  | further _ _ _ hw => exact ⟨_, _, hw, hw.bucketAt_self⟩

theorem Placed.hash?_eq (h : Placed t u hash row p) :
    (bucketAt u.buckets p).hash? = some hash := by
  cases h with
  | alone _ hw => rw [hw.bucketAt_self, Bucket.hash?]
  | second _ _ _ _ _ hw => rw [hw.bucketAt_self, Bucket.hash?]
  | further _ _ _ hw => rw [hw.bucketAt_self, Bucket.hash?]

/-- The other buckets stay, with their rows and marks. -/
theorem Placed.others (h : Placed t u hash row p) (hlinked : t.Linked) {q : Nat} (hq : q ≠ p) :
    bucketAt u.buckets q = bucketAt t.buckets q ∧
      (bucketAt u.buckets q).entries u.arena = (bucketAt t.buckets q).entries t.arena := by
  obtain ⟨b, added, hw, -⟩ := h.exists_writes
  refine ⟨hw.bucketAt_of_ne hq, ?_⟩
  rw [hw.bucketAt_of_ne hq,
    Bucket.entries_extends (hlinked.links_bucketAt q) hw.adds.toExtends]

/-- The row stands in front of the rows that the bucket had, without a mark. -/
theorem Placed.entries_eq (h : Placed t u hash row p) (hlinked : t.Linked) :
    (bucketAt u.buckets p).entries u.arena =
      ⟨row, false⟩ :: (bucketAt t.buckets p).entries t.arena := by
  have hlinks := hlinked.links_bucketAt p
  cases h with
  | alone hempty hw =>
    rw [hw.bucketAt_self, hempty]
    rfl
  | second matched first head tail hbucket hw hhead htail =>
    have hnodes := hw.nodes_eq
    have hold : (bucketAt t.buckets p).entries t.arena = [⟨first, matched⟩] := by
      rw [hbucket]
      rfl
    rw [hbucket, Bucket.nodes_inline, List.append_nil] at hnodes
    rw [hold, hw.bucketAt_self, Bucket.entries, hnodes, List.filterMap_cons, hhead,
      List.filterMap_cons, htail]
    rfl
  | further old head hbucket hw hhead =>
    have hnodes := hw.nodes_eq
    have hkept := Bucket.entries_extends hlinks hw.adds.toExtends
    have hsame := Bucket.nodes_extends hlinks hw.adds.toExtends
    rw [hbucket] at hnodes hkept hsame
    rw [hw.bucketAt_self, hbucket, ← hkept, Bucket.entries, Bucket.entries, hnodes, hsame,
      List.singleton_append, List.filterMap_cons, hhead]
    rfl

/-! ### Node by node -/

/-- Takes in another row node by node: slots are reserved, and then each node is allocated, which
asks for a page where there is no free slot. -/
def allocDuplicate (t : Table) (budget : Budget) (p : Nat) (row : RowRef) :
    Except Fault (Outcome Bool) :=
  match bucketAt t.buckets p with
  | .empty => .ok ⟨false, t, budget⟩
  | .inline hash matched first => do
    let (reserved, arena, budget) ← t.arena.reserve budget 2
    if !reserved then return ⟨false, t.withArena arena, budget⟩
    match arena.alloc budget ⟨first, matched, none⟩ with
    | (none, arena, budget) => return ⟨false, t.withArena arena, budget⟩
    | (some tail, arena, budget) =>
      match arena.alloc budget ⟨row, false, some tail⟩ with
      | (none, arena, budget) => return ⟨false, t.withArena arena, budget⟩
      | (some head, arena, budget) =>
        return ⟨true,
          { t with
            buckets := t.buckets.setIfInBounds p (.chain hash head)
            arena
            entries := t.entries + 1
            overflowing := t.overflowing + 1 },
          budget⟩
  | .chain hash next => do
    let (reserved, arena, budget) ← t.arena.reserve budget 1
    if !reserved then return ⟨false, t.withArena arena, budget⟩
    match arena.alloc budget ⟨row, false, some next⟩ with
    | (none, arena, budget) => return ⟨false, t.withArena arena, budget⟩
    | (some head, arena, budget) =>
      return ⟨true,
        { t with
          buckets := t.buckets.setIfInBounds p (.chain hash head)
          arena
          entries := t.entries + 1 },
        budget⟩

/-- After a reservation no allocation asks for a page, however full the pages are. -/
theorem allocDuplicate_eq (h : t.arena.Sound) (budget : Budget) (p : Nat) (row : RowRef) :
    t.allocDuplicate budget p row = .ok (t.addDuplicate budget p row) := by
  have hreserve : ∀ count ≤ Arena.minPageNodes,
      t.arena.reserve budget count = .ok (t.arena.ensure budget count) :=
    fun count hcount ↦ if_pos hcount
  cases hbucket : bucketAt t.buckets p with
  | empty =>
    rw [allocDuplicate, hbucket]
    change t.buckets.getD p .empty = _ at hbucket
    rw [addDuplicate, hbucket]
  | inline hash matched first =>
    rw [allocDuplicate, hbucket, addDuplicate_inline hbucket]
    simp only [hreserve 2 (by decide)]
    rcases t.arena.ensure_cases budget 2 with ⟨arena, charged, heq, hensured⟩ | ⟨heq, -, -⟩
    · have htwo : 2 ≤ arena.free := hensured.le_free h (by decide)
      have hfree : 0 < arena.free := by omega
      have hfree' : 0 < (arena.push ⟨first, matched, none⟩).free := by
        change 0 < arena.free - 1
        omega
      simp only [heq, bind, Except.bind, Arena.alloc_eq_of_free hfree,
        Arena.alloc_eq_of_free hfree', Bool.not_true, Bool.false_eq_true, if_false]
      rfl
    · rw [heq]
      rfl
  | chain hash next =>
    rw [allocDuplicate, hbucket, addDuplicate_chain hbucket]
    simp only [hreserve 1 (by decide)]
    rcases t.arena.ensure_cases budget 1 with ⟨arena, charged, heq, hensured⟩ | ⟨heq, -, -⟩
    · have hfree : 0 < arena.free := hensured.le_free h (by decide)
      simp only [heq, bind, Except.bind, Arena.alloc_eq_of_free hfree, Bool.not_true,
        Bool.false_eq_true, if_false]
      rfl
    · rw [heq]
      rfl

end Table

end JoinIndex
