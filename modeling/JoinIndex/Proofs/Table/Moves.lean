import JoinIndex.Cursor.Walk
import JoinIndex.Proofs.Arena.Links
import JoinIndex.Proofs.Probe.Search
import JoinIndex.Proofs.Table.Relocation

/-!
What the operations of a table do to it, said once. `Inserted` lists the ways in which a row is
taken in or refused, with the conditions of each; `Move` lists the elementary changes, and every
operation is a sequence of them. What moves keep, every run of operations keeps.
-/

set_option autoImplicit false
set_option relaxedAutoImplicit false

namespace JoinIndex.Table

open Probe Relation

variable {t : Table} {budget : Budget} {isKey : RowRef → Bool} {row : RowRef} {hash : UInt32}

/-! ### Taking in a row -/

def searched (t : Table) (p : Probe) : Table :=
  { t with counts := t.counts.add p }

def withArena (t : Table) (arena : Arena) : Table :=
  { t with arena }

/-- Moves the row of a bucket into a chain and puts another one in front of it. -/
def promote (t : Table) (p : Nat) (hash : UInt32) (matched : Bool) (first row : RowRef) : Table :=
  let tail := t.arena.nextIndex
  let arena := t.arena.push ⟨first, matched, none⟩
  { t with
    buckets := t.buckets.setIfInBounds p (.chain hash arena.nextIndex)
    arena := arena.push ⟨row, false, some tail⟩
    entries := t.entries + 1
    overflowing := t.overflowing + 1 }

/-- Puts another row in front of a chain. -/
def prepend (t : Table) (p : Nat) (hash : UInt32) (head : NodeIndex) (row : RowRef) : Table :=
  { t with
    buckets := t.buckets.setIfInBounds p (.chain hash t.arena.nextIndex)
    arena := t.arena.push ⟨row, false, some head⟩
    entries := t.entries + 1 }

/-- The buckets that a search of the table looks for. -/
def holdsKey (t : Table) (isKey : RowRef → Bool) (b : Bucket) : Bool :=
  (b.firstRow? t.arena).any isKey

/-- The ways in which a row is taken in or refused. -/
inductive Inserted (t : Table) (budget : Budget) (isKey : RowRef → Bool) (row : RowRef)
    (hash : UInt32) : Outcome Bool → Prop where
  | wrongKind (hkind : row.storage ≠ t.storage) : Inserted t budget isKey row hash
      ⟨false, t, budget⟩
  | full (probe : Probe) (hkind : row.storage = t.storage)
      (hanswers : Answers t.probing t.buckets hash (t.holdsKey isKey) .exhausted) :
      Inserted t budget isKey row hash ⟨false, t.searched probe, budget⟩
  | first (probe : Probe) (p : Nat) (hkind : row.storage = t.storage)
      (hanswers : Answers t.probing t.buckets hash (t.holdsKey isKey) (.vacant p)) :
      Inserted t budget isKey row hash ⟨true, (t.searched probe).fill p hash row, budget⟩
  | refused (probe : Probe) (p count : Nat) (hkind : row.storage = t.storage)
      (hanswers : Answers t.probing t.buckets hash (t.holdsKey isKey) (.found p))
      (hcount : count = if (bucketAt t.buckets p).hasOverflow then 1 else 2)
      (hfree : t.arena.free < count)
      (hadmits : budget.admits (t.arena.nextCapacity * Arena.nodeBytes) = false) :
      Inserted t budget isKey row hash ⟨false, t.searched probe, budget.refuse⟩
  | second (probe : Probe) (p : Nat) (matched : Bool) (first : RowRef) (arena : Arena)
      (charged : Budget) (hkind : row.storage = t.storage)
      (hanswers : Answers t.probing t.buckets hash (t.holdsKey isKey) (.found p))
      (hbucket : bucketAt t.buckets p = .inline hash matched first)
      (hensured : t.arena.Ensured budget 2 arena charged) :
      Inserted t budget isKey row hash
        ⟨true, ((t.searched probe).withArena arena).promote p hash matched first row, charged⟩
  | further (probe : Probe) (p : Nat) (head : NodeIndex) (arena : Arena) (charged : Budget)
      (hkind : row.storage = t.storage)
      (hanswers : Answers t.probing t.buckets hash (t.holdsKey isKey) (.found p))
      (hbucket : bucketAt t.buckets p = .chain hash head)
      (hensured : t.arena.Ensured budget 1 arena charged) :
      Inserted t budget isKey row hash
        ⟨true, ((t.searched probe).withArena arena).prepend p hash head row, charged⟩

theorem addDuplicate_inline {p : Nat} {matched : Bool} {first : RowRef}
    (hbucket : bucketAt t.buckets p = .inline hash matched first) :
    t.addDuplicate budget p row =
      match t.arena.ensure budget 2 with
      | (false, arena, budget) => ⟨false, t.withArena arena, budget⟩
      | (true, arena, budget) =>
        ⟨true, (t.withArena arena).promote p hash matched first row, budget⟩ := by
  change t.buckets.getD p .empty = _ at hbucket
  rw [addDuplicate, hbucket]
  rfl

theorem addDuplicate_chain {p : Nat} {head : NodeIndex}
    (hbucket : bucketAt t.buckets p = .chain hash head) :
    t.addDuplicate budget p row =
      match t.arena.ensure budget 1 with
      | (false, arena, budget) => ⟨false, t.withArena arena, budget⟩
      | (true, arena, budget) => ⟨true, (t.withArena arena).prepend p hash head row, budget⟩ := by
  change t.buckets.getD p .empty = _ at hbucket
  rw [addDuplicate, hbucket]
  rfl

theorem addDuplicate_inserted {p : Nat} (probe : Probe) (hkind : row.storage = t.storage)
    (hanswers : Answers t.probing t.buckets hash (t.holdsKey isKey) (.found p)) :
    Inserted t budget isKey row hash ((t.searched probe).addDuplicate budget p row) := by
  have hhash := hanswers.hash?_eq
  cases hbucket : bucketAt t.buckets p with
  | empty =>
    rw [hbucket] at hhash
    cases hhash
  | inline hash' matched first =>
    obtain rfl : hash' = hash := by
      rw [hbucket] at hhash
      exact Option.some.inj hhash
    rw [addDuplicate_inline (t := t.searched probe) hbucket]
    change Inserted t budget isKey row hash' (match t.arena.ensure budget 2 with
      | (false, arena, budget) => _
      | (true, arena, budget) => _)
    rcases t.arena.ensure_cases budget 2 with
      ⟨arena, charged, heq, hensured⟩ | ⟨heq, hfree, hadmits⟩
    · rw [heq]
      exact .second probe p matched first arena charged hkind hanswers hbucket hensured
    · rw [heq]
      refine .refused probe p 2 hkind hanswers ?_ hfree hadmits
      rw [hbucket]
      rfl
  | chain hash' head =>
    obtain rfl : hash' = hash := by
      rw [hbucket] at hhash
      exact Option.some.inj hhash
    rw [addDuplicate_chain (t := t.searched probe) hbucket]
    change Inserted t budget isKey row hash' (match t.arena.ensure budget 1 with
      | (false, arena, budget) => _
      | (true, arena, budget) => _)
    rcases t.arena.ensure_cases budget 1 with
      ⟨arena, charged, heq, hensured⟩ | ⟨heq, hfree, hadmits⟩
    · rw [heq]
      exact .further probe p head arena charged hkind hanswers hbucket hensured
    · rw [heq]
      refine .refused probe p 1 hkind hanswers ?_ hfree hadmits
      rw [hbucket]
      rfl

theorem insert_inserted (t : Table) (budget : Budget) (rows : RowStore) (ctx : KeyContext)
    (row : RowRef) (hash : UInt32) :
    Inserted t budget (ctx.holds rows) row hash (t.insert budget rows ctx row hash) := by
  have hanswers := answers_run t.probing t.buckets hash (t.holdsKey (ctx.holds rows))
  rw [insert]
  split_ifs with hkind
  · let probe := Probe.run t.probing t.buckets hash (t.holdsKey (ctx.holds rows))
    have hprobe : t.probe (ctx.holds rows) hash = (probe.result, t.searched probe) := rfl
    rw [hprobe]
    cases hresult : probe.result with
    | vacant p => exact .first probe p hkind (hresult ▸ hanswers)
    | found p => exact addDuplicate_inserted probe hkind (hresult ▸ hanswers)
    | exhausted => exact .full probe hkind (hresult ▸ hanswers)
  · exact .wrongKind hkind

/-! ### Moves -/

/-- The table without its rows, at the same places. -/
def cleared (t : Table) : Table :=
  { t with
    buckets := Array.replicate t.buckets.size .empty
    arena := Arena.empty
    filled := 0
    entries := 0
    overflowing := 0
    hasMatches := false }

theorem cleared_cleared (t : Table) : t.cleared.cleared = t.cleared := by
  simp [cleared]

/-- The elementary changes of a table, with the conditions under which operations make them. -/
inductive Move (t : Table) : Table → Prop where
  | search (probe : Probe) : Move t (t.searched probe)
  | fill (p : Nat) (hash : UInt32) (row : RowRef) (hempty : bucketAt t.buckets p = .empty)
      (hreaches : Reaches t.probing t.buckets hash p) : Move t (t.fill p hash row)
  | grow : Move t (t.withArena t.arena.grown)
  | promote (p : Nat) (hash : UInt32) (matched : Bool) (first row : RowRef)
      (hbucket : bucketAt t.buckets p = .inline hash matched first) (hfree : 2 ≤ t.arena.free) :
      Move t (t.promote p hash matched first row)
  | prepend (p : Nat) (hash : UInt32) (head : NodeIndex) (row : RowRef)
      (hbucket : bucketAt t.buckets p = .chain hash head) (hfree : 1 ≤ t.arena.free) :
      Move t (t.prepend p hash head row)
  | mark (c : Cursor) : Move t (c.setMatched t)
  | relocate (size : Nat) (buckets : Array Bucket) (hpower : PowerOfTwo.IsPower size)
      (hle : size ≤ Config.maxBuckets) (hfill : withinFill t.filled size = true)
      (hmoved : relocate t.probing t.buckets size = some buckets) :
      Move t { t with buckets, resizes := t.resizes + 1 }
  | clear : Move t t.cleared

/-- A table that moves lead to. -/
def Moves : Table → Table → Prop := ReflTransGen Move

theorem Moves.refl (t : Table) : Moves t t := ReflTransGen.refl

theorem Moves.trans {u v : Table} (h : Moves t u) (h' : Moves u v) : Moves t v :=
  ReflTransGen.trans h h'

theorem Move.moves {u : Table} (h : Move t u) : Moves t u := ReflTransGen.single h

theorem moves_withArena_of_ensured {arena : Arena} {charged : Budget} {count : Nat}
    (probe : Probe) (h : t.arena.Ensured budget count arena charged) :
    Moves t ((t.searched probe).withArena arena) := by
  refine (Move.search probe).moves.trans ?_
  cases h with
  | free => exact Moves.refl _
  | page => exact Move.grow.moves

theorem Inserted.moves {o : Outcome Bool} (h : Inserted t budget isKey row hash o)
    (hsound : t.arena.Sound) : Moves t o.table := by
  cases h with
  | wrongKind => exact Moves.refl t
  | full probe => exact (Move.search probe).moves
  | refused probe => exact (Move.search probe).moves
  | first probe p _ hanswers =>
    have hfill : Move (t.searched probe) ((t.searched probe).fill p hash row) :=
      Move.fill p hash row hanswers.eq_empty hanswers.reaches
    exact (Move.search probe).moves.trans hfill.moves
  | second probe p matched first arena charged _ _ hbucket hensured =>
    have hfree := hensured.le_free hsound (by decide)
    have hpromote : Move ((t.searched probe).withArena arena)
        (((t.searched probe).withArena arena).promote p hash matched first row) :=
      Move.promote p hash matched first row hbucket hfree
    exact (moves_withArena_of_ensured probe hensured).trans hpromote.moves
  | further probe p head arena charged _ _ hbucket hensured =>
    have hfree := hensured.le_free hsound (by decide)
    have hprepend : Move ((t.searched probe).withArena arena)
        (((t.searched probe).withArena arena).prepend p hash head row) :=
      Move.prepend p hash head row hbucket hfree
    exact (moves_withArena_of_ensured probe hensured).trans hprepend.moves

theorem probe_move (t : Table) (isKey : RowRef → Bool) (hash : UInt32) :
    Move t (t.probe isKey hash).2 :=
  Move.search _

/-- A cursor on the bucket that the search found, and a table in which only the search is new. -/
theorem find_eq (t : Table) (rows : RowStore) (ctx : KeyContext) (hash : UInt32) :
    ∃ probe : Probe,
      Answers t.probing t.buckets hash (t.holdsKey (ctx.holds rows)) probe.result ∧
      t.find rows ctx hash =
        (match probe.result with
          | .found p => t.cursorAt p
          | _ => .atEnd, t.searched probe) := by
  let probe := Probe.run t.probing t.buckets hash (t.holdsKey (ctx.holds rows))
  have hprobe : t.probe (ctx.holds rows) hash = (probe.result, t.searched probe) := rfl
  refine ⟨probe, answers_run _ _ _ _, ?_⟩
  rw [find, hprobe]
  cases probe.result <;> rfl

theorem find_move (t : Table) (rows : RowStore) (ctx : KeyContext) (hash : UInt32) :
    Move t (t.find rows ctx hash).2 := by
  obtain ⟨probe, -, heq⟩ := find_eq t rows ctx hash
  rw [heq]
  exact Move.search probe

/-- What marks keep, every walk keeps: no other step of a cursor changes the table. -/
theorem walk_induction {P : Table → Prop} (hmark : ∀ (c : Cursor) (t : Table), P t →
    P (c.setMatched t)) (c : Cursor) (rows : RowStore) (steps : List Cursor.Step) (h : P t) :
    P (c.walk t rows steps).2 := by
  induction steps generalizing c t with
  | nil => exact h
  | cons step steps ih =>
    refine ih _ ?_
    cases step with
    | mark => exact hmark c t h
    | advance => exact h
    | row => exact h
    | ref => exact h
    | readAll => exact h

theorem walk_moves (c : Cursor) (t : Table) (rows : RowStore) (steps : List Cursor.Step) :
    Moves t (c.walk t rows steps).2 :=
  walk_induction (fun c _ h ↦ h.trans (Move.mark c).moves) c rows steps (Moves.refl t)

/-! ### Resizing -/

/-- The ways in which a resize is granted or refused. -/
inductive Resized (t : Table) (budget : Budget) (size : Nat) :
    Outcome (Except Error Unit) → Prop where
  | notPower (h : ¬ PowerOfTwo.IsPower size ∨ Config.maxBuckets < size) : Resized t budget size
      ⟨.error (.capacity (.notPowerOfTwo size Config.maxBuckets)), t, budget⟩
  | tooFull (hpower : PowerOfTwo.IsPower size) (hle : size ≤ Config.maxBuckets)
      (hfill : withinFill t.filled size = false) : Resized t budget size
      ⟨.error (.capacity (.tooManyFilled t.filled size)), t, budget⟩
  | refused (hpower : PowerOfTwo.IsPower size) (hle : size ≤ Config.maxBuckets)
      (hfill : withinFill t.filled size = true)
      (hadmits : budget.admits (bucketBytes size) = false) : Resized t budget size
      ⟨.error (.memoryLimit (bucketBytes size) budget.remaining), t, budget.refuse⟩
  | stuck (hpower : PowerOfTwo.IsPower size) (hle : size ≤ Config.maxBuckets)
      (hfill : withinFill t.filled size = true)
      (hadmits : budget.admits (bucketBytes size) = true)
      (hmoved : relocate t.probing t.buckets size = none) : Resized t budget size
      ⟨.error (.internal .noEmptyBucketLeft), t,
        { budget.charge (bucketBytes size) with consumed := budget.consumed }⟩
  | moved (buckets : Array Bucket) (hpower : PowerOfTwo.IsPower size)
      (hle : size ≤ Config.maxBuckets) (hfill : withinFill t.filled size = true)
      (hadmits : budget.admits (bucketBytes size) = true)
      (hmoved : relocate t.probing t.buckets size = some buckets) : Resized t budget size
      ⟨.ok (), { t with buckets, resizes := t.resizes + 1 },
        { budget.charge (bucketBytes size) with
          consumed := budget.consumed + bucketBytes size - bucketBytes t.buckets.size }⟩

/-- No resize faults while the budget holds the charge for the buckets. -/
theorem exists_resize_eq_ok (size : Nat)
    (hcharged : bucketBytes t.buckets.size ≤ budget.consumed) :
    ∃ o, t.resize budget size = .ok o ∧ Resized t budget size o := by
  rw [resize]
  split_ifs with hpower hfill hadmits
  · exact ⟨_, rfl, .notPower hpower⟩
  · push Not at hpower
    exact ⟨_, rfl, .tooFull hpower.1 hpower.2 (by simpa using hfill)⟩
  · push Not at hpower
    have hfill : withinFill t.filled size = true := by simpa using hfill
    cases hmoved : relocate t.probing t.buckets size with
    | none =>
      have hback : (budget.charge (bucketBytes size)).release (bucketBytes size) =
          .ok { budget.charge (bucketBytes size) with consumed := budget.consumed } := by
        have hle : bucketBytes size ≤ (budget.charge (bucketBytes size)).consumed :=
          Nat.le_add_left _ _
        rw [Budget.release, if_pos hle]
        simp [Budget.charge]
      refine ⟨_, ?_, .stuck hpower.1 hpower.2 hfill hadmits hmoved⟩
      simp only [hback]
      rfl
    | some buckets =>
      have hback : (budget.charge (bucketBytes size)).release (bucketBytes t.buckets.size) =
          .ok { budget.charge (bucketBytes size) with
            consumed := budget.consumed + bucketBytes size - bucketBytes t.buckets.size } := by
        have hle : bucketBytes t.buckets.size ≤ (budget.charge (bucketBytes size)).consumed :=
          hcharged.trans (Nat.le_add_right _ _)
        rw [Budget.release, if_pos hle]
        rfl
      refine ⟨_, ?_, .moved buckets hpower.1 hpower.2 hfill hadmits hmoved⟩
      simp only [hback]
      rfl
  · push Not at hpower
    exact ⟨_, rfl, .refused hpower.1 hpower.2 (by simpa using hfill)
      (eq_false_of_ne_true hadmits)⟩

theorem Resized.moves {size : Nat} {o : Outcome (Except Error Unit)}
    (h : Resized t budget size o) : Moves t o.table := by
  cases h with
  | moved buckets hpower hle hfill _ hmoved =>
    exact (Move.relocate size buckets hpower hle hfill hmoved).moves
  | _ => exact Moves.refl t

/-- Making room is a resize to the size found, or leaves everything as it is. -/
theorem exists_makeRoom_eq_ok (more : Nat)
    (hcharged : bucketBytes t.buckets.size ≤ budget.consumed) :
    ∃ o, t.makeRoom budget more = .ok o ∧
      ((o.table = t ∧ o.budget = budget) ∨ ∃ size, Resized t budget size o) := by
  rw [makeRoom]
  cases roomyCount? (min (t.filled + more) (Budget.wordRange - 1)) t.buckets.size
      (Config.maxBuckets.log2 - t.buckets.size.log2) with
  | none => exact ⟨_, rfl, Or.inl ⟨rfl, rfl⟩⟩
  | some size =>
    dsimp only
    split_ifs
    · exact ⟨_, rfl, Or.inl ⟨rfl, rfl⟩⟩
    · obtain ⟨o, ho, hresized⟩ := exists_resize_eq_ok size hcharged
      exact ⟨o, ho, Or.inr ⟨size, hresized⟩⟩

theorem clear_eq_ok (hcharged : t.arena.byteSize ≤ budget.consumed) :
    t.clear budget =
      .ok (t.cleared, { budget with consumed := budget.consumed - t.arena.byteSize }) := by
  have hback : t.arena.release budget = .ok (Arena.empty, { budget with
      consumed := budget.consumed - t.arena.byteSize }) := by
    rw [Arena.release, Budget.release, if_pos hcharged]
    rfl
  rw [clear, hback]
  rfl

/-! ### Charges -/

theorem fst_tryConsume (budget : Budget) (bytes : Nat) :
    (budget.tryConsume bytes).1 = budget.admits bytes := by
  rw [Budget.tryConsume]
  cases budget.admits bytes <;> rfl

/-- The budget holds the charge for the table. -/
def Charged (t : Table) (budget : Budget) : Prop :=
  t.byteSize ≤ budget.consumed

/-- An insertion adds no bucket and at most one page, which it has charged. -/
theorem Inserted.exists_pages {o : Outcome Bool} (h : Inserted t budget isKey row hash o) :
    ∃ pages ≤ 1, o.table.buckets.size = t.buckets.size ∧
      o.table.arena.pages.size = t.arena.pages.size + pages ∧
      o.table.arena.byteSize =
        t.arena.byteSize + pages * (t.arena.nextCapacity * Arena.nodeBytes) ∧
      o.budget.consumed =
        budget.consumed + pages * (t.arena.nextCapacity * Arena.nodeBytes) ∧
      o.budget.limit = budget.limit := by
  cases h with
  | wrongKind => exact ⟨0, Nat.zero_le 1, rfl, rfl, by simp, by simp, rfl⟩
  | full => exact ⟨0, Nat.zero_le 1, rfl, rfl, by simp [searched], by simp, rfl⟩
  | refused =>
    exact ⟨0, Nat.zero_le 1, rfl, rfl, by simp [searched], by simp [Budget.refuse], rfl⟩
  | first probe p =>
    exact ⟨0, Nat.zero_le 1, Array.size_setIfInBounds, rfl, by simp [fill, searched], by simp, rfl⟩
  | second probe p matched first arena charged _ _ _ hensured =>
    obtain ⟨pages, hle, hpages, hbytes, hconsumed, hlimit⟩ := hensured.exists_pages
    refine ⟨pages, hle, Array.size_setIfInBounds, ?_, hbytes, hconsumed, hlimit⟩
    rw [promote, Arena.size_pages_push, Arena.size_pages_push]
    exact hpages
  | further probe p head arena charged _ _ _ hensured =>
    obtain ⟨pages, hle, hpages, hbytes, hconsumed, hlimit⟩ := hensured.exists_pages
    refine ⟨pages, hle, Array.size_setIfInBounds, ?_, hbytes, hconsumed, hlimit⟩
    rw [prepend, Arena.size_pages_push]
    exact hpages

theorem Inserted.charged {o : Outcome Bool} (h : Inserted t budget isKey row hash o)
    (hcharged : t.Charged budget) : o.table.Charged o.budget := by
  obtain ⟨pages, -, hsize, -, hbytes, hconsumed, -⟩ := h.exists_pages
  rw [Charged, byteSize] at hcharged ⊢
  rw [hsize, hbytes, hconsumed]
  omega

theorem Resized.charged {size : Nat} {o : Outcome (Except Error Unit)}
    (h : Resized t budget size o) (hcharged : t.Charged budget) : o.table.Charged o.budget := by
  cases h with
  | moved buckets _ _ _ _ hmoved =>
    change bucketBytes buckets.size + t.arena.byteSize ≤
      budget.consumed + bucketBytes size - bucketBytes t.buckets.size
    change bucketBytes t.buckets.size + t.arena.byteSize ≤ budget.consumed at hcharged
    rw [(relocate_eq_some hmoved).1]
    omega
  | _ => exact hcharged

theorem size_buckets_setMatched (c : Cursor) (t : Table) :
    (c.setMatched t).buckets.size = t.buckets.size := by
  match c with
  | .atEnd => rfl
  | .on _ (some _) => rfl
  | .on _ none => exact Array.size_modify

theorem byteSize_setMatched (c : Cursor) (t : Table) :
    (c.setMatched t).byteSize = t.byteSize := by
  match c with
  | .atEnd => rfl
  | .on _ (some node) => rfl
  | .on p none =>
    change bucketBytes (t.buckets.modify p _).size + _ = _
    rw [Array.size_modify]
    rfl

theorem byteSize_walk (c : Cursor) (t : Table) (rows : RowStore) (steps : List Cursor.Step) :
    (c.walk t rows steps).2.byteSize = t.byteSize :=
  walk_induction (P := fun u ↦ u.byteSize = t.byteSize)
    (fun c u h ↦ (byteSize_setMatched c u).trans h) c rows steps rfl

/-! ### Pages -/

theorem size_pages_setMatched (c : Cursor) (t : Table) :
    (c.setMatched t).arena.pages.size = t.arena.pages.size := by
  match c with
  | .atEnd => rfl
  | .on _ (some node) => exact Arena.size_pages_setMatched _ _
  | .on _ none => rfl

theorem size_pages_walk (c : Cursor) (t : Table) (rows : RowStore) (steps : List Cursor.Step) :
    (c.walk t rows steps).2.arena.pages.size = t.arena.pages.size :=
  walk_induction (P := fun u ↦ u.arena.pages.size = t.arena.pages.size)
    (fun c u h ↦ (size_pages_setMatched c u).trans h) c rows steps rfl

theorem Resized.arena_eq {size : Nat} {o : Outcome (Except Error Unit)}
    (h : Resized t budget size o) : o.table.arena = t.arena := by
  cases h <;> rfl

/-- Pages are added by insertions, and none is taken away. -/
theorem Inserted.addressable {o : Outcome Bool} (h : Inserted t budget isKey row hash o)
    (haddr : o.table.arena.Addressable) : t.arena.Addressable := by
  obtain ⟨pages, -, -, hpages, -⟩ := h.exists_pages
  rw [Arena.Addressable] at haddr ⊢
  omega

end JoinIndex.Table
