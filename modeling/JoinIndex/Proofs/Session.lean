import JoinIndex.Proofs.Table.Contents

/-!
Sessions: a table in use. A session starts with the creation of a table under any configuration and
a budget that others may charge as well, and goes on with any sequence of operations. It remembers
the insertions that were accepted since the table was last cleared, which is what the table is
expected to hold.

`exists_step_eq_ok` says what one operation does: it never faults, and it takes in a row, clears the
table, adds to the row store or leaves the contents alone. Everything that is true of a table at
any time is proved from these cases.
-/

set_option autoImplicit false
set_option relaxedAutoImplicit false

namespace JoinIndex

open Table

/-- A row that a table was asked to store: the reference, the row that it led to then, the context
with the key evaluated last, and the hash. -/
structure Insertion where
  ref : RowRef
  row? : Option Row
  context : KeyContext
  hash : UInt32

/-- A table in use with a budget and a row store, and the insertions that it accepted since it was
last cleared, the latest first. -/
structure Session where
  table : Table
  budget : Budget
  rows : RowStore
  kept : List Insertion

namespace Session

/-- Where a cursor is put. -/
inductive Start where
  | find (context : KeyContext) (hash : UInt32)
  | first
  | firstUnmatched

inductive Op where
  | insert (context : KeyContext) (row : RowRef) (hash : UInt32)
  /-- A search for a key, or for an empty bucket. -/
  | probe (context? : Option KeyContext) (hash : UInt32)
  | walk (start : Start) (steps : List Cursor.Step)
  | resize (size : Nat)
  | makeRoom (more : Nat)
  | clear
  /-- Appends a row to the store, which is charged to the budget if `paid`. -/
  | append (row : Row) (paid : Bool)
  /-- Someone else charges the budget. -/
  | charge (bytes : Nat)
  /-- Someone else gives back up to `bytes`, but nothing that the table has charged. -/
  | giveBack (bytes : Nat)

/-- A session with a new table, over the row store if `stored`. -/
def create (config : Config) (stored : Bool) (budget : Budget) (rows : RowStore) :
    Except Error Session :=
  match (if stored then Table.withRowStore else Table.new) config budget with
  | (.ok table, budget) => .ok ⟨table, budget, rows, []⟩
  | (.error e, _) => .error e

variable (s : Session)

/-- The cursor that a walk starts with, and the table it was put on. -/
def place : Start → Cursor × Table
  | .find context hash => s.table.find s.rows context hash
  | .first => (s.table.first, s.table)
  | .firstUnmatched => (s.table.firstUnmatched, s.table)

def step : Op → Except Fault Session
  | .insert context row hash =>
    let o := s.table.insert s.budget s.rows context row hash
    let kept := if o.answer then ⟨row, row.resolve s.rows, context, hash⟩ :: s.kept else s.kept
    .ok { s with table := o.table, budget := o.budget, kept }
  | .probe context? hash =>
    let isKey := context?.elim (fun _ ↦ false) (·.holds s.rows)
    .ok { s with table := (s.table.probe isKey hash).2 }
  | .walk start steps =>
    let (cursor, table) := s.place start
    .ok { s with table := (cursor.walk table s.rows steps).2 }
  | .resize size => do
    let o ← s.table.resize s.budget size
    return { s with table := o.table, budget := o.budget }
  | .makeRoom more => do
    let o ← s.table.makeRoom s.budget more
    return { s with table := o.table, budget := o.budget }
  | .clear => do
    let (table, budget) ← s.table.clear s.budget
    return { s with table, budget, kept := [] }
  | .append row paid =>
    let a := s.rows.append (if paid then some s.budget else none) row
    .ok { s with rows := a.store, budget := a.payer.getD s.budget }
  | .charge bytes => .ok { s with budget := (s.budget.tryConsume bytes).2 }
  | .giveBack bytes => do
    let budget ← s.budget.release (min bytes (s.budget.consumed - s.table.byteSize))
    return { s with budget }

/-- All operations, one after the other. -/
def run (ops : List Op) : Except Fault Session :=
  ops.foldlM step s

end Session

/-! ### Row stores -/

/-- Every row of the first store is found at its index in the second one. -/
def RowStore.Within (rows later : RowStore) : Prop :=
  ∀ i row, rows.get? i = some row → later.get? i = some row

theorem RowStore.within_push (rows : RowStore) (row : Row) : rows.Within (rows.push row) := by
  intro i kept hi
  rw [get?, Option.bind_eq_some_iff] at hi
  obtain ⟨page, hpage, hrow⟩ := hi
  obtain ⟨hlt, -⟩ := Array.getElem?_eq_some_iff.mp hpage
  rw [push, get?]
  split_ifs
  · rw [Array.getElem?_push, if_neg (by omega), hpage, Option.bind_some, hrow]
  · rw [Array.getElem?_modify]
    split_ifs
    · obtain ⟨hoffset, -⟩ := Array.getElem?_eq_some_iff.mp hrow
      rw [hpage, Option.map_some, Option.bind_some, Array.getElem?_push, if_neg (by omega), hrow]
    · rw [hpage, Option.bind_some, hrow]

theorem RowStore.within_append (rows : RowStore) (payer : Option Budget) (row : Row) :
    rows.Within (rows.append payer row).store := by
  cases payer with
  | none => exact rows.within_push row
  | some budget =>
    rw [append]
    dsimp only
    split_ifs
    · exact rows.within_push row
    · exact fun _ _ h ↦ h

/-- Appending charges the payer or leaves its charges as they are. -/
theorem RowStore.le_consumed_append (rows : RowStore) (budget : Budget) (paid : Bool) (row : Row) :
    budget.consumed ≤
      ((rows.append (if paid then some budget else none) row).payer.getD budget).consumed := by
  cases paid with
  | false => exact le_refl _
  | true =>
    rw [if_pos rfl, append]
    dsimp only
    split_ifs
    · exact Nat.le_add_right _ _
    · exact le_refl _

/-- A reference leads to the same row in every later store. -/
theorem RowRef.resolve_within {rows later : RowStore} (h : rows.Within later) {ref : RowRef}
    {row : Row} (hrow : ref.resolve rows = some row) : ref.resolve later = some row := by
  cases ref with
  | direct shared => exact hrow
  | indexed index => exact h index row hrow

namespace Session

variable {s s' : Session}

/-! ### What one operation does -/

/-- The ways in which an operation changes a session. -/
inductive Changes (s : Session) : Session → Prop where
  | insert (context : KeyContext) (row : RowRef) (hash : UInt32) (o : Outcome Bool)
      (hinserted : Inserted s.table s.budget (context.holds s.rows) row hash o) :
      Changes s
        { s with
          table := o.table
          budget := o.budget
          kept := if o.answer then ⟨row, row.resolve s.rows, context, hash⟩ :: s.kept else s.kept }
  /-- The hashes and the rows in the table stay, and so do the pages of nodes. -/
  | quiet (u : Table) (budget : Budget) (hmoves : Moves s.table u)
      (hshapes : u.shapes.Perm s.table.shapes)
      (hpages : u.arena.pages.size = s.table.arena.pages.size) :
      Changes s { s with table := u, budget }
  | clear (budget : Budget) : Changes s { s with table := s.table.cleared, budget, kept := [] }
  | append (rows : RowStore) (budget : Budget) (hrows : s.rows.Within rows) :
      Changes s { s with rows, budget }

/-- The budget holds the charge for the table. -/
def Solvent (s : Session) : Prop :=
  s.table.Charged s.budget

theorem Changes.of_resized {size : Nat} {o : Outcome (Except Error Unit)}
    (h : Resized s.table s.budget size o) :
    Changes s { s with table := o.table, budget := o.budget } :=
  .quiet o.table o.budget h.moves (h.groups_perm.map _) (by rw [h.arena_eq])

theorem place_changes (s : Session) (start : Start) :
    Moves s.table (s.place start).2 ∧ (s.place start).2.shapes = s.table.shapes ∧
      (s.place start).2.byteSize = s.table.byteSize ∧
        (s.place start).2.arena.pages.size = s.table.arena.pages.size := by
  cases start with
  | find context hash =>
    obtain ⟨probe, -, heq⟩ := find_eq s.table s.rows context hash
    refine ⟨(find_move _ _ _ _).moves, shapes_find _ _ _ _, ?_⟩
    rw [place, heq]
    exact ⟨rfl, rfl⟩
  | first => exact ⟨Moves.refl _, rfl, rfl, rfl⟩
  | firstUnmatched => exact ⟨Moves.refl _, rfl, rfl, rfl⟩

/-- Walks and marks leave the bytes and the rows as they are. -/
theorem exists_walk_eq_ok (h : s.Solvent) (start : Start) (steps : List Cursor.Step) :
    ∃ s', s.step (.walk start steps) = .ok s' ∧ Changes s s' ∧ s'.Solvent := by
  obtain ⟨hmoves, hshapes, hbytes, hpages⟩ := s.place_changes start
  let walked := (s.place start).1.walk (s.place start).2 s.rows steps
  have hperm : walked.2.shapes.Perm s.table.shapes := by
    rw [shapes_walk, hshapes]
  have hwalked : walked.2.arena.pages.size = s.table.arena.pages.size := by
    rw [size_pages_walk, hpages]
  have hcharged : walked.2.Charged s.budget := by
    rw [Charged, byteSize_walk, hbytes]
    exact h
  exact ⟨_, rfl, .quiet _ s.budget (hmoves.trans (walk_moves _ _ _ _)) hperm hwalked, hcharged⟩

theorem exists_clear_eq_ok (h : s.Solvent) :
    ∃ s', s.step .clear = .ok s' ∧ Changes s s' ∧ s'.Solvent := by
  have harena : s.table.arena.byteSize ≤ s.budget.consumed := (Nat.le_add_left _ _).trans h
  have hclear := clear_eq_ok harena
  refine ⟨{ s with
    table := s.table.cleared
    budget := { s.budget with consumed := s.budget.consumed - s.table.arena.byteSize }
    kept := [] }, ?_, .clear _, ?_⟩
  · rw [step, hclear]
    rfl
  · change bucketBytes (Array.replicate s.table.buckets.size Bucket.empty).size + 0 ≤
      s.budget.consumed - s.table.arena.byteSize
    have hsum : bucketBytes s.table.buckets.size + s.table.arena.byteSize ≤
      s.budget.consumed := h
    rw [Array.size_replicate]
    omega

/-- What others give back is not what the table has charged. -/
theorem exists_giveBack_eq_ok (h : s.Solvent) (bytes : Nat) :
    ∃ s', s.step (.giveBack bytes) = .ok s' ∧ Changes s s' ∧ s'.Solvent := by
  let others := min bytes (s.budget.consumed - s.table.byteSize)
  have hle : others ≤ s.budget.consumed - s.table.byteSize := min_le_right _ _
  have hsum : s.table.byteSize ≤ s.budget.consumed := h
  refine ⟨{ s with budget := { s.budget with consumed := s.budget.consumed - others } }, ?_,
    .quiet s.table _ (Moves.refl _) (List.Perm.refl _) rfl, ?_⟩
  · rw [step, Budget.release, if_pos (hle.trans (Nat.sub_le _ _))]
    rfl
  · change s.table.byteSize ≤ s.budget.consumed - others
    omega

/-- No operation faults while the budget holds the charge for the table, and it goes on to hold
it. -/
theorem exists_step_eq_ok (h : s.Solvent) (op : Op) :
    ∃ s', s.step op = .ok s' ∧ Changes s s' ∧ s'.Solvent := by
  have hbuckets : bucketBytes s.table.buckets.size ≤ s.budget.consumed :=
    (Nat.le_add_right _ _).trans h
  cases op with
  | insert context row hash =>
    have hinserted := insert_inserted s.table s.budget s.rows context row hash
    exact ⟨_, rfl, .insert context row hash _ hinserted, hinserted.charged h⟩
  | probe context? hash =>
    exact ⟨_, rfl, .quiet _ s.budget (probe_move _ _ _).moves (List.Perm.refl _) rfl, h⟩
  | walk start steps => exact exists_walk_eq_ok h start steps
  | resize size =>
    obtain ⟨o, ho, hresized⟩ := exists_resize_eq_ok size hbuckets
    refine ⟨{ s with table := o.table, budget := o.budget }, ?_, .of_resized hresized,
      hresized.charged h⟩
    rw [step, ho]
    rfl
  | makeRoom more =>
    obtain ⟨o, ho, hcases⟩ := exists_makeRoom_eq_ok more hbuckets
    refine ⟨{ s with table := o.table, budget := o.budget }, ?_, ?_⟩
    · rw [step, ho]
      rfl
    · rcases hcases with ⟨htable, hbudget⟩ | ⟨size, hresized⟩
      · rw [htable, hbudget]
        exact ⟨.quiet s.table s.budget (Moves.refl _) (List.Perm.refl _) rfl, h⟩
      · exact ⟨.of_resized hresized, hresized.charged h⟩
  | clear => exact exists_clear_eq_ok h
  | append row paid =>
    exact ⟨_, rfl, .append _ _ (s.rows.within_append _ row),
      h.trans (s.rows.le_consumed_append s.budget paid row)⟩
  | charge bytes =>
    refine ⟨_, rfl, .quiet s.table _ (Moves.refl _) (List.Perm.refl _) rfl, ?_⟩
    change s.table.byteSize ≤ (s.budget.tryConsume bytes).2.consumed
    rw [Budget.tryConsume]
    split_ifs
    · exact h.trans (Nat.le_add_right _ _)
    · exact h
  | giveBack bytes => exact exists_giveBack_eq_ok h bytes

theorem changes_of_step (h : s.Solvent) {op : Op} (hstep : s.step op = .ok s') :
    Changes s s' ∧ s'.Solvent := by
  obtain ⟨next, hnext, hchanges⟩ := exists_step_eq_ok h op
  obtain rfl := Except.ok.inj (hnext.symm.trans hstep)
  exact hchanges

/-! ### Runs -/

theorem run_cons {op : Op} (hstep : s.step op = .ok s') (ops : List Op) :
    s.run (op :: ops) = s'.run ops := by
  rw [run, List.foldlM_cons, hstep]
  rfl

/-- What is true at the start and is kept by every operation holds after every run, and no run
faults. -/
theorem run_induction {P : Session → Prop}
    (hstep : ∀ s s' op, s.Solvent → P s → s.step op = .ok s' → P s') (hsolvent : s.Solvent)
    (hs : P s) (ops : List Op) : ∃ s', s.run ops = .ok s' ∧ s'.Solvent ∧ P s' := by
  induction ops generalizing s with
  | nil => exact ⟨s, rfl, hsolvent, hs⟩
  | cons op ops ih =>
    obtain ⟨next, hnext, -, hsolvent'⟩ := exists_step_eq_ok hsolvent op
    rw [run_cons hnext]
    exact ih hsolvent' (hstep s next op hsolvent hs hnext)

/-- What every change keeps, every run keeps. -/
theorem exists_run_eq_ok {P : Session → Prop} (hstep : ∀ s s', P s → Changes s s' → P s')
    (hsolvent : s.Solvent) (hs : P s) (ops : List Op) :
    ∃ s', s.run ops = .ok s' ∧ s'.Solvent ∧ P s' :=
  run_induction (fun s s' _ hsolvent hs hnext ↦ hstep s s' hs (changes_of_step hsolvent hnext).1)
    hsolvent hs ops

theorem Changes.moves (h : Changes s s') (hsound : s.table.Sound) :
    Moves s.table s'.table := by
  cases h with
  | insert _ _ _ _ hinserted => exact hinserted.moves hsound.arena
  | quiet _ _ hmoves => exact hmoves
  | clear => exact Move.clear.moves
  | append => exact Moves.refl _

theorem Changes.intact (h : Changes s s') (hintact : s.table.Intact) : s'.table.Intact :=
  (h.moves hintact.sound).intact hintact

/-! ### Creation -/

theorem create_eq_ok {config : Config} {stored : Bool} {budget : Budget} {rows : RowStore}
    (h : create config stored budget rows = .ok s) :
    config.validate = .ok () ∧
      budget.admits (bucketBytes config.startBuckets) = true ∧
      s = ⟨.empty config.probing config.storage config.startBuckets,
        budget.charge (bucketBytes config.startBuckets), rows, []⟩ := by
  have hcreate : ∀ {r : Except Error Table × Budget}, r = Table.create config budget →
      (match r with
        | (.ok table, budget) => Except.ok (Session.mk table budget rows [])
        | (.error e, _) => .error e) = Except.ok s →
      config.validate = .ok () ∧ budget.admits (bucketBytes config.startBuckets) = true ∧
        s = ⟨.empty config.probing config.storage config.startBuckets,
          budget.charge (bucketBytes config.startBuckets), rows, []⟩ := by
    rintro r rfl h
    rw [Table.create] at h
    cases hvalid : config.validate with
    | error e => simp [hvalid] at h
    | ok valid =>
      simp only [hvalid] at h
      split_ifs at h with hadmits
      exact ⟨rfl, hadmits, (Except.ok.inj h).symm⟩
  rw [create] at h
  cases stored with
  | true =>
    rw [if_pos rfl, Table.withRowStore] at h
    split_ifs at h
    · exact hcreate rfl h
  | false =>
    rw [if_neg Bool.false_ne_true, Table.new] at h
    split_ifs at h
    · exact hcreate rfl h

theorem le_maxBuckets_of_validate {config : Config} (h : config.validate = .ok ()) :
    config.startBuckets ≤ Config.maxBuckets := by
  have hinitial : config.initialBuckets ≤ Config.maxBuckets := by
    rw [Config.validate] at h
    split_ifs at h
    omega
  have hmax : max config.initialBuckets 1 ≤ 2 ^ 30 :=
    max_le hinitial (by decide)
  exact PowerOfTwo.ceil_le hmax

theorem intact_create {config : Config} {stored : Bool} {budget : Budget} {rows : RowStore}
    (h : create config stored budget rows = .ok s) : s.table.Intact := by
  obtain ⟨hvalid, -, rfl⟩ := create_eq_ok h
  exact intact_empty _ _ (PowerOfTwo.isPower_ceil _) (le_maxBuckets_of_validate hvalid)

theorem solvent_create {config : Config} {stored : Bool} {budget : Budget} {rows : RowStore}
    (h : create config stored budget rows = .ok s) : s.Solvent := by
  obtain ⟨-, -, rfl⟩ := create_eq_ok h
  change bucketBytes (Array.replicate _ Bucket.empty).size + 0 ≤ budget.consumed + _
  rw [Array.size_replicate]
  exact Nat.le_add_left _ _

/-! ### A small session -/

/-- A row of one integer. -/
def intRow (id : Nat) (key : Int64) : RowRef :=
  .direct ⟨id, ⟨[.int64 key]⟩⟩

/-- A context for rows of one integer that has evaluated a key. -/
def intContext (key : Int64) : KeyContext :=
  { KeyContext.new [.column 0 .int64] [.column 0 .int64] false false ⟨[1]⟩ with
    key := [.int64 key] }

/-- A session with a table of two buckets. -/
def smallStart : Session :=
  ⟨.empty .linear .direct 2, (Budget.unlimited "small").charge (bucketBytes 2), .new 1, []⟩

theorem create_small :
    create (.linear 2) false (Budget.unlimited "small") (.new 1) = .ok smallStart := rfl

/-- Two keys under one hash fill the table, a third key is refused, a key that is there gets a
second row, the bucket that a scan meets first is marked, and the table grows. -/
def smallOps : List Op :=
  [.insert (intContext 1) (intRow 0 1) 5, .insert (intContext 2) (intRow 1 2) 5,
    .insert (intContext 3) (intRow 2 3) 5, .insert (intContext 1) (intRow 3 1) 5,
    .walk .first [.mark, .advance .next], .resize 4]

/-- The insertions that are kept in the end. -/
def smallKept : List Insertion :=
  [⟨intRow 3 1, some ⟨[.int64 1]⟩, intContext 1, 5⟩,
    ⟨intRow 1 2, some ⟨[.int64 2]⟩, intContext 2, 5⟩,
    ⟨intRow 0 1, some ⟨[.int64 1]⟩, intContext 1, 5⟩]

theorem run_small {s' : Session} (h : smallStart.run smallOps = .ok s') :
    s'.kept = smallKept ∧ s'.table.arena.pages.size = 1 := by
  have hrun : (smallStart.run smallOps).map (fun s ↦ (s.kept, s.table.arena.pages.size)) =
      .ok (smallKept, 1) := by cbv
  rw [h] at hrun
  exact Prod.mk.inj (Except.ok.inj hrun)

end Session

end JoinIndex
