import JoinIndex.Proofs.RowStore
import JoinIndex.Proofs.Session
import JoinIndex.Proofs.Table.Payments

/-!
Owners that share one budget: tables, row stores that charge their rows, and others that charge and
give back bytes directly. In whatever order they are opened, used and closed, the budget is charged
for exactly what is alive, so that nothing leaks on the way of an error and no owner ever gives back
what another one has charged.
-/

set_option autoImplicit false
set_option relaxedAutoImplicit false

namespace JoinIndex

open Table

namespace Session

variable {s : Session}

/-- Whether an operation is one of the table, and not of the row store or of another owner. -/
def Op.onTable : Op → Bool
  | insert _ _ _ => true
  | probe _ _ => true
  | walk _ _ => true
  | resize _ => true
  | makeRoom _ => true
  | clear => true
  | append _ _ => false
  | charge _ => false
  | giveBack _ => false

/-- An operation of the table changes the charges by what it changes the table. -/
theorem exists_step_settles (h : s.Solvent) {op : Op} (hop : op.onTable = true) :
    ∃ s', s.step op = .ok s' ∧
      s.budget.Settles s.table.byteSize s'.table.byteSize s'.budget := by
  have hbuckets : bucketBytes s.table.buckets.size ≤ s.budget.consumed :=
    (Nat.le_add_right _ _).trans h
  cases op with
  | insert context row hash =>
    exact ⟨_, rfl, (insert_inserted s.table s.budget s.rows context row hash).settles⟩
  | probe => exact ⟨_, rfl, .refl s.budget _⟩
  | walk start steps =>
    obtain ⟨-, -, hbytes, -⟩ := s.place_changes start
    refine ⟨{ s with table := ((s.place start).1.walk (s.place start).2 s.rows steps).2 }, rfl, ?_⟩
    dsimp only
    rw [byteSize_walk, hbytes]
    exact .refl s.budget _
  | resize size =>
    obtain ⟨o, ho, hresized⟩ := exists_resize_eq_ok size hbuckets
    refine ⟨{ s with table := o.table, budget := o.budget }, ?_, hresized.settles hbuckets⟩
    rw [step, ho]
    rfl
  | makeRoom more =>
    obtain ⟨o, ho, hsettles⟩ := exists_makeRoom_settles more h
    refine ⟨{ s with table := o.table, budget := o.budget }, ?_, hsettles⟩
    rw [step, ho]
    rfl
  | clear =>
    obtain ⟨budget, hclear, hsettles⟩ := exists_clear_settles h
    refine ⟨{ s with table := s.table.cleared, budget, kept := [] }, ?_, hsettles⟩
    rw [step, hclear]
    rfl
  | append => cases hop
  | charge => cases hop
  | giveBack => cases hop

end Session

/-- The tables and row stores that share a budget, and the bytes that others have charged to it. -/
structure Owners where
  budget : Budget
  tables : List Table
  stores : List RowStore
  direct : ℕ

namespace Owners

inductive Op where
  /-- Creates a table, over a row store if `stored`, unless it is refused. -/
  | createTable (config : Config) (stored : Bool)
  /-- An operation of the table at a place, with the row store that it is over. -/
  | useTable (place : ℕ) (rows : RowStore) (op : Session.Op) (h : op.onTable = true)
  | closeTable (place : ℕ)
  | openStore (rowsPerPage : ℕ)
  | append (place : ℕ) (row : Row)
  | closeStore (place : ℕ)
  /-- A charge by someone else, unless it is refused. -/
  | charge (bytes : ℕ)
  | giveBack (bytes : ℕ)

def new (label : String) (limit : Option UInt64) : Owners :=
  ⟨Budget.new label limit, [], [], 0⟩

variable (o : Owners)

def step : Op → Except Fault Owners
  | .createTable config stored =>
    match (if stored then Table.withRowStore else Table.new) config o.budget with
    | (.ok table, budget) => .ok { o with budget, tables := table :: o.tables }
    | (.error _, budget) => .ok { o with budget }
  | .useTable place rows op _ =>
    match o.tables[place]? with
    | none => .ok o
    | some table => do
      let s ← (Session.mk table o.budget rows []).step op
      return { o with budget := s.budget, tables := o.tables.set place s.table }
  | .closeTable place =>
    match o.tables[place]? with
    | none => .ok o
    | some table => do
      let budget ← table.close o.budget
      return { o with budget, tables := o.tables.eraseIdx place }
  | .openStore rowsPerPage => .ok { o with stores := RowStore.new rowsPerPage :: o.stores }
  | .append place row =>
    match o.stores[place]? with
    | none => .ok o
    | some store =>
      let a := store.append (some o.budget) row
      .ok { o with budget := a.payer.getD o.budget, stores := o.stores.set place a.store }
  | .closeStore place =>
    match o.stores[place]? with
    | none => .ok o
    | some store => do
      let budget ← store.close o.budget
      return { o with budget, stores := o.stores.eraseIdx place }
  | .charge bytes =>
    let (granted, budget) := o.budget.tryConsume bytes
    .ok { o with budget, direct := if granted then o.direct + bytes else o.direct }
  | .giveBack bytes => do
    let budget ← o.budget.release bytes
    return { o with budget, direct := o.direct - bytes }

/-- All operations, one after the other. -/
def run (ops : List Op) : Except Fault Owners :=
  ops.foldlM step o

/-- The bytes of all tables. -/
def tableBytes : ℕ :=
  (o.tables.map Table.byteSize).sum

/-- The bytes of all rows in all stores. -/
def rowBytes : ℕ :=
  (o.stores.map fun store ↦ (store.allRows.map Row.byteSize).sum).sum

/-- Whether an operation gives back no more than was charged directly. -/
def isFair : Op → Bool
  | .giveBack bytes => bytes ≤ o.direct
  | _ => true

/-- Whether all operations do so, one after the other. -/
def areFair : Owners → List Op → Bool
  | _, [] => true
  | o, op :: ops =>
    o.isFair op &&
      match o.step op with
      | .ok o' => o'.areFair ops
      | .error _ => true

variable {o}

/-! ### Exchanging one owner -/

section Sums

variable {α : Type} {f : α → ℕ} {l : List α} {i : ℕ} {x : α}

theorem sum_map_eraseIdx (h : l[i]? = some x) :
    (l.map f).sum = f x + ((l.eraseIdx i).map f).sum := by
  obtain ⟨hlt, rfl⟩ := List.getElem?_eq_some_iff.mp h
  rw [← ((List.getElem_cons_eraseIdx_perm hlt).map f).sum_eq, List.map_cons, List.sum_cons]

theorem sum_map_set (h : l[i]? = some x) (y : α) :
    ((l.set i y).map f).sum = f y + ((l.eraseIdx i).map f).sum := by
  obtain ⟨hlt, -⟩ := List.getElem?_eq_some_iff.mp h
  rw [((List.set_perm_cons_eraseIdx hlt y).map f).sum_eq, List.map_cons, List.sum_cons]

end Sums

/-! ### The balance -/

/-- The budget is charged for what is alive and for nothing else. -/
structure Balanced (o : Owners) : Prop where
  budget : o.budget.Sound
  consumed_eq : o.budget.consumed = o.tableBytes + o.rowBytes + o.direct
  tables : ∀ t ∈ o.tables, t.Sound ∧ t.arena.Paged

theorem balanced_new (label : String) (limit : Option UInt64) : (new label limit).Balanced where
  budget := Budget.sound_new label limit
  consumed_eq := rfl
  tables := fun _ h ↦ absurd h List.not_mem_nil

/-- One owner settles its charges for what it has become. -/
theorem Balanced.settle (h : o.Balanced) {o' : Owners} {old now : ℕ}
    (hsettles : o.budget.Settles old now o'.budget)
    (hchange : o'.tableBytes + o'.rowBytes + o'.direct + old =
      o.tableBytes + o.rowBytes + o.direct + now)
    (htables : ∀ t ∈ o'.tables, t.Sound ∧ t.arena.Paged) :
    o'.Balanced ∧ o'.budget.limit = o.budget.limit := by
  refine ⟨⟨hsettles.sound h.budget, ?_, htables⟩, hsettles.limit_eq⟩
  have hconsumed := hsettles.consumed_eq
  have hbefore := h.consumed_eq
  omega

theorem Balanced.charged (h : o.Balanced) {place : ℕ} {t : Table}
    (ht : o.tables[place]? = some t) : t.Charged o.budget := by
  have hsum : o.tableBytes = _ := sum_map_eraseIdx ht
  rw [Charged, h.consumed_eq, hsum]
  omega

theorem rowBytes_eq (o : Owners) : o.rowBytes = (o.stores.map RowStore.byteSize).sum := by
  unfold rowBytes
  congr 1
  exact List.map_congr_left fun store _ ↦ (RowStore.byteSize_eq store).symm

/-! ### What one operation does -/

/-- An operation that does not fault leaves the owners balanced and the limit as it is. -/
def Keeps (o : Owners) (op : Op) : Prop :=
  ∃ o', o.step op = .ok o' ∧ o'.Balanced ∧ o'.budget.limit = o.budget.limit

theorem Balanced.unchanged (h : o.Balanced) {op : Op} (hstep : o.step op = .ok o) :
    o.Keeps op :=
  ⟨o, hstep, h, rfl⟩

theorem createTable_cases (config : Config) (stored : Bool) (budget : Budget) :
    (∃ e budget', (if stored then Table.withRowStore else Table.new) config budget =
      (.error e, budget') ∧ ∀ old, budget.Settles old old budget') ∨
    ∃ table budget', (if stored then Table.withRowStore else Table.new) config budget =
      (.ok table, budget') ∧ (∀ old, budget.Settles old (old + table.byteSize) budget') ∧
        table.Sound ∧ table.arena.Paged := by
  have hcreate : (∃ e budget', Table.create config budget = (.error e, budget') ∧
      ∀ old, budget.Settles old old budget') ∨
      ∃ table budget', Table.create config budget = (.ok table, budget') ∧
        (∀ old, budget.Settles old (old + table.byteSize) budget') ∧
          table.Sound ∧ table.arena.Paged := by
    rw [Table.create]
    cases hvalid : config.validate with
    | error e => exact Or.inl ⟨e, budget, rfl, .refl budget⟩
    | ok valid =>
      dsimp only
      split_ifs with hadmits
      · refine Or.inr ⟨_, _, rfl, fun old ↦ ?_, ?_, Arena.paged_empty⟩
        · rw [byteSize, empty, Array.size_replicate]
          exact .charge hadmits old
        · exact sound_empty _ _ (PowerOfTwo.isPower_ceil _)
            (Session.le_maxBuckets_of_validate hvalid)
      · exact Or.inl ⟨_, _, rfl, .refuse budget⟩
  cases stored with
  | true =>
    rw [if_pos rfl, Table.withRowStore]
    split_ifs
    · exact hcreate
    · exact Or.inl ⟨_, budget, rfl, .refl budget⟩
  | false =>
    rw [if_neg Bool.false_ne_true, Table.new]
    split_ifs
    · exact hcreate
    · exact Or.inl ⟨_, budget, rfl, .refl budget⟩

theorem Balanced.createTable (h : o.Balanced) (config : Config) (stored : Bool) :
    o.Keeps (.createTable config stored) := by
  rcases createTable_cases config stored o.budget with
    ⟨e, budget, hcreate, hsettles⟩ | ⟨table, budget, hcreate, hsettles, hsound, hpaged⟩
  · refine ⟨{ o with budget }, ?_, h.settle (hsettles 0) rfl h.tables⟩
    rw [step, hcreate]
  · refine ⟨{ o with budget, tables := table :: o.tables }, ?_, h.settle (hsettles 0) ?_ ?_⟩
    · rw [step, hcreate]
    · show (table.byteSize + o.tableBytes) + o.rowBytes + o.direct + 0 = _
      omega
    · intro t ht
      rcases List.mem_cons.mp ht with rfl | ht
      · exact ⟨hsound, hpaged⟩
      · exact h.tables t ht

theorem Balanced.useTable (h : o.Balanced) (place : ℕ) (rows : RowStore) {op : Session.Op}
    (hop : op.onTable = true) : o.Keeps (.useTable place rows op hop) := by
  cases ht : o.tables[place]? with
  | none => exact h.unchanged (by rw [step, ht])
  | some t =>
    let s : Session := ⟨t, o.budget, rows, []⟩
    have hsolvent : s.Solvent := h.charged ht
    obtain ⟨hsound, hpaged⟩ := h.tables t (List.mem_of_getElem? ht)
    obtain ⟨s', hs', hsettles⟩ := Session.exists_step_settles hsolvent hop
    have hmoves := (Session.changes_of_step hsolvent hs').1.moves hsound
    refine ⟨{ o with budget := s'.budget, tables := o.tables.set place s'.table }, ?_,
      h.settle hsettles ?_ ?_⟩
    · rw [step, ht]
      dsimp only
      rw [hs']
      rfl
    · have hbefore : o.tableBytes = _ := sum_map_eraseIdx ht
      have hafter : ((o.tables.set place s'.table).map Table.byteSize).sum = _ :=
        sum_map_set ht s'.table
      show ((o.tables.set place s'.table).map Table.byteSize).sum + o.rowBytes + o.direct +
        t.byteSize = _
      omega
    · intro u hu
      rcases List.mem_or_eq_of_mem_set hu with hu | rfl
      · exact h.tables u hu
      · exact ⟨hmoves.sound hsound, hmoves.paged hpaged⟩

theorem Balanced.closeTable (h : o.Balanced) (place : ℕ) : o.Keeps (.closeTable place) := by
  cases ht : o.tables[place]? with
  | none => exact h.unchanged (by rw [step, ht])
  | some t =>
    obtain ⟨budget, hclose, hsettles⟩ := exists_close_settles (h.charged ht)
    refine ⟨{ o with budget, tables := o.tables.eraseIdx place }, ?_, h.settle hsettles ?_
      fun u hu ↦ h.tables u (List.mem_of_mem_eraseIdx hu)⟩
    · rw [step, ht]
      dsimp only
      rw [hclose]
      rfl
    · have hbefore : o.tableBytes = _ := sum_map_eraseIdx ht
      show ((o.tables.eraseIdx place).map Table.byteSize).sum + o.rowBytes + o.direct +
        t.byteSize = _
      omega

theorem append_settles (store : RowStore) (budget : Budget) (row : Row) :
    budget.Settles store.byteSize (store.append (some budget) row).store.byteSize
      ((store.append (some budget) row).payer.getD budget) := by
  rw [RowStore.append]
  dsimp only
  split_ifs with hadmits
  · rw [RowStore.byteSize_push]
    exact .charge hadmits _
  · exact .refuse budget _

theorem Balanced.append (h : o.Balanced) (place : ℕ) (row : Row) :
    o.Keeps (.append place row) := by
  cases hs : o.stores[place]? with
  | none => exact h.unchanged (by rw [step, hs])
  | some store =>
    let a := store.append (some o.budget) row
    refine ⟨{ o with budget := a.payer.getD o.budget, stores := o.stores.set place a.store }, ?_,
      h.settle (append_settles store o.budget row) ?_ h.tables⟩
    · rw [step, hs]
    · have hbefore := sum_map_eraseIdx (f := RowStore.byteSize) hs
      have hafter := sum_map_set (f := RowStore.byteSize) hs a.store
      rw [rowBytes_eq, rowBytes_eq]
      show o.tableBytes + ((o.stores.set place a.store).map RowStore.byteSize).sum + o.direct +
        store.byteSize = o.tableBytes + _ + o.direct + a.store.byteSize
      omega

theorem Balanced.closeStore (h : o.Balanced) (place : ℕ) : o.Keeps (.closeStore place) := by
  cases hs : o.stores[place]? with
  | none => exact h.unchanged (by rw [step, hs])
  | some store =>
    have hbefore := sum_map_eraseIdx (f := RowStore.byteSize) hs
    have hrows := rowBytes_eq o
    have hle : store.byteSize ≤ o.budget.consumed := by
      rw [h.consumed_eq]
      omega
    obtain ⟨budget, hrelease, hsettles⟩ := Budget.exists_release_eq_ok hle 0
    refine ⟨{ o with budget, stores := o.stores.eraseIdx place }, ?_, h.settle hsettles ?_
      h.tables⟩
    · rw [step, hs]
      dsimp only
      rw [RowStore.close, hrelease]
      rfl
    · rw [rowBytes_eq]
      show o.tableBytes + ((o.stores.eraseIdx place).map RowStore.byteSize).sum + o.direct +
        (0 + store.byteSize) = o.tableBytes + o.rowBytes + o.direct + 0
      omega

/-- No operation faults, and the budget stays charged for what is alive. -/
theorem Balanced.keeps (h : o.Balanced) {op : Op} (hfair : o.isFair op = true) :
    o.Keeps op := by
  cases op with
  | createTable config stored => exact h.createTable config stored
  | useTable place rows op hop => exact h.useTable place rows hop
  | closeTable place => exact h.closeTable place
  | openStore rowsPerPage =>
    refine ⟨_, rfl, h.settle (.refl o.budget 0) ?_ h.tables⟩
    show o.tableBytes + (0 + o.rowBytes) + o.direct + 0 = _
    omega
  | append place row => exact h.append place row
  | closeStore place => exact h.closeStore place
  | charge bytes =>
    let granted := o.budget.tryConsume bytes
    refine ⟨{ o with
      budget := granted.2
      direct := if granted.1 then o.direct + bytes else o.direct }, rfl,
      h.settle (o.budget.tryConsume_settles bytes 0) ?_ h.tables⟩
    show o.tableBytes + o.rowBytes + (if (o.budget.tryConsume bytes).1 then _ else _) + 0 = _
    rw [fst_tryConsume]
    split_ifs <;> omega
  | giveBack bytes =>
    have hdirect : bytes ≤ o.direct := of_decide_eq_true hfair
    have hle : bytes ≤ o.budget.consumed := by
      rw [h.consumed_eq]
      omega
    obtain ⟨budget, hrelease, hsettles⟩ := Budget.exists_release_eq_ok hle 0
    refine ⟨{ o with budget, direct := o.direct - bytes }, ?_, h.settle hsettles ?_ h.tables⟩
    · rw [step, hrelease]
      rfl
    · show o.tableBytes + o.rowBytes + (o.direct - bytes) + (0 + bytes) = _
      omega

/-! ### Runs -/

theorem Balanced.run (h : o.Balanced) {ops : List Op} (hfair : o.areFair ops = true) :
    ∃ o', o.run ops = .ok o' ∧ o'.Balanced ∧ o'.budget.limit = o.budget.limit := by
  induction ops generalizing o with
  | nil => exact ⟨o, rfl, h, rfl⟩
  | cons op ops ih =>
    rw [areFair, Bool.and_eq_true] at hfair
    obtain ⟨next, hnext, hbalanced, hlimit⟩ := h.keeps hfair.1
    rw [hnext] at hfair
    obtain ⟨o', ho', hbalanced', hlimit'⟩ := ih hbalanced hfair.2
    refine ⟨o', ?_, hbalanced', hlimit'.trans hlimit⟩
    rw [Owners.run, List.foldlM_cons, hnext]
    exact ho'

end Owners

end JoinIndex
