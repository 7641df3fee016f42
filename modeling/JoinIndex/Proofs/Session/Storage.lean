import JoinIndex.Proofs.RowStore
import JoinIndex.Proofs.Session.Answers

/-!
The storage mode cannot be observed. A table that holds rows and a table that holds indices into a
row store are asked the same; each row is appended to the store before its index is handed over.
Then both answer the same to everything, at each step: the references of the two tables lead to the
same rows, one by one, and later appends change no row that an index leads to.
-/

set_option autoImplicit false
set_option relaxedAutoImplicit false

namespace JoinIndex.Session

open Table

/-! ### Operations that name no row -/

/-- Whether an operation is one of the table and is given no row. -/
def Op.isRowless : Op → Bool
  | probe _ _ => true
  | walk _ _ => true
  | resize _ => true
  | makeRoom _ => true
  | clear => true
  | insert _ _ _ => false
  | append _ _ => false
  | charge _ => false
  | giveBack _ => false

section

variable {R : RowRef → RowRef → Prop} {s t : Session}

/-- Sessions whose tables differ in their references only, related ones leading to one row. -/
structure Related (R : RowRef → RowRef → Prop) (s t : Session) : Prop where
  table : Table.Related R s.table t.table
  budget : s.budget.Alike t.budget
  resolve_eq : ∀ d i, R d i → d.resolve s.rows = i.resolve t.rows

theorem Related.holds_eq (h : Related R s t) (context : KeyContext) :
    ∀ d i, R d i → context.holds s.rows d = context.holds t.rows i :=
  fun _ _ ↦ Table.Related.holds_eq h.resolve_eq context

theorem Related.place (h : Related R s t) (start : Start) :
    (s.place start).1 = (t.place start).1 ∧
      Table.Related R (s.place start).2 (t.place start).2 := by
  cases start with
  | find context hash => exact h.table.find (h.holds_eq context) hash
  | first => exact ⟨h.table.seek_eq 0, h.table⟩
  | firstUnmatched => exact ⟨h.table.firstUnmatched_eq, h.table⟩

theorem Related.isKey_eq (h : Related R s t) (context? : Option KeyContext) :
    ∀ d i, R d i → context?.elim (fun _ ↦ false) (·.holds s.rows) d =
      context?.elim (fun _ ↦ false) (·.holds t.rows) i := by
  cases context? with
  | none => exact fun _ _ _ ↦ rfl
  | some context => exact h.holds_eq context

/-- What is said of outcomes carries over to what a session makes of them. -/
theorem Related.of_outcomes (h : Related R s t)
    {r r' : Except Fault (Outcome (Except Error Unit))} (hr : SameFault (Outcome.Related R) r r') :
    r.map Outcome.answer = r'.map Outcome.answer ∧
      SameFault (fun s' t' ↦ Related R s' t' ∧ s'.rows = s.rows ∧ t'.rows = t.rows)
        (r >>= fun o ↦ .ok { s with table := o.table, budget := o.budget })
        (r' >>= fun o ↦ .ok { t with table := o.table, budget := o.budget }) :=
  alike_of_outcomes hr (fun _ _ ho ↦ ho.answer_eq)
    fun _ _ ho ↦ ⟨⟨ho.table, ho.budget, h.resolve_eq⟩, rfl, rfl⟩

/-- An operation that names no row answers the same in both sessions and leaves them related. -/
theorem Related.step (h : Related R s t) {op : Op} (hop : op.isRowless = true) :
    s.answer op = t.answer op ∧
      SameFault (fun s' t' ↦ Related R s' t' ∧ s'.rows = s.rows ∧ t'.rows = t.rows)
        (s.step op) (t.step op) := by
  cases op with
  | probe context? hash =>
    obtain ⟨hresult, htable⟩ := h.table.probe (h.isKey_eq context?) hash
    exact ⟨congrArg Answer.probed hresult, .ok ⟨⟨htable, h.budget, h.resolve_eq⟩, rfl, rfl⟩⟩
  | walk start steps =>
    obtain ⟨hcursor, hplaced⟩ := h.place start
    obtain ⟨htold, htable⟩ := hplaced.walk h.resolve_eq (t.place start).1 steps
    have hwalked : Table.Related R ((s.place start).1.walk (s.place start).2 s.rows steps).2
        ((t.place start).1.walk (t.place start).2 t.rows steps).2 := by
      rw [hcursor]
      exact htable
    refine ⟨?_, .ok ⟨⟨hwalked, h.budget, h.resolve_eq⟩, rfl, rfl⟩⟩
    rw [answer, answer, hcursor, htold, hplaced.view_eq]
  | resize size =>
    obtain ⟨hanswer, hsame⟩ := h.of_outcomes (h.table.resize h.budget size)
    exact ⟨congrArg Answer.resized hanswer, hsame⟩
  | makeRoom more =>
    obtain ⟨hanswer, hsame⟩ := h.of_outcomes (h.table.makeRoom h.budget more)
    exact ⟨congrArg Answer.resized hanswer, hsame⟩
  | clear =>
    refine ⟨rfl, (h.table.clear h.budget).bind fun r r' hr ↦ .ok ⟨?_, rfl, rfl⟩⟩
    exact ⟨hr.1, hr.2, h.resolve_eq⟩
  | insert => cases hop
  | append => cases hop
  | charge => cases hop
  | giveBack => cases hop

end

/-! ### Requests -/

/-- What a caller asks of a table, in whatever way the table holds its rows. -/
inductive Request where
  /-- Stores a row under a hash, with the key evaluated last. -/
  | store (context : KeyContext) (shared : SharedRow) (hash : UInt32)
  | other (op : Op) (h : op.isRowless = true)

/-- A row that is stored is handed over itself, or appended to the row store first and named by its
index. -/
def serve (s : Session) : Request → Except Fault (Answer × Session)
  | .store context shared hash =>
    match s.table.storage with
    | .direct => s.perform (.insert context (.direct shared) hash)
    | .indexed => do
      let index := (s.rows.append none shared.row).index
      let s ← s.step (.append shared.row false)
      match index with
      | .error e => return (.appended (.error e), s)
      | .ok index => s.perform (.insert context (.indexed index) hash)
  | .other op _ => s.perform op

/-- What is seen of a table after a request. -/
structure Report where
  answer : Answer
  stats : Stats
  hasMatches : Bool
  consumed : ℕ

def report (s : Session) (answer : Answer) : Report :=
  ⟨answer, s.table.stats, s.table.hasMatches, s.budget.consumed⟩

/-- All requests, one after the other. -/
def serveAll (s : Session) : List Request → Except Fault (List Report × Session)
  | [] => .ok ([], s)
  | request :: requests => do
    let (answer, next) ← s.serve request
    let (reports, last) ← next.serveAll requests
    return (next.report answer :: reports, last)

/-- Both references lead to one row: the row is held by the one, and copied from the store at the
other, whatever it is copied over. -/
def Together (rows : RowStore) (d i : RowRef) : Prop :=
  ∃ shared index, d = .direct shared ∧ i = .indexed index ∧
    ∀ scratch, rows.materialize index scratch = (true, shared.row)

theorem materialize_eq_iff {rows : RowStore} {index : RowIndex} {row : Row} :
    (∀ scratch, rows.materialize index scratch = (true, row)) ↔ rows.get? index = some row := by
  unfold RowStore.materialize
  constructor
  · intro h
    have hcopied := h Row.empty
    cases hrow : rows.get? index with
    | none => simp [hrow] at hcopied
    | some found =>
      rw [hrow] at hcopied
      rw [(Prod.mk.inj hcopied).2]
  · intro h scratch
    rw [h]

theorem Together.resolve_eq {rows : RowStore} (others : RowStore) {d i : RowRef}
    (h : Together rows d i) : d.resolve others = i.resolve rows := by
  obtain ⟨shared, index, rfl, rfl, hrow⟩ := h
  exact (materialize_eq_iff.mp hrow).symm

theorem Together.within {rows later : RowStore} (hrows : rows.Within later) {d i : RowRef}
    (h : Together rows d i) : Together later d i := by
  obtain ⟨shared, index, rfl, rfl, hrow⟩ := h
  exact ⟨shared, index, rfl, rfl,
    materialize_eq_iff.mpr (hrows index _ (materialize_eq_iff.mp hrow))⟩

/-- A session that holds rows and one that holds indices, so far alike. -/
structure Twins (s t : Session) : Prop where
  direct : s.Ready .direct
  indexed : t.Ready .indexed
  rowsPerPage_le : t.rows.rowsPerPage ≤ 2 ^ 32
  related : Related (Together t.rows) s t

variable {s t : Session}

theorem Twins.report_eq (h : Twins s t) (answer : Answer) : s.report answer = t.report answer := by
  rw [report, report, h.related.table.stats_eq, h.related.table.hasMatches_eq,
    h.related.budget.consumed_eq]

theorem related_of_table (h : Table.Related (Together t.rows) s.table t.table)
    (hbudget : s.budget.Alike t.budget) : Related (Together t.rows) s t :=
  ⟨h, hbudget, fun _ _ ↦ Together.resolve_eq s.rows⟩

/-! ### One request -/

theorem rows_step {op : Op} (hop : op.isRowless = true) {s' : Session} (h : s.step op = .ok s') :
    s'.rows = s.rows := by
  have hkeeps := rows_kept_step h
  cases op with
  | probe => exact hkeeps.1
  | walk => exact hkeeps.1
  | resize => exact hkeeps.1
  | makeRoom => exact hkeeps.1
  | clear => exact hkeeps.1
  | insert => cases hop
  | append => cases hop
  | charge => cases hop
  | giveBack => cases hop

/-- The session in which a row has been appended to the store. -/
def appended (t : Session) (row : Row) : Session :=
  { t with rows := t.rows.push row }

theorem serve_store_direct (h : s.table.storage = .direct) (context : KeyContext)
    (shared : SharedRow) (hash : UInt32) :
    s.serve (.store context shared hash) = s.perform (.insert context (.direct shared) hash) := by
  rw [serve, h]

theorem serve_store_indexed (h : t.table.storage = .indexed) (context : KeyContext)
    (shared : SharedRow) (hash : UInt32) :
    t.serve (.store context shared hash) =
      match (t.rows.push shared.row).lastIndex with
      | .error e => .ok (.appended (.error e), t.appended shared.row)
      | .ok index => (t.appended shared.row).perform (.insert context (.indexed index) hash) := by
  rw [serve, h]
  rfl

theorem Ready.appended {storage : StorageMode} (h : t.Ready storage) (row : Row) :
    (t.appended row).Ready storage :=
  ⟨h.solvent, h.sound, h.storage_eq⟩

theorem Ready.exists_perform_eq_ok {storage : StorageMode} (h : s.Ready storage) (op : Op) :
    ∃ s', s.step op = .ok s' ∧ s.perform op = .ok (s.answer op, s') ∧ s'.Ready storage := by
  obtain ⟨s', hs', hready⟩ := h.exists_step_eq_ok op
  exact ⟨s', hs', perform_eq_ok hs', hready⟩

/-- No request faults, and none takes a page from the store. -/
theorem Ready.exists_serve_eq_ok {storage : StorageMode} (h : s.Ready storage)
    (request : Request) :
    ∃ answer s', s.serve request = .ok (answer, s') ∧ s'.Ready storage ∧
      s'.rows.rowsPerPage = s.rows.rowsPerPage ∧ s.rows.numPages ≤ s'.rows.numPages := by
  cases request with
  | other op hop =>
    obtain ⟨s', hs', hperform, hready⟩ := h.exists_perform_eq_ok op
    have hrows := rows_step hop hs'
    exact ⟨_, s', hperform, hready, by rw [hrows], by rw [hrows]⟩
  | store context shared hash =>
    have hpushed := s.rows.rowsPerPage_push shared.row
    have hpages := s.rows.numPages_le_push shared.row
    cases storage with
    | direct =>
      obtain ⟨s', hs', hperform, hready⟩ :=
        h.exists_perform_eq_ok (.insert context (.direct shared) hash)
      obtain rfl := Except.ok.inj hs'
      exact ⟨_, _, (serve_store_direct h.storage_eq context shared hash).trans hperform, hready,
        rfl, le_refl _⟩
    | indexed =>
      have hserve := serve_store_indexed h.storage_eq context shared hash
      cases hindex : (s.rows.push shared.row).lastIndex with
      | error e =>
        rw [hindex] at hserve
        exact ⟨_, _, hserve, h.appended shared.row, hpushed, hpages⟩
      | ok index =>
        obtain ⟨s', hs', hperform, hready⟩ := (h.appended shared.row).exists_perform_eq_ok
          (.insert context (.indexed index) hash)
        obtain rfl := Except.ok.inj hs'
        rw [hindex] at hserve
        exact ⟨_, _, hserve.trans hperform, hready, hpushed, hpages⟩

/-- The row that is stored: by itself in the one session, by its new index in the other. -/
theorem Twins.store (h : Twins s t) (context : KeyContext) (shared : SharedRow) (hash : UInt32)
    {index : RowIndex} (hrow : (t.rows.push shared.row).get? index = some shared.row) :
    Outcome.Related (Together (t.rows.push shared.row))
      (s.table.insert s.budget s.rows context (.direct shared) hash)
      (t.table.insert t.budget (t.rows.push shared.row) context (.indexed index) hash) := by
  have htogether : Together (t.rows.push shared.row) (.direct shared) (.indexed index) :=
    ⟨shared, index, rfl, rfl, materialize_eq_iff.mpr hrow⟩
  have htable : Table.Related (Together (t.rows.push shared.row)) s.table t.table :=
    h.related.table.mono fun _ _ ↦ Together.within (t.rows.within_push shared.row)
  refine htable.insert h.related.budget htogether ?_
    (fun _ _ ↦ Table.Related.holds_eq (fun _ _ ↦ Together.resolve_eq s.rows) context) hash
  rw [h.direct.storage_eq, h.indexed.storage_eq]
  exact iff_of_true rfl rfl

/-- While the pages of the store can be named, both sessions answer alike and stay alike. -/
theorem Twins.serve (h : Twins s t) {request : Request} {answer answer' : Answer}
    {s' t' : Session} (hs : s.serve request = .ok (answer, s'))
    (ht : t.serve request = .ok (answer', t')) (hpages : t'.rows.numPages ≤ 2 ^ 32) :
    answer = answer' ∧ Twins s' t' := by
  obtain ⟨_, s'', hs'', hdirect, -⟩ := h.direct.exists_serve_eq_ok request
  obtain ⟨rfl, rfl⟩ := Prod.mk.inj (Except.ok.inj (hs.symm.trans hs''))
  obtain ⟨_, t'', ht'', hindexed, hperPage, hle⟩ := h.indexed.exists_serve_eq_ok request
  obtain ⟨rfl, rfl⟩ := Prod.mk.inj (Except.ok.inj (ht.symm.trans ht''))
  have hperPage' : t'.rows.rowsPerPage ≤ 2 ^ 32 := hperPage ▸ h.rowsPerPage_le
  cases request with
  | other op hop =>
    obtain ⟨hanswer, hsame⟩ := h.related.step hop
    obtain ⟨s₁, hs₁, hperform, -⟩ := h.direct.exists_perform_eq_ok op
    obtain ⟨t₁, ht₁, hperform', -⟩ := h.indexed.exists_perform_eq_ok op
    obtain ⟨rfl, rfl⟩ := Prod.mk.inj (Except.ok.inj (hs.symm.trans hperform))
    obtain ⟨rfl, rfl⟩ := Prod.mk.inj (Except.ok.inj (ht.symm.trans hperform'))
    rw [hs₁, ht₁] at hsame
    cases hsame with
    | ok hrelated =>
      obtain ⟨hrelated, -, hrows⟩ := hrelated
      rw [← hrows] at hrelated
      exact ⟨hanswer, hdirect, hindexed, hperPage', hrelated⟩
  | store context shared hash =>
    rw [serve_store_direct h.direct.storage_eq] at hs
    rw [serve_store_indexed h.indexed.storage_eq] at ht
    have hpushed : (t.rows.push shared.row).numPages ≤ 2 ^ 32 := by
      cases hindex : (t.rows.push shared.row).lastIndex with
      | error e =>
        rw [hindex] at ht
        obtain ⟨-, rfl⟩ := Prod.mk.inj (Except.ok.inj ht)
        exact hpages
      | ok index =>
        rw [hindex] at ht
        obtain ⟨-, rfl⟩ := Prod.mk.inj (Except.ok.inj ht)
        exact hpages
    obtain ⟨index, hindex, hrow⟩ := RowStore.exists_lastIndex_push h.rowsPerPage_le hpushed
    have houtcome := h.store context shared hash hrow
    rw [hindex] at ht
    obtain ⟨rfl, rfl⟩ := Prod.mk.inj (Except.ok.inj hs)
    obtain ⟨rfl, rfl⟩ := Prod.mk.inj (Except.ok.inj ht)
    exact ⟨congrArg Answer.inserted houtcome.answer_eq, hdirect, hindexed, hperPage',
      related_of_table houtcome.table houtcome.budget⟩

/-! ### Runs -/

/-- No run of requests faults, and none takes a page from the store. -/
theorem Ready.exists_serveAll_eq_ok {storage : StorageMode} (h : s.Ready storage)
    (requests : List Request) :
    ∃ reports s', s.serveAll requests = .ok (reports, s') ∧
      s.rows.numPages ≤ s'.rows.numPages := by
  induction requests generalizing s with
  | nil => exact ⟨[], s, rfl, le_refl _⟩
  | cons request requests ih =>
    obtain ⟨answer, next, hnext, hready, -, hle⟩ := h.exists_serve_eq_ok request
    obtain ⟨reports, s', hs', hle'⟩ := ih hready
    refine ⟨next.report answer :: reports, s', ?_, hle.trans hle'⟩
    rw [serveAll, hnext]
    show (next.serveAll requests >>= _) = _
    rw [hs']
    rfl

theorem serveAll_cons_eq_ok {request : Request} {requests : List Request} {answer : Answer}
    {next s' : Session} {reports : List Report} (hnext : s.serve request = .ok (answer, next))
    (h : s.serveAll (request :: requests) = .ok (reports, s')) :
    ∃ rest, next.serveAll requests = .ok (rest, s') ∧ reports = next.report answer :: rest := by
  rw [serveAll, hnext] at h
  change (next.serveAll requests >>= _) = _ at h
  cases hrest : next.serveAll requests with
  | error fault =>
    rw [hrest] at h
    cases h
  | ok r =>
    rw [hrest] at h
    obtain ⟨rfl, rfl⟩ := Prod.mk.inj (Except.ok.inj h)
    exact ⟨_, rfl, rfl⟩

theorem Twins.serveAll (h : Twins s t) {requests : List Request}
    {reports reports' : List Report} {s' t' : Session}
    (hs : s.serveAll requests = .ok (reports, s')) (ht : t.serveAll requests = .ok (reports', t'))
    (hpages : t'.rows.numPages ≤ 2 ^ 32) : reports = reports' ∧ Twins s' t' := by
  induction requests generalizing s t reports reports' with
  | nil =>
    obtain ⟨rfl, rfl⟩ := Prod.mk.inj (Except.ok.inj hs)
    obtain ⟨rfl, rfl⟩ := Prod.mk.inj (Except.ok.inj ht)
    exact ⟨rfl, h⟩
  | cons request requests ih =>
    obtain ⟨answer, s₁, hs₁, -⟩ := h.direct.exists_serve_eq_ok request
    obtain ⟨answer', t₁, ht₁, hready, -⟩ := h.indexed.exists_serve_eq_ok request
    obtain ⟨rest, hrest, rfl⟩ := serveAll_cons_eq_ok hs₁ hs
    obtain ⟨rest', hrest', rfl⟩ := serveAll_cons_eq_ok ht₁ ht
    obtain ⟨_, t₂, ht₂, hle⟩ := hready.exists_serveAll_eq_ok requests
    obtain ⟨-, rfl⟩ := Prod.mk.inj (Except.ok.inj (hrest'.symm.trans ht₂))
    obtain ⟨rfl, htwins⟩ := h.serve hs₁ ht₁ (hle.trans hpages)
    obtain ⟨rfl, hend⟩ := ih htwins hrest hrest'
    rw [htwins.report_eq]
    exact ⟨rfl, hend⟩

/-- A table of the right storage mode is created if the configuration is valid and its buckets are
granted. -/
theorem create_eq {config : Config} {stored : Bool}
    (hkind : config.storage = if stored then .indexed else .direct) (budget : Budget)
    (rows : RowStore) :
    create config stored budget rows =
      match config.validate with
      | .error e => .error e
      | .ok () =>
        if budget.admits (bucketBytes config.startBuckets) then
          .ok ⟨.empty config.probing config.storage config.startBuckets,
            budget.charge (bucketBytes config.startBuckets), rows, []⟩
        else .error (.memoryLimit (bucketBytes config.startBuckets) budget.remaining) := by
  have htable : (if stored then Table.withRowStore else Table.new) config budget =
      Table.create config budget := by
    cases stored with
    | true => exact if_pos hkind
    | false => exact if_pos hkind
  unfold create
  rw [htable, Table.create]
  cases config.validate with
  | error e => rfl
  | ok valid =>
    dsimp only
    split_ifs <;> rfl

/-- Both tables are refused for one reason, or both are created and alike. -/
theorem create_alike (config : Config) {budget budget' : Budget} (h : budget.Alike budget')
    (others rows : RowStore) (hrows : rows.rowsPerPage ≤ 2 ^ 32) :
    (∃ e, create { config with storage := .direct } false budget others = .error e ∧
      create { config with storage := .indexed } true budget' rows = .error e) ∨
    ∃ s t, create { config with storage := .direct } false budget others = .ok s ∧
      create { config with storage := .indexed } true budget' rows = .ok t ∧ Twins s t := by
  have hstorage : ({ config with storage := .direct } : Config).storage =
    if false then .indexed else .direct := rfl
  have hstorage' : ({ config with storage := .indexed } : Config).storage =
    if true then .indexed else .direct := rfl
  have hdirect := create_eq hstorage budget others
  have hindexed := create_eq hstorage' budget' rows
  have hvalidate : ∀ storage, ({ config with storage } : Config).validate = config.validate :=
    fun _ ↦ rfl
  have hbuckets : ∀ storage, ({ config with storage } : Config).startBuckets =
    config.startBuckets := fun _ ↦ rfl
  rw [hvalidate, hbuckets, h.admits, h.remaining] at hdirect
  rw [hvalidate, hbuckets] at hindexed
  cases hvalid : config.validate with
  | error e =>
    rw [hvalid] at hdirect hindexed
    exact Or.inl ⟨e, hdirect, hindexed⟩
  | ok valid =>
    rw [hvalid] at hdirect hindexed
    dsimp only at hdirect hindexed
    split_ifs at hdirect hindexed with hadmits
    · refine Or.inr ⟨_, _, hdirect, hindexed, ready_create hdirect, ready_create hindexed, hrows,
        ?_⟩
      exact related_of_table (related_empty _ _ _ _) (h.charge _)
    · exact Or.inl ⟨_, hdirect, hindexed⟩

/-- A table that holds rows and a table that holds indices into a row store cannot be told apart.
They are created alike, under budgets with one limit and the same charges, and whatever is asked of
them, nothing faults and every report is the same, as long as the pages of the store can be named by
32 bits. In the end each reference of the one table and the reference at the same place of the other
lead to one row. -/
theorem serveAll_storage_eq (config : Config) {budget budget' : Budget}
    (hlimit : budget.limit = budget'.limit) (hconsumed : budget.consumed = budget'.consumed)
    (others : RowStore) {rowsPerPage : ℕ} (hrows : rowsPerPage ≤ 2 ^ 32)
    (requests : List Request) :
    (∃ e, create { config with storage := .direct } false budget others = .error e ∧
      create { config with storage := .indexed } true budget' (.new rowsPerPage) = .error e) ∨
    ∃ s t reports s' reports' t',
      create { config with storage := .direct } false budget others = .ok s ∧
      create { config with storage := .indexed } true budget' (.new rowsPerPage) = .ok t ∧
      s.serveAll requests = .ok (reports, s') ∧ t.serveAll requests = .ok (reports', t') ∧
      (t'.rows.numPages ≤ 2 ^ 32 →
        reports = reports' ∧ Table.Related (Together t'.rows) s'.table t'.table) := by
  have hperPage : (RowStore.new rowsPerPage).rowsPerPage ≤ 2 ^ 32 := max_le hrows (by decide)
  rcases create_alike config ⟨hlimit, hconsumed⟩ others _ hperPage with
    hrefused | ⟨s, t, hs, ht, htwins⟩
  · exact Or.inl hrefused
  · obtain ⟨reports, s', hs', -⟩ := htwins.direct.exists_serveAll_eq_ok requests
    obtain ⟨reports', t', ht', -⟩ := htwins.indexed.exists_serveAll_eq_ok requests
    refine Or.inr ⟨s, t, reports, s', reports', t', hs, ht, hs', ht', fun hpages ↦ ?_⟩
    obtain ⟨hreports, hend⟩ := htwins.serveAll hs' ht' hpages
    exact ⟨hreports, hend.related.table⟩

/-- Two keys under one hash, a second row for the first of them, a row for a third key, which finds
no place, then a walk over the rows of the first key, a resize and a scan. -/
def smallRequests : List Request :=
  [.store (intContext 1) ⟨0, ⟨[.int64 1]⟩⟩ 5, .store (intContext 2) ⟨1, ⟨[.int64 2]⟩⟩ 5,
    .store (intContext 1) ⟨2, ⟨[.int64 1]⟩⟩ 5, .store (intContext 3) ⟨3, ⟨[.int64 3]⟩⟩ 5,
    .other (.walk (.find (intContext 1) 5) [.mark, .row, .advance .duplicate, .ref]) rfl,
    .other (.resize 4) rfl, .other (.walk .first [.readAll .next]) rfl]

theorem serveAll_storage_eq_small :
    ∃ s t reports s' t',
      create { Config.linear 2 with storage := .direct } false (.unlimited "rows") (.new 1) =
        .ok s ∧
      create { Config.linear 2 with storage := .indexed } true (.unlimited "indices") (.new 1) =
        .ok t ∧
      s.serveAll smallRequests = .ok (reports, s') ∧
      t.serveAll smallRequests = .ok (reports, t') ∧
      t'.rows.numPages = 4 ∧ Table.Related (Together t'.rows) s'.table t'.table := by
  have hlimit : (Budget.unlimited "rows").limit = (Budget.unlimited "indices").limit := rfl
  have hconsumed : (Budget.unlimited "rows").consumed = (Budget.unlimited "indices").consumed :=
    rfl
  have hrows : 1 ≤ 2 ^ 32 := by decide
  rcases serveAll_storage_eq (Config.linear 2) hlimit hconsumed (.new 1) hrows smallRequests with
    ⟨e, hrefused, -⟩ | ⟨s, t, reports, s', reports', t', hs, ht, hs', ht', h⟩
  · cases hrefused
  · have hpages : (create { Config.linear 2 with storage := .indexed } true
        (.unlimited "indices") (.new 1)).toOption.map (fun t ↦
          (t.serveAll smallRequests).map fun r ↦ r.2.rows.numPages) = some (.ok 4) := by cbv
    rw [ht, Except.toOption, Option.map_some, ht'] at hpages
    have hfour : t'.rows.numPages = 4 := Except.ok.inj (Option.some.inj hpages)
    obtain ⟨rfl, htable⟩ := h (by omega)
    exact ⟨s, t, reports, s', t', hs, ht, hs', ht', hfour, htable⟩

end JoinIndex.Session
