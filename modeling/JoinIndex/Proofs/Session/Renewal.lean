import JoinIndex.Proofs.Session.Frames
import JoinIndex.Proofs.Session.Storage
import JoinIndex.Proofs.Table.Counters

/-!
A cleared table is as good as a new one. What a session does depends on its table, its row store and
what its budget is charged for now; what the budget was charged for once, and what the table has
counted for statistics, never comes up again. So a session whose table was cleared and a session
that was just created with as many buckets answer alike for ever after, to the last page charged,
and only the totals of searches and resizes differ, by what they were when the table was cleared.
-/

set_option autoImplicit false
set_option relaxedAutoImplicit false

namespace JoinIndex.Session

open Table

variable {s t s' t' : Session} {op : Op}

/-- What the cursor of a walk shows and reads on its way, references included. -/
def readings (s : Session) : Op → List (Cursor.View × Cursor.Reading)
  | .walk start steps => ((s.place start).1.walk (s.place start).2 s.rows steps).1
  | _ => []

/-! ### Budgets with the same charges -/

/-- Sessions with one table and one row store, under budgets with one limit and the same charges. -/
structure Alike (s t : Session) : Prop where
  table_eq : s.table = t.table
  rows_eq : s.rows = t.rows
  budget : s.budget.Alike t.budget

theorem Alike.related (h : s.Alike t) : Related Eq s t := by
  refine ⟨h.table_eq ▸ related_refl _, h.budget, ?_⟩
  rintro ref _ rfl
  rw [h.rows_eq]

theorem Alike.readings_eq (h : s.Alike t) (op : Op) : s.readings op = t.readings op := by
  cases op with
  | walk start steps =>
    have hplace : s.place start = t.place start := by
      cases start <;> simp only [place, h.table_eq, h.rows_eq]
    rw [readings, readings, hplace, h.rows_eq]
  | _ => rfl

/-- What is appended is charged or refused alike. -/
theorem Alike.append (h : s.Alike t) (row : Row) (paid : Bool) :
    let a := s.rows.append (if paid then some s.budget else none) row
    let a' := t.rows.append (if paid then some t.budget else none) row
    a.index = a'.index ∧ a.store = a'.store ∧
      (a.payer.getD s.budget).Alike (a'.payer.getD t.budget) := by
  rw [h.rows_eq]
  cases paid with
  | false => exact ⟨rfl, rfl, h.budget⟩
  | true =>
    simp only [if_true, RowStore.append, h.budget.admits, h.budget.remaining]
    split_ifs
    · exact ⟨rfl, rfl, h.budget.charge _⟩
    · exact ⟨rfl, rfl, h.budget.refuse⟩

/-- Every operation answers the same in both and leaves them alike. -/
theorem Alike.step {storage : StorageMode} (h : s.Alike t) (hs : s.Ready storage)
    (ht : t.Ready storage) (hs' : s.step op = .ok s') (ht' : t.step op = .ok t') :
    s.answer op = t.answer op ∧ s'.Alike t' := by
  obtain ⟨_, hok, hready⟩ := hs.exists_step_eq_ok op
  obtain rfl := Except.ok.inj (hs'.symm.trans hok)
  obtain ⟨_, hok', hready'⟩ := ht.exists_step_eq_ok op
  obtain rfl := Except.ok.inj (ht'.symm.trans hok')
  have hstorage := hready.storage_eq.trans hready'.storage_eq.symm
  by_cases hop : op.isRowless = true
  · obtain ⟨hanswer, hsame⟩ := h.related.step hop
    rw [hs', ht'] at hsame
    cases hsame with
    | ok hrelated =>
      obtain ⟨hrelated, hrows, hrows'⟩ := hrelated
      exact ⟨hanswer, hrelated.table.eq hstorage, by rw [hrows, hrows', h.rows_eq],
        hrelated.budget⟩
  · cases op with
    | insert context row hash =>
      have hkind : row.storage = s.table.storage ↔ row.storage = t.table.storage := by
        rw [h.table_eq]
      have houtcome := h.related.table.insert h.budget rfl hkind (h.related.holds_eq context) hash
      obtain rfl := Except.ok.inj hs'
      obtain rfl := Except.ok.inj ht'
      exact ⟨congrArg Answer.inserted houtcome.answer_eq, houtcome.table.eq hstorage, h.rows_eq,
        houtcome.budget⟩
    | append row paid =>
      obtain ⟨hindex, hstore, hbudget⟩ := h.append row paid
      obtain rfl := Except.ok.inj hs'
      obtain rfl := Except.ok.inj ht'
      exact ⟨congrArg Answer.appended hindex, h.table_eq, hstore, hbudget⟩
    | charge bytes =>
      obtain rfl := Except.ok.inj hs'
      obtain rfl := Except.ok.inj ht'
      rw [answer, answer, fst_tryConsume, fst_tryConsume, h.budget.admits]
      refine ⟨rfl, h.table_eq, h.rows_eq, ?_⟩
      simp only [Budget.tryConsume, h.budget.admits]
      split_ifs
      · exact h.budget.charge bytes
      · exact h.budget.refuse
    | giveBack bytes =>
      have hreleased := h.budget.release (min bytes (s.budget.consumed - s.table.byteSize))
      have hstep := hreleased.bind (f := fun budget ↦ .ok { s with budget })
        (g := fun budget ↦ .ok { t with budget }) (U := Alike)
        fun _ _ hbudget ↦ .ok ⟨h.table_eq, h.rows_eq, hbudget⟩
      change SameFault Alike (s.step (.giveBack bytes)) _ at hstep
      rw [h.budget.consumed_eq, h.table_eq] at hstep
      change SameFault Alike _ (t.step (.giveBack bytes)) at hstep
      rw [hs', ht'] at hstep
      cases hstep with
      | ok halike => exact ⟨rfl, halike⟩
    | _ => exact absurd rfl hop

/-! ### Totals counted before -/

/-- The session as it is if its table has counted on from earlier searches and resizes. -/
def countingFrom (counts : ProbeCounts) (resizes : ℕ) (s : Session) : Session :=
  { s with table := s.table.countingFrom counts resizes }

variable (counts : ProbeCounts) (resizes : ℕ)

@[simp] theorem table_countingFrom (s : Session) :
    (s.countingFrom counts resizes).table = s.table.countingFrom counts resizes := rfl

@[simp] theorem budget_countingFrom (s : Session) :
    (s.countingFrom counts resizes).budget = s.budget := rfl

@[simp] theorem rows_countingFrom (s : Session) :
    (s.countingFrom counts resizes).rows = s.rows := rfl

theorem place_countingFrom (s : Session) (start : Start) :
    (s.countingFrom counts resizes).place start =
      ((s.place start).1, (s.place start).2.countingFrom counts resizes) := by
  cases start with
  | find context hash => exact s.table.find_countingFrom counts resizes s.rows context hash
  | first => exact congrArg (·, _) (s.table.seek_countingFrom counts resizes 0)
  | firstUnmatched => exact congrArg (·, _) (s.table.firstUnmatched_countingFrom counts resizes)

theorem step_countingFrom (s : Session) (op : Op) :
    (s.countingFrom counts resizes).step op = (s.step op).map (countingFrom counts resizes) := by
  cases op with
  | insert context row hash =>
    rw [step, step, table_countingFrom, budget_countingFrom, rows_countingFrom,
      insert_countingFrom]
    rfl
  | probe context? hash =>
    rw [step, step, table_countingFrom, rows_countingFrom, probe_countingFrom]
    rfl
  | walk start steps =>
    rw [step, step, place_countingFrom, rows_countingFrom]
    dsimp only
    rw [Cursor.walk_countingFrom]
    rfl
  | resize size =>
    rw [step, step, table_countingFrom, budget_countingFrom, resize_countingFrom]
    cases s.table.resize s.budget size <;> rfl
  | makeRoom more =>
    rw [step, step, table_countingFrom, budget_countingFrom, makeRoom_countingFrom]
    cases s.table.makeRoom s.budget more <;> rfl
  | clear =>
    rw [step, step, table_countingFrom, budget_countingFrom, clear_countingFrom]
    cases s.table.clear s.budget <;> rfl
  | append row paid => rfl
  | charge bytes => rfl
  | giveBack bytes =>
    have hbytes : (s.table.countingFrom counts resizes).byteSize = s.table.byteSize := rfl
    rw [step, step, table_countingFrom, budget_countingFrom, hbytes]
    cases s.budget.release (min bytes (s.budget.consumed - s.table.byteSize)) <;> rfl

theorem answer_countingFrom (s : Session) (op : Op) :
    (s.countingFrom counts resizes).answer op = s.answer op := by
  cases op with
  | insert context row hash =>
    rw [answer, answer, table_countingFrom, budget_countingFrom, rows_countingFrom,
      insert_countingFrom]
    rfl
  | probe context? hash => rfl
  | walk start steps =>
    rw [answer, answer, place_countingFrom, rows_countingFrom]
    simp only [Cursor.told, Cursor.walk_countingFrom, Cursor.view_countingFrom]
  | resize size =>
    rw [answer, answer, table_countingFrom, budget_countingFrom, resize_countingFrom]
    cases s.table.resize s.budget size <;> rfl
  | makeRoom more =>
    rw [answer, answer, table_countingFrom, budget_countingFrom, makeRoom_countingFrom]
    cases s.table.makeRoom s.budget more <;> rfl
  | _ => rfl

theorem readings_countingFrom (s : Session) (op : Op) :
    (s.countingFrom counts resizes).readings op = s.readings op := by
  cases op with
  | walk start steps =>
    rw [readings, readings, place_countingFrom, Cursor.walk_countingFrom]
    rfl
  | _ => rfl

theorem Ready.countingFrom {storage : StorageMode} (h : s.Ready storage) :
    (s.countingFrom counts resizes).Ready storage :=
  ⟨h.solvent, { h.sound with }, h.storage_eq⟩

/-! ### Observations -/

/-- What is observed of an operation, and the session that it leaves behind. -/
structure Observation where
  answer : Answer
  readings : List (Cursor.View × Cursor.Reading)
  after : Session

/-- All operations, one after the other. -/
def observeAll (s : Session) : List Op → Except Fault (List Observation)
  | [] => .ok []
  | op :: ops => do
    let next ← s.step op
    let rest ← next.observeAll ops
    return ⟨s.answer op, s.readings op, next⟩ :: rest

/-- Two observations of one answer, one reading and one state, but for totals that the first table
has counted before. -/
structure Observation.AgreesFrom (counts : ProbeCounts) (resizes : ℕ) (x y : Observation) :
    Prop where
  answer_eq : x.answer = y.answer
  readings_eq : x.readings = y.readings
  table_eq : x.after.table = y.after.table.countingFrom counts resizes
  rows_eq : x.after.rows = y.after.rows
  limit_eq : x.after.budget.limit = y.after.budget.limit
  consumed_eq : x.after.budget.consumed = y.after.budget.consumed

/-- The induction is on the operations: after each of them the tables are as far apart as before. -/
theorem Alike.exists_observeAll {storage : StorageMode} {counts : ProbeCounts} {resizes : ℕ}
    (h : s.Alike (t.countingFrom counts resizes)) (hs : s.Ready storage) (ht : t.Ready storage)
    (ops : List Op) :
    ∃ trace trace', s.observeAll ops = .ok trace ∧ t.observeAll ops = .ok trace' ∧
      List.Forall₂ (Observation.AgreesFrom counts resizes) trace trace' := by
  induction ops generalizing s t with
  | nil => exact ⟨[], [], rfl, rfl, .nil⟩
  | cons op ops ih =>
    obtain ⟨next, hnext, hready⟩ := hs.exists_step_eq_ok op
    obtain ⟨next', hnext', hready'⟩ := ht.exists_step_eq_ok op
    have hcounting : (t.countingFrom counts resizes).step op =
        .ok (next'.countingFrom counts resizes) := by
      rw [step_countingFrom, hnext']
      rfl
    obtain ⟨hanswer, halike⟩ := h.step hs (ht.countingFrom counts resizes) hnext hcounting
    rw [answer_countingFrom] at hanswer
    have hreadings := h.readings_eq op
    rw [readings_countingFrom] at hreadings
    obtain ⟨rest, rest', hrest, hrest', hagree⟩ := ih halike hready hready'
    refine ⟨⟨s.answer op, s.readings op, next⟩ :: rest,
      ⟨t.answer op, t.readings op, next'⟩ :: rest', ?_, ?_, .cons ?_ hagree⟩
    · rw [observeAll, hnext]
      show (next.observeAll ops >>= _) = _
      rw [hrest]
      rfl
    · rw [observeAll, hnext']
      show (next'.observeAll ops >>= _) = _
      rw [hrest']
      rfl
    · exact ⟨hanswer, hreadings, halike.table_eq, halike.rows_eq, halike.budget.limit_eq,
        halike.budget.consumed_eq⟩

/-! ### A cleared table -/

/-- The second session was just created, with as many buckets and the same modes as the table of the
first one has, over its row store, and under a budget with its limit and its charges. -/
structure LikeNew (s fresh : Session) : Prop where
  created : ∃ config stored budget, create config stored budget s.rows = .ok fresh ∧
    config.startBuckets = s.table.buckets.size ∧ config.probing = s.table.probing ∧
    config.storage = s.table.storage
  limit_eq : fresh.budget.limit = s.budget.limit
  consumed_eq : fresh.budget.consumed = s.budget.consumed

theorem LikeNew.alike {fresh : Session} (hcleared : s.table.cleared = s.table)
    (h : s.LikeNew fresh) :
    s.Alike (fresh.countingFrom s.table.counts s.table.resizes) := by
  obtain ⟨config, stored, budget, hcreate, hbuckets, hprobing, hstorage⟩ := h.created
  have hlimit := h.limit_eq
  have hconsumed := h.consumed_eq
  obtain ⟨-, -, rfl⟩ := create_eq_ok hcreate
  refine ⟨?_, rfl, hlimit.symm, hconsumed.symm⟩
  rw [← hcleared]
  show s.table.cleared = Table.countingFrom _ _ (Table.empty _ _ _)
  rw [hbuckets, hprobing, hstorage]
  rfl

/-- There is such a session, if the budget is charged for the buckets and keeps to its limit. -/
theorem exists_likeNew (h : s.Solvent) (hsound : s.table.Sound) (hbudget : s.budget.Sound) :
    ∃ fresh, s.LikeNew fresh := by
  let size := s.table.buckets.size
  let config : Config :=
    { Config.linear size with probing := s.table.probing, storage := s.table.storage }
  let budget : Budget := { s.budget with consumed := s.budget.consumed - bucketBytes size }
  have hvalid : config.validate = .ok () := by
    have hnot : ¬ Config.maxBuckets < size := not_lt.mpr hsound.size_le
    show (if Config.maxBuckets < size then _ else Except.ok ()) = _
    rw [if_neg hnot]
  have hstart : config.startBuckets = size := by
    obtain ⟨k, hk⟩ := PowerOfTwo.isPower_iff.mp hsound.size_isPower
    have hpos : 1 ≤ size := by
      show 1 ≤ s.table.buckets.size
      rw [hk]
      exact Nat.one_le_two_pow
    show PowerOfTwo.ceil (max size 1) = size
    rw [max_eq_left hpos, PowerOfTwo.ceil_of_isPower hsound.size_isPower]
  have hcharged : bucketBytes size ≤ s.budget.consumed := (Nat.le_add_right _ _).trans h
  have hadmits : budget.admits (bucketBytes size) = true := by
    rw [Budget.admits_iff]
    show s.budget.consumed - bucketBytes size + bucketBytes size < _ ∧
      ∀ limit ∈ s.budget.limit, s.budget.consumed - bucketBytes size + bucketBytes size ≤ _
    rw [Nat.sub_add_cancel hcharged]
    exact ⟨hbudget.consumed_le.trans_lt hbudget.peak_lt,
      fun limit hlimit ↦ hbudget.consumed_le.trans (hbudget.peak_le limit hlimit)⟩
  have hkind : config.storage =
      if decide (config.storage = .indexed) then .indexed else .direct := by
    cases config.storage <;> rfl
  have hcreate := create_eq hkind budget s.rows
  rw [hvalid] at hcreate
  dsimp only at hcreate
  rw [hstart, if_pos hadmits] at hcreate
  refine ⟨_, ⟨config, _, budget, hcreate, hstart, rfl, rfl⟩, rfl, ?_⟩
  exact Nat.sub_add_cancel hcharged

/-! ### Runs -/

/-- No run changes the limit of the budget or charges past it. -/
theorem budget_run (h : s.Solvent) {ops : List Op} (hrun : s.run ops = .ok s') :
    s'.budget.limit = s.budget.limit ∧ (s.budget.Sound → s'.budget.Sound) := by
  obtain ⟨u, hu, -, hkept⟩ := run_induction
    (P := fun t ↦ t.budget.limit = s.budget.limit ∧ (s.budget.Sound → t.budget.Sound))
    (fun _ _ _ hsolvent ht hstep ↦
      have hone := budget_step hsolvent hstep
      ⟨hone.1.trans ht.1, hone.2 ∘ ht.2⟩) h ⟨rfl, id⟩ ops
  obtain rfl := Except.ok.inj (hu.symm.trans hrun)
  exact hkept

/-- After any operations on a new table, clearing it gives back the bytes of all slots of all pages
of nodes, and no others. From then on the table cannot be told from one that was just created with
as many buckets, of the same modes, over the same row store, and under a budget with the same limit
and charges; there is such a table. Whatever is asked of both, nothing faults, each answer is the
same and so is all that is read, and after each operation the tables and the charges are the same,
but for the totals of searches and resizes that the cleared table has counted before. -/
theorem run_clear_likeNew {config : Config} {stored : Bool} {budget : Budget} {rows : RowStore}
    (h : create config stored budget rows = .ok s) (ops : List Op) :
    ∃ s' cleared, s.run ops = .ok s' ∧ s'.step .clear = .ok cleared ∧
      cleared.budget.consumed + 32 * s'.table.arena.slots = s'.budget.consumed ∧
      (budget.Sound → ∃ fresh, cleared.LikeNew fresh) ∧
      ∀ fresh, cleared.LikeNew fresh → ∀ later, ∃ trace trace',
        cleared.observeAll later = .ok trace ∧ fresh.observeAll later = .ok trace' ∧
        List.Forall₂ (Observation.AgreesFrom s'.table.counts s'.table.resizes) trace trace' := by
  have hstart := ready_create h
  have hpaged : s.table.arena.Paged := by
    obtain ⟨-, -, rfl⟩ := create_eq_ok h
    exact Arena.paged_empty
  obtain ⟨s', hrun, hsolvent, hready, hpaged⟩ := exists_run_eq_ok
    (P := fun s ↦ (s.table.Sound ∧ s.table.storage = config.storage) ∧ s.table.arena.Paged)
    (fun _ _ hs hchanges ↦
      have hmoves := hchanges.moves hs.1.1
      ⟨⟨hmoves.sound hs.1.1, (moves_modes_eq hmoves).1.trans hs.1.2⟩, hmoves.paged hs.2⟩)
    (solvent_create h) ⟨⟨hstart.sound, hstart.storage_eq⟩, hpaged⟩ ops
  have hready : s'.Ready config.storage := ⟨hsolvent, hready.1, hready.2⟩
  have hclear := step_clear hsolvent
  obtain ⟨cleared, hcleared, hready'⟩ := hready.exists_step_eq_ok .clear
  have hlimit := (budget_step hsolvent hcleared).2
  obtain rfl := Except.ok.inj (hclear.symm.trans hcleared)
  refine ⟨s', _, hrun, hcleared, ?_, fun hbudget ↦ ?_, fun fresh hfresh later ↦ ?_⟩
  · have hbytes : s'.table.arena.byteSize = 32 * s'.table.arena.slots := hpaged.byteSize_eq
    have hcharged : bucketBytes s'.table.buckets.size + s'.table.arena.byteSize ≤
      s'.budget.consumed := hsolvent
    show s'.budget.consumed - s'.table.arena.byteSize + 32 * s'.table.arena.slots = _
    omega
  · have hsound : s.budget.Sound := by
      obtain ⟨-, hadmits, rfl⟩ := create_eq_ok h
      exact (Budget.Settles.charge hadmits 0).sound hbudget
    exact exists_likeNew hready'.solvent hready'.sound
      (hlimit ((budget_run (solvent_create h) hrun).2 hsound))
  · obtain ⟨config', stored', budget', hcreate, -, -, hstorage⟩ := hfresh.created
    have hready'' := ready_create hcreate
    rw [hstorage, hready'.storage_eq] at hready''
    exact (hfresh.alike (cleared_cleared s'.table)).exists_observeAll hready' hready'' later

/-- The table of the small session has grown to four buckets and has a page of nodes when it is
cleared. Used in the same way again, it goes the way of a table that was created with four. -/
theorem run_clear_likeNew_small :
    create (.linear 2) false (Budget.unlimited "small") (.new 1) = .ok smallStart ∧
      ∃ s' cleared fresh trace trace',
        smallStart.run smallOps = .ok s' ∧ s'.step .clear = .ok cleared ∧
        cleared.budget.consumed + 32 * 1024 = s'.budget.consumed ∧
        create (.linear 4) false (Budget.unlimited "new") (.new 1) = .ok fresh ∧
        cleared.observeAll smallOps = .ok trace ∧ fresh.observeAll smallOps = .ok trace' ∧
        trace'.map (fun x ↦ x.after.table.entries) = [1, 2, 3, 4, 4, 4] ∧
        List.Forall₂ (Observation.AgreesFrom ⟨4, 3, 3⟩ 1) trace trace' := by
  obtain ⟨s', cleared, hrun, hcleared, hconsumed, -, hlike⟩ :=
    run_clear_likeNew create_small smallOps
  have hstate : (smallStart.run smallOps).map (fun s ↦
      (s.table.counts, s.table.resizes, s.table.arena.slots)) = .ok (⟨4, 3, 3⟩, 1, 1024) := by cbv
  rw [hrun] at hstate
  obtain ⟨hcounts, hrest⟩ := Prod.mk.inj (Except.ok.inj hstate)
  obtain ⟨hresizes, hslots⟩ := Prod.mk.inj hrest
  have hend : ((smallStart.run smallOps).bind (·.step .clear)).map (fun s ↦
      ((s.table.buckets.size, s.table.probing, s.table.storage), s.rows, s.budget.limit,
        s.budget.consumed)) = .ok ((4, .linear, .direct), .new 1, none, 96) := by cbv
  rw [hrun, Except.bind, hcleared] at hend
  obtain ⟨htable, hrest⟩ := Prod.mk.inj (Except.ok.inj hend)
  obtain ⟨hbuckets, hmodes⟩ := Prod.mk.inj htable
  obtain ⟨hprobing, hstorage⟩ := Prod.mk.inj hmodes
  obtain ⟨hrows, hcharges⟩ := Prod.mk.inj hrest
  obtain ⟨hlimit, hcharged⟩ := Prod.mk.inj hcharges
  obtain ⟨fresh, hfresh⟩ : ∃ fresh,
      create (.linear 4) false (Budget.unlimited "new") (.new 1) = .ok fresh := ⟨_, rfl⟩
  have hlikeNew : cleared.LikeNew fresh := by
    obtain ⟨-, -, rfl⟩ := create_eq_ok hfresh
    refine ⟨⟨.linear 4, false, .unlimited "new", ?_, hbuckets.symm, hprobing.symm,
      hstorage.symm⟩, hlimit.symm, hcharged.symm⟩
    rw [hrows]
    exact hfresh
  obtain ⟨trace, trace', htrace, htrace', hagree⟩ := hlike fresh hlikeNew smallOps
  have hentries : (create (.linear 4) false (Budget.unlimited "new") (.new 1)).toOption.map
      (fun s ↦ (s.observeAll smallOps).map fun trace ↦ trace.map fun x ↦ x.after.table.entries) =
        some (.ok [1, 2, 3, 4, 4, 4]) := by cbv
  rw [hfresh, Except.toOption, Option.map_some, htrace'] at hentries
  rw [hslots] at hconsumed
  rw [hcounts, hresizes] at hagree
  exact ⟨create_small, s', cleared, fresh, trace, trace', hrun, hcleared, hconsumed, hfresh, htrace,
    htrace', Except.ok.inj (Option.some.inj hentries), hagree⟩

end JoinIndex.Session
