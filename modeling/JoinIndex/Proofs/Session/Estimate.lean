import JoinIndex.Proofs.Probe.Exactness
import JoinIndex.Proofs.Session.Packing

/-!
The estimate of the bytes of a table, and what the table charges. The estimate has room for one node
a row, and the table charges whole pages of nodes. It is therefore kept to if and only if the pages
have no more slots than there may be rows: always when no two rows have a key in common, and never
when two have and the rows are fewer than the slots of the first page. A table whose budget is
limited to the estimate then refuses every row whose key it has. The slots without a node are about
as many as the nodes, which bounds what a table charges past the estimate.
-/

set_option autoImplicit false
set_option relaxedAutoImplicit false

namespace JoinIndex

namespace Table

variable {t : Table}

theorem estimateSize_eq_ok {n size : Nat} (h : estimateSize n = .ok size) :
    size = 24 * estimateBuckets n + 32 * n := by
  have hbuckets : bucketBytes (estimateBuckets n) = 24 * estimateBuckets n := Nat.mul_comm _ 24
  have hnodes : n * Arena.nodeBytes = 32 * n := Nat.mul_comm n 32
  rw [estimateSize, Arena.pageBytes, hbuckets, hnodes] at h
  by_cases hproduct : Budget.wordRange ≤ 24 * estimateBuckets n
  · simp only [if_pos hproduct] at h
    cases h
  by_cases hpage : 32 * n < Budget.wordRange
  · by_cases hsum : Budget.wordRange ≤ 24 * estimateBuckets n + 32 * n
    · simp only [if_neg hproduct, if_pos hpage] at h
      cases (if_pos hsum).symm.trans h
    · simp only [if_neg hproduct, if_pos hpage] at h
      exact (Except.ok.inj ((if_neg hsum).symm.trans h)).symm
  · simp only [if_neg hproduct, if_neg hpage] at h
    cases h

theorem Inserted.entries_le {budget : Budget} {isKey : RowRef → Bool} {row : RowRef}
    {hash : UInt32} {o : Outcome Bool} (h : Inserted t budget isKey row hash o) :
    o.table.entries ≤ t.entries + 1 := by
  cases h with
  | wrongKind => exact Nat.le_succ _
  | full => exact Nat.le_succ _
  | refused => exact Nat.le_succ _
  | first => exact le_refl _
  | second => exact le_refl _
  | further => exact le_refl _

/-- A row whose key was found shares the bucket of the key. -/
theorem Inserted.shares_of_found {budget : Budget} {isKey : RowRef → Bool} {row : RowRef}
    {hash : UInt32} {o : Outcome Bool} (h : Inserted t budget isKey row hash o) {p : Nat}
    (hfound : Probe.Answers t.probing t.buckets hash (t.holdsKey isKey) (.found p))
    (htrue : o.answer = true) :
    o.table.filled = t.filled ∧ o.table.entries = t.entries + 1 := by
  cases h with
  | wrongKind => cases htrue
  | full => cases htrue
  | refused => cases htrue
  | first probe q _ hanswers => cases Probe.answers_unique hfound hanswers
  | second => exact ⟨rfl, rfl⟩
  | further => exact ⟨rfl, rfl⟩

end Table

namespace Session

open Table

variable {s s' : Session} {op : Op}

/-- What the bytes of a table in use are reckoned from. -/
structure Accounted (s : Session) : Prop where
  solvent : s.Solvent
  budget : s.budget.Sound
  sound : s.table.Sound
  paged : s.table.arena.Paged
  packed : s.table.Packed

theorem Accounted.step (h : s.Accounted) (hstep : s.step op = .ok s') : s'.Accounted := by
  obtain ⟨hchanges, hsolvent⟩ := changes_of_step h.solvent hstep
  have hmoves := hchanges.moves h.sound
  exact ⟨hsolvent, (budget_step h.solvent hstep).2 h.budget, hmoves.sound h.sound,
    hmoves.paged h.paged, packed_step h.solvent h.sound h.paged h.packed hstep⟩

theorem accounted_create {config : Config} {stored : Bool} {budget : Budget} {rows : RowStore}
    (h : create config stored budget rows = .ok s) (hbudget : budget.Sound) : s.Accounted := by
  have hsolvent := solvent_create h
  have hsound := (intact_create h).sound
  obtain ⟨-, hadmits, rfl⟩ := create_eq_ok h
  exact ⟨hsolvent, (Budget.Settles.charge hadmits 0).sound hbudget, hsound, Arena.paged_empty,
    packed_empty _ _ _⟩

/-- An insertion adds a row at most, and no other operation adds any. -/
theorem entries_step (h : s.Solvent) (hstep : s.step op = .ok s') :
    s'.table.entries ≤ s.table.entries + if op.isInsert then 1 else 0 := by
  cases op with
  | insert context row hash =>
    obtain rfl := Except.ok.inj hstep
    exact (insert_inserted s.table s.budget s.rows context row hash).entries_le
  | clear =>
    rw [step_clear h] at hstep
    obtain rfl := Except.ok.inj hstep
    exact Nat.zero_le _
  | _ => exact (asFull_step h rfl rfl hstep).entries_eq.le

theorem exists_run_accounted (h : s.Accounted) {ops : List Op}
    (hops : ∀ op ∈ ops, op.isResize = false ∧ op.isMakeRoom = false) :
    ∃ s', s.run ops = .ok s' ∧ s'.Accounted ∧ s'.budget.limit = s.budget.limit ∧
      s'.table.buckets.size = s.table.buckets.size ∧
      s'.table.entries ≤ s.table.entries + ops.countP Op.isInsert := by
  induction ops generalizing s with
  | nil => exact ⟨s, rfl, h, rfl, rfl, le_refl _⟩
  | cons op ops ih =>
    obtain ⟨next, hnext, -, -⟩ := exists_step_eq_ok h.solvent op
    obtain ⟨hresize, hroom⟩ := hops op List.mem_cons_self
    obtain ⟨s', hs', haccounted, hlimit, hsize, hentries⟩ := ih (h.step hnext)
      fun later hlater ↦ hops later (List.mem_cons_of_mem _ hlater)
    have hone := entries_step h.solvent hnext
    refine ⟨s', (run_cons hnext ops).trans hs', haccounted,
      hlimit.trans (budget_step h.solvent hnext).1,
      hsize.trans (size_step h.solvent hresize hroom hnext), ?_⟩
    rw [List.countP_cons]
    omega

/-- A budget that is used up by the buckets and `n` nodes, fewer than the first page has slots, has
paid for no page. -/
theorem Accounted.filled_eq_entries (h : s.Accounted) {n : Nat} (hn : n < 1024) {limit : UInt64}
    (hlimit : limit ∈ s.budget.limit)
    (hle : limit.toNat ≤ 24 * s.table.buckets.size + 32 * n) :
    s.table.filled = s.table.entries := by
  rw [← h.packed.pages_eq_zero_iff h.sound]
  by_contra hpages
  have hslots := Arena.minPageNodes_le_slots (Nat.pos_of_ne_zero hpages)
  have hmin : Arena.minPageNodes = 1024 := rfl
  have hbytes := byteSize_eq_of_paged h.paged
  have hcharged : s.table.byteSize ≤ s.budget.consumed := h.solvent
  have hpeak := h.budget.consumed_le.trans (h.budget.peak_le limit hlimit)
  omega

/-- Such a budget refuses a row whose key is stored, which would have to share a bucket. -/
theorem Accounted.refuses_found (h : s.Accounted) {n : Nat} (hn : n < 1024) {limit : UInt64}
    (hlimit : limit ∈ s.budget.limit)
    (hle : limit.toNat ≤ 24 * s.table.buckets.size + 32 * n) (context : KeyContext) (row : RowRef)
    (hash : UInt32) {p : Nat} (hfound : (s.table.probe (context.holds s.rows) hash).1 = .found p) :
    (s.table.insert s.budget s.rows context row hash).answer = false := by
  by_contra htrue
  have hnext : s.step (.insert context row hash) = .ok _ := rfl
  have hlimit' := (budget_step h.solvent hnext).1
  have hsize := size_step h.solvent rfl rfl hnext
  have hfull := (h.step hnext).filled_eq_entries hn (hlimit' ▸ hlimit) (hsize ▸ hle)
  change (s.table.insert s.budget s.rows context row hash).table.filled =
    (s.table.insert s.budget s.rows context row hash).table.entries at hfull
  obtain ⟨hfilled, hmore⟩ := (insert_inserted s.table s.budget s.rows context row
    hash).shares_of_found (Probe.answers_iff.mpr hfound) (eq_true_of_ne_false htrue)
  have hbefore := h.filled_eq_entries hn hlimit hle
  omega

/-- A table that starts with the estimate of buckets for `n` rows keeps to the estimate of bytes,
over any operations with as many insertions and without a resize, exactly when its pages have no
more than `n` slots. It does so as long as no two rows share a bucket, and does not once two do if
`n` is less than the slots of the first page; past the estimate it never goes by more bytes than
about as many nodes again and one page take. If the budget is limited to the estimate, and `n` is
less than the slots of the first page, no two rows ever share a bucket: every row whose key is
stored is refused. -/
theorem run_byteSize_estimate {config : Config} {stored : Bool} {budget : Budget} {rows : RowStore}
    (h : create config stored budget rows = .ok s) (hbudget : budget.Sound) {n size : Nat}
    (hstart : config.startBuckets = estimateBuckets n) (hsize : estimateSize n = .ok size)
    {ops : List Op} (hops : ∀ op ∈ ops, op.isResize = false ∧ op.isMakeRoom = false)
    (hcount : ops.countP Op.isInsert ≤ n) :
    ∃ s', s.run ops = .ok s' ∧
      let t := s'.table
      (t.byteSize ≤ size ↔ t.arena.slots ≤ n) ∧
      (t.filled = t.entries → t.byteSize ≤ size) ∧
      (n < 1024 → t.filled ≠ t.entries → size < t.byteSize) ∧
      t.byteSize ≤ size + 32 * (n + 2 * (n / 1023) + 1024) ∧
      ∀ limit ∈ budget.limit, limit.toNat ≤ size → n < 1024 →
        t.filled = t.entries ∧ ∀ context row hash p,
          (t.probe (context.holds s'.rows) hash).1 = .found p →
            (t.insert s'.budget s'.rows context row hash).answer = false := by
  obtain ⟨s', hrun, hend, hlimit, hbuckets, hentries⟩ :=
    exists_run_accounted (accounted_create h hbudget) hops
  obtain ⟨-, -, hs⟩ := create_eq_ok h
  have hsame : s'.table.buckets.size = estimateBuckets n := by
    rw [hbuckets, hs, ← hstart]
    exact Array.size_replicate
  have hzero : s.table.entries = 0 := by rw [hs]; rfl
  have hlimit : s'.budget.limit = budget.limit := by rw [hlimit, hs]; rfl
  have hbytes := byteSize_eq_of_paged hend.paged
  have hestimate := estimateSize_eq_ok hsize
  have hkept : s'.table.byteSize ≤ size ↔ s'.table.arena.slots ≤ n := by omega
  have hpages := hend.packed.pages_eq_zero_iff hend.sound
  refine ⟨s', hrun, hkept, fun hfilled ↦ ?_, fun hn hshared ↦ ?_, ?_,
    fun limit hmem hle hn ↦ ?_⟩
  · rw [hkept, Arena.slots, hpages.mpr hfilled]
    exact Nat.zero_le n
  · have hslots := Arena.minPageNodes_le_slots
      (Nat.pos_of_ne_zero (mt hpages.mp hshared))
    have hmin : Arena.minPageNodes = 1024 := rfl
    omega
  · have hslots := hend.packed.arena.slots_le_numNodes hend.paged
    have hnodes := hend.sound.numNodes_le_entries
    have hdiv : s'.table.arena.numNodes / 1023 ≤ n / 1023 := Nat.div_le_div_right (by omega)
    omega
  · rw [hestimate, ← hsame] at hle
    rw [← hlimit] at hmem
    exact ⟨hend.filled_eq_entries hn hmem hle, fun context row hash p hfound ↦
      hend.refuses_found hn hmem hle context row hash hfound⟩

/-- A session with a table for two rows under a budget limited to the estimate for them. -/
def estimateStart : Session :=
  ⟨.empty .quadratic .direct 4, (Budget.new "small" (some 160)).charge (bucketBytes 4), .new 1, []⟩

/-- The table takes in a row, stays within the estimate and refuses another row with its key. -/
theorem run_byteSize_estimate_two :
    create (.quadratic 4) false (Budget.new "small" (some 160)) (.new 1) = .ok estimateStart ∧
      (Budget.new "small" (some 160)).Sound ∧
      (Config.quadratic 4).startBuckets = estimateBuckets 2 ∧ estimateSize 2 = .ok 160 ∧
      ∃ s', estimateStart.run [.insert (intContext 1) (intRow 0 1) 5] = .ok s' ∧
        s'.table.entries = 1 ∧ s'.table.byteSize ≤ 160 ∧
        (s'.table.insert s'.budget s'.rows (intContext 1) (intRow 1 1) 5).answer = false := by
  have hcreate : create (.quadratic 4) false (Budget.new "small" (some 160)) (.new 1) =
    .ok estimateStart := rfl
  have hstart : (Config.quadratic 4).startBuckets = estimateBuckets 2 := by decide
  have hsize : estimateSize 2 = .ok 160 := by decide
  have hops : ∀ op ∈ [Op.insert (intContext 1) (intRow 0 1) 5],
    op.isResize = false ∧ op.isMakeRoom = false := by decide
  obtain ⟨s', hrun, -, hkeeps, -, -, hlimited⟩ := run_byteSize_estimate hcreate
    (Budget.sound_new _ _) hstart hsize hops (by decide)
  have hstate : (estimateStart.run [.insert (intContext 1) (intRow 0 1) 5]).map (fun s ↦
      (s.table.entries, (s.table.probe ((intContext 1).holds s.rows) 5).1)) =
        .ok (1, .found 1) := by cbv
  rw [hrun] at hstate
  obtain ⟨hentries, hfound⟩ := Prod.mk.inj (Except.ok.inj hstate)
  obtain ⟨hfilled, hrefuses⟩ := hlimited 160 rfl (by decide) (by decide)
  exact ⟨hcreate, Budget.sound_new _ _, hstart, hsize, s', hrun, hentries, hkeeps hfilled,
    hrefuses _ _ _ _ hfound⟩

/-- Two rows with one key take a page of 1024 nodes, where the estimate for two rows has room for
two. Under a budget limited to the estimate the second row is refused. -/
theorem estimateSize_two_exceeded :
    (Config.quadratic 4).startBuckets = estimateBuckets 2 ∧ estimateSize 2 = .ok 160 ∧
      (create (.quadratic 4) false (Budget.unlimited "small") (.new 1)).toOption.map (fun s ↦
        (s.run [.insert (intContext 1) (intRow 0 1) 5, .insert (intContext 1) (intRow 1 1) 5]).map
          (fun s' ↦ (s'.table.entries, s'.table.byteSize))) = some (.ok (2, 32864)) ∧
      (create (.quadratic 4) false (Budget.new "small" (some 160)) (.new 1)).toOption.map (fun s ↦
        (s.run [.insert (intContext 1) (intRow 0 1) 5, .insert (intContext 1) (intRow 1 1) 5]).map
          (fun s' ↦ (s'.table.entries, s'.budget.refusals))) = some (.ok (1, 1)) := by
  refine ⟨by decide, by decide, ?_, ?_⟩
  · cbv
  · cbv

end Session

end JoinIndex
