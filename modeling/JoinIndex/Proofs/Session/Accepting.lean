import JoinIndex.Proofs.Session.Keys
import JoinIndex.Proofs.Session.Room
import JoinIndex.Proofs.Session.Storage

/-!
How many rows a table of the estimated size takes in. The estimate is the least power of two that
has room for as many filled buckets within three quarters. A table that is created with it takes in
as many rows of different keys, whatever the hashes are, whatever the budget refuses afterwards and
whatever is done to the table in between: each key gets a bucket of its own, so that no nodes are
needed, and there always is an empty bucket, which every search arrives at.
-/

set_option autoImplicit false
set_option relaxedAutoImplicit false

namespace JoinIndex.Session

open Table Probe

variable {s s' : Session} {exprs : List KeyExpr} {storage : StorageMode} {size : ℕ}

/-! ### Attempts -/

/-- The insertion that an operation attempts, with the row that the reference leads to. -/
def Op.insertion? (rows : RowStore) : Op → Option Insertion
  | insert context row hash => some ⟨row, row.resolve rows, context, hash⟩
  | _ => none

/-- The insertions that operations attempt, the first one first. -/
def attempted (s : Session) : List Op → List Insertion
  | [] => []
  | op :: ops =>
    match s.step op with
    | .ok next => (op.insertion? s.rows).toList ++ next.attempted ops
    | .error _ => (op.insertion? s.rows).toList

/-- Operations that neither take rows away nor change the number of buckets. -/
def Op.isFilling : Op → Bool
  | insert _ _ _ | probe _ _ | walk _ _ | append _ _ | charge _ | giveBack _ => true
  | resize _ | makeRoom _ | clear => false

/-- Insertions with keys of their rows, no two of them the same, and of the kind of a table. -/
structure Distinct (exprs : List KeyExpr) (storage : StorageMode) (l : List Insertion) : Prop where
  keyed : ∀ i ∈ l, i.Keyed exprs
  storage_eq : ∀ i ∈ l, i.ref.storage = storage
  pairwise : l.Pairwise fun i j ↦ Row.sameValues i.key j.key = false

/-! ### One bucket a row -/

/-- A table in which every row has a bucket of its own. -/
structure Spread (exprs : List KeyExpr) (storage : StorageMode) (size : ℕ) (s : Session) :
    Prop where
  solvent : s.Solvent
  inOrder : InOrder exprs s
  keyedBy : s.KeyedBy exprs
  pages_eq : s.table.arena.pages.size = 0
  filled_eq : s.table.filled = s.kept.length
  entries_eq : s.table.entries = s.kept.length
  size_eq : s.table.buckets.size = size
  storage_eq : s.table.storage = storage

theorem Spread.addressable (h : s.Spread exprs storage size) : s.table.arena.Addressable := by
  rw [Arena.Addressable, h.pages_eq]
  exact Nat.zero_le _

theorem spread_create {config : Config} {stored : Bool} {budget : Budget} {rows : RowStore}
    (h : create config stored budget rows = .ok s) :
    s.Spread exprs config.storage config.startBuckets ∧ s.kept = [] := by
  have hsolvent := solvent_create h
  have hinOrder : InOrder exprs s := inOrder_create h
  obtain ⟨-, -, rfl⟩ := create_eq_ok h
  exact ⟨⟨hsolvent, hinOrder, fun i hi ↦ absurd hi List.not_mem_nil, rfl, rfl, rfl,
    Array.size_replicate, rfl⟩, rfl⟩

/-- A key that no row has is not found. -/
theorem Spread.not_found (h : s.Spread exprs storage size) {i : Insertion} (hkeyed : i.Keyed exprs)
    (hnew : ∀ j ∈ s.kept, Row.sameValues j.key i.key = false) {p : ℕ} :
    ¬ Answers s.table.probing s.table.buckets i.hash
      (s.table.holdsKey (i.context.holds s.rows)) (.found p) := by
  intro hanswers
  obtain ⟨reps, hclasses⟩ := h.inOrder.grouped h.addressable h.keyedBy
  obtain ⟨r, hr, -, -, hsame⟩ := exists_rep_of_answers_found h.inOrder.persistent h.keyedBy
    (h.inOrder.intact.linked h.addressable) (asks_of_keyed hkeyed) hclasses hanswers
  exact absurd ((hnew r (hclasses.mem r hr)).symm.trans hsame) Bool.noConfusion

/-- A row with a new key is put into an empty bucket, and the budget is not asked. -/
theorem Spread.insert_new (h : s.Spread exprs storage size) {i : Insertion}
    (hkeyed : i.Keyed exprs) (hkind : i.ref.storage = storage)
    (hnew : ∀ j ∈ s.kept, Row.sameValues j.key i.key = false) (hroom : s.kept.length < size) :
    ∃ (found : Probe) (p : ℕ), s.table.insert s.budget s.rows i.context i.ref i.hash =
      ⟨true, (s.table.searched found).fill p i.hash i.ref, s.budget⟩ := by
  have hempty : s.table.filled < s.table.buckets.size := by
    rw [h.filled_eq, h.size_eq]
    exact hroom
  -- Of the ways in which an insertion goes, all but one end at no bucket or at one with the key.
  have hinserted := insert_inserted s.table s.budget s.rows i.context i.ref i.hash
  generalize s.table.insert s.budget s.rows i.context i.ref i.hash = o at hinserted ⊢
  cases hinserted with
  | wrongKind hother => exact absurd (hkind.trans h.storage_eq.symm) hother
  | full _ _ hanswers =>
    exact absurd (answers_iff.mp hanswers)
      (h.inOrder.intact.sound.probe_ne_exhausted hempty _ _)
  | first found p => exact ⟨found, p, rfl⟩
  | refused _ p _ _ hanswers => exact absurd hanswers (h.not_found hkeyed hnew)
  | second _ p _ _ _ _ _ hanswers => exact absurd hanswers (h.not_found hkeyed hnew)
  | further _ p _ _ _ _ hanswers => exact absurd hanswers (h.not_found hkeyed hnew)

/-- What an operation that is no insertion leaves alone. -/
theorem Spread.step_of_not_insert (h : s.Spread exprs storage size) {op : Op}
    (hop : op.isFilling = true) (hinsert : op.isInsert = false) (hstep : s.step op = .ok s') :
    s'.Spread exprs storage size ∧ s'.kept = s.kept := by
  obtain ⟨hchanges, hsolvent⟩ := changes_of_step h.solvent hstep
  have hkept : s'.kept = s.kept := by
    have hkeeps := rows_kept_step hstep
    cases op with
    | insert => cases hinsert
    | resize | makeRoom | clear => cases hop
    | append => exact hkeeps
    | _ => exact hkeeps.2
  have hresize : op.isResize = false ∧ op.isMakeRoom = false ∧ op.isClear = false := by
    cases op with
    | resize | makeRoom | clear => cases hop
    | _ => exact ⟨rfl, rfl, rfl⟩
  have hfull := asFull_step h.solvent hinsert hresize.2.2 hstep
  have hsize := size_step h.solvent hresize.1 hresize.2.1 hstep
  have hmodes := moves_modes_eq (hchanges.moves h.inOrder.intact.sound)
  refine ⟨⟨hsolvent, hchanges.inOrder h.inOrder, ?_, hfull.pages_eq.trans h.pages_eq, ?_, ?_,
    hsize.trans h.size_eq, hmodes.1.trans h.storage_eq⟩, hkept⟩
  · rw [KeyedBy, hkept]
    exact h.keyedBy
  · rw [hkept, hfull.filled_eq]
    exact h.filled_eq
  · rw [hkept, hfull.entries_eq]
    exact h.entries_eq

/-- A row with a new key is taken in. -/
theorem Spread.step_insert (h : s.Spread exprs storage size) {i : Insertion}
    (hrow : i.row? = i.ref.resolve s.rows) (hkeyed : i.Keyed exprs)
    (hkind : i.ref.storage = storage)
    (hnew : ∀ j ∈ s.kept, Row.sameValues j.key i.key = false) (hroom : s.kept.length < size)
    (hstep : s.step (.insert i.context i.ref i.hash) = .ok s') :
    s'.Spread exprs storage size ∧ s'.kept = i :: s.kept := by
  obtain ⟨hchanges, hsolvent⟩ := changes_of_step h.solvent hstep
  have hinOrder := hchanges.inOrder h.inOrder
  obtain ⟨found, p, ho⟩ := h.insert_new hkeyed hkind hnew hroom
  rw [Session.step, ho, ← hrow] at hstep
  obtain rfl := Except.ok.inj hstep
  refine ⟨⟨hsolvent, hinOrder, List.forall_mem_cons.mpr ⟨hkeyed, h.keyedBy⟩, h.pages_eq, ?_, ?_,
    Array.size_setIfInBounds.trans h.size_eq, h.storage_eq⟩, rfl⟩
  · exact congrArg (· + 1) h.filled_eq
  · exact congrArg (· + 1) h.entries_eq

/-- An insertion is taken in, and any other operation keeps the rows. -/
theorem Spread.step (h : s.Spread exprs storage size) {op : Op} (hop : op.isFilling = true)
    (hdistinct : Distinct exprs storage (s.kept.reverse ++ (op.insertion? s.rows).toList))
    (hroom : (s.kept.reverse ++ (op.insertion? s.rows).toList).length ≤ size)
    (hstep : s.step op = .ok s') :
    s'.Spread exprs storage size ∧
      s'.kept.reverse = s.kept.reverse ++ (op.insertion? s.rows).toList := by
  cases op with
  | insert context row hash =>
    let i : Insertion := ⟨row, row.resolve s.rows, context, hash⟩
    change Distinct exprs storage (s.kept.reverse ++ [i]) at hdistinct
    change (s.kept.reverse ++ [i]).length ≤ size at hroom
    have hi : i ∈ s.kept.reverse ++ [i] := List.mem_append_right _ (List.mem_singleton_self i)
    have hnew : ∀ j ∈ s.kept, Row.sameValues j.key i.key = false := fun j hj ↦
      (List.pairwise_append.mp hdistinct.pairwise).2.2 j (List.mem_reverse.mpr hj) i
        (List.mem_singleton_self i)
    rw [List.length_append, List.length_reverse] at hroom
    obtain ⟨hspread, hkept⟩ := h.step_insert (i := i) rfl (hdistinct.keyed i hi)
      (hdistinct.storage_eq i hi) hnew hroom hstep
    rw [hkept]
    exact ⟨hspread, List.reverse_cons⟩
  | _ =>
    obtain ⟨hspread, hkept⟩ := h.step_of_not_insert hop rfl hstep
    rw [hkept]
    exact ⟨hspread, (List.append_nil _).symm⟩

theorem Distinct.left {l m : List Insertion} (h : Distinct exprs storage (l ++ m)) :
    Distinct exprs storage l :=
  ⟨fun i hi ↦ h.keyed i (List.mem_append_left m hi),
    fun i hi ↦ h.storage_eq i (List.mem_append_left m hi), (List.pairwise_append.mp h.pairwise).1⟩

/-- The induction is on the operations, with the rows that were taken in before as part of those
that are to be different. -/
theorem Spread.exists_run (h : s.Spread exprs storage size) {ops : List Op}
    (hops : ∀ op ∈ ops, op.isFilling = true)
    (hdistinct : Distinct exprs storage (s.kept.reverse ++ s.attempted ops))
    (hroom : (s.kept.reverse ++ s.attempted ops).length ≤ size) :
    ∃ s', s.run ops = .ok s' ∧ s'.Spread exprs storage size ∧
      s'.kept.reverse = s.kept.reverse ++ s.attempted ops := by
  induction ops generalizing s with
  | nil => exact ⟨s, rfl, h, (List.append_nil _).symm⟩
  | cons op ops ih =>
    obtain ⟨next, hnext, -, -⟩ := exists_step_eq_ok h.solvent op
    have hattempted : s.attempted (op :: ops) =
        (op.insertion? s.rows).toList ++ next.attempted ops := by
      rw [attempted, hnext]
    rw [hattempted, ← List.append_assoc] at hdistinct hroom ⊢
    obtain ⟨hspread, hkept⟩ := h.step (hops op List.mem_cons_self) hdistinct.left
      ((Nat.le_add_right _ _).trans (List.length_append.symm.trans_le hroom)) hnext
    rw [← hkept] at hdistinct hroom ⊢
    obtain ⟨s', hs', hend⟩ := ih hspread
      (fun later hlater ↦ hops later (List.mem_cons_of_mem _ hlater)) hdistinct hroom
    exact ⟨s', (run_cons hnext ops).trans hs', hend⟩

/-! ### The estimated size -/

/-- The other settings do not depend on the bucket count. -/
theorem validate_of_le {config : Config} (h : config.validate = .ok ()) {buckets : ℕ}
    (hle : buckets ≤ Config.maxBuckets) :
    Config.validate { config with initialBuckets := buckets } = .ok () := by
  rw [Config.validate] at h ⊢
  split_ifs at h with hnone hdiffer hnulls hlevels
  rw [if_neg hnone, if_neg hdiffer, if_neg hnulls, if_neg hlevels, if_neg (Nat.not_lt.mpr hle)]

theorem startBuckets_of_isPower {config : Config} (h : PowerOfTwo.IsPower config.initialBuckets) :
    config.startBuckets = config.initialBuckets := by
  have hpos : 1 ≤ config.initialBuckets := by
    obtain ⟨k, hk⟩ := PowerOfTwo.isPower_iff.mp h
    rw [hk]
    exact Nat.one_le_two_pow
  rw [Config.startBuckets, max_eq_left hpos, PowerOfTwo.ceil_of_isPower h]

/-- A configuration that is valid stays so with the estimate. -/
theorem estimate_valid {n : ℕ} (hn : n ≤ 3 * 2 ^ 28) {config : Config}
    (h : config.validate = .ok ()) :
    let estimated := { config with initialBuckets := estimateBuckets n }
    estimated.validate = .ok () ∧ estimated.startBuckets = estimateBuckets n := by
  have hmax : Config.maxBuckets = 2 ^ 30 := rfl
  exact ⟨validate_of_le h (estimateBuckets_le_maxBuckets_iff.mpr (by omega)),
    startBuckets_of_isPower (PowerOfTwo.isPower_ceil _)⟩

theorem exists_create_eq_ok {config : Config} (hvalid : config.validate = .ok ()) {stored : Bool}
    (hkind : config.storage = if stored then .indexed else .direct) {budget : Budget}
    (hgranted : budget.admits (bucketBytes config.startBuckets) = true) (rows : RowStore) :
    ∃ s, create config stored budget rows = .ok s := by
  rw [create_eq hkind, hvalid]
  exact ⟨_, if_pos hgranted⟩

/-- A table with room for some rows takes in as many attempted ones if their keys are different. -/
theorem exists_run_of_distinct {config : Config} {stored : Bool} {budget : Budget}
    {rows : RowStore} (h : create config stored budget rows = .ok s) {ops : List Op}
    (hops : ∀ op ∈ ops, op.isFilling = true)
    (hdistinct : Distinct exprs config.storage (s.attempted ops))
    (hroom : (s.attempted ops).length ≤ config.startBuckets) :
    ∃ s', s.run ops = .ok s' ∧ s'.Spread exprs config.storage config.startBuckets ∧
      s'.kept.reverse = s.attempted ops := by
  obtain ⟨hspread, hnone⟩ : s.Spread exprs config.storage config.startBuckets ∧ s.kept = [] :=
    spread_create h
  have hstart : s.kept.reverse ++ s.attempted ops = s.attempted ops := by
    rw [hnone]
    rfl
  rw [← hstart] at hdistinct hroom ⊢
  exact hspread.exists_run hops hdistinct hroom

/-- The estimate is a power of two that a word has room for, and is the least one that keeps the
rows within three quarters whenever a word has one for them; it grows with the rows. Up to the
capacity of the largest table, a configuration with the estimate is valid, and a table that the
budget grants it takes in as many rows of different keys: all insertions that are attempted are
taken in, under any hashes, each with a bucket of its own, and the table stays within three quarters
at the size it has. -/
theorem run_accepts_estimate (n : ℕ) :
    (PowerOfTwo.IsPower (estimateBuckets n) ∧ 1 ≤ estimateBuckets n ∧
      estimateBuckets n ≤ 2 ^ 63) ∧
    ((∃ size ≤ 2 ^ 63, PowerOfTwo.IsPower size ∧ 4 * n ≤ 3 * size) ↔ n ≤ 3 * 2 ^ 61) ∧
    (n ≤ 3 * 2 ^ 61 →
      IsLeast {size | PowerOfTwo.IsPower size ∧ 4 * n ≤ 3 * size} (estimateBuckets n)) ∧
    (∀ more, n ≤ more → estimateBuckets n ≤ estimateBuckets more) ∧
    (n ≤ 3 * 2 ^ 28 → ∀ config : Config, config.validate = .ok () →
      let estimated := { config with initialBuckets := estimateBuckets n }
      estimated.validate = .ok () ∧ estimated.effectiveBuckets = .ok (estimateBuckets n) ∧
      ∀ (stored : Bool) (budget : Budget) (rows : RowStore),
        config.storage = (if stored then .indexed else .direct) →
        budget.admits (24 * estimateBuckets n) = true →
        ∃ s, create estimated stored budget rows = .ok s ∧
          ∀ (exprs : List KeyExpr) (ops : List Op), (∀ op ∈ ops, op.isFilling = true) →
            Distinct exprs config.storage (s.attempted ops) → (s.attempted ops).length ≤ n →
            ∃ s', s.run ops = .ok s' ∧ s'.kept.reverse = s.attempted ops ∧
              s'.table.entries = (s.attempted ops).length ∧
              s'.table.filled = (s.attempted ops).length ∧
              s'.table.buckets.size = estimateBuckets n ∧
              4 * s'.table.filled ≤ 3 * s'.table.buckets.size) := by
  have hpower : PowerOfTwo.IsPower (estimateBuckets n) := PowerOfTwo.isPower_ceil _
  have hpos : 1 ≤ estimateBuckets n := by
    obtain ⟨k, hk⟩ := exists_estimateBuckets_eq n
    rw [hk]
    exact Nat.one_le_two_pow
  refine ⟨⟨hpower, hpos, estimateBuckets_le n⟩, exists_isPower_roomy_iff, isLeast_estimateBuckets,
    fun more ↦ estimateBuckets_mono, fun hn config hvalid ↦ ?_⟩
  obtain ⟨hvalid', hstart⟩ := estimate_valid hn hvalid
  have hfit : 4 * n ≤ 3 * estimateBuckets n := four_mul_le_estimateBuckets (by omega)
  refine ⟨hvalid', ?_, fun stored budget rows hkind hgranted ↦ ?_⟩
  · have hrange : 2 ^ 63 < Budget.wordRange := by decide
    rw [Config.effectiveBuckets, hstart, if_pos ((estimateBuckets_le n).trans_lt hrange)]
  · rw [Nat.mul_comm, ← hstart] at hgranted
    obtain ⟨s, hs⟩ := exists_create_eq_ok hvalid' hkind hgranted rows
    refine ⟨s, hs, fun exprs ops hops hdistinct hcount ↦ ?_⟩
    obtain ⟨s', hs', hspread, hkept⟩ := exists_run_of_distinct hs hops hdistinct
      (hcount.trans (by omega))
    have hlength := congrArg List.length hkept
    rw [List.length_reverse] at hlength
    have hfilled := hspread.filled_eq.trans hlength
    have hsize := hspread.size_eq.trans hstart
    refine ⟨s', hs', hkept, hspread.entries_eq.trans hlength, hfilled, hsize, ?_⟩
    rw [hfilled, hsize]
    omega

/-- Three keys under one hash, with a mark and a charge by others in between. -/
def distinctOps : List Op :=
  [.insert (intContext 1) (intRow 0 1) 5, .walk .first [.mark],
    .insert (intContext 2) (intRow 1 2) 5, .charge 100, .insert (intContext 3) (intRow 2 3) 5]

/-- The insertions among them. -/
def distinctRows : List Insertion :=
  [⟨intRow 0 1, some ⟨[.int64 1]⟩, intContext 1, 5⟩,
    ⟨intRow 1 2, some ⟨[.int64 2]⟩, intContext 2, 5⟩,
    ⟨intRow 2 3, some ⟨[.int64 3]⟩, intContext 3, 5⟩]

theorem distinct_distinctRows : Distinct [.column 0 .int64] .direct distinctRows where
  keyed := by
    intro i hi
    rcases hi with _ | ⟨_, _ | ⟨_, _ | ⟨_, hi⟩⟩⟩
    · exact ⟨rfl, _, rfl, rfl⟩
    · exact ⟨rfl, _, rfl, rfl⟩
    · exact ⟨rfl, _, rfl, rfl⟩
    · cases hi
  storage_eq := by decide
  pairwise := by decide

/-- Four buckets are estimated for three rows, and all three are taken in. -/
theorem run_accepts_estimate_three :
    estimateBuckets 3 = 4 ∧ (Config.linear 2).validate = .ok () ∧
      ∃ s, create (.linear 4) false (Budget.unlimited "small") (.new 1) = .ok s ∧
        ∃ s', s.run distinctOps = .ok s' ∧ s'.kept.reverse = distinctRows ∧
          s'.table.filled = 3 ∧ s'.table.buckets.size = 4 := by
  have hsize : estimateBuckets 3 = 4 := by decide
  obtain ⟨-, -, -, -, hcreate⟩ := run_accepts_estimate 3
  obtain ⟨-, -, hgranted⟩ := hcreate (by decide) (.linear 2) rfl
  obtain ⟨s, hs, hrun⟩ := hgranted false (Budget.unlimited "small") (.new 1) rfl (by decide)
  rw [hsize] at hs hrun
  have hattempted : s.attempted distinctOps = distinctRows := by
    obtain rfl := Except.ok.inj hs
    cbv
  obtain ⟨s', hs', hkept, -, hfilled, hbuckets, -⟩ := hrun [.column 0 .int64] distinctOps
    (by decide) (hattempted ▸ distinct_distinctRows) (hattempted ▸ le_refl 3)
  rw [hattempted] at hkept hfilled
  exact ⟨hsize, rfl, s, hs, s', hs', hkept, hfilled, hbuckets⟩

end JoinIndex.Session
