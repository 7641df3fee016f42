import JoinIndex.Proofs.Session.Multimap
import JoinIndex.Proofs.Session.Rearranged
import JoinIndex.Proofs.Session.Storage

/-!
Probing and hashing cannot be observed. Two tables are used in the same way, but they probe in
different ways and their rows are stored under different hashes, so that no bucket of the one need
stand where it stands in the other. If equal keys have equal hashes in each of them, both answer the
same to everything but where buckets stand, and count everything alike but searches.

What is asked names rows only. Each run evaluates their keys with a context of its own, at whatever
level and with whatever seeds, and takes the hashes from a hash function of its own.
-/

set_option autoImplicit false
set_option relaxedAutoImplicit false

namespace JoinIndex.Session

open Table

variable {s t s' t' : Session} {exprs : List KeyExpr} {hashOf : KeyHash}

/-! ### What a caller asks -/

/-- How a caller evaluates the keys of rows, and the hash function that it stores them under. -/
structure Hashing where
  context : KeyContext
  hashOf : KeyHash

/-- What is asked of a table by rows, whatever the hashes of their keys are. A caller that leaves
out the rows whose keys have a null asks for fewer of these. -/
inductive KeyedOp where
  /-- Stores a row under the hash of its build key. -/
  | insert (ref : RowRef)
  /-- Looks for the probe key of a row under its hash, and walks among the rows of the key. -/
  | find (row : Row) (steps : List Cursor.Step)
      (hsteps : ∀ step ∈ steps, step.isLocal = true)
  | other (op : Op) (hop : op.isKeyless = true)

/-- What it comes to with a context and a hash function; none for a reference without a row. -/
def KeyedOp.toOp? (hashing : Hashing) (rows : RowStore) : KeyedOp → Option Op
  | .insert ref => (ref.resolve rows).map fun row ↦
    let context := (hashing.context.evaluateBuild row).1
    .insert context ref (hashing.hashOf.toFun context.key)
  | .find row steps _ =>
    let context := (hashing.context.evaluateProbe row).1
    some (.walk (.find context (hashing.hashOf.toFun context.key)) steps)
  | .other op _ => some op

def attend (s : Session) (hashing : Hashing) (op : KeyedOp) : Except Fault (Answer × Session) :=
  match op.toOp? hashing s.rows with
  | some op => s.perform op
  | none => .ok (.done, s)

/-- All operations, one after the other, with each answer and the session after it. -/
def attendAll (s : Session) (hashing : Hashing) :
    List KeyedOp → Except Fault (List (Answer × Session))
  | [] => .ok []
  | op :: ops => do
    let (answer, next) ← s.attend hashing op
    let rest ← next.attendAll hashing ops
    return (answer, next) :: rest

/-- A report without places, hashes and counts of searches. -/
def Report.unplaced (r : Report) : Report :=
  { r with
    answer := r.answer.unplaced
    stats := { r.stats with probes := 0, collisions := 0, travel := 0 } }

/-- What may be seen after an operation. -/
def seen (x : Answer × Session) : Report :=
  (x.2.report x.1).unplaced

theorem Rearranged.seen_eq (h : s.Rearranged t) {answer answer' : Answer}
    (hanswer : answer.unplaced = answer'.unplaced) : seen (answer, s) = seen (answer', t) := by
  have htable := h.table
  rw [seen, seen, report, report, Report.unplaced, Report.unplaced, stats, stats, hanswer,
    htable.size_eq, htable.filled_eq, htable.entries_eq, htable.overflowing_eq, htable.arena_eq,
    htable.resizes_eq, htable.byteSize_eq, htable.hasMatches_eq, h.budget_eq]

/-- The hashes that a context takes itself, at its level and with its seeds. -/
def Hashing.ofContext (context : KeyContext) : Hashing :=
  ⟨context, KeyHash.ofContext context⟩

/-! ### One operation -/

/-- A row is kept only if an insertion stored it. -/
theorem mem_kept_step {op : Op} (h : s.step op = .ok s') {i : Insertion} (hi : i ∈ s'.kept) :
    i ∈ s.kept ∨ ∃ context ref hash, op = .insert context ref hash ∧
      i = ⟨ref, ref.resolve s.rows, context, hash⟩ := by
  have hkeeps := rows_kept_step h
  cases op with
  | insert context ref hash =>
    rw [hkeeps.2] at hi
    split_ifs at hi
    · rcases List.mem_cons.mp hi with rfl | hi
      · exact Or.inr ⟨context, ref, hash, rfl, rfl⟩
      · exact Or.inl hi
    · exact Or.inl hi
  | append =>
    rw [hkeeps] at hi
    exact Or.inl hi
  | clear =>
    rw [hkeeps.2] at hi
    cases hi
  | _ =>
    rw [hkeeps.2] at hi
    exact Or.inl hi

/-- The context evaluates the keys of rows by these expressions. -/
structure Hashing.Evaluates (hashing : Hashing) (buildExprs probeExprs : List KeyExpr) : Prop where
  buildExprs_eq : hashing.context.buildExprs = buildExprs
  probeExprs_eq : hashing.context.probeExprs = probeExprs

variable {hashing hashing' : Hashing} {probeExprs : List KeyExpr}

/-- What is asked by a row comes to an insertion with the key of the row under its hash, or to no
insertion. -/
theorem Hashing.Evaluates.keyed_insert (h : hashing.Evaluates exprs probeExprs)
    {rows : RowStore} {keyedOp : KeyedOp} {context : KeyContext} {ref : RowRef} {hash : UInt32}
    (hop : keyedOp.toOp? hashing rows = some (.insert context ref hash)) :
    (⟨ref, ref.resolve rows, context, hash⟩ : Insertion).Keyed exprs ∧
      hash = hashing.hashOf.toFun context.key := by
  cases keyedOp with
  | insert ref' =>
    obtain ⟨row, hrow, hinsert⟩ := Option.map_eq_some_iff.mp hop
    obtain ⟨rfl, rfl, rfl⟩ := Op.insert.inj hinsert
    refine ⟨⟨h.buildExprs_eq, row, hrow, ?_⟩, rfl⟩
    show hashing.context.buildExprs.map (·.eval row) = KeyContext.buildKey exprs row
    rw [h.buildExprs_eq]
    rfl
  | find => cases Option.some.inj hop
  | other op hkeyless =>
    obtain rfl := Option.some.inj hop
    cases hkeyless

/-- Two contexts that evaluate keys by the same expressions ask alike. -/
theorem Hashing.Evaluates.askAlike (h : hashing.Evaluates exprs probeExprs)
    (h' : hashing'.Evaluates exprs probeExprs) (hlength : probeExprs.length = exprs.length)
    (row : Row) :
    AskAlike exprs (hashing.context.evaluateBuild row).1 (hashing'.context.evaluateBuild row).1 ∧
      AskAlike exprs (hashing.context.evaluateProbe row).1
        (hashing'.context.evaluateProbe row).1 := by
  have hasks : ∀ (context : KeyContext), context.buildExprs = exprs → ∀ es : List KeyExpr,
      es.length = exprs.length → Asks exprs (context.evaluate es row) := by
    intro context hbuild es hes
    refine ⟨hbuild, ?_⟩
    rw [KeyContext.evaluate, List.length_map, hes]
  rw [KeyContext.evaluateBuild, KeyContext.evaluateBuild, KeyContext.evaluateProbe,
    KeyContext.evaluateProbe, h.buildExprs_eq, h'.buildExprs_eq, h.probeExprs_eq,
    h'.probeExprs_eq]
  exact ⟨⟨hasks _ h.buildExprs_eq _ rfl, hasks _ h'.buildExprs_eq _ rfl, rfl⟩,
    hasks _ h.buildExprs_eq _ hlength, hasks _ h'.buildExprs_eq _ hlength, rfl⟩

/-- No operation faults, and rows go on being stored with their keys and hashes. -/
theorem Hashed.exists_attend_eq_ok (h : Hashed exprs hashing.hashOf s)
    (hcontext : hashing.Evaluates exprs probeExprs) (keyedOp : KeyedOp) :
    ∃ answer s', s.attend hashing keyedOp = .ok (answer, s') ∧
      Hashed exprs hashing.hashOf s' := by
  rw [attend]
  cases hop : keyedOp.toOp? hashing s.rows with
  | none => exact ⟨.done, s, rfl, h⟩
  | some op =>
    obtain ⟨s', hs', hchanges, hsolvent⟩ := exists_step_eq_ok h.solvent op
    have hkept : ∀ i ∈ s'.kept, i.Keyed exprs ∧ i.hash = hashing.hashOf.toFun i.key := by
      intro i hi
      rcases mem_kept_step hs' hi with hi | ⟨context, ref, hash, rfl, rfl⟩
      · exact ⟨h.keyedBy i hi, h.hash_eq i hi⟩
      · exact hcontext.keyed_insert hop
    exact ⟨s.answer op, s', perform_eq_ok hs', hsolvent, hchanges.inOrder h.inOrder,
      fun i hi ↦ (hkept i hi).1, fun i hi ↦ (hkept i hi).2⟩

/-- What is said of answers and steps carries over to what is performed. -/
theorem rearranged_of_perform {op op' : Op} {answer answer' : Answer}
    (hanswer : (s.answer op).unplaced = (t.answer op').unplaced)
    (hstep : SameFault Rearranged (s.step op) (t.step op'))
    (hs : s.perform op = .ok (answer, s')) (ht : t.perform op' = .ok (answer', t')) :
    answer.unplaced = answer'.unplaced ∧ s'.Rearranged t' := by
  rw [perform] at hs ht
  generalize s.step op = r at hstep hs
  generalize t.step op' = r' at hstep ht
  cases hstep with
  | error fault => cases hs
  | ok hrearranged =>
    obtain ⟨rfl, rfl⟩ := Prod.mk.inj (Except.ok.inj hs)
    obtain ⟨rfl, rfl⟩ := Prod.mk.inj (Except.ok.inj ht)
    exact ⟨hanswer, hrearranged⟩

/-- Both tables answer alike, each asked under its own hashes, and go on holding the same. -/
theorem Paired.attend (h : Paired exprs hashing.hashOf hashing'.hashOf s t)
    (haddr : s.table.arena.Addressable) (hlength : probeExprs.length = exprs.length)
    (hcontext : hashing.Evaluates exprs probeExprs)
    (hcontext' : hashing'.Evaluates exprs probeExprs) {keyedOp : KeyedOp}
    {answer answer' : Answer} (hs : s.attend hashing keyedOp = .ok (answer, s'))
    (ht : t.attend hashing' keyedOp = .ok (answer', t')) :
    answer.unplaced = answer'.unplaced ∧ s'.Rearranged t' := by
  rw [Session.attend] at hs ht
  rw [← h.rearranged.rows_eq] at ht
  cases keyedOp with
  | insert ref =>
    rw [KeyedOp.toOp?] at hs ht
    cases hrow : ref.resolve s.rows with
    | none =>
      rw [hrow] at hs ht
      obtain ⟨rfl, rfl⟩ := Prod.mk.inj (Except.ok.inj hs)
      obtain ⟨rfl, rfl⟩ := Prod.mk.inj (Except.ok.inj ht)
      exact ⟨rfl, h.rearranged⟩
    | some row =>
      rw [hrow] at hs ht
      have hasks := (hcontext.askAlike hcontext' hlength row).1
      obtain ⟨hanswer, hstep⟩ := h.insert haddr hasks ref
      exact rearranged_of_perform (congrArg Answer.unplaced hanswer) hstep hs ht
  | find row steps hsteps =>
    have hasks := (hcontext.askAlike hcontext' hlength row).2
    obtain ⟨hanswer, hstep⟩ := h.walk haddr hasks hsteps
    exact rearranged_of_perform hanswer hstep hs ht
  | other op hop =>
    obtain ⟨hanswer, hstep⟩ := h.rearranged.step h.left.inOrder.intact.sound
      h.right.inOrder.intact.sound hop
    exact rearranged_of_perform (congrArg Answer.unplaced hanswer) hstep hs ht

/-! ### Runs -/

/-- No run faults. -/
theorem Hashed.exists_attendAll_eq_ok (h : Hashed exprs hashing.hashOf s)
    (hcontext : hashing.Evaluates exprs probeExprs) (ops : List KeyedOp) :
    ∃ trace, s.attendAll hashing ops = .ok trace := by
  induction ops generalizing s with
  | nil => exact ⟨[], rfl⟩
  | cons op ops ih =>
    obtain ⟨answer, next, hnext, hhashed⟩ := h.exists_attend_eq_ok hcontext op
    obtain ⟨rest, hrest⟩ := ih hhashed
    refine ⟨(answer, next) :: rest, ?_⟩
    rw [attendAll, hnext]
    show (next.attendAll hashing ops >>= _) = _
    rw [hrest]
    rfl

theorem attendAll_cons_eq_ok {op : KeyedOp} {ops : List KeyedOp} {answer : Answer}
    {next : Session} {trace : List (Answer × Session)}
    (hnext : s.attend hashing op = .ok (answer, next))
    (h : s.attendAll hashing (op :: ops) = .ok trace) :
    ∃ rest, next.attendAll hashing ops = .ok rest ∧ trace = (answer, next) :: rest := by
  rw [attendAll, hnext] at h
  change (next.attendAll hashing ops >>= _) = _ at h
  cases hrest : next.attendAll hashing ops with
  | error fault =>
    rw [hrest] at h
    cases h
  | ok rest =>
    rw [hrest] at h
    exact ⟨rest, rfl, (Except.ok.inj h).symm⟩

/-- What is seen after each operation is the same, as long as the pages of nodes can be named. -/
theorem Paired.attendAll (h : Paired exprs hashing.hashOf hashing'.hashOf s t)
    (haddr : s.table.arena.Addressable) (hlength : probeExprs.length = exprs.length)
    (hcontext : hashing.Evaluates exprs probeExprs)
    (hcontext' : hashing'.Evaluates exprs probeExprs) {ops : List KeyedOp}
    {trace trace' : List (Answer × Session)} (hs : s.attendAll hashing ops = .ok trace)
    (ht : t.attendAll hashing' ops = .ok trace')
    (htrace : ∀ x ∈ trace, x.2.table.arena.Addressable) : trace.map seen = trace'.map seen := by
  induction ops generalizing s t trace trace' with
  | nil =>
    obtain rfl := Except.ok.inj hs
    obtain rfl := Except.ok.inj ht
    rfl
  | cons op ops ih =>
    obtain ⟨answer, next, hnext, hleft⟩ := h.left.exists_attend_eq_ok hcontext op
    obtain ⟨answer', next', hnext', hright⟩ := h.right.exists_attend_eq_ok hcontext' op
    obtain ⟨hanswer, hrearranged⟩ := h.attend haddr hlength hcontext hcontext' hnext hnext'
    obtain ⟨rest, hrest, rfl⟩ := attendAll_cons_eq_ok hnext hs
    obtain ⟨rest', hrest', rfl⟩ := attendAll_cons_eq_ok hnext' ht
    obtain ⟨haddr', htrace'⟩ := List.forall_mem_cons.mp htrace
    rw [List.map_cons, List.map_cons, hrearranged.seen_eq hanswer,
      ih ⟨hleft, hright, hrearranged⟩ haddr' hrest hrest' htrace']

theorem hashed_create {config : Config} {stored : Bool} {budget : Budget} {rows : RowStore}
    (h : create config stored budget rows = .ok s) : Hashed exprs hashOf s := by
  refine ⟨solvent_create h, inOrder_create h, ?_, ?_⟩
  · obtain ⟨-, -, rfl⟩ := create_eq_ok h
    exact fun i hi ↦ absurd hi List.not_mem_nil
  · obtain ⟨-, -, rfl⟩ := create_eq_ok h
    exact fun i hi ↦ absurd hi List.not_mem_nil

/-- Tables of one bucket count and storage mode are created alike. -/
theorem rearranged_create {config config' : Config} {stored stored' : Bool} {budget : Budget}
    {rows : RowStore} (hs : create config stored budget rows = .ok s)
    (ht : create config' stored' budget rows = .ok t)
    (hbuckets : config.startBuckets = config'.startBuckets)
    (hstorage : config.storage = config'.storage) : s.Rearranged t := by
  obtain ⟨-, -, rfl⟩ := create_eq_ok hs
  obtain ⟨-, -, rfl⟩ := create_eq_ok ht
  rw [hbuckets, hstorage]
  exact ⟨rearranged_empty _ _ _ _, rfl, rfl⟩

/-- Two tables are created with one bucket count, storage mode and budget, and with any probing
modes. Rows are stored, looked for and marked in both, each under hashes of its own that are equal
for equal keys, and both are resized and cleared alike. Then nothing faults, and every answer and
all that is counted but searches is the same in both, as long as the pages of nodes can be named by
32 bits. -/
theorem attendAll_hashing_eq {config config' : Config} {stored stored' : Bool} {budget : Budget}
    {rows : RowStore} (hs : create config stored budget rows = .ok s)
    (ht : create config' stored' budget rows = .ok t)
    (hbuckets : config.startBuckets = config'.startBuckets)
    (hstorage : config.storage = config'.storage) {buildExprs probeExprs : List KeyExpr}
    {base : KeyContext} (hbase : KeyContext.ofConfig config buildExprs probeExprs = .ok base)
    {hashing hashing' : Hashing} (hcontext : hashing.Evaluates buildExprs probeExprs)
    (hcontext' : hashing'.Evaluates buildExprs probeExprs) (ops : List KeyedOp) :
    ∃ trace trace', s.attendAll hashing ops = .ok trace ∧ t.attendAll hashing' ops = .ok trace' ∧
      ((∀ x ∈ trace, x.2.table.arena.Addressable) → trace.map seen = trace'.map seen) := by
  have hleft : Hashed buildExprs hashing.hashOf s := hashed_create hs
  have hright : Hashed buildExprs hashing'.hashOf t := hashed_create ht
  obtain ⟨trace, htrace⟩ := hleft.exists_attendAll_eq_ok hcontext ops
  obtain ⟨trace', htrace'⟩ := hright.exists_attendAll_eq_ok hcontext' ops
  have haddr : s.table.arena.Addressable := by
    obtain ⟨-, -, rfl⟩ := create_eq_ok hs
    exact Nat.zero_le _
  have hpaired : Paired buildExprs hashing.hashOf hashing'.hashOf s t :=
    ⟨hleft, hright, rearranged_create hs ht hbuckets hstorage⟩
  exact ⟨trace, trace', htrace, htrace', hpaired.attendAll haddr (length_eq_of_ofConfig hbase)
    hcontext hcontext' htrace htrace'⟩

/-- Two keys fill the table, a third one finds no place, and a key that is there gets a second row.
The rows of that key are walked and marked, the table grows, and the third key is stored. -/
def smallKeyedOps : List KeyedOp :=
  [.insert (intRow 0 1), .insert (intRow 1 2), .insert (intRow 2 3), .insert (intRow 3 1),
    .find ⟨[.int64 1]⟩ [.mark, .row, .advance .duplicate, .row] (by decide), .other (.resize 4) rfl,
    .insert (intRow 2 3), .find ⟨[.int64 3]⟩ [.readAll .duplicate] (by decide)]

/-- All keys collide, in a table that probes bucket by bucket. -/
def collidingHashing : Hashing :=
  ⟨intContext 0, KeyHash.constant 5⟩

/-- Keys are hashed as at the second level. -/
def secondLevelHashing : Hashing :=
  .ofContext { intContext 0 with level := 1, seeds := ⟨[1, 7]⟩ }

theorem attendAll_hashing_eq_small :
    ∃ t trace trace',
      create (.linear 2) false (Budget.unlimited "small") (.new 1) = .ok smallStart ∧
      create (.quadratic 2) false (Budget.unlimited "small") (.new 1) = .ok t ∧
      smallStart.attendAll collidingHashing smallKeyedOps = .ok trace ∧
      t.attendAll secondLevelHashing smallKeyedOps = .ok trace' ∧
      trace.map (fun x ↦ x.2.table.filled) = [1, 2, 2, 2, 2, 2, 3, 3] ∧
      trace.map seen = trace'.map seen := by
  have hbase : KeyContext.ofConfig (.linear 2) [.column 0 .int64] [.column 0 .int64] =
      .ok (KeyContext.new [.column 0 .int64] [.column 0 .int64] false false
        (Config.linear 2).seeds) := rfl
  obtain ⟨t, ht⟩ : ∃ t, create (.quadratic 2) false (Budget.unlimited "small") (.new 1) = .ok t :=
    ⟨_, rfl⟩
  have hcolliding : collidingHashing.Evaluates [.column 0 .int64] [.column 0 .int64] := ⟨rfl, rfl⟩
  have hsecond : secondLevelHashing.Evaluates [.column 0 .int64] [.column 0 .int64] := ⟨rfl, rfl⟩
  obtain ⟨trace, trace', hs', ht', hseen⟩ := attendAll_hashing_eq create_small ht rfl rfl hbase
    hcolliding hsecond smallKeyedOps
  have htrace : (smallStart.attendAll collidingHashing smallKeyedOps).map
      (fun trace ↦ trace.map fun x ↦ (x.2.table.filled, x.2.table.arena.pages.size)) =
        .ok [(1, 0), (2, 0), (2, 0), (2, 1), (2, 1), (2, 1), (3, 1), (3, 1)] := by cbv
  rw [hs'] at htrace
  have hcounts := Except.ok.inj htrace
  have haddr : ∀ x ∈ trace, x.2.table.arena.Addressable := by
    intro x hx
    have hle : ∀ counts ∈ [(1, 0), (2, 0), (2, 0), (2, 1), (2, 1), (2, 1), (3, 1), (3, 1)],
      counts.2 ≤ 2 ^ 32 := by decide
    exact hle (x.2.table.filled, x.2.table.arena.pages.size)
      (hcounts ▸ List.mem_map_of_mem (f := fun x ↦ (x.2.table.filled, _)) hx)
  have hfilled := congrArg (List.map Prod.fst) hcounts
  rw [List.map_map] at hfilled
  exact ⟨t, trace, trace', create_small, ht, hs', ht', hfilled, hseen haddr⟩

end JoinIndex.Session
