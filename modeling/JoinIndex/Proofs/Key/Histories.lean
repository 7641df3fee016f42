import JoinIndex.Proofs.Key.Buffers

/-!
What a context answers after any history: rows that were evaluated, levels that were chosen,
searches, rows that were read, and copies. It depends on the key of the row, on the level chosen
last and on the settings alone, and the build key of one row and the probe key of another are
hashed alike when they are the same.
-/

set_option autoImplicit false
set_option relaxedAutoImplicit false

namespace JoinIndex

namespace KeyContext

/-! ### What a key is hashed to -/

/-- The hash of a key at a level, under the seed of the level. -/
def hashAt (seeds : Hash.Seeds) (level : ℕ) (key : List Value) : UInt32 :=
  key.foldl (fun hash v ↦ Hash.hashBytes level hash v.keyBytes) ((seeds.get? level).getD 0)

/-- The hash of a key; none if it has a null and nulls take no part. -/
def hashAtUnless (seeds : Hash.Seeds) (level : ℕ) (key : List Value) (nullsTakePart : Bool) :
    Option UInt32 :=
  if Value.null ∈ key ∧ nullsTakePart = false then none else some (hashAt seeds level key)

section

variable {seeds : Hash.Seeds} {level : ℕ} {key : List Value} {nullsTakePart : Bool}

theorem hashAt_eq_of_same {as bs : List Value} (h : Row.sameValues as bs = true) :
    hashAt seeds level as = hashAt seeds level bs :=
  (KeyHash.ofContext ⟨[], [], false, false, level, seeds, []⟩).eq_of_same as bs h

theorem hashAtUnless_eq_none :
    hashAtUnless seeds level key nullsTakePart = none ↔
      Value.null ∈ key ∧ nullsTakePart = false := by
  rw [hashAtUnless, ite_eq_left_iff]
  refine ⟨fun h ↦ ?_, fun h hnull ↦ absurd h hnull⟩
  by_contra hnull
  exact Option.some_ne_none _ (h hnull)

theorem eq_of_hashAtUnless {hash : UInt32}
    (h : hashAtUnless seeds level key nullsTakePart = some hash) :
    hash = hashAt seeds level key :=
  (Option.some.inj (Option.ite_none_left_eq_some.mp h).2).symm

end

/-- The key evaluated before does not show in the hash of the next one. -/
theorem hashUnless_evaluate (c : KeyContext) (exprs : List KeyExpr) (row : Row)
    (nullsTakePart : Bool) :
    (c.evaluate exprs row).hashUnless nullsTakePart =
      hashAtUnless c.seeds c.level (exprs.map (·.eval row)) nullsTakePart := by
  have hnull : (c.evaluate exprs row).keyHasNull = true ↔
      Value.null ∈ exprs.map (·.eval row) := by
    rw [keyHasNull, evaluate, List.any_eq_true]
    constructor
    · rintro ⟨v, hv, hisNull⟩
      cases v with
      | null => exact hv
      | _ => cases hisNull
    · exact fun hmem ↦ ⟨.null, hmem, rfl⟩
  refine if_congr ?_ rfl rfl
  rw [Bool.and_eq_true, hnull, Bool.not_eq_true']

end KeyContext

namespace BufferedContext

variable {b : BufferedContext}

/-! ### Histories -/

/-- What is done with a context, or with a copy made of it. -/
inductive Op where
  | evaluateBuild (row : Row)
  | evaluateProbe (row : Row)
  | setLevel (level : ℕ)
  | find (t : Table) (rows : RowStore) (hash : UInt32)
  | read (t : Table) (rows : RowStore) (c : Cursor)
  /-- From here on the copy is used. -/
  | clone

def step (b : BufferedContext) : Op → Except Fault BufferedContext
  | .evaluateBuild row => .ok (b.evaluateBuild row).2
  | .evaluateProbe row => .ok (b.evaluateProbe row).2
  | .setLevel level => do
    let context ← b.context.setLevel level
    return { b with context }
  | .find t rows hash => .ok (b.find t rows hash).2
  | .read t rows c => .ok (b.read t rows c).2
  | .clone => .ok b.clone

def run (b : BufferedContext) (ops : List Op) : Except Fault BufferedContext :=
  ops.foldlM step b

end BufferedContext

namespace KeyContext

open BufferedContext (Op)

/-- The plain context after an operation: searches and reading leave it as it is. -/
def step (c : KeyContext) : Op → Except Fault KeyContext
  | .evaluateBuild row => .ok (c.evaluateBuild row).1
  | .evaluateProbe row => .ok (c.evaluateProbe row).1
  | .setLevel level => c.setLevel level
  | .find _ _ _ => .ok c
  | .read _ _ _ => .ok c
  | .clone => .ok c.fresh

def run (c : KeyContext) (ops : List Op) : Except Fault KeyContext :=
  ops.foldlM step c

end KeyContext

namespace BufferedContext

variable {b : BufferedContext}

/-! ### What a history leaves behind -/

/-- The level that an operation chooses. -/
def Op.level? : Op → Option ℕ
  | .setLevel level => some level
  | _ => none

/-- The levels that a history chooses, one after the other. -/
def levels (ops : List Op) : List ℕ :=
  ops.filterMap Op.level?

/-- An operation changes the key and the level of a plain context and nothing else. -/
theorem context_step {c : KeyContext} {op : Op}
    (hlevel : ∀ level, op.level? = some level → level < c.seeds.length) :
    ∃ key, c.step op = .ok { c with level := op.level?.getD c.level, key } := by
  cases op with
  | evaluateBuild row => exact ⟨_, rfl⟩
  | evaluateProbe row => exact ⟨_, rfl⟩
  | setLevel level => exact ⟨c.key, if_pos (hlevel level rfl)⟩
  | find t rows hash => exact ⟨c.key, rfl⟩
  | read t rows cursor => exact ⟨c.key, rfl⟩
  | clone => exact ⟨[], rfl⟩

theorem context_run {c : KeyContext} {ops : List Op}
    (hlevels : ∀ level ∈ levels ops, level < c.seeds.length) :
    ∃ key, c.run ops = .ok { c with level := (levels ops).getLastD c.level, key } := by
  induction ops generalizing c with
  | nil => exact ⟨c.key, rfl⟩
  | cons op ops ih =>
    have hop : ∀ level, op.level? = some level → level < c.seeds.length := fun level hlevel ↦
      hlevels level (List.mem_filterMap.mpr ⟨op, List.mem_cons_self, hlevel⟩)
    have hrest : ∀ level ∈ levels ops, level < c.seeds.length := by
      intro level hlevel
      obtain ⟨op, hmem, heq⟩ := List.mem_filterMap.mp hlevel
      exact hlevels level (List.mem_filterMap.mpr ⟨op, List.mem_cons_of_mem _ hmem, heq⟩)
    obtain ⟨key, hstep⟩ := context_step hop
    obtain ⟨key', hrun⟩ := ih (c := { c with level := op.level?.getD c.level, key }) hrest
    refine ⟨key', ?_⟩
    rw [KeyContext.run, List.foldlM_cons, hstep]
    refine hrun.trans ?_
    rw [levels, levels, List.filterMap_cons]
    cases op.level? with
    | none => rfl
    | some level => rw [List.getLastD_cons]; rfl

/-- The buffers do not show in the context that an operation leaves behind. -/
theorem Flagged.exists_step_eq (h : b.Flagged) {op : Op} {c : KeyContext}
    (hstep : b.context.step op = .ok c) :
    ∃ b', b.step op = .ok b' ∧ b'.context = c ∧ b'.Flagged := by
  cases op with
  | evaluateBuild row =>
    obtain ⟨b', heq, hcontext, hflagged⟩ := b.evaluateBuild_eq row
    exact ⟨b', by rw [step, heq], hcontext.trans (Except.ok.inj hstep), hflagged⟩
  | evaluateProbe row =>
    obtain ⟨b', heq, hcontext, hflagged⟩ := b.evaluateProbe_eq row
    exact ⟨b', by rw [step, heq], hcontext.trans (Except.ok.inj hstep), hflagged⟩
  | setLevel level =>
    rw [KeyContext.step] at hstep
    refine ⟨{ b with context := c }, ?_, rfl, ?_⟩
    · rw [step, hstep]
      rfl
    · rw [KeyContext.setLevel] at hstep
      split_ifs at hstep
      obtain rfl := Except.ok.inj hstep
      exact h
  | find t rows hash =>
    obtain ⟨scratch, hfind⟩ := b.find_eq t rows hash
    refine ⟨{ b with scratch }, ?_, Except.ok.inj hstep, h⟩
    rw [step, hfind]
  | read t rows cursor =>
    obtain ⟨scratch, hread⟩ := b.read_eq t rows cursor
    refine ⟨{ b with scratch }, ?_, Except.ok.inj hstep, h⟩
    rw [step, hread]
  | clone => exact ⟨b.clone, rfl, Except.ok.inj hstep, rfl⟩

theorem Flagged.exists_run_eq (h : b.Flagged) {ops : List Op} {c : KeyContext}
    (hrun : b.context.run ops = .ok c) :
    ∃ b', b.run ops = .ok b' ∧ b'.context = c ∧ b'.Flagged := by
  induction ops generalizing b with
  | nil => exact ⟨b, rfl, Except.ok.inj hrun, h⟩
  | cons op ops ih =>
    rw [KeyContext.run, List.foldlM_cons] at hrun
    cases hstep : b.context.step op with
    | error fault =>
      rw [hstep] at hrun
      cases hrun
    | ok c' =>
      obtain ⟨b', hb', rfl, hflagged⟩ := h.exists_step_eq hstep
      rw [hstep] at hrun
      obtain ⟨b'', hb'', hc⟩ := ih hflagged hrun
      refine ⟨b'', ?_, hc⟩
      rw [run, List.foldlM_cons, hb']
      exact hb''

/-! ### Any history -/

/-- A context is left with the settings that it was made for, so that nothing but the level is new
in its answers. -/
theorem exists_run_eq {config : Config} {buildExprs probeExprs : List KeyExpr}
    {base : KeyContext} (hbase : KeyContext.ofConfig config buildExprs probeExprs = .ok base)
    {ops : List Op} (hlevels : ∀ level ∈ levels ops, level < config.seeds.length) :
    ∃ b, (ofContext base).run ops = .ok b ∧ base.run ops = .ok b.context ∧
      let hashOf := KeyContext.hashAtUnless config.seeds ((levels ops).getLastD 0)
      (∀ row, (b.evaluateBuild row).1 = hashOf (buildExprs.map (·.eval row)) config.storesNulls) ∧
      ∀ row, (b.evaluateProbe row).1 =
        hashOf (probeExprs.map (·.eval row)) (config.storesNulls && config.findsNulls) := by
  obtain ⟨-, rfl⟩ := KeyContext.ofConfig_eq_ok hbase
  obtain ⟨key, hplain⟩ := context_run (c := KeyContext.new buildExprs probeExprs
    config.storesNulls config.findsNulls config.seeds) hlevels
  have hflagged : (ofContext (KeyContext.new buildExprs probeExprs config.storesNulls
    config.findsNulls config.seeds)).Flagged := rfl
  obtain ⟨b, hrun, hcontext, -⟩ := hflagged.exists_run_eq hplain
  refine ⟨b, hrun, hplain.trans (congrArg Except.ok hcontext.symm), fun row ↦ ?_, fun row ↦ ?_⟩
  · obtain ⟨after, heq, -⟩ := b.evaluateBuild_eq row
    rw [heq, hcontext]
    exact KeyContext.hashUnless_evaluate _ _ _ _
  · obtain ⟨after, heq, -⟩ := b.evaluateProbe_eq row
    rw [heq, hcontext]
    exact KeyContext.hashUnless_evaluate _ _ _ _

/-- Whatever was done with a context or with the copies it was made from, its answers are those of
the plain context, and they depend on the key, the level and the settings alone: a key has no hash
if it has a null that does not take part, and otherwise its hash under the seed of the level. Where
the probe key of a row is the build key of another one, two contexts at one level give them one
hash. -/
theorem run_evaluate_exact {config : Config} {buildExprs probeExprs : List KeyExpr}
    {base : KeyContext} (hbase : KeyContext.ofConfig config buildExprs probeExprs = .ok base)
    {ops ops' : List Op} (hlevels : ∀ level ∈ levels ops, level < config.seeds.length)
    (hlevels' : ∀ level ∈ levels ops', level < config.seeds.length) :
    ∃ b b', (ofContext base).run ops = .ok b ∧ base.run ops = .ok b.context ∧
      (ofContext base).run ops' = .ok b' ∧ base.run ops' = .ok b'.context ∧
      (∀ row,
        let built := buildExprs.map (·.eval row)
        let probed := probeExprs.map (·.eval row)
        let hashOf := KeyContext.hashAt config.seeds ((levels ops).getLastD 0)
        (b.evaluateBuild row).1 = (b.context.evaluateBuild row).2 ∧
        (b.evaluateProbe row).1 = (b.context.evaluateProbe row).2 ∧
        ((b.evaluateBuild row).1 = none ↔ Value.null ∈ built ∧ config.storesNulls = false) ∧
        ((b.evaluateProbe row).1 = none ↔
          Value.null ∈ probed ∧ (config.storesNulls && config.findsNulls) = false) ∧
        (∀ hash, (b.evaluateBuild row).1 = some hash → hash = hashOf built) ∧
        ∀ hash, (b.evaluateProbe row).1 = some hash → hash = hashOf probed) ∧
      ((levels ops).getLastD 0 = (levels ops').getLastD 0 → ∀ stored wanted,
        Row.sameValues (buildExprs.map (·.eval stored)) (probeExprs.map (·.eval wanted)) = true →
        ∀ hash hash', (b.evaluateBuild stored).1 = some hash →
          (b'.evaluateProbe wanted).1 = some hash' → hash = hash') := by
  obtain ⟨b, hrun, hplain, hbuild, hprobe⟩ := exists_run_eq hbase hlevels
  obtain ⟨b', hrun', hplain', -, hprobe'⟩ := exists_run_eq hbase hlevels'
  refine ⟨b, b', hrun, hplain, hrun', hplain', fun row ↦ ⟨?_, ?_, ?_, ?_, fun hash hhash ↦ ?_,
    fun hash hhash ↦ ?_⟩, fun hlevel stored wanted hsame hash hash' hstored hwanted ↦ ?_⟩
  · obtain ⟨after, heq, -⟩ := b.evaluateBuild_eq row
    rw [heq]
  · obtain ⟨after, heq, -⟩ := b.evaluateProbe_eq row
    rw [heq]
  · rw [hbuild, KeyContext.hashAtUnless_eq_none]
  · rw [hprobe, KeyContext.hashAtUnless_eq_none]
  · rw [hbuild] at hhash
    exact KeyContext.eq_of_hashAtUnless hhash
  · rw [hprobe] at hhash
    exact KeyContext.eq_of_hashAtUnless hhash
  · rw [hbuild] at hstored
    rw [hprobe', ← hlevel] at hwanted
    rw [KeyContext.eq_of_hashAtUnless hstored, KeyContext.eq_of_hashAtUnless hwanted]
    exact KeyContext.hashAt_eq_of_same hsame

/-- A store of one row and a table that leads to it. -/
def smallStore : RowStore :=
  (RowStore.new 1).push ⟨[.int64 3]⟩

def smallTable : Table :=
  (Table.empty .linear .indexed 2).fill 1 5 (.indexed ⟨0, 0⟩)

def smallOps : List Op :=
  [.evaluateBuild ⟨[.null]⟩, .find smallTable smallStore 5, .setLevel 1,
    .read smallTable smallStore (.on 1 none)]

def smallCloneOps : List Op :=
  [.setLevel 2, .evaluateProbe ⟨[.string "left behind"]⟩, .clone, .setLevel 1]

/-- The zeros of both signs are one key, with a literal on one side and a column on the other. A
column that a row does not have is null. -/
theorem run_evaluate_exact_zeros :
    ∃ base, KeyContext.ofConfig ((Config.linear 2).withKeys 2)
        [.column 0 .float64, .literal (.int64 7)] [.column 1 .float64, .column 0 .int64] =
          .ok base ∧
      (∀ level ∈ levels smallOps, level < ((Config.linear 2).withKeys 2).seeds.length) ∧
      (∀ level ∈ levels smallCloneOps, level < ((Config.linear 2).withKeys 2).seeds.length) ∧
      ∃ b b' hash, (ofContext base).run smallOps = .ok b ∧
        (ofContext base).run smallCloneOps = .ok b' ∧
        (b.evaluateBuild ⟨[.float64 .zero]⟩).1 = some hash ∧
        (b'.evaluateProbe ⟨[.int64 7, .float64 ⟨0x8000000000000000⟩]⟩).1 = some hash ∧
        (b.evaluateProbe ⟨[.int64 7]⟩).1 = none ∧ b.scratch = ⟨[.int64 3]⟩ := by
  have hlevels : ∀ level ∈ levels smallOps,
      level < ((Config.linear 2).withKeys 2).seeds.length := by decide
  have hlevels' : ∀ level ∈ levels smallCloneOps,
      level < ((Config.linear 2).withKeys 2).seeds.length := by decide
  obtain ⟨base, hbase⟩ : ∃ base, KeyContext.ofConfig ((Config.linear 2).withKeys 2)
      [.column 0 .float64, .literal (.int64 7)] [.column 1 .float64, .column 0 .int64] =
        .ok base := ⟨_, rfl⟩
  obtain ⟨b, b', hrun, -, hrun', -, hanswers, hsame⟩ := run_evaluate_exact hbase hlevels hlevels'
  obtain ⟨b'', -, hrun'', -, -, -, hanswers', -⟩ := run_evaluate_exact hbase hlevels' hlevels'
  obtain rfl : b' = b'' := Except.ok.inj (hrun'.symm.trans hrun'')
  obtain ⟨-, -, hbuild, -⟩ := hanswers ⟨[.float64 .zero]⟩
  obtain ⟨-, -, -, hprobe, -⟩ := hanswers' ⟨[.int64 7, .float64 ⟨0x8000000000000000⟩]⟩
  obtain ⟨-, -, -, hmissing, -⟩ := hanswers ⟨[.int64 7]⟩
  obtain ⟨hash, hstored⟩ := Option.ne_none_iff_exists'.mp (mt hbuild.mp (by decide))
  obtain ⟨hash', hwanted⟩ := Option.ne_none_iff_exists'.mp (mt hprobe.mp (by decide))
  obtain rfl : hash = hash' := hsame (by decide) _ _ (by decide) hash hash' hstored hwanted
  have hscratch : ((ofContext base).run smallOps).map scratch = .ok ⟨[.int64 3]⟩ := by
    rw [← Except.ok.inj hbase]
    rfl
  rw [hrun] at hscratch
  exact ⟨base, hbase, hlevels, hlevels', b, b', hash, hrun, hrun', hstored, hwanted,
    hmissing.mpr (by decide), Except.ok.inj hscratch⟩

end BufferedContext

end JoinIndex
