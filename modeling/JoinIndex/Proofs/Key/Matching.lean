import JoinIndex.Proofs.Key.Histories
import JoinIndex.Proofs.Table.Moves

/-!
Which stored rows a context takes for rows of its key. The build key of a row is compared with the
key evaluated last as far as both go, so that the comparison is exact when they are equally long.
They are for a context of a configuration once it has evaluated a row. They need not be for
expressions of different numbers on the two sides, and they are not before the first evaluation,
after which a copy begins as well: then nothing is compared, and every row is taken.
-/

set_option autoImplicit false
set_option relaxedAutoImplicit false

namespace JoinIndex

namespace Row

/-- Whether two lists have the same values as far as both go. -/
def agree (as bs : List Value) : Bool :=
  sameValues (as.take bs.length) (bs.take as.length)

@[simp] theorem agree_nil_right (as : List Value) : agree as [] = true := by
  simp [agree, sameValues]

@[simp] theorem agree_nil_left (bs : List Value) : agree [] bs = true := by
  simp [agree, sameValues]

@[simp] theorem agree_cons (a b : Value) (as bs : List Value) :
    agree (a :: as) (b :: bs) = (a.same b && agree as bs) := by
  simp [agree, sameValues]

theorem sameValues_iff_agree (as bs : List Value) :
    sameValues as bs = true ↔ as.length = bs.length ∧ agree as bs = true := by
  induction as generalizing bs with
  | nil => cases bs <;> simp [sameValues]
  | cons a as ih =>
    cases bs with
    | nil => simp [sameValues]
    | cons b bs =>
      simp only [sameValues, agree_cons, Bool.and_eq_true, ih bs, List.length_cons,
        Nat.add_right_cancel_iff]
      exact and_left_comm

end Row

namespace KeyContext

open BufferedContext (Op)

/-- The comparison goes as far as both the build key and the key evaluated last. -/
theorem equals_eq_agree (ctx : KeyContext) (stored : Row) :
    ctx.equals stored = Row.agree (buildKey ctx.buildExprs stored) ctx.key := by
  unfold equals buildKey
  generalize ctx.key = key
  induction ctx.buildExprs generalizing key with
  | nil => simp
  | cons e exprs ih =>
    cases key with
    | nil => simp
    | cons v key => simp [ih key]

/-! ### The key evaluated last -/

section

variable (buildExprs probeExprs : List KeyExpr)

/-- The key evaluated last after an operation; a copy has evaluated none. -/
def lastKeyAfter (last? : Option (List Value)) : Op → Option (List Value)
  | .evaluateBuild row => some (buildExprs.map (·.eval row))
  | .evaluateProbe row => some (probeExprs.map (·.eval row))
  | .clone => none
  | .setLevel _ => last?
  | .find _ _ _ => last?
  | .read _ _ _ => last?

/-- The key evaluated last in a history, since the copy was made that is used in the end. -/
def lastKey? (ops : List Op) : Option (List Value) :=
  ops.foldl (lastKeyAfter buildExprs probeExprs) none

end

variable {buildExprs probeExprs : List KeyExpr} {c c' : KeyContext}

/-- A key has as many components as the side has expressions that it was evaluated by. -/
theorem length_lastKey? (ops : List Op) {key : List Value}
    (h : lastKey? buildExprs probeExprs ops = some key) :
    key.length = buildExprs.length ∨ key.length = probeExprs.length := by
  induction ops using List.reverseRecOn with
  | nil => simp [lastKey?] at h
  | append_singleton ops op ih =>
    unfold lastKey? at h ih
    rw [List.foldl_concat] at h
    cases op with
    | evaluateBuild row =>
      obtain rfl := Option.some.inj h
      simp
    | evaluateProbe row =>
      obtain rfl := Option.some.inj h
      simp
    | clone => simp [lastKeyAfter] at h
    | setLevel level => exact ih h
    | find t rows hash => exact ih h
    | read t rows cursor => exact ih h

/-- The expressions of a context with the key that it compares by. -/
structure Keeps (buildExprs probeExprs : List KeyExpr) (last? : Option (List Value))
    (c : KeyContext) : Prop where
  buildExprs_eq : c.buildExprs = buildExprs
  probeExprs_eq : c.probeExprs = probeExprs
  key_eq : c.key = last?.getD []

theorem Keeps.step {last? : Option (List Value)} (h : Keeps buildExprs probeExprs last? c)
    {op : Op} (hstep : c.step op = .ok c') :
    Keeps buildExprs probeExprs (lastKeyAfter buildExprs probeExprs last? op) c' := by
  obtain ⟨rfl, rfl, hkey⟩ := h
  unfold KeyContext.step at hstep
  cases op with
  | evaluateBuild row =>
    obtain rfl := Except.ok.inj hstep
    exact ⟨rfl, rfl, rfl⟩
  | evaluateProbe row =>
    obtain rfl := Except.ok.inj hstep
    exact ⟨rfl, rfl, rfl⟩
  | setLevel level =>
    unfold setLevel at hstep
    dsimp only at hstep
    split_ifs at hstep
    obtain rfl := Except.ok.inj hstep
    exact ⟨rfl, rfl, hkey⟩
  | find t rows hash =>
    obtain rfl := Except.ok.inj hstep
    exact ⟨rfl, rfl, hkey⟩
  | read t rows cursor =>
    obtain rfl := Except.ok.inj hstep
    exact ⟨rfl, rfl, hkey⟩
  | clone =>
    obtain rfl := Except.ok.inj hstep
    exact ⟨rfl, rfl, rfl⟩

theorem Keeps.run {last? : Option (List Value)} (h : Keeps buildExprs probeExprs last? c)
    {ops : List Op} (hrun : c.run ops = .ok c') :
    Keeps buildExprs probeExprs (ops.foldl (lastKeyAfter buildExprs probeExprs) last?) c' := by
  induction ops generalizing c last? with
  | nil =>
    obtain rfl := Except.ok.inj hrun
    exact h
  | cons op ops ih =>
    unfold KeyContext.run at hrun
    rw [List.foldlM_cons] at hrun
    cases hstep : c.step op with
    | error fault => simp [hstep, bind, Except.bind] at hrun
    | ok next =>
      rw [hstep] at hrun
      exact ih (h.step hstep) hrun

/-! ### What a context takes for its key -/

/-- For keys of one length the comparison is exact. -/
theorem equals_iff_of_length {ctx : KeyContext} (hlength : ctx.key.length = ctx.buildExprs.length)
    (stored : Row) :
    ctx.equals stored = true ↔ Row.sameValues (buildKey ctx.buildExprs stored) ctx.key = true := by
  rw [equals_eq_sameValues hlength]

/-- Besides the rows of the key, those are taken whose build key goes on where the key ends, or ends
where the key goes on. -/
theorem equals_wrongly_iff (ctx : KeyContext) (stored : Row) :
    ctx.equals stored = true ∧ Row.sameValues (buildKey ctx.buildExprs stored) ctx.key = false ↔
      Row.agree (buildKey ctx.buildExprs stored) ctx.key = true ∧
        ctx.key.length ≠ ctx.buildExprs.length := by
  have hlength : (buildKey ctx.buildExprs stored).length = ctx.buildExprs.length :=
    List.length_map _
  rw [equals_eq_agree, Bool.eq_false_iff, ne_eq, Row.sameValues_iff_agree, hlength]
  constructor
  · rintro ⟨hagree, hnot⟩
    exact ⟨hagree, fun heq ↦ hnot ⟨heq.symm, hagree⟩⟩
  · rintro ⟨hagree, hne⟩
    exact ⟨hagree, fun hboth ↦ hne hboth.1.symm⟩

end KeyContext

namespace Table

variable {t : Table} {rows : RowStore} {ctx : KeyContext} {hash : UInt32}

/-- A cursor on the first row of a bucket reads that row. -/
theorem ref?_cursorAt (t : Table) (p : ℕ) :
    (t.cursorAt p).ref? t = (bucketAt t.buckets p).firstRow? t.arena := by
  unfold cursorAt Cursor.ref? bucketAt
  cases hbucket : t.buckets.getD p .empty <;> simp [Bucket.head?, Bucket.firstRow?, hbucket]

/-- A search stops on a row that the context takes for a row of its key. -/
theorem find_ref?_of_on {bucket : ℕ} {node : Option NodeIndex}
    (h : (t.find rows ctx hash).1 = .on bucket node) :
    ∃ ref row, (t.find rows ctx hash).1.ref? (t.find rows ctx hash).2 = some ref ∧
      ref.resolve rows = some row ∧ ctx.equals row = true := by
  obtain ⟨probe, hanswers, heq⟩ := find_eq t rows ctx hash
  rw [heq] at h ⊢
  cases hresult : probe.result with
  | vacant p => simp [hresult] at h
  | exhausted => simp [hresult] at h
  | found p =>
    rw [hresult] at hanswers
    obtain ⟨k, -, -, -, -, hkey⟩ := hanswers
    obtain ⟨ref, hfirst, hholds⟩ := (Option.any_eq_true _ _).mp hkey
    obtain ⟨row, hrow, hequals⟩ := (Option.any_eq_true _ _).mp hholds
    exact ⟨ref, row, (t.ref?_cursorAt p).trans hfirst, hrow, hequals⟩

end Table

namespace KeyContext

open BufferedContext (ofContext levels)

variable {buildExprs probeExprs : List KeyExpr}

/-! ### Any history -/

/-- Whatever was done with a context before, or with the contexts that it is a copy of, it takes a
row for a row of its key if and only if the build key of the row agrees with the key evaluated last
as far as both go. This is the equality of the two keys if they are equally long, which they are
once a row was evaluated and the two sides have equally many expressions, as a configuration sees
to. If they are not, rows of other keys are taken that go on where the shorter key ends, and before
the first evaluation every row is taken. A search stops on no other rows. -/
theorem run_equals_exact (storesNulls findsNulls : Bool) {seeds : Hash.Seeds}
    {ops : List BufferedContext.Op} (hlevels : ∀ level ∈ levels ops, level < seeds.length) :
    ∃ b, (ofContext (new buildExprs probeExprs storesNulls findsNulls seeds)).run ops = .ok b ∧
      b.context.key = (lastKey? buildExprs probeExprs ops).getD [] ∧
      (∀ stored,
        let built := buildKey buildExprs stored
        (b.context.equals stored = true ↔ Row.agree built b.context.key = true) ∧
        (b.context.key.length = buildExprs.length →
          (b.context.equals stored = true ↔ Row.sameValues built b.context.key = true)) ∧
        (b.context.equals stored = true ∧ Row.sameValues built b.context.key = false ↔
          Row.agree built b.context.key = true ∧ b.context.key.length ≠ buildExprs.length) ∧
        (lastKey? buildExprs probeExprs ops = none → b.context.equals stored = true)) ∧
      ((probeExprs.length = buildExprs.length ∨
          ∃ config base, ofConfig config buildExprs probeExprs = .ok base) →
        lastKey? buildExprs probeExprs ops ≠ none → b.context.key.length = buildExprs.length) ∧
      ∀ t rows hash bucket node, (b.find t rows hash).1.1 = .on bucket node →
        ∃ ref row, (b.find t rows hash).1.1.ref? (b.find t rows hash).1.2 = some ref ∧
          ref.resolve rows = some row ∧ b.context.equals row = true := by
  let base := new buildExprs probeExprs storesNulls findsNulls seeds
  obtain ⟨key, hplain⟩ := BufferedContext.context_run (c := base) hlevels
  have hflagged : (ofContext base).Flagged := rfl
  obtain ⟨b, hrun, hcontext, -⟩ := hflagged.exists_run_eq hplain
  have hstart : Keeps buildExprs probeExprs none base := ⟨rfl, rfl, rfl⟩
  have hkeeps : Keeps buildExprs probeExprs (lastKey? buildExprs probeExprs ops) b.context := by
    rw [hcontext]
    exact hstart.run hplain
  refine ⟨b, hrun, hkeeps.key_eq, fun stored ↦ ⟨?_, fun hlength ↦ ?_, ?_, fun hnone ↦ ?_⟩,
    fun hsides hsome ↦ ?_, fun t rows hash bucket node hon ↦ ?_⟩
  · rw [equals_eq_agree, hkeeps.buildExprs_eq]
  · rw [← hkeeps.buildExprs_eq] at hlength ⊢
    exact equals_iff_of_length hlength stored
  · rw [← hkeeps.buildExprs_eq]
    exact equals_wrongly_iff b.context stored
  · rw [equals_eq_agree, hkeeps.key_eq, hnone, Option.getD_none, Row.agree_nil_right]
  · have hsides : probeExprs.length = buildExprs.length := by
      rcases hsides with hsides | ⟨config, base, hbase⟩
      · exact hsides
      · exact (ofConfig_eq_ok hbase).1
    obtain ⟨last, hlast⟩ := Option.ne_none_iff_exists'.mp hsome
    rw [hkeeps.key_eq, hlast, Option.getD_some]
    rcases length_lastKey? ops hlast with hlength | hlength
    · exact hlength
    · exact hlength.trans hsides
  · obtain ⟨scratch, hfind⟩ := b.find_eq t rows hash
    rw [hfind] at hon ⊢
    exact Table.find_ref?_of_on hon

/-- A key that begins at a copy, with a null in it. The nulls of the key and of a row are the same,
and a row that lacks the column has one too. -/
def copiedOps : List BufferedContext.Op :=
  [.evaluateBuild ⟨[.int64 1, .int64 2]⟩, .clone, .setLevel 1,
    .evaluateProbe ⟨[.null, .int64 5]⟩]

theorem run_equals_exact_copied :
    (∀ level ∈ levels copiedOps, level < (Hash.Seeds.new 1 2).length) ∧
      ∃ b, (ofContext (new [.column 0 .int64, .column 1 .int64] [.column 1 .int64, .column 0 .int64]
          true true (Hash.Seeds.new 1 2))).run copiedOps = .ok b ∧
        b.context.key = [.int64 5, .null] ∧ b.context.equals ⟨[.int64 5, .null]⟩ = true ∧
        b.context.equals ⟨[.int64 5]⟩ = true ∧ b.context.equals ⟨[.int64 5, .int64 1]⟩ = false := by
  have hlevels : ∀ level ∈ levels copiedOps, level < (Hash.Seeds.new 1 2).length := by decide
  obtain ⟨b, hrun, hkey, hequals, -⟩ := @run_equals_exact [.column 0 .int64, .column 1 .int64]
    [.column 1 .int64, .column 0 .int64] true true _ _ hlevels
  have hlast : b.context.key = [.int64 5, .null] := hkey
  have hsame : ∀ stored, b.context.equals stored = true ↔ Row.sameValues
      (buildKey [.column 0 .int64, .column 1 .int64] stored) [.int64 5, .null] = true := by
    intro stored
    rw [← hlast]
    exact (hequals stored).2.1 (by rw [hlast]; rfl)
  refine ⟨hlevels, b, hrun, hlast, (hsame _).mpr (by decide), (hsame _).mpr (by decide), ?_⟩
  rw [Bool.eq_false_iff, ne_eq, hsame]
  decide

/-- A row is taken for a row of a key that ends before its build key does, and any row before the
first evaluation; and a search stops on it. -/
theorem equals_takes_other_keys :
    (¬ ∀ (buildExprs probeExprs : List KeyExpr) (seeds : Hash.Seeds)
      (ops : List BufferedContext.Op) (b : BufferedContext) (stored : Row),
      (ofContext (new buildExprs probeExprs false false seeds)).run ops = .ok b →
        (b.context.equals stored = true ↔
          Row.sameValues (buildKey buildExprs stored) b.context.key = true)) ∧
    let context := new [.column 0 .int64, .column 1 .int64] [.column 0 .int64] false false
      (Hash.Seeds.new 1 1)
    let asked := (context.evaluateProbe ⟨[.int64 5]⟩).1
    let stored : Row := ⟨[.int64 5, .int64 7]⟩
    let table := (Table.empty .linear .direct 1).fill 0 3 (.direct ⟨0, stored⟩)
    asked.key = [.int64 5] ∧ asked.equals stored = true ∧ context.equals stored = true ∧
      (table.find (RowStore.new 1) asked 3).1 = .on 0 none := by
  refine ⟨fun h ↦ ?_, by decide, by decide, by decide, by decide⟩
  have hshort := h [.column 0 .int64, .column 1 .int64] [.column 0 .int64] (Hash.Seeds.new 1 1) []
    _ ⟨[.int64 5, .int64 7]⟩ rfl
  exact absurd (hshort.mp (by decide)) (by decide)

end KeyContext

end JoinIndex
