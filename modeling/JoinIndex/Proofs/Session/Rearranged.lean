import JoinIndex.Proofs.Cursor.Rearranged
import JoinIndex.Proofs.Session.Answers
import JoinIndex.Proofs.Session.KeyUniqueness

/-!
Sessions whose tables hold the same at other places, each table keeping its rows under a hash
function of its own. A search for a key is led by the hash and the probing mode, but where it ends
depends on neither: it finds the bucket whose first row has the key, if there is one
(`Hashed.eq_found_of_holdsKey`), and an empty bucket otherwise, if there is one. Both tables have
such a bucket or none has (`Paired.sameEnd`). So the same operations are answered alike, and leave
the tables rearrangements of each other.
-/

set_option autoImplicit false
set_option relaxedAutoImplicit false

namespace JoinIndex.Session

open Table Insertion Probe

variable {s t s' t' : Session} {exprs : List KeyExpr} {hashOf hashOf' : KeyHash}
  {context context' : KeyContext}

/-! ### Where a search for a key ends -/

/-- A session in order, in which every kept row was stored with its key and under the hash of the
key. -/
structure Hashed (exprs : List KeyExpr) (hashOf : KeyHash) (s : Session) : Prop where
  solvent : s.Solvent
  inOrder : InOrder exprs s
  keyedBy : s.KeyedBy exprs
  hash_eq : ∀ i ∈ s.kept, i.hash = hashOf.toFun i.key

/-- A bucket that is recognised by a key has the hash of the key. -/
theorem Hashed.exists_keyAt (h : Hashed exprs hashOf s) (haddr : s.table.arena.Addressable)
    (hasks : Asks exprs context) {p : ℕ} (hfilled : (bucketAt s.table.buckets p).isFilled = true)
    (hholds : s.table.holdsKey (context.holds s.rows) (bucketAt s.table.buckets p) = true) :
    (bucketAt s.table.buckets p).hash? = some (hashOf.toFun context.key) ∧
      ∃ key, s.keyAt exprs p = some key ∧ Row.sameValues key context.key = true := by
  have hpersistent := h.inOrder.persistent
  obtain ⟨reps, hclasses⟩ := h.inOrder.grouped haddr h.keyedBy
  obtain ⟨r, hr, hshape⟩ := hclasses.exists_rep (mem_shapes_bucketAt hfilled)
  have hkept := hclasses.mem r hr
  have hsame : Row.sameValues r.key context.key = true := by
    rw [← hholds]
    exact (holdsKey_bucketAt hpersistent h.keyedBy (h.inOrder.intact.linked haddr) hasks hkept
      hshape.symm).symm
  refine ⟨?_, ?_⟩
  · have hhash : r.hash = ((bucketAt s.table.buckets p).group s.table.arena).hash :=
      congrArg Prod.fst hshape
    rw [Bucket.hash?_eq_some_group hfilled s.table.arena, ← hhash, h.hash_eq r hkept,
      hashOf.eq_of_same _ _ hsame]
  · obtain ⟨key, hkey, hrkey⟩ := exists_keyOf_classOf hpersistent h.keyedBy hkept
    have hrows : s.rowsAt p = (r.classOf s.kept).2 := (congrArg Prod.snd hshape).symm
    refine ⟨key, ?_, Row.sameValues_trans (Row.sameValues_symm hrkey) hsame⟩
    rw [keyAt, hrows, hkey]

/-- The search for a key finds the bucket that is recognised by it. -/
theorem Hashed.eq_found_of_holdsKey (h : Hashed exprs hashOf s)
    (haddr : s.table.arena.Addressable) (hasks : Asks exprs context) {p : ℕ}
    {result : ProbeResult} (hfilled : (bucketAt s.table.buckets p).isFilled = true)
    (hholds : s.table.holdsKey (context.holds s.rows) (bucketAt s.table.buckets p) = true)
    (hanswers : Answers s.table.probing s.table.buckets (hashOf.toFun context.key)
      (s.table.holdsKey (context.holds s.rows)) result) : result = .found p := by
  obtain ⟨hhash, key, hkey, hsame⟩ := h.exists_keyAt haddr hasks hfilled hholds
  obtain ⟨q, rfl⟩ := h.inOrder.intact.sound.paths.found_of_answers hhash hholds hanswers
  have hfilled' := hanswers.isFilled
  obtain ⟨_, _, _, _, _, hholds'⟩ := hanswers
  obtain ⟨hhash', key', hkey', hsame'⟩ := h.exists_keyAt haddr hasks hfilled' hholds'
  have hpq : p = q := h.inOrder.eq_of_sameValues_keyAt haddr h.keyedBy hhash hhash' hkey hkey'
    (Row.sameValues_trans hsame (Row.sameValues_symm hsame'))
  rw [hpq]

/-- Sessions with one budget and one row store, whose tables hold the same at other places. -/
structure Rearranged (s t : Session) : Prop where
  table : s.table.Rearranged t.table
  budget_eq : s.budget = t.budget
  rows_eq : s.rows = t.rows

theorem Rearranged.symm (h : s.Rearranged t) : t.Rearranged s :=
  ⟨h.table.symm, h.budget_eq.symm, h.rows_eq.symm⟩

/-- Sessions that hold the same at other places, each under its own hash function. -/
structure Paired (exprs : List KeyExpr) (hashOf hashOf' : KeyHash) (s t : Session) : Prop where
  left : Hashed exprs hashOf s
  right : Hashed exprs hashOf' t
  rearranged : s.Rearranged t

theorem Paired.symm (h : Paired exprs hashOf hashOf' s t) : Paired exprs hashOf' hashOf t s :=
  ⟨h.right, h.left, h.rearranged.symm⟩

/-- Contexts that have evaluated one key. -/
structure AskAlike (exprs : List KeyExpr) (context context' : KeyContext) : Prop where
  left : Asks exprs context
  right : Asks exprs context'
  key_eq : context.key = context'.key

theorem AskAlike.symm (h : AskAlike exprs context context') : AskAlike exprs context' context :=
  ⟨h.right, h.left, h.key_eq.symm⟩

/-- A bucket that the one table recognises by a key, the other one finds. -/
theorem Paired.exists_eq_found (h : Paired exprs hashOf hashOf' s t)
    (haddr : s.table.arena.Addressable) (hasks : AskAlike exprs context context') {p : ℕ}
    {result : ProbeResult}
    (hanswers : Answers s.table.probing s.table.buckets (hashOf.toFun context.key)
      (s.table.holdsKey (context.holds s.rows)) (.found p))
    (hanswers' : Answers t.table.probing t.table.buckets (hashOf'.toFun context'.key)
      (t.table.holdsKey (context'.holds t.rows)) result) :
    ∃ q, result = .found q ∧
      (bucketAt s.table.buckets p).unhashed = (bucketAt t.table.buckets q).unhashed := by
  have htable := h.rearranged.table
  obtain ⟨q, hfilled, hsame⟩ := htable.buckets.exists_unhashed_eq hanswers.isFilled
  have haddr' : t.table.arena.Addressable := htable.arena_eq ▸ haddr
  obtain ⟨_, _, _, _, _, hholds⟩ := hanswers
  have hholds' : t.table.holdsKey (context'.holds t.rows) (bucketAt t.table.buckets q) = true := by
    have hrow : (bucketAt s.table.buckets p).firstRow? t.table.arena =
        (bucketAt t.table.buckets q).firstRow? t.table.arena :=
      Bucket.eq_of_unhashed_eq _ (Bucket.firstRow?_unhashed _) hsame
    have hequals : context.equals = context'.equals := by
      funext stored
      rw [KeyContext.equals, KeyContext.equals, hasks.left.buildExprs_eq,
        hasks.right.buildExprs_eq, hasks.key_eq]
    have hkey : context.holds s.rows = context'.holds t.rows := by
      funext ref
      rw [KeyContext.holds, KeyContext.holds, h.rearranged.rows_eq, hequals]
    rw [← hholds, holdsKey, holdsKey, htable.arena_eq, hrow, hkey]
  exact ⟨q, h.right.eq_found_of_holdsKey haddr' hasks.right hfilled hholds' hanswers', hsame⟩

/-- A search cannot be exhausted if the other table has an empty bucket. -/
theorem Paired.ne_exhausted (h : Paired exprs hashOf hashOf' s t) {p : ℕ} {hash hash' : UInt32}
    {isMatch isMatch' : Bucket → Bool}
    (hanswers : Answers s.table.probing s.table.buckets hash isMatch (.vacant p)) :
    ¬ Answers t.table.probing t.table.buckets hash' isMatch' .exhausted := by
  have htable := h.rearranged.table
  obtain ⟨q, hq, hempty⟩ := htable.buckets.exists_empty htable.size_eq
    hanswers.reaches.lt_size hanswers.eq_empty
  exact not_answers_exhausted h.right.inOrder.intact.sound.size_isPower hq hempty

/-- Two searches for one key end alike, each under the hash of its table. -/
theorem Paired.sameEnd (h : Paired exprs hashOf hashOf' s t)
    (haddr : s.table.arena.Addressable) (hasks : AskAlike exprs context context') :
    SameEnd s.table t.table
      (s.table.probe (context.holds s.rows) (hashOf.toFun context.key)).1
      (t.table.probe (context'.holds t.rows) (hashOf'.toFun context'.key)).1 := by
  have hanswers := answers_run s.table.probing s.table.buckets (hashOf.toFun context.key)
    (s.table.holdsKey (context.holds s.rows))
  have hanswers' := answers_run t.table.probing t.table.buckets (hashOf'.toFun context'.key)
    (t.table.holdsKey (context'.holds t.rows))
  have haddr' : t.table.arena.Addressable := h.rearranged.table.arena_eq ▸ haddr
  show SameEnd s.table t.table
    (Probe.run s.table.probing s.table.buckets _ (s.table.holdsKey (context.holds s.rows))).result
    (Probe.run t.table.probing t.table.buckets _ (t.table.holdsKey (context'.holds t.rows))).result
  generalize (Probe.run s.table.probing s.table.buckets _ _).result = result at hanswers ⊢
  generalize (Probe.run t.table.probing t.table.buckets _ _).result = result' at hanswers' ⊢
  cases result with
  | found p =>
    obtain ⟨q, rfl, hsame⟩ := h.exists_eq_found haddr hasks hanswers hanswers'
    exact .found hanswers.isFilled hsame
  | vacant p =>
    cases result' with
    | found q =>
      obtain ⟨_, heq, -⟩ := h.symm.exists_eq_found haddr' hasks.symm hanswers' hanswers
      cases heq
    | vacant q =>
      exact .vacant hanswers.reaches.lt_size hanswers.eq_empty hanswers'.reaches.lt_size
        hanswers'.eq_empty
    | exhausted => exact absurd hanswers' (h.ne_exhausted hanswers)
  | exhausted =>
    cases result' with
    | found q =>
      obtain ⟨_, heq, -⟩ := h.symm.exists_eq_found haddr' hasks.symm hanswers' hanswers
      cases heq
    | vacant q => exact absurd hanswers (h.symm.ne_exhausted hanswers')
    | exhausted => exact .exhausted

/-! ### Operations that name no key -/

/-- Whether an operation of the table is given neither a row nor a key, or is none of the table. -/
def Op.isKeyless : Op → Bool
  | insert _ _ _ => false
  | probe _ _ => false
  | walk _ _ => false
  | resize _ => true
  | makeRoom _ => true
  | clear => true
  | append _ _ => true
  | charge _ => true
  | giveBack _ => true

/-- What is said of outcomes carries over to what a session makes of them. -/
theorem Rearranged.of_outcomes (h : s.Rearranged t)
    {r r' : Except Fault (Outcome (Except Error Unit))} (hr : SameFault Outcome.Rearranged r r') :
    r.map Outcome.answer = r'.map Outcome.answer ∧
      SameFault Rearranged
        (r >>= fun o ↦ .ok { s with table := o.table, budget := o.budget })
        (r' >>= fun o ↦ .ok { t with table := o.table, budget := o.budget }) :=
  alike_of_outcomes hr (fun _ _ ho ↦ ho.answer_eq)
    fun _ _ ho ↦ ⟨ho.table, ho.budget_eq, h.rows_eq⟩

/-- An operation that names no key answers the same in both sessions. -/
theorem Rearranged.step (h : s.Rearranged t) (hs : s.table.Sound) (ht : t.table.Sound) {op : Op}
    (hop : op.isKeyless = true) :
    s.answer op = t.answer op ∧ SameFault Rearranged (s.step op) (t.step op) := by
  have hbudget := h.budget_eq
  cases op with
  | resize size =>
    have hresize : SameFault Outcome.Rearranged (s.table.resize s.budget size)
        (t.table.resize t.budget size) := by
      rw [hbudget]
      exact h.table.resize hs ht t.budget size
    obtain ⟨hanswer, hsame⟩ := h.of_outcomes hresize
    exact ⟨congrArg Answer.resized hanswer, hsame⟩
  | makeRoom more =>
    have hroom : SameFault Outcome.Rearranged (s.table.makeRoom s.budget more)
        (t.table.makeRoom t.budget more) := by
      rw [hbudget]
      exact h.table.makeRoom hs ht t.budget more
    obtain ⟨hanswer, hsame⟩ := h.of_outcomes hroom
    exact ⟨congrArg Answer.resized hanswer, hsame⟩
  | clear =>
    have hclear : SameFault (fun r r' ↦ r.1.Rearranged r'.1 ∧ r.2 = r'.2)
        (s.table.clear s.budget) (t.table.clear t.budget) := by
      rw [hbudget]
      exact h.table.clear t.budget
    exact ⟨rfl, hclear.bind fun r r' hr ↦ .ok ⟨hr.1, hr.2, h.rows_eq⟩⟩
  | append row paid =>
    rw [answer, answer, Session.step, Session.step, h.rows_eq, hbudget]
    exact ⟨rfl, .ok ⟨h.table, rfl, rfl⟩⟩
  | charge bytes =>
    rw [answer, answer, Session.step, Session.step, hbudget]
    exact ⟨rfl, .ok ⟨h.table, rfl, h.rows_eq⟩⟩
  | giveBack bytes =>
    refine ⟨rfl, ?_⟩
    rw [Session.step, Session.step, hbudget, h.table.byteSize_eq]
    cases t.budget.release (min bytes (t.budget.consumed - t.table.byteSize)) with
    | error fault => exact .error fault
    | ok budget => exact .ok ⟨h.table, rfl, h.rows_eq⟩
  | insert => cases hop
  | probe => cases hop
  | walk => cases hop

/-! ### Insertions and walks -/

/-- An answer that names no place and no hash. -/
def Answer.unplaced : Answer → Answer
  | .walked start told =>
    .walked start.unplaced (told.map (Prod.map Cursor.View.unplaced Cursor.Content.unplaced))
  | answer => answer

/-- A row is taken in or refused alike under the hashes of one key. -/
theorem Paired.insert (h : Paired exprs hashOf hashOf' s t) (haddr : s.table.arena.Addressable)
    (hasks : AskAlike exprs context context') (ref : RowRef) :
    s.answer (.insert context ref (hashOf.toFun context.key)) =
        t.answer (.insert context' ref (hashOf'.toFun context'.key)) ∧
      SameFault Rearranged (s.step (.insert context ref (hashOf.toFun context.key)))
        (t.step (.insert context' ref (hashOf'.toFun context'.key))) := by
  have houtcome : Outcome.Rearranged
      (s.table.insert s.budget s.rows context ref (hashOf.toFun context.key))
      (t.table.insert t.budget t.rows context' ref (hashOf'.toFun context'.key)) := by
    rw [h.rearranged.budget_eq]
    exact h.rearranged.table.insert ref (h.sameEnd haddr hasks)
  exact ⟨congrArg Answer.inserted houtcome.answer_eq,
    .ok ⟨houtcome.table, houtcome.budget_eq, h.rearranged.rows_eq⟩⟩

/-- A walk among the rows of one key goes the same way in both tables. -/
theorem Paired.walk (h : Paired exprs hashOf hashOf' s t) (haddr : s.table.arena.Addressable)
    (hasks : AskAlike exprs context context') {steps : List Cursor.Step}
    (hsteps : ∀ step ∈ steps, step.isLocal = true) :
    (s.answer (.walk (.find context (hashOf.toFun context.key)) steps)).unplaced =
        (t.answer (.walk (.find context' (hashOf'.toFun context'.key)) steps)).unplaced ∧
      SameFault Rearranged (s.step (.walk (.find context (hashOf.toFun context.key)) steps))
        (t.step (.walk (.find context' (hashOf'.toFun context'.key)) steps)) := by
  obtain ⟨htable, haligned⟩ := Cursor.aligned_find h.rearranged.table (h.sameEnd haddr hasks)
  have hview := haligned.view_eq htable
  obtain ⟨htold, hend⟩ := haligned.walk htable h.rearranged.rows_eq hsteps
  refine ⟨?_, .ok ⟨hend, h.rearranged.budget_eq, h.rearranged.rows_eq⟩⟩
  exact congrArg₂ Answer.walked hview htold

end JoinIndex.Session
