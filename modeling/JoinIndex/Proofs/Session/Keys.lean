import JoinIndex.Proofs.Session.Classes

/-!
Keys and buckets. In a session whose insertions were all made with the keys of their rows, a search
for a key recognises exactly the buckets that hold rows with the same key. So the table keeps the
classes of alike insertions apart whatever is done to it, and a search under a hash of the key finds
the one bucket there may be.
-/

set_option autoImplicit false
set_option relaxedAutoImplicit false

namespace JoinIndex.Session

open Table Insertion Probe

variable {s s' : Session} {exprs : List KeyExpr}

/-- References still lead to the rows that they led to when the rows were stored. -/
def Persistent (s : Session) : Prop :=
  ∀ i ∈ s.kept, ∀ row, i.row? = some row → i.ref.resolve s.rows = some row

/-- The insertions were made with the keys of their rows. -/
def KeyedBy (exprs : List KeyExpr) (s : Session) : Prop :=
  ∀ i ∈ s.kept, i.Keyed exprs

/-- The table keeps the classes of alike insertions, if these were made with the keys of their
rows. -/
def Grouped (exprs : List KeyExpr) (s : Session) : Prop :=
  s.table.arena.Addressable → s.KeyedBy exprs → ∃ reps, Classes s.table.shapes s.kept reps

/-- A context that looks for a key with a component for each build expression. -/
structure Asks (exprs : List KeyExpr) (context : KeyContext) : Prop where
  buildExprs_eq : context.buildExprs = exprs
  length_eq : context.key.length = exprs.length

theorem asks_of_keyed {i : Insertion} (h : i.Keyed exprs) : Asks exprs i.context where
  buildExprs_eq := h.buildExprs_eq
  length_eq := by
    obtain ⟨row, -, hkey⟩ := h.exists_row
    change i.key.length = _
    rw [hkey, KeyContext.buildKey, List.length_map]

/-- A stored row is recognised by its key. -/
theorem holds_ref {context : KeyContext} {i : Insertion} (hpersistent : s.Persistent)
    (hi : i ∈ s.kept) (hkeyed : i.Keyed exprs) (hasks : Asks exprs context) :
    context.holds s.rows i.ref = Row.sameValues i.key context.key := by
  obtain ⟨row, hrow, hkey⟩ := hkeyed.exists_row
  have hlength : context.key.length = context.buildExprs.length := by
    rw [hasks.buildExprs_eq, hasks.length_eq]
  rw [KeyContext.holds, hpersistent i hi row hrow, Option.any_some,
    KeyContext.equals_eq_sameValues hlength, hasks.buildExprs_eq, hkey]

theorem sameValues_congr_left {as bs cs : List Value} (h : Row.sameValues as bs = true) :
    Row.sameValues as cs = Row.sameValues bs cs := by
  rw [Bool.eq_iff_iff]
  constructor
  · exact Row.sameValues_trans (Row.sameValues_symm h)
  · exact Row.sameValues_trans h

/-- A search recognises the bucket of a class by the key of the class. -/
theorem holdsKey_bucketAt {context : KeyContext} {r : Insertion} {p : Nat}
    (hpersistent : s.Persistent) (hkeyed : s.KeyedBy exprs) (hlinked : s.table.Linked)
    (hasks : Asks exprs context) (hr : r ∈ s.kept)
    (hshape : ((bucketAt s.table.buckets p).group s.table.arena).shape = r.classOf s.kept) :
    s.table.holdsKey (context.holds s.rows) (bucketAt s.table.buckets p) =
      Row.sameValues r.key context.key := by
  obtain ⟨j, hj, hrj, hhead⟩ := exists_head?_classOf hr
  have hrefs : ((bucketAt s.table.buckets p).group s.table.arena).refs = (r.classOf s.kept).2 :=
    congrArg Prod.snd hshape
  rw [holdsKey, Bucket.firstRow?_eq_head? (hlinked.links_bucketAt p), hrefs, hhead,
    Option.any_some, holds_ref hpersistent hj (hkeyed j hj) hasks]
  exact (sameValues_congr_left (alike_iff.mp hrj).2).symm

/-- The place of a group. -/
theorem exists_bucketAt_of_mem_shapes {t : Table} {shape : UInt32 × List RowRef}
    (h : shape ∈ t.shapes) : ∃ p, (bucketAt t.buckets p).hash? = some shape.1 ∧
      ((bucketAt t.buckets p).group t.arena).shape = shape := by
  rw [shapes, groups, List.map_map, List.mem_map] at h
  obtain ⟨b, hb, rfl⟩ := h
  obtain ⟨hfilled, p, rfl⟩ := mem_filledBuckets.mp hb
  exact ⟨p, Bucket.hash?_eq_some_group hfilled t.arena, rfl⟩

theorem mem_shapes_bucketAt {t : Table} {p : Nat}
    (hfilled : (bucketAt t.buckets p).isFilled = true) :
    ((bucketAt t.buckets p).group t.arena).shape ∈ t.shapes := by
  rw [shapes, groups, List.map_map]
  exact List.mem_map_of_mem (bucketAt_mem_filledBuckets hfilled)

/-- What a search answers for a key under a hash: the bucket of the class, if there is one. -/
theorem exists_rep_of_answers_found {context : KeyContext} {hash : UInt32}
    {reps : List Insertion} {p : Nat} (hpersistent : s.Persistent) (hkeyed : s.KeyedBy exprs)
    (hlinked : s.table.Linked) (hasks : Asks exprs context)
    (hclasses : Classes s.table.shapes s.kept reps)
    (hanswers : Answers s.table.probing s.table.buckets hash
      (s.table.holdsKey (context.holds s.rows)) (.found p)) :
    ∃ r ∈ reps, ((bucketAt s.table.buckets p).group s.table.arena).shape = r.classOf s.kept ∧
      r.hash = hash ∧ Row.sameValues r.key context.key = true := by
  obtain ⟨_, _, _, _, hhash, hmatch⟩ := hanswers
  have hfilled := Bucket.isFilled_of_hash? hhash
  obtain ⟨r, hr, hshape⟩ := hclasses.exists_rep (mem_shapes_bucketAt hfilled)
  refine ⟨r, hr, hshape.symm, ?_, ?_⟩
  · rw [Bucket.hash?_eq_some_group hfilled s.table.arena, Option.some.injEq] at hhash
    rw [← hhash]
    exact congrArg Prod.fst hshape
  · rw [← hmatch]
    exact (holdsKey_bucketAt hpersistent hkeyed hlinked hasks (hclasses.mem r hr)
      hshape.symm).symm

/-- A search finds the bucket of the class if there is one. -/
theorem exists_found_of_rep {context : KeyContext} {hash : UInt32} {reps : List Insertion}
    {result : ProbeResult} {r : Insertion} (hpersistent : s.Persistent)
    (hkeyed : s.KeyedBy exprs) (hlinked : s.table.Linked) (hsound : s.table.Sound)
    (hasks : Asks exprs context) (hclasses : Classes s.table.shapes s.kept reps)
    (hanswers : Answers s.table.probing s.table.buckets hash
      (s.table.holdsKey (context.holds s.rows)) result)
    (hr : r ∈ reps) (hhash : r.hash = hash)
    (hsame : Row.sameValues r.key context.key = true) : ∃ p, result = .found p := by
  obtain ⟨q, hq, hshape⟩ := exists_bucketAt_of_mem_shapes (hclasses.classOf_mem hr)
  refine hsound.paths.found_of_answers (p := q) ?_ ?_ hanswers
  · rw [hq, ← hhash]
    rfl
  · rw [holdsKey_bucketAt hpersistent hkeyed hlinked hasks (hclasses.mem r hr) hshape]
    exact hsame

/-! ### What every change keeps -/

/-- What is true of a session at any time. -/
structure InOrder (exprs : List KeyExpr) (s : Session) : Prop where
  intact : s.table.Intact
  persistent : s.Persistent
  grouped : s.Grouped exprs

theorem Changes.persistent (h : Changes s s') (hs : s.Persistent) : s'.Persistent := by
  cases h with
  | insert context row hash o =>
    intro i hi
    dsimp only at hi
    split_ifs at hi
    · rcases List.mem_cons.mp hi with rfl | hi
      · exact fun row hrow ↦ hrow
      · exact hs i hi
    · exact hs i hi
  | quiet => exact hs
  | clear => exact fun i hi ↦ absurd hi List.not_mem_nil
  | append rows budget hrows =>
    exact fun i hi row hrow ↦ RowRef.resolve_within hrows (hs i hi row hrow)

/-- A row that is taken in makes a class of its own or joins the class of its key. -/
theorem exists_classes_insert {context : KeyContext} {row : RowRef} {hash : UInt32}
    {o : Outcome Bool} {reps : List Insertion} (h : InOrder exprs s)
    (hinserted : Inserted s.table s.budget (context.holds s.rows) row hash o)
    (haddr : o.table.arena.Addressable) (haddr' : s.table.arena.Addressable)
    (hkeyed : s.KeyedBy exprs)
    (hnew : o.answer = true → (⟨row, row.resolve s.rows, context, hash⟩ : Insertion).Keyed exprs)
    (hclasses : Classes s.table.shapes s.kept reps) :
    ∃ reps', Classes o.table.shapes
      (if o.answer then ⟨row, row.resolve s.rows, context, hash⟩ :: s.kept else s.kept)
      reps' := by
  have hlinked := h.intact.linked haddr'
  rcases hinserted.groups_cases h.intact haddr with
    ⟨hanswer, hgroups⟩ | ⟨p, hanswer, hanswers, hgroups⟩ |
      ⟨p, others, hanswer, hanswers, hbefore, hafter⟩
  · rw [if_neg (by simp [hanswer]), shapes, hgroups]
    exact ⟨reps, hclasses⟩
  · rw [if_pos hanswer]
    have hasks := asks_of_keyed (hnew hanswer)
    refine ⟨_, (hclasses.cons_new fun r hr ↦ ?_).of_perm (hgroups.map _)⟩
    rw [Bool.eq_false_iff]
    intro halike
    obtain ⟨hhash, hsame⟩ := alike_iff.mp halike
    obtain ⟨q, hq⟩ := exists_found_of_rep h.persistent hkeyed hlinked h.intact.sound hasks
      hclasses hanswers hr hhash hsame
    cases hq
  · rw [if_pos hanswer]
    have hasks := asks_of_keyed (hnew hanswer)
    obtain ⟨r, hr, hshape, hhash, hsame⟩ :=
      exists_rep_of_answers_found h.persistent hkeyed hlinked hasks hclasses hanswers
    have hold : Classes (r.classOf s.kept :: others.map Group.shape) s.kept reps := by
      refine hclasses.of_perm ?_
      rw [← hshape, ← List.map_cons]
      exact (hbefore.map Group.shape).symm
    refine ⟨reps, (hold.cons_old hr (alike_iff.mpr ⟨hhash, hsame⟩)).of_perm ?_⟩
    have hshape' : (((bucketAt s.table.buckets p).group s.table.arena).cons row).shape =
        (r.hash, row :: (r.classOf s.kept).2) := by
      have hfirst : ((bucketAt s.table.buckets p).group s.table.arena).hash = r.hash :=
        congrArg Prod.fst hshape
      have hrefs : ((bucketAt s.table.buckets p).group s.table.arena).refs =
          (r.classOf s.kept).2 := congrArg Prod.snd hshape
      rw [← hfirst, ← hrefs]
      rfl
    rw [← hshape', ← List.map_cons]
    exact hafter.map _

theorem Changes.inOrder (h : Changes s s') (hs : InOrder exprs s) : InOrder exprs s' := by
  refine ⟨h.intact hs.intact, h.persistent hs.persistent, fun haddr hkeyed ↦ ?_⟩
  cases h with
  | insert context row hash o hinserted =>
    have haddr' : s.table.arena.Addressable := hinserted.addressable haddr
    have hold : s.KeyedBy exprs := by
      intro i hi
      refine hkeyed i ?_
      dsimp only
      split_ifs
      · exact List.mem_cons_of_mem _ hi
      · exact hi
    have hnew : o.answer = true →
        (⟨row, row.resolve s.rows, context, hash⟩ : Insertion).Keyed exprs := by
      intro hanswer
      refine hkeyed _ ?_
      dsimp only
      rw [if_pos hanswer]
      exact List.mem_cons_self
    obtain ⟨reps, hclasses⟩ := hs.grouped haddr' hold
    exact exists_classes_insert hs hinserted haddr haddr' hold hnew hclasses
  | quiet u budget _ hshapes hpages =>
    have haddr' : s.table.arena.Addressable := by
      rw [Arena.Addressable, ← hpages]
      exact haddr
    obtain ⟨reps, hclasses⟩ := hs.grouped haddr' hkeyed
    exact ⟨reps, hclasses.of_perm hshapes⟩
  | clear =>
    refine ⟨[], Classes.nil.of_perm ?_⟩
    rw [shapes_eq_nil (filledBuckets_replicate s.table.buckets.size)]
  | append rows budget hrows => exact hs.grouped haddr hkeyed

theorem inOrder_create {config : Config} {stored : Bool} {budget : Budget} {rows : RowStore}
    (h : create config stored budget rows = .ok s) : InOrder exprs s := by
  have hintact := intact_create h
  obtain ⟨-, -, rfl⟩ := create_eq_ok h
  refine ⟨hintact, fun i hi ↦ absurd hi List.not_mem_nil, fun _ _ ↦ ⟨[], ?_⟩⟩
  refine Classes.nil.of_perm ?_
  rw [shapes_eq_nil (filledBuckets_replicate config.startBuckets)]

theorem keyedBy_small (h : s.kept = smallKept) : s.KeyedBy [.column 0 .int64] := by
  intro i hi
  rw [h] at hi
  rcases hi with _ | ⟨_, _ | ⟨_, _ | ⟨_, hi⟩⟩⟩
  · exact ⟨rfl, _, rfl, rfl⟩
  · exact ⟨rfl, _, rfl, rfl⟩
  · exact ⟨rfl, _, rfl, rfl⟩
  · cases hi

end JoinIndex.Session
