import JoinIndex.Proofs.Cursor.Related
import JoinIndex.Proofs.Table.Rearranged

/-!
Cursors on tables that hold the same at other places. Once a search for a key has ended alike in
both tables, its two cursors go the same way as long as they stay among the rows of the key: they
stand on one node, or on the row held in buckets that hold the same, so that they show, read and
mark the same. Where the bucket stands and what hash it has is left out of what is told.
-/

set_option autoImplicit false
set_option relaxedAutoImplicit false

namespace JoinIndex

namespace Cursor

/-- Whether a step stays among the rows of one bucket. -/
def Step.isLocal : Step → Bool
  | .advance way => way = .duplicate
  | .mark => true
  | .row => true
  | .ref => true
  | .readAll way => way = .duplicate

/-- A view that shows whether there is a bucket, but neither its place nor its hash. -/
def View.unplaced (v : View) : View :=
  ⟨v.bucket?.map fun _ ↦ 0, v.hash?.map fun _ ↦ 0, v.matched⟩

/-- What is read, without the places of the buckets. -/
def Content.unplaced : Content → Content
  | .nothing => .nothing
  | .row row? => .row row?
  | .all rows => .all (rows.map fun (bucket?, read) ↦ (bucket?.map fun _ ↦ 0, read))

/-- Cursors at the end, or on the same rows of buckets that hold the same. -/
inductive Aligned (t u : Table) : Cursor → Cursor → Prop
  | atEnd : Aligned t u .atEnd .atEnd
  | on {p q : ℕ} (node? : Option NodeIndex) (hfilled : (bucketAt t.buckets p).isFilled = true)
      (hsame : (bucketAt t.buckets p).unhashed = (bucketAt u.buckets q).unhashed) :
      Aligned t u (.on p node?) (.on q node?)

variable {t u : Table} {c d : Cursor}

/-- A search that ends alike puts its cursors on the same rows. -/
theorem aligned_find (h : t.Rearranged u) {rows rows' : RowStore} {context context' : KeyContext}
    {hash hash' : UInt32}
    (hends : Table.SameEnd t u (t.probe (context.holds rows) hash).1
      (u.probe (context'.holds rows') hash').1) :
    (t.find rows context hash).2.Rearranged (u.find rows' context' hash').2 ∧
      Aligned (t.find rows context hash).2 (u.find rows' context' hash').2
        (t.find rows context hash).1 (u.find rows' context' hash').1 := by
  obtain ⟨probe, hprobe⟩ := t.exists_probe_eq (context.holds rows) hash
  obtain ⟨probe', hprobe'⟩ := u.exists_probe_eq (context'.holds rows') hash'
  have hsearched := h.searched probe probe'
  rw [hprobe, hprobe'] at hends
  dsimp only at hends
  rw [Table.find, Table.find, hprobe, hprobe']
  generalize probe.result = result at hends
  generalize probe'.result = result' at hends
  cases hends with
  | @found p q hfilled hsame =>
    refine ⟨hsearched, ?_⟩
    have hhead : (bucketAt t.buckets p).head? = (bucketAt u.buckets q).head? :=
      Bucket.eq_of_unhashed_eq _ Bucket.head?_unhashed hsame
    show Aligned _ _ (.on p (bucketAt t.buckets p).head?) (.on q (bucketAt u.buckets q).head?)
    rw [hhead]
    exact .on _ hfilled hsame
  | vacant => exact ⟨hsearched, .atEnd⟩
  | exhausted => exact ⟨hsearched, .atEnd⟩

namespace Aligned

variable (hc : Aligned t u c d) (h : t.Rearranged u)

include hc h

theorem isMatched_eq : c.isMatched t = d.isMatched u := by
  cases hc with
  | atEnd => rfl
  | @on p q node? hfilled hsame =>
    cases node? with
    | some node => rw [isMatched, isMatched, h.arena_eq]
    | none =>
      have hsame : (t.buckets.getD p .empty).unhashed = (u.buckets.getD q .empty).unhashed :=
        hsame
      rw [isMatched, isMatched]
      generalize t.buckets.getD p .empty = b at hsame
      generalize u.buckets.getD q .empty = b' at hsame
      cases b with
      | empty =>
        cases b' with
        | empty => rfl
        | inline => cases hsame
        | chain => cases hsame
      | inline hash matched row =>
        obtain ⟨hash', rfl⟩ := Bucket.exists_eq_inline hsame
        rfl
      | chain hash head =>
        obtain ⟨hash', rfl⟩ := Bucket.exists_eq_chain hsame
        rfl

theorem ref?_eq : c.ref? t = d.ref? u := by
  cases hc with
  | atEnd => rfl
  | @on p q node? hfilled hsame =>
    cases node? with
    | some node => rw [ref?, ref?, h.arena_eq]
    | none =>
      show (bucketAt t.buckets p).firstRow? t.arena = (bucketAt u.buckets q).firstRow? u.arena
      rw [h.arena_eq]
      exact Bucket.eq_of_unhashed_eq _ (Bucket.firstRow?_unhashed u.arena) hsame

theorem row?_eq (rows : RowStore) : c.row? t rows = d.row? u rows := by
  rw [row?, row?, hc.ref?_eq h]

theorem nextDuplicate : Aligned t u (c.nextDuplicate t) (d.nextDuplicate u) := by
  cases hc with
  | atEnd => exact .atEnd
  | @on p q node? hfilled hsame =>
    have hnext : (Cursor.on p node?).nextNode? t = (Cursor.on q node?).nextNode? u := by
      cases node? with
      | some node => rw [nextNode?, nextNode?, h.arena_eq]
      | none => rfl
    rw [Cursor.nextDuplicate, Cursor.nextDuplicate, hnext]
    cases (Cursor.on q node?).nextNode? u with
    | some node => exact .on _ hfilled hsame
    | none => exact .atEnd

theorem view_eq : (c.view t).unplaced = (d.view u).unplaced := by
  have hmatched := hc.isMatched_eq h
  rw [view, view, View.unplaced, View.unplaced, hmatched]
  cases hc with
  | atEnd => rfl
  | @on p q node? hfilled hsame =>
    have hfilled' : (bucketAt u.buckets q).isFilled = true := by
      rwa [← Bucket.eq_of_unhashed_eq _ Bucket.isFilled_unhashed hsame]
    obtain ⟨hash, hhash⟩ := Bucket.isFilled_iff.mp hfilled
    obtain ⟨hash', hhash'⟩ := Bucket.isFilled_iff.mp hfilled'
    have hleft : (Cursor.on p node?).hash? t = some hash := hhash
    have hright : (Cursor.on q node?).hash? u = some hash' := hhash'
    rw [hleft, hright]
    rfl

/-- The row is marked in both tables, and the cursors go on standing on the same rows. -/
theorem setMatched : (c.setMatched t).Rearranged (d.setMatched u) ∧
    Aligned (c.setMatched t) (d.setMatched u) c d := by
  cases hc with
  | atEnd => exact ⟨h, .atEnd⟩
  | @on p q node? hfilled hsame =>
    cases node? with
    | some node =>
      have harena : t.arena.setMatched node = u.arena.setMatched node := by rw [h.arena_eq]
      exact ⟨{ h with arena_eq := harena, hasMatches_eq := rfl }, .on _ hfilled hsame⟩
    | none =>
      have hself : ∀ (bs : Array Bucket) (r : ℕ),
          bucketAt (bs.modify r Bucket.setMatched) r = (bucketAt bs r).setMatched := by
        intro bs r
        rw [bucketAt_modify _ _ _ rfl, if_pos rfl]
      refine ⟨{ h with
        size_eq := ?_
        buckets := h.buckets.modify_setMatched hfilled hsame
        hasMatches_eq := rfl }, .on _ ?_ ?_⟩
      · rw [Cursor.setMatched, Cursor.setMatched, Array.size_modify, Array.size_modify, h.size_eq]
      · rw [Cursor.setMatched, hself, Bucket.isFilled_setMatched]
        exact hfilled
      · rw [Cursor.setMatched, Cursor.setMatched, hself, hself, Bucket.unhashed_setMatched,
          Bucket.unhashed_setMatched, hsame]

/-- The rows from here on are read alike. -/
theorem map_positionsUpTo (rows : RowStore) (count : ℕ) :
    (c.positionsUpTo t .duplicate count).map
        (fun e ↦ (e.bucket?.map fun _ ↦ 0, e.isMatched t, e.row? t rows)) =
      (d.positionsUpTo u .duplicate count).map
        (fun e ↦ (e.bucket?.map fun _ ↦ 0, e.isMatched u, e.row? u rows)) := by
  induction count generalizing c d with
  | zero => rfl
  | succ count ih =>
    have hmatched := hc.isMatched_eq h
    have hrow := hc.row?_eq h rows
    have hrest := ih (hc.nextDuplicate h)
    cases hc with
    | atEnd => rfl
    | on node? hfilled hsame =>
      rw [positionsUpTo, positionsUpTo, List.map_cons, List.map_cons, hmatched, hrow]
      exact congrArg _ hrest

/-- A step among the rows of the key reads the same and goes the same way. -/
theorem take (rows : RowStore) {step : Step} (hstep : step.isLocal = true) :
    (((c.take t rows step).1.content rows).unplaced =
        ((d.take u rows step).1.content rows).unplaced) ∧
      (c.take t rows step).2.2.Rearranged (d.take u rows step).2.2 ∧
        Aligned (c.take t rows step).2.2 (d.take u rows step).2.2 (c.take t rows step).2.1
          (d.take u rows step).2.1 := by
  cases step with
  | advance way =>
    obtain rfl : way = .duplicate := of_decide_eq_true hstep
    exact ⟨rfl, h, hc.nextDuplicate h⟩
  | mark => exact ⟨rfl, hc.setMatched h⟩
  | row => exact ⟨congrArg Content.row (hc.row?_eq h rows), h, hc⟩
  | ref =>
    refine ⟨congrArg Content.row ?_, h, hc⟩
    rw [hc.ref?_eq h]
  | readAll way =>
    obtain rfl : way = .duplicate := of_decide_eq_true hstep
    refine ⟨?_, h, .atEnd⟩
    have hread := hc.map_positionsUpTo h rows u.entries
    rw [Cursor.take, Cursor.take, Reading.content, Reading.content, Content.unplaced,
      Content.unplaced, positions, positions, h.entries_eq]
    simp only [List.map_map]
    exact congrArg Content.all hread

/-- A walk among the rows of the key shows and reads the same at each of its steps. -/
theorem walk {rows rows' : RowStore} (hrows : rows = rows') {steps : List Step}
    (hsteps : ∀ step ∈ steps, step.isLocal = true) :
    (c.told t rows steps).map (Prod.map View.unplaced Content.unplaced) =
        (d.told u rows' steps).map (Prod.map View.unplaced Content.unplaced) ∧
      (c.walk t rows steps).2.Rearranged (d.walk u rows' steps).2 := by
  subst hrows
  induction steps generalizing c d t u with
  | nil => exact ⟨rfl, h⟩
  | cons step steps ih =>
    obtain ⟨hread, htable, haligned⟩ := hc.take h rows (hsteps step List.mem_cons_self)
    have hview := haligned.view_eq htable
    obtain ⟨hrest, hend⟩ := ih haligned htable fun s hs ↦ hsteps s (List.mem_cons_of_mem _ hs)
    rw [told_cons, told_cons, snd_walk_cons, snd_walk_cons, List.map_cons, List.map_cons,
      Prod.map_apply, Prod.map_apply, hread, hview, hrest]
    exact ⟨rfl, hend⟩

end Aligned

end Cursor

end JoinIndex
