import JoinIndex.Proofs.Cursor.Marking
import JoinIndex.Proofs.Session
import JoinIndex.Proofs.Table.Insertion

/-!
Traces: what became of the insertions that a table accepted. There is one for each, which remembers
whether a cursor on the row was asked to mark it, and it stands where the row stands: at the place
of a bucket, in the order of the bucket's rows. A row that is taken in has a new trace in front of
the others of its bucket, and a bucket that is moved takes its traces along. `Traced` says that the
rows of a table have the marks that their traces ask for.
-/

set_option autoImplicit false
set_option relaxedAutoImplicit false

namespace JoinIndex

/-- An accepted insertion, and whether a cursor on its row was asked to mark it. -/
structure Trace where
  insertion : Insertion
  marked : Bool

namespace Trace

/-- The row with the mark that it is expected to have. -/
def entry (r : Trace) : Entry := ⟨r.insertion.ref, r.marked⟩

def mark (r : Trace) : Trace := { r with marked := true }

/-- All traces of a table of `size` buckets, in the order of the places and rows. -/
def inOrder (traces : Nat → List Trace) (size : Nat) : List Trace :=
  (List.range size).flatMap traces

theorem inOrder_nil (size : Nat) : inOrder (fun _ ↦ []) size = [] :=
  List.flatMap_eq_nil_iff.mpr fun _ _ ↦ rfl

/-- The traces with other ones at one place. -/
def put (traces : Nat → List Trace) (p : Nat) (l : List Trace) : Nat → List Trace :=
  fun q ↦ if p = q then l else traces q

/-- One more trace, in front of the others at a place. -/
def add (traces : Nat → List Trace) (p : Nat) (r : Trace) : Nat → List Trace :=
  put traces p (r :: traces p)

/-- A cursor is asked to mark its row: the trace at its position remembers it. -/
def markAt (t : Table) (c : Cursor) (traces : Nat → List Trace) : Nat → List Trace :=
  fun p ↦ List.zipWith (fun d r ↦ if d = c then r.mark else r)
    (Cursor.ofBucket t.arena p (bucketAt t.buckets p)) (traces p)

/-- A bucket is moved to the place that it finds, with its traces. -/
def place (mode : ProbingMode) (moved : Array Bucket × (Nat → List Trace))
    (b : Bucket × List Trace) : Option (Array Bucket × (Nat → List Trace)) :=
  match b.1.hash? with
  | none => some moved
  | some hash =>
    match (Probe.run mode moved.1 hash fun _ ↦ false).result with
    | .vacant p => some (moved.1.setIfInBounds p b.1, put moved.2 p b.2)
    | _ => none

/-- All buckets are moved into an array of `size` empty ones, as `Table.relocate` does, with their
traces. -/
def relocate (mode : ProbingMode) (buckets : Array Bucket) (traces : Nat → List Trace)
    (size : Nat) : Option (Array Bucket × (Nat → List Trace)) :=
  ((List.range buckets.size).map fun p ↦ (bucketAt buckets p, traces p)).foldlM (place mode)
    (Array.replicate size .empty, fun _ ↦ [])

end Trace

namespace Table

open Cursor Trace

variable {t u : Table} {kept : List Insertion} {traces : Nat → List Trace} {p : Nat}

/-- The rows of the table are those of the insertions kept, and they have the marks that their
traces ask for. -/
structure Traced (t : Table) (kept : List Insertion) (traces : Nat → List Trace) : Prop where
  entries_eq : ∀ p, (bucketAt t.buckets p).entries t.arena = (traces p).map Trace.entry
  kept_perm : ((inOrder traces t.buckets.size).map Trace.insertion).Perm kept
  hasMatches_iff : t.hasMatches = true ↔
    ∃ r ∈ inOrder traces t.buckets.size, r.marked = true

/-- Traces see the buckets, the nodes and the flag, and nothing else. -/
theorem Traced.congr (h : t.Traced kept traces) (hbuckets : u.buckets = t.buckets)
    (harena : u.arena = t.arena) (hmatches : u.hasMatches = t.hasMatches) :
    u.Traced kept traces := by
  refine ⟨?_, ?_, ?_⟩
  · rw [hbuckets, harena]
    exact h.entries_eq
  · rw [hbuckets]
    exact h.kept_perm
  · rw [hbuckets, hmatches]
    exact h.hasMatches_iff

theorem traced_of_empty (hbuckets : ∀ p, bucketAt t.buckets p = .empty)
    (hmatches : t.hasMatches = false) : t.Traced [] fun _ ↦ [] := by
  refine ⟨fun p ↦ ?_, ?_, ?_⟩
  · rw [hbuckets]
    rfl
  · rw [inOrder_nil]
    exact List.Perm.refl _
  · rw [inOrder_nil, hmatches]
    simp

/-- The positions on all rows show what the traces expect. -/
theorem map_shows_cursors (h : t.Linked)
    (hentries : ∀ p, (bucketAt t.buckets p).entries t.arena = (traces p).map Trace.entry) :
    t.cursors.map (·.shows t) = (inOrder traces t.buckets.size).map (·.entry.shows) := by
  rw [cursors, cursorsFrom, inOrder, List.map_flatMap, List.map_flatMap, ← List.range_eq_range']
  refine List.flatMap_congr fun p _ ↦ ?_
  rw [map_shows_ofBucket h, hentries, List.map_map]
  rfl

theorem exists_marked_iff (h : t.Linked)
    (hentries : ∀ p, (bucketAt t.buckets p).entries t.arena = (traces p).map Trace.entry) :
    (∃ r ∈ inOrder traces t.buckets.size, r.marked = true) ↔
      ∃ c ∈ t.cursors, c.isMatched t = true := by
  have hshows := map_shows_cursors h hentries
  constructor
  · rintro ⟨r, hr, hmarked⟩
    have hmem := List.mem_map_of_mem (f := fun r : Trace ↦ r.entry.shows) hr
    rw [← hshows] at hmem
    obtain ⟨c, hc, heq⟩ := List.mem_map.mp hmem
    exact ⟨c, hc, (congrArg Prod.snd heq).trans hmarked⟩
  · rintro ⟨c, hc, hmatched⟩
    have hmem := List.mem_map_of_mem (f := fun c : Cursor ↦ c.shows t) hc
    rw [hshows] at hmem
    obtain ⟨r, hr, heq⟩ := List.mem_map.mp hmem
    exact ⟨r, hr, (congrArg Prod.snd heq).trans hmatched⟩

/-! ### Taking in a row -/

/-- What is put in front of the traces at one place comes to all of them. -/
theorem inOrder_put_perm {size : Nat} (traces : Nat → List Trace) (hp : p < size)
    (l : List Trace) : (inOrder (put traces p (l ++ traces p)) size).Perm
      (l ++ inOrder traces size) := by
  have hsplit := List.perm_cons_erase (List.mem_range.mpr hp)
  have hself : put traces p (l ++ traces p) p = l ++ traces p := if_pos rfl
  have hothers : ((List.range size).erase p).flatMap (put traces p (l ++ traces p)) =
      ((List.range size).erase p).flatMap traces :=
    List.flatMap_congr fun q hq ↦ if_neg (List.nodup_range.mem_erase_iff.mp hq).1.symm
  have hbefore := hsplit.flatMap_right traces
  have hafter := hsplit.flatMap_right (put traces p (l ++ traces p))
  rw [List.flatMap_cons] at hbefore hafter
  rw [hself, hothers, List.append_assoc] at hafter
  exact hafter.trans (hbefore.symm.append_left l)

theorem Traced.add (h : t.Traced kept traces) (hlinked : t.Linked) {i : Insertion}
    (hplaced : Placed t u i.hash i.ref p) (hmatches : u.hasMatches = t.hasMatches) :
    u.Traced (i :: kept) (add traces p ⟨i, false⟩) := by
  obtain ⟨b, added, hw, -⟩ := hplaced.exists_writes
  have hsize : u.buckets.size = t.buckets.size := by
    rw [hw.buckets_eq, Array.size_setIfInBounds]
  have hperm : (inOrder (Trace.add traces p ⟨i, false⟩) t.buckets.size).Perm
      (⟨i, false⟩ :: inOrder traces t.buckets.size) :=
    inOrder_put_perm traces hw.lt_size [⟨i, false⟩]
  refine ⟨fun q ↦ ?_, ?_, ?_⟩
  · rw [Trace.add, put]
    split_ifs with hpq
    · rw [← hpq, hplaced.entries_eq hlinked, h.entries_eq]
      rfl
    · rw [(hplaced.others hlinked (Ne.symm hpq)).2, h.entries_eq]
  · rw [hsize]
    exact (hperm.map _).trans (h.kept_perm.cons i)
  · rw [hsize, hmatches, h.hasMatches_iff]
    simp [hperm.mem_iff]

/-! ### Marks -/

/-- The position of the cursor shows a mark, and so does the trace at it. -/
theorem map_shows_markAt {c : Cursor} {ds : List Cursor} {rs : List Trace}
    (h : ds.map (·.shows t) = rs.map (·.entry.shows)) :
    ds.map (fun d ↦ (d.ref? t, decide (d = c) || d.isMatched t)) =
      (List.zipWith (fun d r ↦ if d = c then r.mark else r) ds rs).map (·.entry.shows) := by
  induction ds generalizing rs with
  | nil => rfl
  | cons d ds ih =>
    cases rs with
    | nil => cases h
    | cons r rs =>
      obtain ⟨hshows, hrest⟩ := List.cons.inj h
      obtain ⟨href, hmatched⟩ := Prod.mk.inj hshows
      rw [List.map_cons, List.zipWith_cons_cons, List.map_cons, ih hrest, href, hmatched]
      split_ifs with hdc
      · rw [decide_eq_true hdc]
        rfl
      · rw [decide_eq_false hdc]
        rfl

theorem map_insertion_markAt {c : Cursor} {ds : List Cursor} {rs : List Trace}
    (h : ds.length = rs.length) :
    (List.zipWith (fun d r ↦ if d = c then r.mark else r) ds rs).map Trace.insertion =
      rs.map Trace.insertion := by
  induction ds generalizing rs with
  | nil => rw [List.length_eq_zero_iff.mp h.symm, List.zipWith_nil_right]
  | cons d ds ih =>
    cases rs with
    | nil => cases h
    | cons r rs =>
      rw [List.zipWith_cons_cons, List.map_cons, ih (Nat.succ.inj h), List.map_cons]
      split_ifs <;> rfl

theorem Traced.mark {c : Cursor} (h : t.Traced kept traces) (hlinked : t.Linked)
    (hc : t.Stands c) : (c.setMatched t).Traced kept (markAt t c traces) := by
  have hlinked' := hlinked.of_sameChains (sameChains_mark t c)
  have hentries : ∀ p, (bucketAt (c.setMatched t).buckets p).entries (c.setMatched t).arena =
      (markAt t c traces p).map Trace.entry := by
    intro p
    have hbefore := map_shows_ofBucket hlinked p
    have hafter := map_shows_ofBucket hlinked' p
    rw [h.entries_eq, List.map_map] at hbefore
    rw [ofBucket_setMatched, map_shows_setMatched hlinked hc, map_shows_markAt hbefore] at hafter
    refine List.map_injective_iff.mpr Entry.shows_injective ?_
    rw [← hafter, List.map_map]
    rfl
  refine ⟨hentries, ?_, ?_⟩
  · have hsame : (inOrder (markAt t c traces) t.buckets.size).map Trace.insertion =
        (inOrder traces t.buckets.size).map Trace.insertion := by
      rw [inOrder, inOrder, List.map_flatMap, List.map_flatMap]
      refine List.flatMap_congr fun p _ ↦ map_insertion_markAt ?_
      rw [length_ofBucket hlinked, h.entries_eq, List.length_map]
    rw [size_buckets_setMatched, hsame]
    exact h.kept_perm
  · rw [exists_marked_iff hlinked' hentries, cursors_setMatched]
    rcases hc with rfl | hc
    · change t.hasMatches = true ↔ ∃ d ∈ t.cursors, d.isMatched t = true
      rw [← exists_marked_iff hlinked h.entries_eq]
      exact h.hasMatches_iff
    · refine iff_of_true ?_ ⟨c, hc, ?_⟩
      · match c with
        | .atEnd => exact absurd rfl (ne_atEnd_of_mem_cursors hc)
        | .on _ (some _) => rfl
        | .on _ none => rfl
      · rw [isMatched_setMatched hlinked (Or.inr hc) hc, decide_eq_true rfl, Bool.true_or]

/-! ### Moving the buckets -/

/-- The traces go where the buckets go. The induction is on the buckets that are left. -/
theorem exists_foldlM_place_traces {mode : ProbingMode} {a : Arena}
    {rest : List (Bucket × List Trace)} {moved result : Array Bucket} {traces : Nat → List Trace}
    (hrest : ∀ x ∈ rest, x.1.entries a = x.2.map Trace.entry)
    (hmoved : ∀ q, (bucketAt moved q).entries a = (traces q).map Trace.entry)
    (h : (rest.map Prod.fst).foldlM (relocate.place mode) moved = some result) :
    ∃ traces', rest.foldlM (Trace.place mode) (moved, traces) = some (result, traces') ∧
      (∀ q, (bucketAt result q).entries a = (traces' q).map Trace.entry) ∧
      (inOrder traces' result.size).Perm (rest.flatMap Prod.snd ++ inOrder traces moved.size) := by
  induction rest generalizing moved traces with
  | nil =>
    obtain rfl : moved = result := Option.some.inj h
    exact ⟨traces, rfl, hmoved, List.Perm.refl _⟩
  | cons x rest ih =>
    obtain ⟨b, l⟩ := x
    have hb : b.entries a = l.map Trace.entry := hrest (b, l) List.mem_cons_self
    have hrest' := fun x hx ↦ hrest x (List.mem_cons_of_mem _ hx)
    rw [List.map_cons, List.foldlM_cons, relocate.place] at h
    rw [List.foldlM_cons, Trace.place, List.flatMap_cons]
    cases hhash : b.hash? with
    | none =>
      obtain rfl : b = .empty := Bucket.hash?_eq_none_iff.mp hhash
      obtain rfl : l = [] := List.map_eq_nil_iff.mp hb.symm
      rw [hhash] at h
      exact ih hrest' hmoved h
    | some hash =>
      have hanswers := Probe.answers_run mode moved hash fun _ ↦ false
      simp only [hhash] at h ⊢
      cases hresult : (Probe.run mode moved hash fun _ ↦ false).result with
      | found p => simp [hresult] at h
      | exhausted => simp [hresult] at h
      | vacant p =>
        rw [hresult] at h hanswers
        have hp := hanswers.reaches.lt_size
        have hunused : traces p = [] := by
          have hnone := hmoved p
          rw [hanswers.eq_empty] at hnone
          exact List.map_eq_nil_iff.mp hnone.symm
        have hmoved' : ∀ q, (bucketAt (moved.setIfInBounds p b) q).entries a =
            (put traces p l q).map Trace.entry := by
          intro q
          rw [bucketAt_setIfInBounds hp, put]
          split_ifs
          · exact hb
          · exact hmoved q
        obtain ⟨traces', hfold, hentries, hperm⟩ := ih hrest' hmoved' h
        have hput := inOrder_put_perm traces hp l
        rw [hunused, List.append_nil] at hput
        refine ⟨traces', hfold, hentries, hperm.trans ?_⟩
        rw [Array.size_setIfInBounds, List.append_assoc]
        exact (hput.append_left _).trans (List.perm_append_comm_assoc _ _ _)

/-- A table whose buckets were moved has the traces that were moved with them. -/
theorem Traced.relocate (h : t.Traced kept traces) {size : Nat} {buckets : Array Bucket}
    (hmoved : Table.relocate t.probing t.buckets size = some buckets) :
    ∃ traces', Trace.relocate t.probing t.buckets traces size = some (buckets, traces') ∧
      { t with buckets, resizes := t.resizes + 1 }.Traced kept traces' := by
  let pairs := (List.range t.buckets.size).map fun p ↦ (bucketAt t.buckets p, traces p)
  have hpairs : ∀ x ∈ pairs, x.1.entries t.arena = x.2.map Trace.entry := by
    intro x hx
    obtain ⟨p, -, rfl⟩ := List.mem_map.mp hx
    exact h.entries_eq p
  have hfirst : pairs.map Prod.fst = t.buckets.toList := by
    rw [List.map_map, toList_eq_map_bucketAt]
    rfl
  have hsecond : pairs.flatMap Prod.snd = inOrder traces t.buckets.size := by
    rw [List.flatMap_map]
    rfl
  have hstart : ∀ q, (bucketAt (Array.replicate size .empty) q).entries t.arena =
      ([] : List Trace).map Trace.entry := fun q ↦ by
    rw [bucketAt_replicate]
    rfl
  rw [relocate_eq_foldlM, ← hfirst] at hmoved
  obtain ⟨traces', hfold, hentries, hperm⟩ := exists_foldlM_place_traces hpairs hstart hmoved
  rw [hsecond, Array.size_replicate, inOrder_nil, List.append_nil] at hperm
  refine ⟨traces', hfold, hentries, (hperm.map _).trans h.kept_perm, ?_⟩
  change t.hasMatches = true ↔ _
  rw [h.hasMatches_iff]
  simp [hperm.mem_iff]

end Table

end JoinIndex
