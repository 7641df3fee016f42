import JoinIndex.Cursor.Walk
import JoinIndex.Proofs.Table.Related

/-!
Cursors on tables that differ in their references only. They stand on the same places, see the same
marks, and go the same ways; what they read are related references. So walks tell the tables apart
by references only, and not by the rows that these lead to.
-/

set_option autoImplicit false
set_option relaxedAutoImplicit false

namespace JoinIndex

variable {R : RowRef → RowRef → Prop} {t u : Table}

namespace Table.Related

theorem cursorAt_eq (h : Table.Related R t u) (p : ℕ) : t.cursorAt p = u.cursorAt p :=
  congrArg (Cursor.on p) (h.bucketAt p).head?_eq

theorem firstFilled?_eq (h : Table.Related R t u) (start count : ℕ) :
    t.firstFilled? start count = u.firstFilled? start count := by
  induction count generalizing start with
  | zero => rfl
  | succ count ih =>
    have hfilled : (t.buckets.getD start .empty).isFilled =
      (u.buckets.getD start .empty).isFilled := (h.bucketAt start).isFilled_eq
    rw [firstFilled?, firstFilled?, hfilled, ih]

theorem seek_eq (h : Table.Related R t u) (start : ℕ) : t.seek start = u.seek start := by
  rw [seek, seek, h.size_eq, h.firstFilled?_eq]
  cases u.firstFilled? start (u.buckets.size - start) with
  | none => rfl
  | some p => exact h.cursorAt_eq p

theorem nextNode?_eq (h : Table.Related R t u) (c : Cursor) : c.nextNode? t = c.nextNode? u := by
  match c with
  | .atEnd => rfl
  | .on _ none => rfl
  | .on _ (some node) => exact bind_eq_of_optionRel (fun _ _ hn ↦ hn.next_eq) (h.arena.get? node)

theorem next_eq (h : Table.Related R t u) (c : Cursor) : c.next t = c.next u := by
  cases c with
  | atEnd => rfl
  | on p node => rw [Cursor.next, Cursor.next, h.nextNode?_eq, h.seek_eq]

theorem nextDuplicate_eq (h : Table.Related R t u) (c : Cursor) :
    c.nextDuplicate t = c.nextDuplicate u := by
  cases c with
  | atEnd => rfl
  | on p node => rw [Cursor.nextDuplicate, Cursor.nextDuplicate, h.nextNode?_eq]

theorem isMatched_eq (h : Table.Related R t u) (c : Cursor) : c.isMatched t = c.isMatched u := by
  match c with
  | .atEnd => rfl
  | .on _ (some node) =>
    exact any_eq_of_optionRel (fun _ _ hn ↦ hn.matched_eq) (h.arena.get? node)
  | .on p none =>
    have hbucket : Bucket.Related R (t.buckets.getD p .empty) (u.buckets.getD p .empty) :=
      h.bucketAt p
    rw [Cursor.isMatched, Cursor.isMatched]
    generalize t.buckets.getD p .empty = b at hbucket
    generalize u.buckets.getD p .empty = b' at hbucket
    cases hbucket <;> rfl

theorem skipMatched_eq (h : Table.Related R t u) (c : Cursor) (steps : ℕ) :
    c.skipMatched t steps = c.skipMatched u steps := by
  induction steps generalizing c with
  | zero => rfl
  | succ steps ih =>
    rw [Cursor.skipMatched, Cursor.skipMatched, h.isMatched_eq, h.next_eq, ih]

theorem advance_eq (h : Table.Related R t u) (c : Cursor) (way : Cursor.Advance) :
    c.advance t way = c.advance u way := by
  cases way with
  | next => exact h.next_eq c
  | duplicate => exact h.nextDuplicate_eq c
  | unmatched =>
    rw [Cursor.advance, Cursor.advance, Cursor.nextUnmatched, Cursor.nextUnmatched, h.next_eq,
      h.entries_eq, h.skipMatched_eq]

theorem positions_eq (h : Table.Related R t u) (c : Cursor) (way : Cursor.Advance) :
    c.positions t way = c.positions u way := by
  have hupTo : ∀ (count : ℕ) (c : Cursor),
      c.positionsUpTo t way count = c.positionsUpTo u way count := by
    intro count
    induction count with
    | zero => exact fun _ ↦ rfl
    | succ count ih =>
      intro c
      cases c with
      | atEnd => rfl
      | on p node => rw [Cursor.positionsUpTo, Cursor.positionsUpTo, h.advance_eq, ih]
  rw [Cursor.positions, Cursor.positions, h.entries_eq, hupTo]

theorem view_eq (h : Table.Related R t u) (c : Cursor) : c.view t = c.view u := by
  have hhash : c.hash? t = c.hash? u := by
    cases c with
    | atEnd => rfl
    | on p node => exact (h.bucketAt p).hash?_eq
  rw [Cursor.view, Cursor.view, hhash, h.isMatched_eq]

theorem ref? (h : Table.Related R t u) (c : Cursor) : Option.Rel R (c.ref? t) (c.ref? u) := by
  match c with
  | .atEnd => exact .none
  | .on _ (some node) => exact optionRel_map (fun _ _ hn ↦ hn.row) (h.arena.get? node)
  | .on p none => exact h.arena.firstRow? (h.bucketAt p)

theorem setMatched (h : Table.Related R t u) (c : Cursor) :
    Table.Related R (c.setMatched t) (c.setMatched u) := by
  match c with
  | .atEnd => exact h
  | .on _ (some node) => exact { h with arena := h.arena.setMatched node, hasMatches_eq := rfl }
  | .on p none =>
    exact { h with
      buckets := h.buckets.modify p fun _ _ hb ↦ hb.setMatched
      hasMatches_eq := rfl }

theorem find (h : Table.Related R t u) {rows rows' : RowStore} {context : KeyContext}
    (hkey : ∀ d i, R d i → context.holds rows d = context.holds rows' i) (hash : UInt32) :
    (t.find rows context hash).1 = (u.find rows' context hash).1 ∧
      Table.Related R (t.find rows context hash).2 (u.find rows' context hash).2 := by
  rw [Table.find, Table.find]
  obtain ⟨hresult, htable⟩ := h.probe hkey hash
  generalize t.probe (context.holds rows) hash = r at *
  generalize u.probe (context.holds rows') hash = r' at *
  obtain ⟨result, searched⟩ := r
  obtain ⟨result', searched'⟩ := r'
  obtain rfl : result = result' := hresult
  cases result with
  | found p => exact ⟨htable.cursorAt_eq p, htable⟩
  | vacant => exact ⟨rfl, htable⟩
  | exhausted => exact ⟨rfl, htable⟩

theorem firstUnmatched_eq (h : Table.Related R t u) : t.firstUnmatched = u.firstUnmatched := by
  rw [firstUnmatched, firstUnmatched, first, first, h.seek_eq, h.entries_eq, h.skipMatched_eq]

/-! ### Walks -/

/-- Related references lead to one row, so that a key has that row in both tables or in none. -/
theorem holds_eq {rows rows' : RowStore}
    (hresolve : ∀ d i, R d i → d.resolve rows = i.resolve rows') (context : KeyContext)
    {d i : RowRef} (hrow : R d i) : context.holds rows d = context.holds rows' i := by
  rw [KeyContext.holds, KeyContext.holds, hresolve d i hrow]

theorem row?_eq (h : Table.Related R t u) {rows rows' : RowStore}
    (hresolve : ∀ d i, R d i → d.resolve rows = i.resolve rows') (c : Cursor) :
    c.row? t rows = c.row? u rows' :=
  bind_eq_of_optionRel hresolve (h.ref? c)

end Table.Related

namespace Cursor

/-- What a step reads, a reference being told by the row that it leads to. -/
inductive Content where
  | nothing
  | row (row? : Option Row)
  | all (rows : List (Option ℕ × Bool × Option Row))
  deriving DecidableEq

def Reading.content (rows : RowStore) : Reading → Content
  | .nothing => .nothing
  | .row row? => .row row?
  | .ref ref? => .row (ref?.bind (·.resolve rows))
  | .all sightings => .all (sightings.map fun s ↦ (s.bucket?, s.matched, s.row?))

/-- What a walk shows and reads at each of its steps. -/
def told (c : Cursor) (t : Table) (rows : RowStore) (steps : List Step) : List (View × Content) :=
  (c.walk t rows steps).1.map fun (view, reading) ↦ (view, reading.content rows)

theorem told_cons (c : Cursor) (t : Table) (rows : RowStore) (step : Step) (steps : List Step) :
    c.told t rows (step :: steps) =
      ((c.take t rows step).2.1.view (c.take t rows step).2.2,
        (c.take t rows step).1.content rows) ::
          (c.take t rows step).2.1.told (c.take t rows step).2.2 rows steps :=
  rfl

theorem snd_walk_cons (c : Cursor) (t : Table) (rows : RowStore) (step : Step)
    (steps : List Step) :
    (c.walk t rows (step :: steps)).2 =
      ((c.take t rows step).2.1.walk (c.take t rows step).2.2 rows steps).2 :=
  rfl

end Cursor

namespace Table.Related

variable {rows rows' : RowStore} (hresolve : ∀ d i, R d i → d.resolve rows = i.resolve rows')

include hresolve

theorem take (h : Table.Related R t u) (c : Cursor) (step : Cursor.Step) :
    (c.take t rows step).1.content rows = (c.take u rows' step).1.content rows' ∧
      (c.take t rows step).2.1 = (c.take u rows' step).2.1 ∧
        Table.Related R (c.take t rows step).2.2 (c.take u rows' step).2.2 := by
  cases step with
  | advance way => exact ⟨rfl, h.advance_eq c way, h⟩
  | mark => exact ⟨rfl, rfl, h.setMatched c⟩
  | row => exact ⟨congrArg Cursor.Content.row (h.row?_eq hresolve c), rfl, h⟩
  | ref => exact ⟨congrArg Cursor.Content.row (h.row?_eq hresolve c), rfl, h⟩
  | readAll way =>
    refine ⟨congrArg Cursor.Content.all ?_, rfl, h⟩
    rw [List.map_map, List.map_map, h.positions_eq]
    refine List.map_congr_left fun d _ ↦ ?_
    show (d.bucket?, d.isMatched t, d.row? t rows) = (d.bucket?, d.isMatched u, d.row? u rows')
    rw [h.isMatched_eq, h.row?_eq hresolve]

theorem walk (h : Table.Related R t u) (c : Cursor) (steps : List Cursor.Step) :
    c.told t rows steps = c.told u rows' steps ∧
      Table.Related R (c.walk t rows steps).2 (c.walk u rows' steps).2 := by
  induction steps generalizing c t u with
  | nil => exact ⟨rfl, h⟩
  | cons step steps ih =>
    obtain ⟨hcontent, hcursor, htable⟩ := h.take hresolve c step
    obtain ⟨hrest, hend⟩ := ih htable (c.take u rows' step).2.1
    rw [Cursor.told_cons, Cursor.told_cons, Cursor.snd_walk_cons, Cursor.snd_walk_cons, hcontent,
      hcursor, htable.view_eq, hrest]
    exact ⟨rfl, hend⟩

end Table.Related

end JoinIndex
