import JoinIndex.Proofs.Representation
import JoinIndex.Proofs.Session.Inserting
import JoinIndex.Proofs.Session.Traces

/-!
Marks over whole runs. A watched session keeps the traces of the accepted insertions beside the
table: an insertion adds one, a cursor that is asked to mark its row has the trace at its position
remember it, a resize moves the traces with the buckets, and clearing the table drops them. The
table knows nothing of them. After every run its rows have the marks that the traces ask for, and
the walk over the rows without a mark and the flag of the table agree with the marks.
-/

set_option autoImplicit false
set_option relaxedAutoImplicit false

namespace JoinIndex

namespace Trace

/-- The marks that a walk sets, one after the other. -/
def markAlong (c : Cursor) (t : Table) (rows : RowStore) (traces : Nat → List Trace) :
    List Cursor.Step → Nat → List Trace
  | [] => traces
  | step :: steps =>
    let traces := if step = .mark then markAt t c traces else traces
    let (_, c, t) := c.take t rows step
    markAlong c t rows traces steps

/-- The traces after the buckets were moved, at the places that they have then. -/
def carry (t : Table) (traces : Nat → List Trace) (size : Nat) : Nat → List Trace :=
  ((relocate t.probing t.buckets traces size).map Prod.snd).getD traces

end Trace

namespace Table

open Trace

variable {t : Table} {kept : List Insertion} {traces : Nat → List Trace}

/-- The induction is on the steps: each leaves the cursor standing. -/
theorem Traced.walk {c : Cursor} (h : t.Traced kept traces) (hlinked : t.Linked)
    (hc : t.Stands c) (rows : RowStore) (steps : List Cursor.Step) :
    (c.walk t rows steps).2.Traced kept (markAlong c t rows traces steps) := by
  induction steps generalizing c t traces with
  | nil => exact h
  | cons step steps ih =>
    cases step with
    | advance way => exact ih h hlinked (hc.advance hlinked way)
    | mark =>
      exact ih (h.mark hlinked hc) (hlinked.of_sameChains (sameChains_mark t c))
        (hc.setMatched c)
    | row => exact ih h hlinked hc
    | ref => exact ih h hlinked hc
    | readAll => exact ih h hlinked t.stands_atEnd

theorem Traced.resized {budget : Budget} {size : Nat} {o : Outcome (Except Error Unit)}
    (h : t.Traced kept traces) (hresized : Resized t budget size o) :
    o.table.Traced kept (if o.table.resizes = t.resizes then traces else
      carry t traces o.table.buckets.size) := by
  cases hresized with
  | moved buckets _ _ _ _ hmoved =>
    obtain ⟨traces', hrelocate, htraced⟩ := h.relocate hmoved
    have hcarry : carry t traces buckets.size = traces' := by
      rw [carry, (relocate_eq_some hmoved).1, hrelocate]
      rfl
    rw [if_neg (Nat.succ_ne_self t.resizes), hcarry]
    exact htraced
  | _ =>
    rw [if_pos rfl]
    exact h

end Table

namespace Session

open Table Trace

variable {s next : Session} {traces : Nat → List Trace}

/-- A session with the traces of the insertions that it keeps. -/
structure Watched where
  session : Session
  traces : Nat → List Trace

/-- The traces after an insertion: a new one at the place that the search answers, if the row was
taken in. -/
def tracesTaken (s : Session) (traces : Nat → List Trace) (context : KeyContext) (row : RowRef)
    (hash : UInt32) : Nat → List Trace :=
  if (s.table.insert s.budget s.rows context row hash).answer then
    match (s.table.probe (context.holds s.rows) hash).1 with
    | .vacant p => add traces p ⟨⟨row, row.resolve s.rows, context, hash⟩, false⟩
    | .found p => add traces p ⟨⟨row, row.resolve s.rows, context, hash⟩, false⟩
    | .exhausted => traces
  else traces

/-- The traces after an operation that has led from a session to the next one. -/
def tracesAfter (s next : Session) (traces : Nat → List Trace) : Op → Nat → List Trace
  | .insert context row hash => s.tracesTaken traces context row hash
  | .walk start steps => markAlong (s.place start).1 (s.place start).2 s.rows traces steps
  | .resize _ | .makeRoom _ =>
    if next.table.resizes = s.table.resizes then traces
    else carry s.table traces next.table.buckets.size
  | .clear => fun _ ↦ []
  | .probe _ _ | .append _ _ | .charge _ | .giveBack _ => traces

namespace Watched

def step (w : Watched) (op : Op) : Except Fault Watched := do
  let next ← w.session.step op
  return ⟨next, w.session.tracesAfter next w.traces op⟩

def run (w : Watched) (ops : List Op) : Except Fault Watched :=
  ops.foldlM step w

/-- The table is intact, and its rows have the marks that the traces ask for. -/
structure Exact (w : Watched) : Prop where
  intact : w.session.table.Intact
  traced : w.session.table.arena.Addressable → w.session.table.Traced w.session.kept w.traces

end Watched

/-- A session without rows is watched from here on. -/
def watch (s : Session) : Watched :=
  ⟨s, fun _ ↦ []⟩

/-! ### What one operation does to the traces -/

theorem traced_insert {context : KeyContext} {row : RowRef} {hash : UInt32}
    (hintact : s.table.Intact) (h : s.table.Traced s.kept traces)
    (haddr : (s.table.insert s.budget s.rows context row hash).table.arena.Addressable) :
    let o := s.table.insert s.budget s.rows context row hash
    o.table.Traced
      (if o.answer then ⟨row, row.resolve s.rows, context, hash⟩ :: s.kept else s.kept)
      (s.tracesTaken traces context row hash) := by
  have hins := insert_inserted s.table s.budget s.rows context row hash
  have hlinked := hintact.linked (hins.addressable haddr)
  dsimp only
  rw [tracesTaken]
  cases hanswer : (s.table.insert s.budget s.rows context row hash).answer with
  | false =>
    obtain ⟨htable, -⟩ := hins.unchanged hanswer
    rw [htable]
    exact h.congr rfl rfl rfl
  | true =>
    have hanswers : Probe.Answers s.table.probing s.table.buckets hash
        (s.table.holdsKey (context.holds s.rows))
        (s.table.probe (context.holds s.rows) hash).1 := Probe.answers_run _ _ _ _
    obtain ⟨p, hp, hplaced⟩ := hins.exists_placed hanswer hintact haddr
    rw [if_pos rfl, if_pos rfl]
    rcases hp with hp | hp
    · rw [Probe.answers_unique hanswers hp]
      exact h.add hlinked hplaced hins.hasMatches_eq
    · rw [Probe.answers_unique hanswers hp]
      exact h.add hlinked hplaced hins.hasMatches_eq

theorem traced_walk (hintact : s.table.Intact) (h : s.table.Traced s.kept traces)
    (haddr : s.table.arena.Addressable) (start : Start) (steps : List Cursor.Step) :
    ((s.place start).1.walk (s.place start).2 s.rows steps).2.Traced s.kept
      (markAlong (s.place start).1 (s.place start).2 s.rows traces steps) := by
  obtain ⟨hmoves, -, -, hpages⟩ := s.place_changes start
  have hlinked : (s.place start).2.Linked := (hmoves.intact hintact).linked (by
    rw [Arena.Addressable, hpages]
    exact haddr)
  have hplaced : (s.place start).2.Traced s.kept traces := by
    cases start with
    | find context hash =>
      obtain ⟨probe, -, heq⟩ := find_eq s.table s.rows context hash
      rw [place, heq]
      exact h.congr rfl rfl rfl
    | first => exact h
    | firstUnmatched => exact h
  exact hplaced.walk hlinked (stands_place (hintact.linked haddr) start) s.rows steps

/-- What traces say of a session, they say of the next one as `tracesAfter` has them. -/
theorem traced_step {op : Op} (hsolvent : s.Solvent) (hintact : s.table.Intact)
    (h : s.table.arena.Addressable → s.table.Traced s.kept traces) (hnext : s.step op = .ok next)
    (haddr : next.table.arena.Addressable) :
    next.table.Traced next.kept (s.tracesAfter next traces op) := by
  have hbuckets : bucketBytes s.table.buckets.size ≤ s.budget.consumed :=
    (Nat.le_add_right _ _).trans hsolvent
  cases op with
  | insert context row hash =>
    obtain rfl := Except.ok.inj hnext
    have hins := insert_inserted s.table s.budget s.rows context row hash
    exact traced_insert hintact (h (hins.addressable haddr)) haddr
  | probe context? hash =>
    obtain rfl := Except.ok.inj hnext
    exact (h haddr).congr rfl rfl rfl
  | walk start steps =>
    obtain rfl := Except.ok.inj hnext
    have hpages : ((s.place start).1.walk (s.place start).2 s.rows steps).2.arena.pages.size =
        s.table.arena.pages.size :=
      (size_pages_walk _ _ _ _).trans (s.place_changes start).2.2.2
    have haddr : s.table.arena.Addressable := by
      rw [Arena.Addressable, ← hpages]
      exact haddr
    exact traced_walk hintact (h haddr) haddr start steps
  | resize size =>
    obtain ⟨o, ho, hresized⟩ := exists_resize_eq_ok size hbuckets
    rw [Session.step, ho] at hnext
    obtain rfl := Except.ok.inj hnext
    have hpages := hresized.arena_eq
    exact (h (hpages ▸ haddr)).resized hresized
  | makeRoom more =>
    obtain ⟨o, ho, hcases⟩ := exists_makeRoom_eq_ok more hbuckets
    rw [Session.step, ho] at hnext
    obtain rfl := Except.ok.inj hnext
    rcases hcases with ⟨htable, -⟩ | ⟨size, hresized⟩
    · change o.table.Traced s.kept (if o.table.resizes = s.table.resizes then traces
        else carry s.table traces o.table.buckets.size)
      rw [htable, if_pos rfl]
      exact h (htable ▸ haddr)
    · have hpages := hresized.arena_eq
      exact (h (hpages ▸ haddr)).resized hresized
  | clear =>
    have harena : s.table.arena.byteSize ≤ s.budget.consumed :=
      (Nat.le_add_left _ _).trans hsolvent
    rw [Session.step, clear_eq_ok harena] at hnext
    obtain rfl := Except.ok.inj hnext
    exact traced_of_empty (fun p ↦ bucketAt_replicate _ p) rfl
  | append row paid =>
    obtain rfl := Except.ok.inj hnext
    exact h haddr
  | charge bytes =>
    obtain rfl := Except.ok.inj hnext
    exact h haddr
  | giveBack bytes =>
    rw [Session.step] at hnext
    cases hback : s.budget.release (min bytes (s.budget.consumed - s.table.byteSize)) with
    | error fault =>
      rw [hback] at hnext
      cases hnext
    | ok budget =>
      rw [hback] at hnext
      obtain rfl := Except.ok.inj hnext
      exact h haddr

namespace Watched

variable {w : Watched}

/-- One operation on a watched session is that operation on the session. -/
theorem exists_step_exact (hsolvent : w.session.Solvent) (h : w.Exact) (op : Op) :
    ∃ w', w.step op = .ok w' ∧ w.session.step op = .ok w'.session ∧ w'.session.Solvent ∧
      w'.Exact := by
  obtain ⟨next, hnext, hchanges, hsolvent'⟩ := exists_step_eq_ok hsolvent op
  refine ⟨⟨next, w.session.tracesAfter next w.traces op⟩, ?_, hnext, hsolvent',
    hchanges.intact h.intact, traced_step hsolvent h.intact h.traced hnext⟩
  rw [step, hnext]
  rfl

theorem exists_run_exact (hsolvent : w.session.Solvent) (h : w.Exact) (ops : List Op) :
    ∃ w', w.run ops = .ok w' ∧ w.session.run ops = .ok w'.session ∧ w'.Exact := by
  induction ops generalizing w with
  | nil => exact ⟨w, rfl, rfl, h⟩
  | cons op ops ih =>
    obtain ⟨next, hnext, hsession, hsolvent', hexact⟩ := exists_step_exact hsolvent h op
    obtain ⟨w', hw', hrun, hend⟩ := ih hsolvent' hexact
    refine ⟨w', ?_, (run_cons hsession ops).trans hrun, hend⟩
    rw [run, List.foldlM_cons, hnext]
    exact hw'

end Watched

theorem exact_create {config : Config} {stored : Bool} {budget : Budget} {rows : RowStore}
    (h : create config stored budget rows = .ok s) : s.watch.Exact := by
  refine ⟨intact_create h, fun _ ↦ ?_⟩
  obtain ⟨-, -, rfl⟩ := create_eq_ok h
  exact traced_of_empty (fun p ↦ bucketAt_replicate _ p) rfl

/-- After any operations on a new table, a scan meets the rows of the insertions that were kept,
each at one position, and a row has a mark if its trace remembers one and not otherwise: if some
cursor on the row was asked to mark it since. From the first row without a mark on, a walk over such
rows meets all of them in the order of the scan, and then the end. The table says that it has marks
when some row has one. -/
theorem run_marks_exact {config : Config} {stored : Bool} {budget : Budget} {rows : RowStore}
    (h : create config stored budget rows = .ok s) (ops : List Op) :
    ∃ w, s.watch.run ops = .ok w ∧ s.run ops = .ok w.session ∧
      (w.session.table.arena.Addressable →
        let t := w.session.table
        let scan := t.first.positions t .next
        let traces := inOrder w.traces t.buckets.size
        (traces.map Trace.insertion).Perm w.session.kept ∧
        scan.Nodup ∧
        scan.map (fun c ↦ (c.ref? t, c.isMatched t)) =
          traces.map (fun r ↦ (some r.insertion.ref, r.marked)) ∧
        (∀ count, t.firstUnmatched.positionsUpTo t .unmatched count =
          (scan.filter fun c ↦ !c.isMatched t).take count) ∧
        (t.hasMatches = true ↔ ∃ c ∈ scan, c.isMatched t = true)) := by
  obtain ⟨w, hw, hrun, hexact⟩ :=
    Watched.exists_run_exact (w := s.watch) (solvent_create h) (exact_create h) ops
  refine ⟨w, hw, hrun, fun haddr ↦ ?_⟩
  have hlinked := hexact.intact.linked haddr
  have hsound := hexact.intact.sound
  have htraced := hexact.traced haddr
  have hscan := positions_first hlinked hsound
  dsimp only
  refine ⟨htraced.kept_perm, ?_, ?_, positionsUpTo_firstUnmatched hlinked hsound, ?_⟩
  · rw [hscan]
    exact nodup_cursors hlinked
  · rw [hscan]
    exact map_shows_cursors hlinked htraced.entries_eq
  · rw [hscan, htraced.hasMatches_iff]
    exact exists_marked_iff hlinked htraced.entries_eq

/-- In the small session a row was marked before its bucket was moved, and it is the first one of
the scan; the two rows with the other key are met by the walk over the rows without a mark. -/
theorem run_marks_exact_small :
    create (.linear 2) false (Budget.unlimited "small") (.new 1) = .ok smallStart ∧
      ∃ w, smallStart.watch.run smallOps = .ok w ∧ smallStart.run smallOps = .ok w.session ∧
        let t := w.session.table
        t.arena.Addressable ∧ t.hasMatches = true ∧
        (t.first.positions t .next).map (fun c ↦ (c.ref? t, c.isMatched t)) =
          [(some (intRow 1 2), true), (some (intRow 3 1), false), (some (intRow 0 1), false)] ∧
        (t.firstUnmatched.positionsUpTo t .unmatched 3).map (·.ref? t) =
          [some (intRow 3 1), some (intRow 0 1)] := by
  obtain ⟨w, hw, hrun, hend⟩ := run_marks_exact create_small smallOps
  have haddr : w.session.table.arena.Addressable := by
    rw [Arena.Addressable, (run_small hrun).2]
    decide
  have htraces : (smallStart.watch.run smallOps).map (fun w ↦
      (inOrder w.traces w.session.table.buckets.size).map fun r ↦
        (some r.insertion.ref, r.marked)) =
      .ok [(some (intRow 1 2), true), (some (intRow 3 1), false), (some (intRow 0 1), false)] := by
    cbv
  rw [hw] at htraces
  obtain ⟨-, -, hscan, hwalk, hmatches⟩ := hend haddr
  replace hscan := hscan.trans (Except.ok.inj htraces)
  refine ⟨create_small, w, hw, hrun, haddr, hmatches.mpr ?_, hscan, ?_⟩
  · have hmem := List.mem_cons_self (a := (some (intRow 1 2), true))
      (l := [(some (intRow 3 1), false), (some (intRow 0 1), false)])
    rw [← hscan] at hmem
    obtain ⟨c, hc, heq⟩ := List.mem_map.mp hmem
    exact ⟨c, hc, congrArg Prod.snd heq⟩
  · have hfilter : ∀ l : List Cursor,
        (l.filter fun c ↦ !c.isMatched w.session.table).map (·.ref? w.session.table) =
          ((l.map fun c ↦ (c.ref? w.session.table, c.isMatched w.session.table)).filter
            fun x ↦ !x.2).map Prod.fst := by
      intro l
      rw [List.filter_map, List.map_map]
      rfl
    rw [hwalk, List.map_take, hfilter, hscan]
    rfl

end Session

end JoinIndex
