import JoinIndex.Proofs.Cursor.Positions
import JoinIndex.Proofs.Session.Keys

/-!
The table as a multimap from keys to rows. Under any hash function that does not tell apart keys
that are the same, a search for a key leads to the accepted rows with that key, the latest first,
and to nothing else. Neither the bucket count, the probing mode, the collisions nor the operations
between the insertions and the search can be seen in the answer.
-/

set_option autoImplicit false
set_option relaxedAutoImplicit false

namespace JoinIndex.Session

open Table Insertion

variable {s : Session} {exprs : List KeyExpr}

/-- The rows kept under keys that are the same as this one, the latest first. -/
def rowsFor (s : Session) (key : List Value) : List RowRef :=
  (s.kept.filter fun i ↦ Row.sameValues i.key key).map ref

theorem rowsFor_eq_nil {key : List Value}
    (h : ∀ i ∈ s.kept, Row.sameValues i.key key = false) : s.rowsFor key = [] := by
  have hnone : (s.kept.filter fun i ↦ Row.sameValues i.key key) = [] :=
    List.filter_eq_nil_iff.mpr fun i hi ↦ by simp [h i hi]
  rw [rowsFor, hnone]
  rfl

/-- Under a hash of the key the rows with a key are one class. -/
theorem classOf_eq_rowsFor {hashOf : KeyHash} {r : Insertion} {key : List Value}
    (hhash : ∀ i ∈ s.kept, i.hash = hashOf.toFun i.key) (hr : r ∈ s.kept)
    (hsame : Row.sameValues r.key key = true) : (r.classOf s.kept).2 = s.rowsFor key := by
  refine congrArg (List.map ref) (List.filter_congr fun i hi ↦ ?_)
  rw [Bool.eq_iff_iff, alike_iff]
  constructor
  · rintro ⟨-, hri⟩
    exact Row.sameValues_trans (Row.sameValues_symm hri) hsame
  · intro hi'
    have hri : Row.sameValues r.key i.key = true :=
      Row.sameValues_trans hsame (Row.sameValues_symm hi')
    refine ⟨?_, hri⟩
    rw [hhash r hr, hhash i hi]
    exact hashOf.eq_of_same _ _ hri

theorem positionsUpTo_atEnd (t : Table) (way : Cursor.Advance) (count : Nat) :
    Cursor.positionsUpTo .atEnd t way count = [] := by
  cases count <;> rfl

/-- A key whose search leads to no bucket was not kept. -/
theorem rowsFor_eq_nil_of_not_found {hashOf : KeyHash} {context : KeyContext}
    {result : ProbeResult} {reps : List Insertion} (h : InOrder exprs s)
    (haddr : s.table.arena.Addressable) (hkeyed : s.KeyedBy exprs)
    (hhash : ∀ i ∈ s.kept, i.hash = hashOf.toFun i.key) (hasks : Asks exprs context)
    (hclasses : Classes s.table.shapes s.kept reps)
    (hanswers : Probe.Answers s.table.probing s.table.buckets (hashOf.toFun context.key)
      (s.table.holdsKey (context.holds s.rows)) result)
    (hresult : ∀ p, result ≠ .found p) : s.rowsFor context.key = [] := by
  refine rowsFor_eq_nil fun i hi ↦ ?_
  rw [Bool.eq_false_iff]
  intro hsame
  obtain ⟨r, hr, hri⟩ := hclasses.exists_alike i hi
  have hrsame := Row.sameValues_trans (alike_iff.mp hri).2 hsame
  have hrhash : r.hash = hashOf.toFun context.key :=
    (hhash r (hclasses.mem r hr)).trans (hashOf.eq_of_same _ _ hrsame)
  obtain ⟨p, hp⟩ := exists_found_of_rep h.persistent hkeyed (h.intact.linked haddr)
    h.intact.sound hasks hclasses hanswers hr hrhash hrsame
  exact hresult p hp

/-- The way from a found bucket to the end, after the search. -/
theorem map_ref?_cursorAt (h : InOrder exprs s) (haddr : s.table.arena.Addressable)
    (probe : Probe) {p : Nat} (hfilled : (bucketAt s.table.buckets p).isFilled = true)
    (count : Nat) :
    ((s.table.cursorAt p).positionsUpTo (s.table.searched probe) .duplicate count).map
        (·.ref? (s.table.searched probe)) =
      (((bucketAt s.table.buckets p).group s.table.arena).refs.map some).take count := by
  have hsearched : (s.table.searched probe).Linked :=
    ((Move.search probe).intact h.intact).linked haddr
  have hwalk : (s.table.cursorAt p).positionsUpTo (s.table.searched probe) .duplicate count =
      (Cursor.ofBucket s.table.arena p (bucketAt s.table.buckets p)).take count :=
    positionsUpTo_cursorAt hsearched hfilled count
  have hrefs : (Cursor.ofBucket s.table.arena p (bucketAt s.table.buckets p)).map
      (·.ref? (s.table.searched probe)) =
        ((bucketAt s.table.buckets p).group s.table.arena).refs.map some :=
    Cursor.map_ref?_ofBucket (t := s.table.searched probe) (hsearched.links_bucketAt p)
  rw [hwalk, List.map_take, hrefs]

/-- What a search for a key leads to, in a session that is in order. -/
theorem map_ref?_find {hashOf : KeyHash} {context : KeyContext} (h : InOrder exprs s)
    (haddr : s.table.arena.Addressable) (hkeyed : s.KeyedBy exprs)
    (hhash : ∀ i ∈ s.kept, i.hash = hashOf.toFun i.key) (hasks : Asks exprs context)
    (count : Nat) :
    let found := s.table.find s.rows context (hashOf.toFun context.key)
    (found.1.positionsUpTo found.2 .duplicate count).map (·.ref? found.2) =
      ((s.rowsFor context.key).map some).take count := by
  obtain ⟨reps, hclasses⟩ := h.grouped haddr hkeyed
  obtain ⟨probe, hanswers, heq⟩ :=
    find_eq s.table s.rows context (hashOf.toFun context.key)
  have hnone := rowsFor_eq_nil_of_not_found h haddr hkeyed hhash hasks hclasses hanswers
  dsimp only
  rw [heq]
  dsimp only
  cases hresult : probe.result with
  | vacant p =>
    rw [hnone (by simp [hresult]), positionsUpTo_atEnd, List.map_nil, List.map_nil, List.take_nil]
  | exhausted =>
    rw [hnone (by simp [hresult]), positionsUpTo_atEnd, List.map_nil, List.map_nil, List.take_nil]
  | found p =>
    rw [hresult] at hanswers
    obtain ⟨r, hr, hshape, -, hsame⟩ := exists_rep_of_answers_found h.persistent hkeyed
      (h.intact.linked haddr) hasks hclasses hanswers
    have hfilled := hanswers.isFilled
    have hrefs : ((bucketAt s.table.buckets p).group s.table.arena).refs =
        s.rowsFor context.key :=
      (congrArg Prod.snd hshape).trans (classOf_eq_rowsFor hhash (hclasses.mem r hr) hsame)
    rw [← hrefs]
    exact map_ref?_cursorAt h haddr probe hfilled count

/-- No more rows have one key than there are rows. -/
theorem length_rowsFor_le {hashOf : KeyHash} (h : InOrder exprs s)
    (haddr : s.table.arena.Addressable) (hkeyed : s.KeyedBy exprs)
    (hhash : ∀ i ∈ s.kept, i.hash = hashOf.toFun i.key) (key : List Value) :
    (s.rowsFor key).length ≤ s.table.entries := by
  rw [← length_refs (h.intact.linked haddr) h.intact.sound]
  by_cases hnone : ∀ i ∈ s.kept, Row.sameValues i.key key = false
  · rw [rowsFor_eq_nil hnone]
    exact Nat.zero_le _
  · push Not at hnone
    obtain ⟨i, hi, hsame⟩ := hnone
    rw [Bool.ne_false_iff] at hsame
    obtain ⟨reps, hclasses⟩ := h.grouped haddr hkeyed
    obtain ⟨r, hr, hri⟩ := hclasses.exists_alike i hi
    have hrows := classOf_eq_rowsFor hhash (hclasses.mem r hr)
      (Row.sameValues_trans (alike_iff.mp hri).2 hsame)
    rw [← hrows, refs, List.length_flatMap]
    exact List.le_sum_of_mem (List.mem_map_of_mem (hclasses.classOf_mem hr))

/-- What is met on the way from a found row to the end. -/
theorem map_ref?_positions_find {hashOf : KeyHash} {context : KeyContext} (h : InOrder exprs s)
    (haddr : s.table.arena.Addressable) (hkeyed : s.KeyedBy exprs)
    (hhash : ∀ i ∈ s.kept, i.hash = hashOf.toFun i.key) (hasks : Asks exprs context) :
    let found := s.table.find s.rows context (hashOf.toFun context.key)
    (found.1.positions found.2 .duplicate).map (·.ref? found.2) =
      (s.rowsFor context.key).map some := by
  have hle := length_rowsFor_le h haddr hkeyed hhash context.key
  have hentries : (s.table.find s.rows context (hashOf.toFun context.key)).2.entries =
      s.table.entries := by
    obtain ⟨probe, -, heq⟩ := find_eq s.table s.rows context (hashOf.toFun context.key)
    rw [heq]
    rfl
  have hwalk := map_ref?_find h haddr hkeyed hhash hasks s.table.entries
  rw [List.take_of_length_le (by rwa [List.length_map])] at hwalk
  dsimp only
  rw [Cursor.positions, hentries]
  exact hwalk

theorem length_eq_of_ofConfig {config : Config} {buildExprs probeExprs : List KeyExpr}
    {base : KeyContext} (h : KeyContext.ofConfig config buildExprs probeExprs = .ok base) :
    probeExprs.length = buildExprs.length :=
  (KeyContext.ofConfig_eq_ok h).1

/-- After any operations on a new table, no operation has faulted, and while every accepted
insertion since the last clear was made with the key of its row and under its hash, a search for
the probe key of a row, under its hash, leads to the rows that were kept with that key: one after
the other from the latest to the first, and then to the end. -/
theorem run_find_eq_rowsFor {config : Config} {stored : Bool} {budget : Budget}
    {rows : RowStore} {buildExprs probeExprs : List KeyExpr} {base : KeyContext}
    (hcreate : create config stored budget rows = .ok s)
    (hcontext : KeyContext.ofConfig config buildExprs probeExprs = .ok base) (hashOf : KeyHash)
    (ops : List Op) :
    ∃ s', s.run ops = .ok s' ∧ (s'.table.arena.Addressable → s'.KeyedBy buildExprs →
      (∀ i ∈ s'.kept, i.hash = hashOf.toFun i.key) →
      ∀ (context : KeyContext) (row : Row), context.buildExprs = buildExprs →
        context.probeExprs = probeExprs →
        let probed := (context.evaluateProbe row).1
        let found := s'.table.find s'.rows probed (hashOf.toFun probed.key)
        ∀ count, (found.1.positionsUpTo found.2 .duplicate count).map (·.ref? found.2) =
          ((s'.rowsFor probed.key).map some).take count) := by
  obtain ⟨s', hrun, -, hinOrder⟩ := exists_run_eq_ok (P := InOrder buildExprs)
    (fun _ _ hs hchanges ↦ hchanges.inOrder hs) (solvent_create hcreate)
    (inOrder_create hcreate) ops
  refine ⟨s', hrun, fun haddr hkeyed hhash context row hbuild hprobe ↦ ?_⟩
  have hasks : Asks buildExprs (context.evaluateProbe row).1 := by
    refine ⟨hbuild, ?_⟩
    change (context.probeExprs.map _).length = buildExprs.length
    rw [List.length_map, hprobe, length_eq_of_ofConfig hcontext]
  exact map_ref?_find hinOrder haddr hkeyed hhash hasks

/-- Two rows of the small session have the key that is looked for, and one row has another key
under the same hash. -/
theorem run_find_eq_rowsFor_small :
    create (.linear 2) false (Budget.unlimited "small") (.new 1) = .ok smallStart ∧
      ∃ s', smallStart.run smallOps = .ok s' ∧ s'.table.arena.Addressable ∧
        s'.KeyedBy [.column 0 .int64] ∧
        (∀ i ∈ s'.kept, i.hash = (KeyHash.constant 5).toFun i.key) ∧
        let found := s'.table.find s'.rows (intContext 1) 5
        (found.1.positionsUpTo found.2 .duplicate 3).map (·.ref? found.2) =
          [some (intRow 3 1), some (intRow 0 1)] := by
  have hcontext : KeyContext.ofConfig (.linear 2) [.column 0 .int64] [.column 0 .int64] =
      .ok (KeyContext.new [.column 0 .int64] [.column 0 .int64] false false
        (Config.linear 2).seeds) := rfl
  obtain ⟨s', hrun, hend⟩ :=
    run_find_eq_rowsFor create_small hcontext (KeyHash.constant 5) smallOps
  obtain ⟨hkept, hpages⟩ := run_small hrun
  have haddr : s'.table.arena.Addressable := by
    rw [Arena.Addressable, hpages]
    decide
  have hkeyed := keyedBy_small hkept
  have hhash : ∀ i ∈ s'.kept, i.hash = (KeyHash.constant 5).toFun i.key := by
    rw [hkept]
    rintro i (_ | ⟨_, _ | ⟨_, _ | ⟨_, hi⟩⟩⟩)
    · rfl
    · rfl
    · rfl
    · cases hi
  have hwalk := hend haddr hkeyed hhash (intContext 1) ⟨[.int64 1]⟩ rfl rfl 3
  have hrows : s'.rowsFor (intContext 1).key = [intRow 3 1, intRow 0 1] := by
    rw [rowsFor, hkept]
    decide
  refine ⟨create_small, s', hrun, haddr, hkeyed, hhash, hwalk.trans ?_⟩
  change ((s'.rowsFor (intContext 1).key).map some).take 3 = _
  rw [hrows]
  rfl

end JoinIndex.Session
