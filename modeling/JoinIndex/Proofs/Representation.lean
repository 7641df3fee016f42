import JoinIndex.Proofs.Cursor.Standing
import JoinIndex.Proofs.Session

/-!
The representation of the rows after any operations. The counters of a table count what they are
named after, the chains share the nodes of the arena among them, and neither a search nor a cursor
ever takes a node at an index where there is none.

Chains ask for an arena of at most `2 ^ 32` pages, past which the indices of nodes would repeat.
-/

set_option autoImplicit false
set_option relaxedAutoImplicit false

namespace JoinIndex

namespace Table

variable {t : Table}

/-- The nodes of the chain of the bucket at a place. -/
def chainAt (t : Table) (p : Nat) : List NodeIndex :=
  (bucketAt t.buckets p).nodes t.arena

/-- The counters and chains of a table are in order. -/
structure Represented (t : Table) : Prop where
  exists_size_eq : ∃ k ≤ 30, t.buckets.size = 2 ^ k
  filled_eq : t.filled = t.buckets.toList.countP Bucket.isFilled
  overflowing_eq : t.overflowing = t.buckets.toList.countP Bucket.hasOverflow
  /-- The links of a chain end after two nodes or more, all of them in the arena. -/
  links : ∀ p hash head, bucketAt t.buckets p = .chain hash head →
    t.arena.Links (some head) (t.chainAt p) ∧ 2 ≤ (t.chainAt p).length
  /-- Every node of the arena lies on the chain of one bucket only. -/
  exists_unique_chain : ∀ i, (t.arena.get? i).isSome = true ↔ ∃! p, i ∈ t.chainAt p
  /-- No chain meets a node twice. -/
  nodup : ∀ p, (t.chainAt p).Nodup
  numNodes_eq : t.arena.numNodes =
    ((List.range t.buckets.size).map fun p ↦ (t.chainAt p).length).sum
  numNodes_eq_pages : t.arena.numNodes = (t.arena.pages.toList.map Array.size).sum
  entries_eq : t.entries = t.filled - t.overflowing + t.arena.numNodes

/-- The nodes of all chains, chain by chain. -/
theorem nodes_eq_flatMap_chainAt (t : Table) :
    t.nodes = (List.range t.buckets.size).flatMap t.chainAt := by
  rw [nodes, filledBuckets, flatMap_filter_isFilled _ (Bucket.nodes_empty _),
    toList_eq_map_bucketAt, List.flatMap_map]
  rfl

theorem lt_size_of_mem_chainAt {p : Nat} {i : NodeIndex} (hi : i ∈ t.chainAt p) :
    p < t.buckets.size := by
  refine lt_size_of_isFilled ?_
  cases hb : bucketAt t.buckets p with
  | empty =>
    rw [chainAt, hb, Bucket.nodes_empty] at hi
    cases hi
  | inline => rfl
  | chain => rfl

theorem filled_eq_countP (buckets : Array Bucket) :
    (filledBuckets buckets).length = buckets.toList.countP Bucket.isFilled :=
  (List.countP_eq_length_filter).symm

theorem countP_filledBuckets (buckets : Array Bucket) :
    (filledBuckets buckets).countP Bucket.hasOverflow =
      buckets.toList.countP Bucket.hasOverflow := by
  rw [filledBuckets, List.countP_filter]
  refine List.countP_congr fun b _ ↦ ?_
  cases b <;> simp [Bucket.hasOverflow, Bucket.isFilled]

theorem Sound.overflowing_le (h : t.Sound) : t.overflowing ≤ t.filled := by
  rw [h.overflowing_eq, h.filled_eq]
  exact List.countP_le_length

theorem Intact.represented (h : t.Intact) (haddr : t.arena.Addressable) : t.Represented := by
  have hsound := h.sound
  have hlinked := h.linked haddr
  have hnodes := t.nodes_eq_flatMap_chainAt
  have hnodup := hlinked.nodup
  rw [hnodes, List.nodup_flatMap] at hnodup
  constructor
  · exact hsound.exists_size_eq
  · rw [hsound.filled_eq, filled_eq_countP]
  · rw [hsound.overflowing_eq, countP_filledBuckets]
  · intro p hash head hbucket
    have hfilled : (bucketAt t.buckets p).isFilled = true := by rw [hbucket]; rfl
    have hmem := bucketAt_mem_filledBuckets hfilled
    have hlinks := hlinked.links _ hmem
    have htwo := hlinked.two_le _ hmem (by rw [hbucket]; rfl)
    refine ⟨?_, htwo⟩
    rw [chainAt]
    rwa [hbucket] at hlinks ⊢
  · intro i
    rw [← hlinked.mem_nodes, hnodes, List.mem_flatMap]
    constructor
    · rintro ⟨p, hp, hi⟩
      refine ⟨p, hi, fun q hq ↦ ?_⟩
      by_contra hne
      have hsymm : Std.Symm (Function.onFun List.Disjoint t.chainAt) :=
        ⟨fun _ _ hdisjoint ↦ hdisjoint.symm⟩
      have hdisjoint := hnodup.2.forall (List.mem_range.mpr (lt_size_of_mem_chainAt hq)) hp hne
      exact hdisjoint hq hi
    · rintro ⟨p, hi, -⟩
      exact ⟨p, List.mem_range.mpr (lt_size_of_mem_chainAt hi), hi⟩
  · intro p
    by_cases hp : p < t.buckets.size
    · exact hnodup.1 p (List.mem_range.mpr hp)
    · have hnil : t.chainAt p = [] :=
        List.eq_nil_iff_forall_not_mem.mpr fun i hi ↦ hp (lt_size_of_mem_chainAt hi)
      rw [hnil]
      exact List.nodup_nil
  · rw [← hlinked.length_nodes, hnodes, List.length_flatMap]
  · exact hsound.arena.numNodes_eq
  · have hsum := hsound.entries_eq
    have hle := hsound.overflowing_le
    omega

end Table

namespace Session

open Table

variable {s : Session}

/-- The cursors that walks on the table of a session come to, with the table at that time. -/
inductive Reached (s : Session) : Cursor → Table → Prop where
  | place (start : Start) : Reached s (s.place start).1 (s.place start).2
  | take {c : Cursor} {t : Table} (step : Cursor.Step) (hc : Reached s c t) :
      Reached s (c.take t s.rows step).2.1 (c.take t s.rows step).2.2

theorem stands_place (h : s.table.Linked) (start : Start) :
    (s.place start).2.Stands (s.place start).1 := by
  cases start with
  | find context hash => exact stands_find h s.rows context hash
  | first => exact stands_first h
  | firstUnmatched => exact (stands_first h).skipMatched h s.table.entries

theorem Reached.stands {c : Cursor} {u : Table} (hc : Reached s c u) (h : s.table.Intact)
    (haddr : s.table.arena.Addressable) : u.Linked ∧ u.Stands c := by
  have hlinked := h.linked haddr
  induction hc with
  | place start =>
    refine ⟨?_, stands_place hlinked start⟩
    cases start with
    | find context hash =>
      obtain ⟨probe, -, heq⟩ := find_eq s.table s.rows context hash
      have hmove := find_move s.table s.rows context hash
      refine (hmove.intact h).linked ?_
      rw [heq]
      exact haddr
    | first => exact hlinked
    | firstUnmatched => exact hlinked
  | @take c t step _ ih =>
    obtain ⟨ht, hstands⟩ := ih
    cases step with
    | advance way => exact ⟨ht, hstands.advance ht way⟩
    | mark => exact ⟨ht.of_sameChains (sameChains_mark t c), hstands.setMatched c⟩
    | row => exact ⟨ht, hstands⟩
    | ref => exact ⟨ht, hstands⟩
    | readAll way => exact ⟨ht, stands_atEnd t⟩

/-- What stands on a node can read it. -/
theorem get_eq_ok {a : Arena} {i : NodeIndex} {node : Node} (h : a.get? i = some node) :
    a.get i = .ok node := by
  rw [Arena.get, h]

/-- After any operations on a new table no operation has faulted and the table is represented as it
should be. The nodes that later operations take are in the arena: the head of every chain, which a
search reads, and the node of every cursor, wherever it is moved to. -/
theorem run_represented {config : Config} {stored : Bool} {budget : Budget} {rows : RowStore}
    (h : create config stored budget rows = .ok s) (ops : List Op) :
    ∃ s', s.run ops = .ok s' ∧ (s'.table.arena.Addressable →
      s'.table.Represented ∧
      (∀ p head, (bucketAt s'.table.buckets p).head? = some head →
        ∃ node, s'.table.arena.get head = .ok node) ∧
      ∀ p node? u, s'.Reached (.on p node?) u → p < u.buckets.size ∧
        ∀ i, node? = some i → ∃ node, u.arena.get i = .ok node) := by
  obtain ⟨s', hrun, -, hintact⟩ := exists_run_eq_ok (P := fun s ↦ s.table.Intact)
    (fun _ _ hs hchanges ↦ hchanges.intact hs) (solvent_create h) (intact_create h) ops
  refine ⟨s', hrun, fun haddr ↦ ⟨hintact.represented haddr, ?_, ?_⟩⟩
  · intro p head hhead
    have hlinks := (hintact.linked haddr).links_bucketAt p
    rw [hhead] at hlinks
    generalize (bucketAt s'.table.buckets p).nodes s'.table.arena = is at hlinks
    cases hlinks with
    | step hget _ => exact ⟨_, get_eq_ok hget⟩
  · intro p node? u hreached
    obtain ⟨hlinked, hstands⟩ := hreached.stands hintact haddr
    obtain ⟨hp, -, hnode⟩ := hstands.in_range hlinked rfl
    refine ⟨hp, fun i hi ↦ ?_⟩
    obtain ⟨node, hget⟩ := hnode i hi
    exact ⟨node, get_eq_ok hget⟩

theorem run_represented_small :
    create (.linear 2) false (Budget.unlimited "small") (.new 1) = .ok smallStart ∧
      ∃ s', smallStart.run smallOps = .ok s' ∧ s'.table.arena.Addressable ∧
        s'.table.Represented ∧
        ∀ p node? u, s'.Reached (.on p node?) u → p < u.buckets.size := by
  obtain ⟨s', hrun, hend⟩ := run_represented create_small smallOps
  have haddr : s'.table.arena.Addressable := by
    rw [Arena.Addressable, (run_small hrun).2]
    decide
  obtain ⟨hrepresented, -, hreached⟩ := hend haddr
  exact ⟨create_small, s', hrun, haddr, hrepresented, fun p node? u h ↦ (hreached p node? u h).1⟩

end Session

end JoinIndex
