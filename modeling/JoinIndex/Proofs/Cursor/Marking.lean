import JoinIndex.Proofs.Cursor.Standing
import JoinIndex.Proofs.Cursor.Unmatched

/-!
What cursors show of the rows, and what a mark changes about it. The positions on a bucket show its
rows in their order, each with its mark. No two buckets share a node, so that a mark set by a cursor
that stands shows at the position of the cursor and at no other.
-/

set_option autoImplicit false
set_option relaxedAutoImplicit false

namespace JoinIndex

/-- The row at a position, and whether it has a mark. -/
def Cursor.shows (c : Cursor) (t : Table) : Option RowRef × Bool :=
  (c.ref? t, c.isMatched t)

def Entry.shows (e : Entry) : Option RowRef × Bool :=
  (some e.ref, e.matched)

theorem Entry.shows_injective : Function.Injective Entry.shows := by
  rintro ⟨ref, matched⟩ ⟨ref', matched'⟩ h
  obtain ⟨href, hmatched⟩ := Prod.mk.inj h
  rw [Entry.mk.injEq]
  exact ⟨Option.some.inj href, hmatched⟩

namespace Table

variable {t : Table} {c d : Cursor} {p q : Nat}

open Cursor

/-- The positions on a bucket show its rows. -/
theorem map_shows_ofBucket (h : t.Linked) (p : Nat) :
    (ofBucket t.arena p (bucketAt t.buckets p)).map (·.shows t) =
      ((bucketAt t.buckets p).entries t.arena).map Entry.shows := by
  have hlinks := h.links_bucketAt p
  cases hb : bucketAt t.buckets p with
  | empty => rfl
  | inline hash matched row =>
    change t.buckets.getD p .empty = _ at hb
    rw [ofBucket, List.map_singleton, shows, ref?, isMatched, hb]
    rfl
  | chain hash head =>
    rw [hb] at hlinks
    rw [ofBucket, Bucket.entries, List.map_map, List.map_filterMap]
    generalize (Bucket.chain hash head).nodes t.arena = is at hlinks
    generalize (Bucket.chain hash head).head? = start at hlinks
    induction hlinks with
    | done => rfl
    | @step i node rest hget _ ih =>
      have hshows : (on p (some i)).shows t = node.entry.shows := by
        rw [shows, ref?, isMatched, hget]
        rfl
      rw [List.map_cons, List.filterMap_cons, ih, hget, Function.comp_apply, hshows]
      rfl

theorem length_ofBucket (h : t.Linked) (p : Nat) :
    (ofBucket t.arena p (bucketAt t.buckets p)).length =
      ((bucketAt t.buckets p).entries t.arena).length := by
  have hlength := congrArg List.length (map_shows_ofBucket h p)
  rwa [List.length_map, List.length_map] at hlength

/-! ### Positions and nodes -/

theorem on_mem_cursors {node? : Option NodeIndex} :
    .on p node? ∈ t.cursors ↔ .on p node? ∈ ofBucket t.arena p (bucketAt t.buckets p) := by
  refine mem_cursors.trans ⟨?_, fun hp ↦ ⟨p, hp⟩⟩
  rintro ⟨q, hq⟩
  obtain rfl : p = q := Option.some.inj (bucket?_of_mem_ofBucket hq)
  exact hq

theorem ne_atEnd_of_mem_cursors (hc : c ∈ t.cursors) : c ≠ .atEnd := by
  rintro rfl
  obtain ⟨p, hp⟩ := mem_cursors.mp hc
  cases bucket?_of_mem_ofBucket hp

theorem mem_nodes_of_mem_ofBucket {a : Arena} {b : Bucket} {i : NodeIndex}
    (h : .on p (some i) ∈ ofBucket a p b) : i ∈ b.nodes a := by
  cases b with
  | empty => cases h
  | inline =>
    rw [ofBucket, List.mem_singleton] at h
    cases h
  | chain hash head =>
    rw [ofBucket, List.mem_map] at h
    obtain ⟨j, hj, heq⟩ := h
    rw [Cursor.on.injEq, Option.some.injEq] at heq
    exact heq.2 ▸ hj

theorem exists_inline_of_mem_ofBucket {a : Arena} {b : Bucket}
    (h : .on p none ∈ ofBucket a p b) : ∃ hash matched row, b = .inline hash matched row := by
  cases b with
  | empty => cases h
  | inline hash matched row => exact ⟨hash, matched, row, rfl⟩
  | chain hash head =>
    rw [ofBucket, List.mem_map] at h
    obtain ⟨_, -, heq⟩ := h
    cases heq

/-- A node belongs to one bucket. -/
theorem eq_of_mem_nodes (h : t.Linked) {i : NodeIndex}
    (hp : i ∈ (bucketAt t.buckets p).nodes t.arena)
    (hq : i ∈ (bucketAt t.buckets q).nodes t.arena) : p = q := by
  have hfilled : ∀ {r}, i ∈ (bucketAt t.buckets r).nodes t.arena →
      (bucketAt t.buckets r).isFilled = true := by
    intro r hr
    cases hb : bucketAt t.buckets r with
    | empty =>
      rw [hb, Bucket.nodes_empty] at hr
      cases hr
    | inline => rfl
    | chain => rfl
  by_contra hpq
  have hpairwise : (filledBuckets t.buckets).Pairwise
      (Function.onFun List.Disjoint (Bucket.nodes t.arena)) := (List.nodup_flatMap.mp h.nodup).2
  exact rel_of_pairwise_filledBuckets hpairwise (fun _ _ hdisjoint ↦ hdisjoint.symm) (hfilled hp)
    (hfilled hq) hpq hp hq

/-! ### Marks -/

theorem map_row_setMatched (a : Arena) (i j : NodeIndex) :
    ((a.setMatched i).get? j).map Node.row = (a.get? j).map Node.row := by
  rw [Arena.get?_setMatched]
  split_ifs
  · rw [Option.map_map]
    rfl
  · rfl

/-- A mark changes no row. -/
theorem ref?_setMatched (c d : Cursor) (t : Table) : d.ref? (c.setMatched t) = d.ref? t := by
  match c, d with
  | .atEnd, _ => rfl
  | .on _ _, .atEnd => rfl
  | .on _ (some i), .on _ (some j) => exact map_row_setMatched t.arena i j
  | .on _ (some i), .on q none =>
    change (bucketAt t.buckets q).firstRow? (t.arena.setMatched i) =
      (bucketAt t.buckets q).firstRow? t.arena
    cases bucketAt t.buckets q with
    | empty => rfl
    | inline => rfl
    | chain _ head => exact map_row_setMatched t.arena i head
  | .on _ none, .on _ (some _) => rfl
  | .on p none, .on q none =>
    change (bucketAt (t.buckets.modify p Bucket.setMatched) q).firstRow? t.arena =
      (bucketAt t.buckets q).firstRow? t.arena
    rw [bucketAt_modify _ _ _ rfl]
    split_ifs
    · cases bucketAt t.buckets q <;> rfl
    · rfl

/-- A mark shows at the position of the cursor that set it. -/
theorem isMatched_setMatched (h : t.Linked) (hc : t.Stands c) (hd : d ∈ t.cursors) :
    d.isMatched (c.setMatched t) = (decide (d = c) || d.isMatched t) := by
  match c, d with
  | .atEnd, .atEnd => exact absurd rfl (ne_atEnd_of_mem_cursors hd)
  | .atEnd, .on _ _ => rfl
  | .on _ _, .atEnd => rfl
  | .on _ (some _), .on _ none => rw [decide_eq_false (by simp), Bool.false_or]; rfl
  | .on _ none, .on _ (some _) => rw [decide_eq_false (by simp), Bool.false_or]; rfl
  | .on p (some i), .on q (some j) =>
    obtain ⟨-, -, hnode⟩ := hc.in_range h rfl
    obtain ⟨node, hnode⟩ := hnode i rfl
    change ((t.arena.setMatched i).get? j).any Node.matched = _
    rw [Arena.get?_setMatched]
    split_ifs with hij
    · subst hij
      have hp := mem_nodes_of_mem_ofBucket (on_mem_cursors.mp (hc.resolve_left Cursor.noConfusion))
      have hq := mem_nodes_of_mem_ofBucket (on_mem_cursors.mp hd)
      rw [eq_of_mem_nodes h hq hp, decide_eq_true rfl, hnode]
      rfl
    · rw [decide_eq_false (by simp [hij]), Bool.false_or]
      rfl
  | .on p none, .on q none =>
    have hp := on_mem_cursors.mp (hc.resolve_left Cursor.noConfusion)
    obtain ⟨hash, matched, row, hbucket⟩ := exists_inline_of_mem_ofBucket hp
    have hafter : ((on p none).setMatched t).buckets.getD q .empty =
        if p = q then (bucketAt t.buckets q).setMatched else bucketAt t.buckets q :=
      bucketAt_modify t.buckets p Bucket.setMatched rfl q
    rw [isMatched, hafter]
    split_ifs with hpq
    · rw [← hpq, hbucket, decide_eq_true rfl]
      rfl
    · rw [decide_eq_false (by simp [Ne.symm hpq]), Bool.false_or]
      rfl

/-- What the positions on a bucket show after a mark. -/
theorem map_shows_setMatched (h : t.Linked) (hc : t.Stands c) (p : Nat) :
    (ofBucket t.arena p (bucketAt t.buckets p)).map (·.shows (c.setMatched t)) =
      (ofBucket t.arena p (bucketAt t.buckets p)).map
        fun d ↦ (d.ref? t, decide (d = c) || d.isMatched t) := by
  refine List.map_congr_left fun d hd ↦ ?_
  rw [shows, ref?_setMatched, isMatched_setMatched h hc (mem_cursors.mpr ⟨p, hd⟩)]

end Table

end JoinIndex
