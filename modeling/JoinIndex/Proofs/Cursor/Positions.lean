import JoinIndex.Proofs.Table.Contents

/-!
Where cursors stand. The rows of a bucket are met at a list of positions that can be read off its
chain, and the rows of the table at the positions of its buckets in the order of their places.
`Leads` says that each position of a list is followed by the next one and the last one by the end,
so that a walk meets the positions of the list, in order, and nothing else.
-/

set_option autoImplicit false
set_option relaxedAutoImplicit false

namespace JoinIndex

namespace Cursor

variable {t : Table} {way : Advance}

/-- Each position is followed by the next one of the list, and the last one by the end. -/
def Leads (t : Table) (way : Advance) : List Cursor → Prop
  | [] => True
  | c :: rest => c ≠ .atEnd ∧ c.advance t way = rest.headD .atEnd ∧ Leads t way rest

/-- A walk meets the positions of the list and then the end. -/
theorem positionsUpTo_eq_take {cs : List Cursor} (h : Leads t way cs) (count : Nat) :
    (cs.headD .atEnd).positionsUpTo t way count = cs.take count := by
  induction cs generalizing count with
  | nil => cases count <;> rfl
  | cons c rest ih =>
    obtain ⟨hc, hnext, hrest⟩ := h
    cases count with
    | zero => rfl
    | succ count =>
      cases c with
      | atEnd => exact absurd rfl hc
      | on bucket node =>
        rw [List.headD_cons, positionsUpTo, hnext, ih hrest, List.take_succ_cons]

/-- The positions on the rows of a bucket. -/
def ofBucket (a : Arena) (p : Nat) : Bucket → List Cursor
  | .empty => []
  | .inline _ _ _ => [.on p none]
  | .chain hash head => ((Bucket.chain hash head).nodes a).map fun i ↦ .on p (some i)

theorem advance_of_nextNode? {p : Nat} {node? : Option NodeIndex} {i : NodeIndex}
    (h : (on p node?).nextNode? t = some i) (hway : way ≠ .unmatched) :
    (on p node?).advance t way = on p (some i) := by
  cases way with
  | next => rw [advance, next, h]
  | duplicate => rw [advance, nextDuplicate, h]
  | unmatched => exact absurd rfl hway

/-- The positions on a chain lead on to what follows the last row of the bucket. -/
theorem leads_links {p : Nat} {cs : List Cursor} (hway : way ≠ .unmatched) (hcs : Leads t way cs)
    (hlast : ∀ node?, (on p node?).nextNode? t = none →
      (on p node?).advance t way = cs.headD .atEnd)
    {start : Option NodeIndex} {is : List NodeIndex} (h : t.arena.Links start is) :
    Leads t way (is.map (fun i ↦ on p (some i)) ++ cs) := by
  induction h with
  | done => exact hcs
  | @step i node rest hget hrest ih =>
    have hnode : (on p (some i)).nextNode? t = node.next := by
      rw [nextNode?, hget, Option.bind_some]
    refine ⟨Cursor.noConfusion, ?_, ih⟩
    generalize node.next = following at hnode hrest
    cases hrest with
    | done => exact hlast _ hnode
    | step => exact advance_of_nextNode? hnode hway

theorem leads_ofBucket {p : Nat} {cs : List Cursor} (hway : way ≠ .unmatched)
    (hcs : Leads t way cs) (hlast : ∀ node?, (on p node?).nextNode? t = none →
      (on p node?).advance t way = cs.headD .atEnd) {b : Bucket}
    (h : t.arena.Links b.head? (b.nodes t.arena)) :
    Leads t way (ofBucket t.arena p b ++ cs) := by
  cases b with
  | empty => exact hcs
  | inline => exact ⟨Cursor.noConfusion, hlast none rfl, hcs⟩
  | chain => exact leads_links hway hcs hlast h

theorem headD_ofBucket {a : Arena} {p : Nat} {b : Bucket} (hb : b.isFilled = true)
    (h : a.Links b.head? (b.nodes a)) (cs : List Cursor) :
    (ofBucket a p b ++ cs).headD .atEnd = .on p b.head? := by
  cases b with
  | empty => cases hb
  | inline => rfl
  | chain hash head =>
    rw [ofBucket]
    have hlinks : a.Links (some head) ((Bucket.chain hash head).nodes a) := h
    generalize (Bucket.chain hash head).nodes a = is at hlinks
    cases hlinks with
    | step => rfl

/-- What the positions of a bucket refer to. -/
theorem map_ref?_ofBucket {p : Nat} (h : t.arena.Links (bucketAt t.buckets p).head?
    ((bucketAt t.buckets p).nodes t.arena)) :
    (ofBucket t.arena p (bucketAt t.buckets p)).map (·.ref? t) =
      ((bucketAt t.buckets p).group t.arena).refs.map some := by
  cases hb : bucketAt t.buckets p with
  | empty => rfl
  | inline hash matched row =>
    change [(t.buckets.getD p .empty).firstRow? t.arena] = _
    change t.buckets.getD p .empty = _ at hb
    rw [hb]
    rfl
  | chain hash head =>
    rw [hb] at h
    rw [ofBucket, Group.refs, Bucket.group, Bucket.entries, List.map_map, List.map_filterMap]
    generalize (Bucket.chain hash head).nodes t.arena = is at h
    generalize (Bucket.chain hash head).head? = start at h
    induction h with
    | done => rfl
    | step hget _ ih =>
      rw [List.map_cons, List.filterMap_cons, ih, hget]
      change (t.arena.get? _).map Node.row :: _ = _
      rw [hget]
      rfl

end Cursor

namespace Table

variable {t : Table}

open Cursor

/-- The positions on the rows of a bucket lead to the end when only rows of the bucket are met. -/
theorem leads_duplicate (h : t.Linked) (p : Nat) :
    Leads t .duplicate (ofBucket t.arena p (bucketAt t.buckets p)) := by
  have hend : Leads t .duplicate [] := trivial
  rw [← List.append_nil (ofBucket _ _ _)]
  refine leads_ofBucket (by decide) hend (fun node? hnone ↦ ?_) (h.links_bucketAt p)
  rw [advance, nextDuplicate, hnone]
  rfl

/-- The rows of a bucket are met from the row stored last to the first. -/
theorem positionsUpTo_cursorAt (h : t.Linked) {p : Nat}
    (hfilled : (bucketAt t.buckets p).isFilled = true) (count : Nat) :
    (t.cursorAt p).positionsUpTo t .duplicate count =
      (ofBucket t.arena p (bucketAt t.buckets p)).take count := by
  have hhead := headD_ofBucket (p := p) hfilled (h.links_bucketAt p) []
  have hwalk := positionsUpTo_eq_take (leads_duplicate h p) count
  rw [List.append_nil] at hhead
  rw [hhead] at hwalk
  exact hwalk

/-- The positions on the rows of `count` buckets from `start` on. -/
def cursorsFrom (t : Table) (start count : Nat) : List Cursor :=
  (List.range' start count).flatMap fun p ↦ ofBucket t.arena p (bucketAt t.buckets p)

theorem cursorsFrom_succ (t : Table) (start count : Nat) :
    t.cursorsFrom start (count + 1) =
      ofBucket t.arena start (bucketAt t.buckets start) ++ t.cursorsFrom (start + 1) count := by
  rw [cursorsFrom, List.range'_succ, List.flatMap_cons]
  rfl

theorem cursorAt_eq (t : Table) (p : Nat) :
    t.cursorAt p = .on p (bucketAt t.buckets p).head? := rfl

/-- The search for the next filled bucket ends at the next position. -/
theorem firstFilled?_cursorsFrom (h : t.Linked) (start count : Nat) :
    (match t.firstFilled? start count with
      | some p => t.cursorAt p
      | none => .atEnd) = (t.cursorsFrom start count).headD .atEnd := by
  induction count generalizing start with
  | zero => rfl
  | succ count ih =>
    rw [cursorsFrom_succ, firstFilled?]
    cases hfilled : (bucketAt t.buckets start).isFilled with
    | true =>
      rw [headD_ofBucket hfilled (h.links_bucketAt start)]
      change (t.buckets.getD start .empty).isFilled = true at hfilled
      rw [if_pos hfilled]
      rfl
    | false =>
      have hempty : ofBucket t.arena start (bucketAt t.buckets start) = [] := by
        cases hb : bucketAt t.buckets start with
        | empty => rfl
        | inline =>
          rw [hb] at hfilled
          cases hfilled
        | chain =>
          rw [hb] at hfilled
          cases hfilled
      change (t.buckets.getD start .empty).isFilled = false at hfilled
      rw [hempty, List.nil_append, ← ih (start + 1), hfilled]
      rfl

theorem seek_eq_headD (h : t.Linked) (start : Nat) :
    t.seek start = (t.cursorsFrom start (t.buckets.size - start)).headD .atEnd :=
  firstFilled?_cursorsFrom h start _

theorem leads_cursorsFrom (h : t.Linked) (start count : Nat)
    (hcount : start + count = t.buckets.size) : Leads t .next (t.cursorsFrom start count) := by
  induction count generalizing start with
  | zero => trivial
  | succ count ih =>
    rw [cursorsFrom_succ]
    refine leads_ofBucket (by decide) (ih (start + 1) (by omega)) (fun node? hnone ↦ ?_)
      (h.links_bucketAt start)
    have hleft : t.buckets.size - (start + 1) = count := by omega
    rw [advance, Cursor.next, hnone]
    change t.seek (start + 1) = _
    rw [seek_eq_headD h, hleft]

/-- The positions on all rows. -/
def cursors (t : Table) : List Cursor :=
  t.cursorsFrom 0 t.buckets.size

theorem first_eq_headD (h : t.Linked) : t.first = t.cursors.headD .atEnd :=
  seek_eq_headD h 0

/-- A scan meets the rows of all buckets in the order of their places. -/
theorem positionsUpTo_first (h : t.Linked) (count : Nat) :
    t.first.positionsUpTo t .next count = t.cursors.take count := by
  rw [first_eq_headD h]
  exact positionsUpTo_eq_take (leads_cursorsFrom h 0 _ (Nat.zero_add _)) count

/-! ### Counting the rows -/

/-- The rows of all groups, group by group. -/
def refs (t : Table) : List RowRef :=
  t.shapes.flatMap Prod.snd

theorem flatMap_filter_isFilled {β : Type} (f : Bucket → List β) (hf : f .empty = [])
    (buckets : List Bucket) : (buckets.filter Bucket.isFilled).flatMap f = buckets.flatMap f := by
  induction buckets with
  | nil => rfl
  | cons b rest ih =>
    rw [List.flatMap_cons, List.filter_cons, ← ih]
    cases b with
    | empty => rw [hf]; rfl
    | inline => rfl
    | chain => rfl

theorem toList_eq_map_bucketAt (buckets : Array Bucket) :
    buckets.toList = (List.range buckets.size).map (bucketAt buckets) := by
  refine List.ext_getElem (by simp) fun p hp hp' ↦ ?_
  rw [Array.length_toList] at hp
  rw [List.getElem_map, List.getElem_range, bucketAt_of_lt hp, Array.getElem_toList]

/-- What the positions on all rows refer to. -/
theorem map_ref?_cursors (h : t.Linked) : t.cursors.map (·.ref? t) = t.refs.map some := by
  have hrefs : t.refs = (List.range t.buckets.size).flatMap fun p ↦
      ((bucketAt t.buckets p).group t.arena).refs := by
    rw [refs, shapes, groups, List.map_map, List.flatMap_map, filledBuckets,
      flatMap_filter_isFilled _ rfl, toList_eq_map_bucketAt, List.flatMap_map]
    rfl
  rw [hrefs, cursors, cursorsFrom, List.map_flatMap, List.map_flatMap, ← List.range_eq_range']
  exact List.flatMap_congr fun p _ ↦ map_ref?_ofBucket (h.links_bucketAt p)

/-- The rows in some buckets and chains: the chains count their first row twice. -/
theorem length_flatMap_entries {a : Arena} {bs : List Bucket}
    (hfilled : ∀ b ∈ bs, b.isFilled = true)
    (hlinks : ∀ b ∈ bs, a.Links b.head? (b.nodes a)) :
    (bs.flatMap (Bucket.entries a)).length + bs.countP Bucket.hasOverflow =
      bs.length + (bs.flatMap (Bucket.nodes a)).length := by
  induction bs with
  | nil => rfl
  | cons b bs ih =>
    have hrest := ih (fun c hc ↦ hfilled c (List.mem_cons_of_mem _ hc))
      (fun c hc ↦ hlinks c (List.mem_cons_of_mem _ hc))
    have hb := hfilled b List.mem_cons_self
    have hlink := hlinks b List.mem_cons_self
    rw [List.flatMap_cons, List.flatMap_cons, List.length_append, List.length_append,
      List.countP_cons, List.length_cons]
    cases b with
    | empty => cases hb
    | inline hash matched row =>
      rw [Bucket.nodes_inline]
      change 1 + _ + (_ + 0) = _ + 1 + (0 + _)
      omega
    | chain hash head =>
      have hlength : ((Bucket.chain hash head).entries a).length =
          ((Bucket.chain hash head).nodes a).length := by
        rw [Bucket.entries]
        generalize (Bucket.chain hash head).nodes a = is at hlink
        generalize (Bucket.chain hash head).head? = start at hlink
        induction hlink with
        | done => rfl
        | step hget _ ih =>
          rw [List.filterMap_cons, hget, Option.map_some, List.length_cons, ih, List.length_cons]
      rw [hlength]
      change _ + _ + (_ + 1) = _ + 1 + _
      omega

/-- The table counts its rows. -/
theorem length_refs (h : t.Linked) (hsound : t.Sound) : t.refs.length = t.entries := by
  have hfilled : ∀ b ∈ filledBuckets t.buckets, b.isFilled = true :=
    fun b hb ↦ (mem_filledBuckets.mp hb).1
  have hcount := length_flatMap_entries hfilled h.links
  have hrefs : t.refs.length = ((filledBuckets t.buckets).flatMap
      (Bucket.entries t.arena)).length := by
    rw [refs, shapes, groups, List.map_map, List.flatMap_map, List.length_flatMap,
      List.length_flatMap]
    refine congrArg List.sum (List.map_congr_left fun b _ ↦ ?_)
    exact List.length_map _
  have hnodes : ((filledBuckets t.buckets).flatMap (Bucket.nodes t.arena)).length =
      t.arena.numNodes := h.length_nodes
  have hsum := hsound.entries_eq
  rw [hsound.filled_eq, hsound.overflowing_eq] at hsum
  omega

theorem length_cursors (h : t.Linked) (hsound : t.Sound) : t.cursors.length = t.entries := by
  rw [← length_refs h hsound, ← List.length_map (·.ref? t), map_ref?_cursors h, List.length_map]

/-- A scan from the first row to the last meets every row. -/
theorem positions_first (h : t.Linked) (hsound : t.Sound) :
    t.first.positions t .next = t.cursors := by
  rw [Cursor.positions, positionsUpTo_first h, ← length_cursors h hsound, List.take_length]

end Table

end JoinIndex
