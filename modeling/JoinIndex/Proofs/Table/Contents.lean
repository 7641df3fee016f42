import JoinIndex.Proofs.Table.Insertion

/-!
How the contents of a table change. Taking in a row either makes a group of its own or puts the row
in front of the rows of one group; a refusal, a mark, a search and a resize leave the hashes and
rows of all groups as they are. The order of the groups in the array does not matter, so the
changes are stated up to a permutation of the groups.
-/

set_option autoImplicit false
set_option relaxedAutoImplicit false

namespace JoinIndex

namespace Bucket

variable {a b : Arena}

/-- The rows of a bucket depend on the links and rows of the nodes, and not on their marks. -/
theorem shape_group_congr (hnum : b.numNodes = a.numNodes)
    (hnodes : ∀ i, (b.get? i).map (fun node ↦ (node.next, node.row)) =
      (a.get? i).map fun node ↦ (node.next, node.row)) (bucket : Bucket) :
    (bucket.group b).shape = (bucket.group a).shape := by
  have hnext : ∀ i, (b.get? i).map Node.next = (a.get? i).map Node.next := by
    intro i
    have hboth := congrArg (Option.map Prod.fst) (hnodes i)
    rwa [Option.map_map, Option.map_map] at hboth
  have hrow : ∀ i, (b.get? i).map Node.row = (a.get? i).map Node.row := by
    intro i
    have hboth := congrArg (Option.map Prod.snd) (hnodes i)
    rwa [Option.map_map, Option.map_map] at hboth
  cases bucket with
  | empty => rfl
  | inline => rfl
  | chain hash head =>
    have hchain : (chain hash head).nodes b = (chain hash head).nodes a := by
      rw [nodes, nodes, hnum]
      exact Arena.trail_congr hnext _ _
    rw [Group.shape, Group.shape, Group.refs, Group.refs, group, group, entries, entries, hchain,
      List.map_filterMap, List.map_filterMap, Prod.mk.injEq]
    refine ⟨rfl, List.filterMap_congr fun i _ ↦ ?_⟩
    rw [Option.map_map, Option.map_map]
    exact hrow i

theorem shape_group_setMatched (a : Arena) (bucket : Bucket) :
    (bucket.setMatched.group a).shape = (bucket.group a).shape := by
  cases bucket <;> rfl

end Bucket

namespace Table

variable {t u : Table} {p : Nat} {hash : UInt32} {row : RowRef}

/-- The hashes and the rows of all groups, without the marks. -/
def shapes (t : Table) : List (UInt32 × List RowRef) :=
  t.groups.map Group.shape

/-! ### What an insertion does -/

/-- The group of the bucket that a row was put into has the row in front. -/
theorem Placed.groups_perm (h : Placed t u hash row p) (hlinked : t.Linked) :
    ∃ others : List Group,
      t.groups.Perm
        (([bucketAt t.buckets p].filter Bucket.isFilled).map (Bucket.group t.arena) ++ others) ∧
      u.groups.Perm
        (⟨hash, ⟨row, false⟩ :: (bucketAt t.buckets p).entries t.arena⟩ :: others) := by
  obtain ⟨b, added, hw, hb⟩ := h.exists_writes
  obtain ⟨others, hbefore, hafter⟩ := hw.groups_perm hlinked
  have hgroup : b.group u.arena =
      ⟨hash, ⟨row, false⟩ :: (bucketAt t.buckets p).entries t.arena⟩ := by
    rw [← hb, Bucket.group, h.entries_eq hlinked, h.hash?_eq]
    rfl
  rw [hgroup] at hafter
  exact ⟨others, hbefore, hafter⟩

/-- A row is taken in as a group of its own or in front of the rows of a group, or the groups stay
as they are. -/
theorem Inserted.groups_cases {budget : Budget} {isKey : RowRef → Bool} {o : Outcome Bool}
    (hins : Inserted t budget isKey row hash o) (h : t.Intact)
    (haddr : o.table.arena.Addressable) :
    (o.answer = false ∧ o.table.groups = t.groups) ∨
    (∃ p, o.answer = true ∧
      Probe.Answers t.probing t.buckets hash (t.holdsKey isKey) (.vacant p) ∧
      o.table.groups.Perm (⟨hash, [⟨row, false⟩]⟩ :: t.groups)) ∨
    (∃ p others, o.answer = true ∧
      Probe.Answers t.probing t.buckets hash (t.holdsKey isKey) (.found p) ∧
      t.groups.Perm ((bucketAt t.buckets p).group t.arena :: others) ∧
      o.table.groups.Perm (((bucketAt t.buckets p).group t.arena).cons row :: others)) := by
  cases hanswer : o.answer with
  | false =>
    obtain ⟨htable, -⟩ := hins.unchanged hanswer
    refine Or.inl ⟨rfl, ?_⟩
    rw [htable]
    rfl
  | true =>
    obtain ⟨p, hp, hplaced⟩ := hins.exists_placed hanswer h haddr
    obtain ⟨others, hbefore, hafter⟩ := hplaced.groups_perm (h.linked (hins.addressable haddr))
    rcases hp with hp | hp
    · rw [hp.eq_empty] at hbefore hafter
      exact Or.inr (Or.inl ⟨p, rfl, hp, hafter.trans (hbefore.symm.cons _)⟩)
    · have hcons : ((bucketAt t.buckets p).group t.arena).cons row =
          ⟨hash, ⟨row, false⟩ :: (bucketAt t.buckets p).entries t.arena⟩ := by
        rw [Group.cons, Bucket.group, hp.hash?_eq]
        rfl
      rw [List.filter_cons_of_pos hp.isFilled] at hbefore
      refine Or.inr (Or.inr ⟨p, others, rfl, hp, hbefore, ?_⟩)
      rw [hcons]
      exact hafter

/-! ### What leaves the hashes and rows alone -/

theorem shapes_setMatched (c : Cursor) (t : Table) : (c.setMatched t).shapes = t.shapes := by
  match c with
  | .atEnd => rfl
  | .on _ (some node) =>
    rw [shapes, shapes, groups, groups, List.map_map, List.map_map]
    refine List.map_congr_left fun b _ ↦ Bucket.shape_group_congr ?_ (fun i ↦ ?_) b
    · rfl
    · change ((t.arena.setMatched node).get? i).map _ = _
      rw [Arena.get?_setMatched]
      split_ifs
      · rw [Option.map_map]
        rfl
      · rfl
  | .on p none =>
    rw [shapes, shapes, groups, groups, List.map_map, List.map_map]
    exact map_filledBuckets_modify _ _ (Bucket.shape_group_setMatched t.arena)
      Bucket.isFilled_setMatched _ _

theorem shapes_walk (c : Cursor) (t : Table) (rows : RowStore) (steps : List Cursor.Step) :
    (c.walk t rows steps).2.shapes = t.shapes :=
  walk_induction (P := fun u ↦ u.shapes = t.shapes)
    (fun c u h ↦ (shapes_setMatched c u).trans h) c rows steps rfl

theorem shapes_find (t : Table) (rows : RowStore) (ctx : KeyContext) (hash : UInt32) :
    (t.find rows ctx hash).2.shapes = t.shapes := by
  obtain ⟨probe, -, heq⟩ := find_eq t rows ctx hash
  rw [heq]
  rfl

theorem Resized.groups_perm {budget : Budget} {size : Nat} {o : Outcome (Except Error Unit)}
    (h : Resized t budget size o) : o.table.groups.Perm t.groups := by
  cases h with
  | moved buckets _ _ _ _ hmoved => exact (relocate_eq_some hmoved).2.2.map _
  | _ => exact List.Perm.refl _

theorem shapes_eq_nil (h : filledBuckets t.buckets = []) : t.shapes = [] := by
  rw [shapes, groups, h]
  rfl

end Table

end JoinIndex
