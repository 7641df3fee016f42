import JoinIndex.Proofs.Table.Groups
import JoinIndex.Proofs.Table.Soundness

/-!
The chains of a table. Every node of the arena lies on the chain of exactly one bucket and exactly
once on it, and each chain has two nodes or more. The operations that put a row into a bucket all
write one bucket and put new nodes in front of the nodes that the bucket had; `Linked.write` says
that this keeps the chains.

New nodes get indices of their own only in an arena of at most `2 ^ 32` pages, so the lemmas about
new nodes ask for that.
-/

set_option autoImplicit false
set_option relaxedAutoImplicit false

namespace JoinIndex.Table

variable {t u : Table}

/-- The chains of the filled buckets share the nodes of the arena among them. -/
structure Linked (t : Table) : Prop where
  links : ∀ b ∈ filledBuckets t.buckets, t.arena.Links b.head? (b.nodes t.arena)
  two_le : ∀ b ∈ filledBuckets t.buckets, b.hasOverflow = true → 2 ≤ (b.nodes t.arena).length
  nodup : t.nodes.Nodup
  mem_nodes : ∀ i, i ∈ t.nodes ↔ (t.arena.get? i).isSome = true
  length_nodes : t.nodes.length = t.arena.numNodes

theorem linked_of_empty (hbuckets : filledBuckets t.buckets = []) (harena : t.arena = Arena.empty) :
    t.Linked := by
  have hnodes : t.nodes = [] := by
    rw [nodes, hbuckets]
    rfl
  constructor
  · rw [hbuckets]
    exact fun b hb ↦ absurd hb List.not_mem_nil
  · rw [hbuckets]
    exact fun b hb ↦ absurd hb List.not_mem_nil
  · rw [hnodes]
    exact List.nodup_nil
  · intro i
    have hget : Arena.empty.get? i = none := by
      rw [Arena.get?, Array.getElem?_eq_none (Nat.zero_le _)]
      rfl
    rw [hnodes, harena, hget]
    simp
  · rw [hnodes, harena]
    rfl

/-- The chain of the bucket at any place; an empty bucket has none. -/
theorem Linked.links_bucketAt (h : t.Linked) (p : Nat) :
    t.arena.Links (bucketAt t.buckets p).head? ((bucketAt t.buckets p).nodes t.arena) := by
  cases hb : (bucketAt t.buckets p).isFilled with
  | true => exact h.links _ (bucketAt_mem_filledBuckets hb)
  | false =>
    have hhead : (bucketAt t.buckets p).head? = none := by
      cases hbucket : bucketAt t.buckets p with
      | empty => rfl
      | inline => rfl
      | chain =>
        rw [hbucket] at hb
        cases hb
    rw [Bucket.nodes_eq_nil hhead, hhead]
    exact Arena.Links.done

theorem flatMap_nodes_filter_isFilled (a : Arena) (b : Bucket) :
    ([b].filter Bucket.isFilled).flatMap (Bucket.nodes a) = b.nodes a := by
  cases b with
  | empty => exact (Bucket.nodes_empty a).symm
  | inline => exact List.append_nil _
  | chain => exact List.append_nil _

/-! ### Writing a bucket -/

/-- One bucket is written, with new nodes in front of the ones it had. -/
structure Writes (t u : Table) (p : Nat) (b : Bucket) (added : List NodeIndex) : Prop where
  lt_size : p < t.buckets.size
  buckets_eq : u.buckets = t.buckets.setIfInBounds p b
  isFilled : b.isFilled = true
  adds : t.arena.Adds u.arena added
  links : u.arena.Links b.head? (added ++ (bucketAt t.buckets p).nodes t.arena)
  two_le : b.hasOverflow = true → 2 ≤ (added ++ (bucketAt t.buckets p).nodes t.arena).length

variable {p : Nat} {b : Bucket} {added : List NodeIndex}

/-- The chain of the bucket that was written. -/
theorem Writes.nodes_eq (hw : Writes t u p b added) :
    b.nodes u.arena = added ++ (bucketAt t.buckets p).nodes t.arena := by
  refine Bucket.nodes_eq_of_links hw.links ?_
  rw [List.length_append, hw.adds.numNodes_eq, Nat.add_comm]
  exact Nat.add_le_add_right (Bucket.length_nodes_le _ _) _

/-- The other buckets keep their places and their chains. -/
theorem Writes.exists_perm (hw : Writes t u p b added) (h : t.Linked) : ∃ others : List Bucket,
    (filledBuckets t.buckets).Perm
      ([bucketAt t.buckets p].filter Bucket.isFilled ++ others) ∧
    (filledBuckets u.buckets).Perm (b :: others) ∧
    ∀ c ∈ others, c ∈ filledBuckets t.buckets ∧ c.nodes u.arena = c.nodes t.arena := by
  obtain ⟨others, hbefore, hafter⟩ := exists_filledBuckets_perm hw.lt_size b
  rw [← hw.buckets_eq, List.filter_cons_of_pos hw.isFilled] at hafter
  refine ⟨others, hbefore, hafter, fun c hc ↦ ?_⟩
  have hmem : c ∈ filledBuckets t.buckets :=
    hbefore.mem_iff.mpr (List.mem_append_right _ hc)
  exact ⟨hmem, Bucket.nodes_extends (h.links c hmem) hw.adds.toExtends⟩

theorem Writes.nodes_perm (hw : Writes t u p b added) (h : t.Linked) :
    u.nodes.Perm (added ++ t.nodes) := by
  obtain ⟨others, hbefore, hafter, hothers⟩ := hw.exists_perm h
  have hsame : others.flatMap (Bucket.nodes u.arena) = others.flatMap (Bucket.nodes t.arena) :=
    List.flatMap_congr fun c hc ↦ (hothers c hc).2
  have hold : t.nodes.Perm
      ((bucketAt t.buckets p).nodes t.arena ++ others.flatMap (Bucket.nodes t.arena)) := by
    have hflat := hbefore.flatMap_right (Bucket.nodes t.arena)
    rwa [List.flatMap_append, flatMap_nodes_filter_isFilled] at hflat
  have hnew : u.nodes.Perm (b.nodes u.arena ++ others.flatMap (Bucket.nodes u.arena)) := by
    have hflat := hafter.flatMap_right (Bucket.nodes u.arena)
    rwa [List.flatMap_cons] at hflat
  rw [hw.nodes_eq, hsame, List.append_assoc] at hnew
  exact hnew.trans (hold.symm.append_left added)

theorem Linked.write (h : t.Linked) (hw : Writes t u p b added) : u.Linked := by
  obtain ⟨others, hbefore, hafter, hothers⟩ := hw.exists_perm h
  have hperm := hw.nodes_perm h
  have hcases : ∀ c ∈ filledBuckets u.buckets, c = b ∨
      (c ∈ filledBuckets t.buckets ∧ c.nodes u.arena = c.nodes t.arena) := by
    intro c hc
    rcases List.mem_cons.mp (hafter.mem_iff.mp hc) with rfl | hc
    · exact Or.inl rfl
    · exact Or.inr (hothers c hc)
  constructor
  · intro c hc
    rcases hcases c hc with rfl | ⟨hmem, hnodes⟩
    · rw [hw.nodes_eq]
      exact hw.links
    · rw [hnodes]
      exact (h.links c hmem).extends hw.adds.toExtends
  · intro c hc hoverflow
    rcases hcases c hc with rfl | ⟨hmem, hnodes⟩
    · rw [hw.nodes_eq]
      exact hw.two_le hoverflow
    · rw [hnodes]
      exact h.two_le c hmem hoverflow
  · rw [hperm.nodup_iff, List.nodup_append']
    refine ⟨hw.adds.nodup, h.nodup, fun i hi hold ↦ ?_⟩
    rw [h.mem_nodes, hw.adds.get?_eq_none i hi] at hold
    cases hold
  · intro i
    rw [hperm.mem_iff, List.mem_append, h.mem_nodes, hw.adds.isSome_get?_iff]
  · rw [hperm.length_eq, List.length_append, h.length_nodes, hw.adds.numNodes_eq, Nat.add_comm]

/-- The groups of the other buckets stay what they were. -/
theorem Writes.groups_perm (hw : Writes t u p b added) (h : t.Linked) : ∃ others : List Group,
    t.groups.Perm
      (([bucketAt t.buckets p].filter Bucket.isFilled).map (Bucket.group t.arena) ++ others) ∧
    u.groups.Perm (b.group u.arena :: others) := by
  obtain ⟨others, hbefore, hafter, hothers⟩ := hw.exists_perm h
  refine ⟨others.map (Bucket.group t.arena), ?_, ?_⟩
  · rw [← List.map_append]
    exact hbefore.map _
  · have hsame : others.map (Bucket.group u.arena) = others.map (Bucket.group t.arena) :=
      List.map_congr_left fun c hc ↦
        Bucket.group_extends (h.links c (hothers c hc).1) hw.adds.toExtends
    rw [← hsame, ← List.map_cons]
    exact hafter.map _

/-! ### The ways of putting a row into a bucket -/

theorem writes_fill {hash : UInt32} (row : RowRef) (hempty : bucketAt t.buckets p = .empty)
    (hp : p < t.buckets.size) : Writes t (t.fill p hash row) p (.inline hash false row) [] where
  lt_size := hp
  buckets_eq := rfl
  isFilled := rfl
  adds := Arena.Adds.refl _
  links := by
    rw [hempty, Bucket.nodes_empty]
    exact Arena.Links.done
  two_le := fun hoverflow ↦ by cases hoverflow

/-- The node of the row that was there and the node of the row in front of it. -/
theorem promote_nodes {hash : UInt32} {matched : Bool} {first : RowRef} (p : Nat) (row : RowRef)
    (hsound : t.arena.Sound) (haddr : t.arena.Addressable) (hfree : 2 ≤ t.arena.free) :
    (t.promote p hash matched first row).arena.get? t.arena.nextIndex =
        some ⟨first, matched, none⟩ ∧
      (t.promote p hash matched first row).arena.get?
          (t.arena.push ⟨first, matched, none⟩).nextIndex =
        some ⟨row, false, some t.arena.nextIndex⟩ ∧
      t.arena.Adds (t.promote p hash matched first row).arena
        [(t.arena.push ⟨first, matched, none⟩).nextIndex, t.arena.nextIndex] := by
  let tail := t.arena.push ⟨first, matched, none⟩
  have hfree₁ : 0 < t.arena.free := by omega
  have hfree₂ : 0 < tail.free := by
    change 0 < t.arena.free - 1
    omega
  have hsound₂ : tail.Sound := hsound.push hfree₁ _
  have haddr₂ : tail.Addressable := haddr.push _
  have hadds := (Arena.Adds.refl t.arena).push hsound haddr hfree₁ ⟨first, matched, none⟩
  refine ⟨?_, ?_, hadds.push hsound₂ haddr₂ hfree₂ _⟩
  · refine (Arena.extends_push hsound₂ haddr₂ hfree₂ _).get?_eq _ _ ?_
    rw [Arena.get?_push hsound haddr hfree₁, if_pos rfl]
  · change (tail.push _).get? tail.nextIndex = _
    rw [Arena.get?_push hsound₂ haddr₂ hfree₂, if_pos rfl]

theorem writes_promote {hash : UInt32} {matched : Bool} {first : RowRef} (row : RowRef)
    (hsound : t.arena.Sound) (haddr : t.arena.Addressable)
    (hbucket : bucketAt t.buckets p = .inline hash matched first) (hfree : 2 ≤ t.arena.free) :
    Writes t (t.promote p hash matched first row) p
      (.chain hash (t.arena.push ⟨first, matched, none⟩).nextIndex)
      [(t.arena.push ⟨first, matched, none⟩).nextIndex, t.arena.nextIndex] := by
  obtain ⟨htail, hhead, hadds⟩ := promote_nodes p row hsound haddr hfree
  have hnodes : (bucketAt t.buckets p).nodes t.arena = [] := by rw [hbucket, Bucket.nodes_inline]
  refine ⟨lt_size_of_isFilled (by rw [hbucket]; rfl), rfl, rfl, hadds, ?_, ?_⟩
  · rw [hnodes]
    exact Arena.Links.step hhead (Arena.Links.step htail Arena.Links.done)
  · rw [hnodes]
    exact fun _ ↦ le_refl 2

theorem get?_prepend {hash : UInt32} {head : NodeIndex} (p : Nat) (row : RowRef)
    (hsound : t.arena.Sound) (haddr : t.arena.Addressable) (hfree : 1 ≤ t.arena.free) :
    (t.prepend p hash head row).arena.get? t.arena.nextIndex = some ⟨row, false, some head⟩ := by
  change (t.arena.push _).get? t.arena.nextIndex = _
  rw [Arena.get?_push hsound haddr hfree, if_pos rfl]

theorem writes_prepend {hash : UInt32} {head : NodeIndex} (row : RowRef) (h : t.Linked)
    (hsound : t.arena.Sound) (haddr : t.arena.Addressable)
    (hbucket : bucketAt t.buckets p = .chain hash head) (hfree : 1 ≤ t.arena.free) :
    Writes t (t.prepend p hash head row) p (.chain hash t.arena.nextIndex)
      [t.arena.nextIndex] := by
  have hfilled : (bucketAt t.buckets p).isFilled = true := by rw [hbucket]; rfl
  have htwo := h.two_le _ (bucketAt_mem_filledBuckets hfilled) (by rw [hbucket]; rfl)
  have hlinks : t.arena.Links (some head) ((bucketAt t.buckets p).nodes t.arena) := by
    have hlinks := h.links_bucketAt p
    rwa [hbucket] at hlinks ⊢
  refine ⟨lt_size_of_isFilled hfilled, rfl, rfl,
    (Arena.Adds.refl t.arena).push hsound haddr hfree _, ?_, ?_⟩
  · have hget : (t.prepend p hash head row).arena.get? t.arena.nextIndex =
        some ⟨row, false, some head⟩ := get?_prepend p row hsound haddr hfree
    exact Arena.Links.step hget (hlinks.extends (Arena.extends_push hsound haddr hfree _))
  · intro _
    rw [List.length_append]
    exact htwo.trans (Nat.le_add_left _ _)

/-! ### Moves that leave the chains alone -/

/-- The heads of the chains and the links of the nodes are the same in both tables. -/
structure SameChains (t u : Table) : Prop where
  heads : ((filledBuckets u.buckets).map Bucket.head?).Perm
    ((filledBuckets t.buckets).map Bucket.head?)
  next_eq : ∀ i, (u.arena.get? i).map Node.next = (t.arena.get? i).map Node.next
  numNodes_eq : u.arena.numNodes = t.arena.numNodes

theorem SameChains.nodes_eq (h : SameChains t u) {b c : Bucket} (hhead : b.head? = c.head?) :
    b.nodes u.arena = c.nodes t.arena := by
  rw [Bucket.nodes, Bucket.nodes, hhead, h.numNodes_eq]
  exact Arena.trail_congr h.next_eq _ _

theorem SameChains.isSome_get? (h : SameChains t u) (i : NodeIndex) :
    (u.arena.get? i).isSome = (t.arena.get? i).isSome := by
  have hnext := congrArg Option.isSome (h.next_eq i)
  rwa [Option.isSome_map, Option.isSome_map] at hnext

theorem SameChains.links (h : SameChains t u) {start : Option NodeIndex} {is : List NodeIndex}
    (hlinks : t.arena.Links start is) : u.arena.Links start is := by
  refine hlinks.mono fun i node hi ↦ ?_
  have hnext := h.next_eq i
  rw [hi, Option.map_some] at hnext
  obtain ⟨kept, hkept, heq⟩ := Option.map_eq_some_iff.mp hnext
  exact ⟨kept, hkept, heq⟩

theorem SameChains.nodes_perm (h : SameChains t u) : u.nodes.Perm t.nodes := by
  have hflat := h.heads.flatMap_right fun head ↦ t.arena.trail head t.arena.numNodes
  rw [List.flatMap_map, List.flatMap_map] at hflat
  have hsame : u.nodes = (filledBuckets u.buckets).flatMap
      fun b ↦ t.arena.trail b.head? t.arena.numNodes :=
    List.flatMap_congr fun b _ ↦ h.nodes_eq rfl
  rw [hsame]
  exact hflat

theorem Linked.of_sameChains (h : t.Linked) (hsame : SameChains t u) : u.Linked := by
  have hperm := hsame.nodes_perm
  have hheads : ∀ b ∈ filledBuckets u.buckets, ∃ c ∈ filledBuckets t.buckets,
      b.head? = c.head? := by
    intro b hb
    obtain ⟨c, hc, hhead⟩ := List.mem_map.mp (hsame.heads.mem_iff.mp (List.mem_map_of_mem hb))
    exact ⟨c, hc, hhead.symm⟩
  constructor
  · intro b hb
    obtain ⟨c, hc, hhead⟩ := hheads b hb
    rw [hsame.nodes_eq hhead, hhead]
    exact hsame.links (h.links c hc)
  · intro b hb hoverflow
    obtain ⟨c, hc, hhead⟩ := hheads b hb
    rw [hsame.nodes_eq hhead]
    refine h.two_le c hc ?_
    rwa [Bucket.hasOverflow_eq_isSome_head?, ← hhead, ← Bucket.hasOverflow_eq_isSome_head?]
  · rw [hperm.nodup_iff]
    exact h.nodup
  · intro i
    rw [hperm.mem_iff, h.mem_nodes, hsame.isSome_get?]
  · rw [hperm.length_eq, h.length_nodes, hsame.numNodes_eq]

theorem sameChains_grow (t : Table) : SameChains t (t.withArena t.arena.grown) where
  heads := List.Perm.refl _
  next_eq := fun i ↦ by
    change (t.arena.grown.get? i).map _ = _
    rw [Arena.get?_grown]
  numNodes_eq := rfl

theorem sameChains_mark (t : Table) (c : Cursor) : SameChains t (c.setMatched t) := by
  match c with
  | .atEnd => exact ⟨List.Perm.refl _, fun i ↦ rfl, rfl⟩
  | .on _ (some node) =>
    refine ⟨List.Perm.refl _, fun i ↦ ?_, rfl⟩
    change ((t.arena.setMatched node).get? i).map _ = _
    rw [Arena.get?_setMatched]
    split_ifs
    · rw [Option.map_map]
      rfl
    · rfl
  | .on p none =>
    refine ⟨?_, fun i ↦ rfl, rfl⟩
    change ((filledBuckets (t.buckets.modify p Bucket.setMatched)).map Bucket.head?).Perm _
    rw [map_filledBuckets_modify _ _ Bucket.head?_setMatched Bucket.isFilled_setMatched]

theorem sameChains_relocate {size : Nat} {buckets : Array Bucket}
    (hmoved : relocate t.probing t.buckets size = some buckets) :
    SameChains t { t with buckets, resizes := t.resizes + 1 } where
  heads := (relocate_eq_some hmoved).2.2.map _
  next_eq := fun _ ↦ rfl
  numNodes_eq := rfl

/-! ### All moves -/

/-- A table at any time: sound, and with its chains while its pages have numbers of 32 bits. -/
structure Intact (t : Table) : Prop where
  sound : t.Sound
  linked : t.arena.Addressable → t.Linked

theorem intact_empty (probing : ProbingMode) (storage : StorageMode) {size : Nat}
    (hpower : PowerOfTwo.IsPower size) (hle : size ≤ Config.maxBuckets) :
    (empty probing storage size).Intact where
  sound := sound_empty probing storage hpower hle
  linked := fun _ ↦ linked_of_empty (filledBuckets_replicate size) rfl

theorem Move.linked (hmove : Move t u) (h : t.Intact) (haddr : u.arena.Addressable) :
    u.Linked := by
  have hsound := h.sound.arena
  cases hmove with
  | search probe => exact (h.linked haddr).of_sameChains ⟨List.Perm.refl _, fun _ ↦ rfl, rfl⟩
  | fill p hash row hempty hreaches =>
    exact (h.linked haddr).write (writes_fill row hempty hreaches.lt_size)
  | grow => exact (h.linked (Arena.Addressable.of_grown haddr)).of_sameChains (sameChains_grow t)
  | promote p hash matched first row hbucket hfree =>
    have haddr : t.arena.Addressable := by
      rwa [Table.promote, Arena.Addressable, Arena.size_pages_push,
        Arena.size_pages_push] at haddr
    exact (h.linked haddr).write (writes_promote row hsound haddr hbucket hfree)
  | prepend p hash head row hbucket hfree =>
    have haddr : t.arena.Addressable := by
      rwa [Table.prepend, Arena.Addressable, Arena.size_pages_push] at haddr
    have hlinked := h.linked haddr
    exact hlinked.write (writes_prepend row hlinked hsound haddr hbucket hfree)
  | mark c =>
    have haddr : t.arena.Addressable := by
      rwa [Arena.Addressable, size_pages_setMatched] at haddr
    exact (h.linked haddr).of_sameChains (sameChains_mark t c)
  | relocate size buckets _ _ _ hmoved =>
    exact (h.linked haddr).of_sameChains (sameChains_relocate hmoved)
  | clear => exact linked_of_empty (filledBuckets_replicate _) rfl

theorem Move.intact (hmove : Move t u) (h : t.Intact) : u.Intact :=
  ⟨hmove.sound h.sound, hmove.linked h⟩

theorem Moves.intact (hmoves : Moves t u) (h : t.Intact) : u.Intact := by
  induction hmoves with
  | refl => exact h
  | tail _ hmove ih => exact hmove.intact ih

end JoinIndex.Table
