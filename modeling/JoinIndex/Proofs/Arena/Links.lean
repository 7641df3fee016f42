import JoinIndex.Proofs.Arena.Growth

/-!
Chains of nodes. `Links` holds of a start and the nodes that the links lead through from it to a
node without a link, and `trail` computes them. Links lead on from a node that is there, and lead
to the same nodes in every later arena in which the nodes keep their links.
-/

set_option autoImplicit false
set_option relaxedAutoImplicit false

namespace JoinIndex.Arena

variable {a b : Arena}

/-- From a start the links lead through these nodes, each of them in the arena, to a node without a
link. -/
inductive Links (a : Arena) : Option NodeIndex → List NodeIndex → Prop where
  | done : Links a none []
  | step {i : NodeIndex} {node : Node} {rest : List NodeIndex} (hget : a.get? i = some node)
      (hrest : Links a node.next rest) : Links a (some i) (i :: rest)

/-- The nodes met on the links from a start, at most `count` of them. -/
def trail (a : Arena) : Option NodeIndex → Nat → List NodeIndex
  | none, _ => []
  | some _, 0 => []
  | some i, count + 1 =>
    match a.get? i with
    | none => []
    | some node => i :: a.trail node.next count

theorem trail_length_le (a : Arena) (start : Option NodeIndex) (count : Nat) :
    (a.trail start count).length ≤ count := by
  induction count generalizing start with
  | zero => cases start <;> exact le_refl 0
  | succ count ih =>
    cases start with
    | none => exact Nat.zero_le _
    | some i =>
      rw [trail]
      cases a.get? i with
      | none => exact Nat.zero_le _
      | some node => exact Nat.succ_le_succ (ih node.next)

theorem Links.trail_eq {start : Option NodeIndex} {nodes : List NodeIndex} {count : Nat}
    (h : a.Links start nodes) (hcount : nodes.length ≤ count) : a.trail start count = nodes := by
  induction h generalizing count with
  | done => cases count <;> rfl
  | step hget _ ih =>
    rw [List.length_cons] at hcount
    obtain ⟨count, rfl⟩ := Nat.exists_eq_add_of_le' (Nat.one_le_of_lt hcount)
    rw [trail, hget]
    simp only [List.cons.injEq, true_and]
    exact ih (by omega)

/-- Links depend on the links of the nodes and on nothing else. -/
theorem Links.mono {start : Option NodeIndex} {nodes : List NodeIndex} (h : a.Links start nodes)
    (hkeeps : ∀ i node, a.get? i = some node → ∃ kept, b.get? i = some kept ∧
      kept.next = node.next) : b.Links start nodes := by
  induction h with
  | done => exact Links.done
  | step hget _ ih =>
    obtain ⟨kept, hkept, hnext⟩ := hkeeps _ _ hget
    refine Links.step hkept ?_
    rw [hnext]
    exact ih

theorem Links.isSome_get? {start : Option NodeIndex} {nodes : List NodeIndex} {i : NodeIndex}
    (h : a.Links start nodes) (hi : i ∈ nodes) : (a.get? i).isSome = true := by
  induction h with
  | done => cases hi
  | step hget _ ih =>
    rcases List.mem_cons.mp hi with rfl | hrest
    · rw [hget]
      rfl
    · exact ih hrest

/-- Every node of the first arena is in the second one as well. -/
structure Extends (a b : Arena) : Prop where
  get?_eq : ∀ i node, a.get? i = some node → b.get? i = some node
  numNodes_le : a.numNodes ≤ b.numNodes

theorem Extends.refl (a : Arena) : Extends a a := ⟨fun _ _ h ↦ h, le_refl _⟩

theorem Extends.trans {c : Arena} (hab : Extends a b) (hbc : Extends b c) : Extends a c :=
  ⟨fun i node h ↦ hbc.get?_eq i node (hab.get?_eq i node h), hab.numNodes_le.trans hbc.numNodes_le⟩

theorem extends_push (hsound : a.Sound) (haddr : a.Addressable) (hfree : 0 < a.free)
    (node : Node) : Extends a (a.push node) := by
  refine ⟨fun i kept hi ↦ ?_, Nat.le_succ _⟩
  have hne : i ≠ a.nextIndex := by
    rintro rfl
    rw [get?_nextIndex hsound haddr hfree] at hi
    cases hi
  rw [get?_push hsound haddr hfree, if_neg hne]
  exact hi

/-- The second arena has these nodes, which are new, besides the nodes of the first one. -/
structure Adds (a b : Arena) (added : List NodeIndex) : Prop extends Extends a b where
  nodup : added.Nodup
  get?_eq_none : ∀ i ∈ added, a.get? i = none
  isSome_get?_iff : ∀ i, (b.get? i).isSome = true ↔ i ∈ added ∨ (a.get? i).isSome = true
  numNodes_eq : b.numNodes = a.numNodes + added.length

theorem Adds.refl (a : Arena) : Adds a a [] where
  toExtends := Extends.refl a
  nodup := List.nodup_nil
  get?_eq_none := fun i hi ↦ absurd hi List.not_mem_nil
  isSome_get?_iff := fun i ↦ by simp
  numNodes_eq := rfl

theorem Adds.push {added : List NodeIndex} (h : Adds a b added) (hsound : b.Sound)
    (haddr : b.Addressable) (hfree : 0 < b.free) (node : Node) :
    Adds a (b.push node) (b.nextIndex :: added) := by
  have hvacant := get?_nextIndex hsound haddr hfree
  have hunused : b.nextIndex ∉ added ∧ a.get? b.nextIndex = none := by
    have hnone : ¬ (b.get? b.nextIndex).isSome = true := by simp [hvacant]
    rw [h.isSome_get?_iff, not_or, Bool.not_eq_true, Option.isSome_eq_false_iff,
      Option.isNone_iff_eq_none] at hnone
    exact hnone
  refine ⟨h.toExtends.trans (extends_push hsound haddr hfree node), ?_, ?_, ?_, ?_⟩
  · exact List.nodup_cons.mpr ⟨hunused.1, h.nodup⟩
  · intro i hi
    rcases List.mem_cons.mp hi with rfl | hi
    · exact hunused.2
    · exact h.get?_eq_none i hi
  · intro i
    rw [get?_push hsound haddr hfree, List.mem_cons, or_assoc, ← h.isSome_get?_iff]
    split_ifs with hi
    · simp [hi]
    · simp [hi]
  · rw [List.length_cons, ← Nat.add_assoc, ← h.numNodes_eq]
    rfl

theorem Links.extends {start : Option NodeIndex} {nodes : List NodeIndex}
    (h : a.Links start nodes) (hab : Extends a b) : b.Links start nodes :=
  h.mono fun i node hi ↦ ⟨node, hab.get?_eq i node hi, rfl⟩

/-- Trails depend on the links of the nodes and on nothing else. -/
theorem trail_congr (h : ∀ i, (a.get? i).map Node.next = (b.get? i).map Node.next)
    (start : Option NodeIndex) (count : Nat) : a.trail start count = b.trail start count := by
  induction count generalizing start with
  | zero => cases start <;> rfl
  | succ count ih =>
    cases start with
    | none => rfl
    | some i =>
      rw [trail, trail]
      have hi := h i
      cases ha : a.get? i with
      | none =>
        rw [ha] at hi
        rw [Option.map_eq_none_iff.mp hi.symm]
      | some node =>
        rw [ha] at hi
        obtain ⟨kept, hkept, hnext⟩ := Option.map_eq_some_iff.mp hi.symm
        rw [hkept]
        simp only
        rw [hnext, ih]

end JoinIndex.Arena
