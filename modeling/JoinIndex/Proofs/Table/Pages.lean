import JoinIndex.Proofs.Table.Moves

/-!
The slots of an arena. The pages follow one plan: the first has room for `minPageNodes` nodes and
each further one for twice as many as the page before it, up to `maxPageNodes`. What an arena has
charged are the bytes of all these slots, whether they hold a node or not, and no page holds more
nodes than it has slots.
-/

set_option autoImplicit false
set_option relaxedAutoImplicit false

namespace JoinIndex

namespace Arena

variable {a : Arena}

/-- The slots of the page with a number. -/
def pageSlots (page : ℕ) : ℕ :=
  min (minPageNodes * 2 ^ page) maxPageNodes

theorem pageSlots_zero : pageSlots 0 = minPageNodes := by
  decide

theorem pageSlots_succ (page : ℕ) :
    pageSlots (page + 1) = min (2 * pageSlots page) maxPageNodes := by
  unfold pageSlots
  rw [pow_succ, ← Nat.mul_assoc]
  omega

/-- The slots of all pages. -/
def slots (a : Arena) : ℕ :=
  ((List.range a.pages.size).map pageSlots).sum

/-- The pages of an arena follow the plan, and their slots are what is charged. -/
structure Paged (a : Arena) : Prop where
  nextCapacity_eq : a.nextCapacity = pageSlots a.pages.size
  byteSize_eq : a.byteSize = nodeBytes * a.slots
  size_le : ∀ (k : ℕ) (page : Array Node), a.pages[k]? = some page → page.size ≤ pageSlots k
  free_eq : ∀ page : Array Node, a.pages[a.pages.size - 1]? = some page →
    page.size + a.free = pageSlots (a.pages.size - 1)

/-! ### Single pages -/

theorem pages_grown_cases {k : ℕ} {page : Array Node} (h : a.grown.pages[k]? = some page) :
    k = a.pages.size ∧ page = #[] ∨ a.pages[k]? = some page := by
  change (a.pages.push #[])[k]? = some page at h
  rw [Array.getElem?_push] at h
  split_ifs at h with hlast
  · exact Or.inl ⟨hlast, (Option.some.inj h).symm⟩
  · exact Or.inr h

/-- A new node goes to the last page, and the other pages stay as they are. -/
theorem pages_push_cases {k : ℕ} {page : Array Node} {node : Node}
    (h : (a.push node).pages[k]? = some page) :
    a.pages[k]? = some page ∧ a.pages.size - 1 ≠ k ∨
      a.pages.size - 1 = k ∧ ∃ old, a.pages[k]? = some old ∧ page = old.push node := by
  change (a.pages.modify (a.pages.size - 1) (·.push node))[k]? = some page at h
  rw [Array.getElem?_modify] at h
  split_ifs at h with hk
  · obtain ⟨old, hold, rfl⟩ := Option.map_eq_some_iff.mp h
    exact Or.inr ⟨hk, old, hold, rfl⟩
  · exact Or.inl ⟨h, hk⟩

/-- A page has as many nodes as before one of them was changed. -/
theorem exists_page_of_modify {i : NodeIndex} {change : Node → Node} {k : ℕ} {page : Array Node}
    (h : (a.modify i change).pages[k]? = some page) :
    ∃ old, a.pages[k]? = some old ∧ old.size = page.size := by
  have hsize := congrArg (·[k]?) (sizes_modify a i change)
  simp only [List.getElem?_map, Array.getElem?_toList, h, Option.map_some] at hsize
  exact Option.map_eq_some_iff.mp hsize.symm

/-! ### The plan is kept -/

theorem paged_empty : empty.Paged where
  nextCapacity_eq := pageSlots_zero.symm
  byteSize_eq := rfl
  size_le := fun _ _ h ↦ by simp [empty] at h
  free_eq := fun _ h ↦ by simp [empty] at h

theorem Paged.grown (h : a.Paged) : a.grown.Paged := by
  have hsize : a.grown.pages.size = a.pages.size + 1 := size_pages_grown a
  constructor
  · rw [hsize, pageSlots_succ, ← h.nextCapacity_eq]
    rfl
  · show a.byteSize + a.nextCapacity * nodeBytes = nodeBytes * a.grown.slots
    rw [slots, hsize, List.range_succ, List.map_append, List.sum_append, Nat.mul_add,
      h.byteSize_eq, h.nextCapacity_eq, slots]
    simp [Nat.mul_comm]
  · intro k page hpage
    rcases pages_grown_cases hpage with ⟨-, rfl⟩ | hold
    · exact Nat.zero_le _
    · exact h.size_le k page hold
  · intro page hpage
    change (a.pages.push #[])[a.grown.pages.size - 1]? = some page at hpage
    rw [hsize, Nat.add_sub_cancel, Array.getElem?_push_size] at hpage
    obtain rfl := Option.some.inj hpage
    show 0 + a.nextCapacity = pageSlots (a.grown.pages.size - 1)
    rw [Nat.zero_add, h.nextCapacity_eq, hsize, Nat.add_sub_cancel]

theorem slots_push (a : Arena) (node : Node) : (a.push node).slots = a.slots := by
  rw [slots, slots, size_pages_push]

/-- A node that has a free slot takes a slot of the last page. -/
theorem Paged.push (h : a.Paged) (hfree : 0 < a.free) (node : Node) : (a.push node).Paged := by
  have hlast : ∀ {k : ℕ} {old : Array Node}, a.pages[k]? = some old → a.pages.size - 1 = k →
      (old.push node).size + (a.free - 1) = pageSlots k := by
    intro k old hold hk
    rw [← hk] at hold
    have hslots := h.free_eq old hold
    rw [Array.size_push, ← hk]
    omega
  constructor
  · rw [size_pages_push]
    exact h.nextCapacity_eq
  · rw [slots_push]
    exact h.byteSize_eq
  · intro k page hpage
    rcases pages_push_cases hpage with ⟨hold, -⟩ | ⟨hk, old, hold, rfl⟩
    · exact h.size_le k page hold
    · exact (Nat.le_add_right _ _).trans (hlast hold hk).le
  · intro page hpage
    rw [size_pages_push] at hpage ⊢
    rcases pages_push_cases hpage with ⟨-, hne⟩ | ⟨hk, old, hold, rfl⟩
    · exact absurd rfl hne
    · exact hlast hold hk

theorem Paged.modify (h : a.Paged) (i : NodeIndex) (change : Node → Node) :
    (a.modify i change).Paged := by
  constructor
  · rw [size_pages_modify]
    exact h.nextCapacity_eq
  · rw [slots, size_pages_modify]
    exact h.byteSize_eq
  · intro k page hpage
    obtain ⟨old, hold, hsize⟩ := exists_page_of_modify hpage
    rw [← hsize]
    exact h.size_le k old hold
  · intro page hpage
    rw [size_pages_modify] at hpage ⊢
    obtain ⟨old, hold, hsize⟩ := exists_page_of_modify hpage
    rw [← hsize]
    exact h.free_eq old hold

theorem Paged.setMatched (h : a.Paged) (i : NodeIndex) : (a.setMatched i).Paged :=
  h.modify i markNode

end Arena

namespace Table

variable {t u : Table}

theorem Move.paged (hmove : Move t u) (h : t.arena.Paged) : u.arena.Paged := by
  cases hmove with
  | search => exact h
  | fill => exact h
  | grow => exact h.grown
  | promote p hash matched first row _ hfree =>
    have hfree' : 0 < (t.arena.push ⟨first, matched, none⟩).free := by
      show 0 < t.arena.free - 1
      omega
    exact (h.push (by omega) _).push hfree' _
  | prepend p hash head row _ hfree => exact h.push hfree _
  | mark c =>
    match c with
    | .atEnd => exact h
    | .on _ (some node) => exact h.setMatched node
    | .on _ none => exact h
  | relocate => exact h
  | clear => exact Arena.paged_empty

theorem Moves.paged (hmoves : Moves t u) (h : t.arena.Paged) : u.arena.Paged := by
  induction hmoves with
  | refl => exact h
  | tail _ hmove ih => exact hmove.paged ih

/-- The bytes of a table are those of its buckets and of the slots of its pages. -/
theorem byteSize_eq_of_paged (h : t.arena.Paged) :
    t.byteSize = 24 * t.buckets.size + 32 * t.arena.slots := by
  rw [byteSize, bucketBytes, h.byteSize_eq, Nat.mul_comm]
  rfl

end Table

end JoinIndex
