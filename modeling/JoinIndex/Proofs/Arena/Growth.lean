import Mathlib
import JoinIndex.Arena

/-!
How an arena grows. A new node gets an index that no node has yet and keeps it: neither nodes nor
pages added later change what stands at an index. Indices are pairs of 32-bit words, so this asks
for an arena of at most `2 ^ 32` pages; a page has at most `2 ^ 18` slots by itself.
-/

set_option autoImplicit false
set_option relaxedAutoImplicit false

namespace JoinIndex.Arena

variable {a : Arena}

/-- Every page has a number of 32 bits. -/
def Addressable (a : Arena) : Prop :=
  a.pages.size ≤ 2 ^ 32

/-- What is true of an arena at any time: its node count, and the bounds on its pages that make a
reservation of up to `minPageNodes` slots possible. -/
structure Sound (a : Arena) : Prop where
  numNodes_eq : a.numNodes = (a.pages.toList.map Array.size).sum
  size_le : ∀ page ∈ a.pages, page.size ≤ maxPageNodes
  free_le : ∀ page, a.pages.back? = some page → page.size + a.free ≤ maxPageNodes
  free_eq_zero : a.pages = #[] → a.free = 0
  minPageNodes_le : minPageNodes ≤ a.nextCapacity
  nextCapacity_le : a.nextCapacity ≤ maxPageNodes

theorem sound_empty : empty.Sound where
  numNodes_eq := rfl
  size_le := fun page h ↦ absurd h (Array.not_mem_empty page)
  free_le := fun page h ↦ by cases h
  free_eq_zero := fun _ ↦ rfl
  minPageNodes_le := le_refl _
  nextCapacity_le := by decide

theorem modify_push_last {α : Type} (init : Array α) (last : α) (f : α → α) :
    (init.push last).modify init.size f = init.push (f last) := by
  ext i h1 h2
  · simp
  · rw [Array.getElem_modify, Array.getElem_push, Array.getElem_push]
    split_ifs with h3 h4 h4
    · omega
    · rfl
    · rfl
    · rw [Array.size_push] at h2
      omega

/-- An arena with a free slot has a last page, which the next node goes to. -/
theorem Sound.exists_last (h : a.Sound) (hfree : 0 < a.free) :
    ∃ (init : Array (Array Node)) (last : Array Node),
      a.pages = init.push last ∧ last.size + a.free ≤ maxPageNodes := by
  have hne : a.pages ≠ #[] := by
    intro hempty
    rw [h.free_eq_zero hempty] at hfree
    omega
  obtain ⟨init, last, hpages⟩ := Array.exists_push_of_ne_empty hne
  refine ⟨init, last, hpages, h.free_le last ?_⟩
  rw [hpages, Array.back?_push]

theorem pages_push {init : Array (Array Node)} {last : Array Node}
    (hpages : a.pages = init.push last) (node : Node) :
    (a.push node).pages = init.push (last.push node) := by
  have hlast : a.pages.size - 1 = init.size := by
    rw [hpages, Array.size_push, Nat.add_sub_cancel]
  change a.pages.modify (a.pages.size - 1) (·.push node) = _
  rw [hlast, hpages]
  exact modify_push_last init last _

theorem nextIndex_eq {init : Array (Array Node)} {last : Array Node}
    (hpages : a.pages = init.push last) :
    a.nextIndex = ⟨init.size.toUInt32, last.size.toUInt32⟩ := by
  rw [nextIndex, hpages, Array.size_push, Array.back?_push]
  rfl

theorem Sound.push (h : a.Sound) (hfree : 0 < a.free) (node : Node) : (a.push node).Sound := by
  obtain ⟨init, last, hpages, hlast⟩ := h.exists_last hfree
  have hpush := pages_push hpages node
  have hcount := h.numNodes_eq
  have hinit := h.size_le
  simp only [hpages, Array.toList_push, List.map_append, List.sum_append, List.map_cons,
    List.map_nil, List.sum_cons, List.sum_nil] at hcount
  rw [hpages] at hinit
  have hslots : (last.push node).size + (a.free - 1) ≤ maxPageNodes := by
    rw [Array.size_push]
    omega
  constructor
  · simp only [hpush, Array.toList_push, List.map_append, List.sum_append, List.map_cons,
      List.map_nil, List.sum_cons, List.sum_nil, Array.size_push]
    change a.numNodes + 1 = _
    omega
  · intro page hpage
    rw [hpush, Array.mem_push] at hpage
    rcases hpage with hpage | rfl
    · exact hinit page (Array.mem_push.mpr (Or.inl hpage))
    · omega
  · intro page hpage
    rw [hpush, Array.back?_push, Option.some.injEq] at hpage
    rw [← hpage]
    exact hslots
  · intro hempty
    rw [hpush] at hempty
    exact absurd hempty (Array.push_ne_empty)
  · exact h.minPageNodes_le
  · exact h.nextCapacity_le

@[simp] theorem size_pages_push (node : Node) : (a.push node).pages.size = a.pages.size := by
  rw [push, Array.size_modify]

theorem Addressable.push (h : a.Addressable) (node : Node) : (a.push node).Addressable := by
  rw [Addressable, size_pages_push]
  exact h

/-- A node stands at its index, and nothing else has changed. -/
theorem get?_push (h : a.Sound) (haddr : a.Addressable) (hfree : 0 < a.free) (node : Node)
    (i : NodeIndex) :
    (a.push node).get? i = if i = a.nextIndex then some node else a.get? i := by
  obtain ⟨init, last, hpages, hlast⟩ := h.exists_last hfree
  have hpage : init.size < 2 ^ 32 := by
    rw [Addressable, hpages, Array.size_push] at haddr
    omega
  have hslot : last.size < 2 ^ 32 := by
    have : maxPageNodes < 2 ^ 32 := by decide
    omega
  have hnext : i = a.nextIndex ↔ i.page.toNat = init.size ∧ i.slot.toNat = last.size := by
    rw [nextIndex_eq hpages]
    constructor
    · rintro rfl
      exact ⟨UInt32.toNat_ofNat_of_lt' hpage, UInt32.toNat_ofNat_of_lt' hslot⟩
    · rintro ⟨h1, h2⟩
      rw [← h1, ← h2]
      simp
  rw [get?, get?, pages_push hpages, hpages, Array.getElem?_push, Array.getElem?_push]
  by_cases hp : i.page.toNat = init.size
  · rw [if_pos hp, if_pos hp, Option.bind_some, Option.bind_some, Array.getElem?_push]
    by_cases hs : i.slot.toNat = last.size
    · rw [if_pos hs, if_pos (hnext.mpr ⟨hp, hs⟩)]
    · rw [if_neg hs, if_neg fun hi ↦ hs (hnext.mp hi).2]
  · rw [if_neg hp, if_neg hp, if_neg fun hi ↦ hp (hnext.mp hi).1]

theorem get?_nextIndex (h : a.Sound) (haddr : a.Addressable) (hfree : 0 < a.free) :
    a.get? a.nextIndex = none := by
  obtain ⟨init, last, hpages, hlast⟩ := h.exists_last hfree
  have hpage : init.size < 2 ^ 32 := by
    rw [Addressable, hpages, Array.size_push] at haddr
    omega
  have hslot : last.size < 2 ^ 32 := by
    have : maxPageNodes < 2 ^ 32 := by decide
    omega
  rw [nextIndex_eq hpages, get?, hpages, UInt32.toNat_ofNat_of_lt' hpage,
    UInt32.toNat_ofNat_of_lt' hslot, Array.getElem?_push_size, Option.bind_some]
  exact Array.getElem?_eq_none (le_refl _)

/-! ### New pages -/

/-- The arena with one more page, which has no node yet. -/
def grown (a : Arena) : Arena :=
  { a with
    pages := a.pages.push #[]
    free := a.nextCapacity
    nextCapacity := min (2 * a.nextCapacity) maxPageNodes
    byteSize := a.byteSize + a.nextCapacity * nodeBytes }

/-- Free slots were made available: they were there, or on a page that has been charged. -/
inductive Ensured (a : Arena) (budget : Budget) (count : Nat) : Arena → Budget → Prop where
  | free (hfree : count ≤ a.free) : Ensured a budget count a budget
  | page (hfree : a.free < count) (hadmits : budget.admits (a.nextCapacity * nodeBytes) = true) :
      Ensured a budget count a.grown (budget.charge (a.nextCapacity * nodeBytes))

/-- Free slots are made available, or a page is refused and the arena stays as it is. -/
theorem ensure_cases (a : Arena) (budget : Budget) (count : Nat) :
    (∃ arena charged, a.ensure budget count = (true, arena, charged) ∧
      Ensured a budget count arena charged) ∨
    (a.ensure budget count = (false, a, budget.refuse) ∧ a.free < count ∧
      budget.admits (a.nextCapacity * nodeBytes) = false) := by
  rw [ensure]
  split_ifs with hfree
  · exact Or.inl ⟨a, budget, rfl, Ensured.free hfree⟩
  · have hlt : a.free < count := by omega
    rw [grow]
    cases hadmits : budget.admits (a.nextCapacity * nodeBytes) with
    | true => exact Or.inl ⟨a.grown, _, by simp [grown], Ensured.page hlt hadmits⟩
    | false => exact Or.inr ⟨by simp, hlt, rfl⟩

theorem Sound.grown (h : a.Sound) : a.grown.Sound where
  numNodes_eq := by
    change a.numNodes = ((a.pages.push #[]).toList.map Array.size).sum
    rw [Array.toList_push, List.map_append, List.sum_append]
    exact h.numNodes_eq
  size_le := by
    intro page hpage
    rcases Array.mem_push.mp hpage with hpage | rfl
    · exact h.size_le page hpage
    · exact Nat.zero_le _
  free_le := by
    intro page hpage
    change (a.pages.push #[]).back? = some page at hpage
    rw [Array.back?_push, Option.some.injEq] at hpage
    rw [← hpage]
    change 0 + a.nextCapacity ≤ maxPageNodes
    rw [Nat.zero_add]
    exact h.nextCapacity_le
  free_eq_zero := fun hempty ↦ absurd hempty Array.push_ne_empty
  minPageNodes_le := le_min (by have := h.minPageNodes_le; omega) (by decide)
  nextCapacity_le := min_le_right _ _

/-- A new page has room for every reservation that may be asked for, and without one the slots are
those that were free before. -/
theorem Ensured.le_free_of_imp {budget charged : Budget} {count more : Nat} {arena : Arena}
    (h : a.Ensured budget more arena charged) (hsound : a.Sound) (hcount : count ≤ minPageNodes)
    (himp : more ≤ a.free → count ≤ a.free) : count ≤ arena.free := by
  cases h with
  | free hfree => exact himp hfree
  | page => exact hcount.trans hsound.minPageNodes_le

theorem Ensured.le_free {budget charged : Budget} {count : Nat} {arena : Arena}
    (h : a.Ensured budget count arena charged) (hsound : a.Sound) (hcount : count ≤ minPageNodes) :
    count ≤ arena.free :=
  h.le_free_of_imp hsound hcount id

theorem size_pages_grown (a : Arena) : a.grown.pages.size = a.pages.size + 1 :=
  Array.size_push _

/-- A node that has a free slot is stored there, and the budget is not asked. -/
theorem alloc_eq_of_free (hfree : 0 < a.free) (budget : Budget) (node : Node) :
    a.alloc budget node = (some a.nextIndex, a.push node, budget) := by
  have hone : 1 ≤ a.free := hfree
  rw [alloc, ensure, if_pos hone]

/-- At most one page is added, and it is charged. -/
theorem Ensured.exists_pages {budget charged : Budget} {count : Nat} {arena : Arena}
    (h : a.Ensured budget count arena charged) :
    ∃ pages ≤ 1, arena.pages.size = a.pages.size + pages ∧
      arena.byteSize = a.byteSize + pages * (a.nextCapacity * nodeBytes) ∧
      charged.consumed = budget.consumed + pages * (a.nextCapacity * nodeBytes) ∧
      charged.limit = budget.limit := by
  cases h with
  | free =>
    refine ⟨0, Nat.zero_le 1, rfl, ?_, ?_, rfl⟩
    · rw [Nat.zero_mul, Nat.add_zero]
    · rw [Nat.zero_mul, Nat.add_zero]
  | page =>
    refine ⟨1, le_refl 1, size_pages_grown a, ?_, ?_, rfl⟩
    · rw [Nat.one_mul, grown]
    · rw [Nat.one_mul, Budget.charge]

@[simp] theorem get?_grown (a : Arena) (i : NodeIndex) : a.grown.get? i = a.get? i := by
  rw [get?, get?]
  change (a.pages.push #[])[i.page.toNat]?.bind _ = _
  rw [Array.getElem?_push]
  split_ifs with hp
  · rw [Array.getElem?_eq_none (by omega : a.pages.size ≤ i.page.toNat)]
    rfl
  · rfl

theorem Addressable.of_grown (h : a.grown.Addressable) : a.Addressable := by
  rw [Addressable, size_pages_grown] at h
  rw [Addressable]
  omega

/-! ### Changed nodes -/

theorem map_modify_of_invariant {α β : Type} (g : α → β) (f : α → α) (hf : ∀ x, g (f x) = g x)
    (l : List α) (k : Nat) : (l.modify k f).map g = l.map g := by
  apply List.ext_getElem?
  intro i
  rw [List.getElem?_map, List.getElem?_map, List.getElem?_modify]
  cases l[i]? with
  | none => rfl
  | some x =>
    split_ifs
    · exact congrArg some (hf x)
    · rfl

section Modify

variable (a : Arena) (i j : NodeIndex) (change : Node → Node)

/-- The node at the index is changed, and no other. -/
theorem get?_modify :
    (a.modify i change).get? j = if j = i then (a.get? j).map change else a.get? j := by
  change (a.pages.modify i.page.toNat fun page ↦ page.modify i.slot.toNat change)[
    j.page.toNat]?.bind (fun page ↦ page[j.slot.toNat]?) = _
  have hindex : j = i ↔ i.page.toNat = j.page.toNat ∧ i.slot.toNat = j.slot.toNat := by
    rw [UInt32.toNat_inj, UInt32.toNat_inj, eq_comm]
    cases i
    cases j
    rw [NodeIndex.mk.injEq]
  rw [Array.getElem?_modify, get?]
  by_cases hp : i.page.toNat = j.page.toNat
  · rw [if_pos hp]
    cases hpage : a.pages[j.page.toNat]? with
    | none => simp
    | some page =>
      simp only [Option.map_some, Option.bind_some]
      rw [Array.getElem?_modify]
      by_cases hs : i.slot.toNat = j.slot.toNat
      · rw [if_pos hs, if_pos (hindex.mpr ⟨hp, hs⟩)]
      · rw [if_neg hs, if_neg fun hi ↦ hs (hindex.mp hi).2]
  · rw [if_neg hp, if_neg fun hi ↦ hp (hindex.mp hi).1]

@[simp] theorem size_pages_modify : (a.modify i change).pages.size = a.pages.size :=
  Array.size_modify

theorem sizes_modify :
    (a.modify i change).pages.toList.map Array.size = a.pages.toList.map Array.size := by
  rw [modify, Array.toList_modify]
  exact map_modify_of_invariant _ _ (fun page ↦ Array.size_modify) _ _

end Modify

theorem Sound.modify (h : a.Sound) (i : NodeIndex) (change : Node → Node) :
    (a.modify i change).Sound := by
  have hsizes := sizes_modify a i change
  constructor
  · rw [hsizes]
    exact h.numNodes_eq
  · intro page hpage
    have hmem : page.size ∈ (a.modify i change).pages.toList.map Array.size :=
      List.mem_map_of_mem (Array.mem_toList_iff.mpr hpage)
    rw [hsizes, List.mem_map] at hmem
    obtain ⟨old, hold, heq⟩ := hmem
    rw [← heq]
    exact h.size_le old (Array.mem_toList_iff.mp hold)
  · intro page hpage
    have hlast := congrArg List.getLast? hsizes
    rw [List.getLast?_map, List.getLast?_map, Array.getLast?_toList, Array.getLast?_toList, hpage,
      Option.map_some] at hlast
    obtain ⟨old, hold, heq⟩ := Option.map_eq_some_iff.mp hlast.symm
    rw [← heq]
    exact h.free_le old hold
  · intro hempty
    refine h.free_eq_zero ?_
    rw [← Array.size_eq_zero_iff, ← size_pages_modify a i change, hempty]
    rfl
  · exact h.minPageNodes_le
  · exact h.nextCapacity_le

/-! ### Marks -/

/-- The node with its mark set. -/
def markNode (node : Node) : Node := { node with matched := true }

theorem get?_setMatched (a : Arena) (i j : NodeIndex) :
    (a.setMatched i).get? j = if j = i then (a.get? j).map markNode else a.get? j :=
  get?_modify a i j markNode

@[simp] theorem size_pages_setMatched (a : Arena) (i : NodeIndex) :
    (a.setMatched i).pages.size = a.pages.size :=
  size_pages_modify a i markNode

theorem Sound.setMatched (h : a.Sound) (i : NodeIndex) : (a.setMatched i).Sound :=
  h.modify i markNode

end JoinIndex.Arena
