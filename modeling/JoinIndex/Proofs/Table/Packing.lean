import JoinIndex.Proofs.Table.Pages
import JoinIndex.Proofs.Table.Soundness

/-!
How well the pages of an arena are used. Nodes are put on the last page until it has fewer free
slots than a row needs, which are two at most, so that one slot at most stays unused on every page
that is left behind, and there is a node on every page. `Packed` counts this over all pages, and
`Dense` says it of each of them. A page is never larger than all pages before it by more than the
first one, so that the slots without a node are about as many as the nodes.
-/

set_option autoImplicit false
set_option relaxedAutoImplicit false

namespace JoinIndex

namespace Arena

variable {a arena : Arena}

theorem slots_grown (a : Arena) : a.grown.slots = a.slots + pageSlots a.pages.size := by
  rw [slots, slots, size_pages_grown, List.range_succ, List.map_append, List.sum_append]
  rfl

theorem minPageNodes_le_pageSlots (page : ℕ) : minPageNodes ≤ pageSlots page := by
  have hpos : 1 ≤ 2 ^ page := Nat.one_le_two_pow
  refine le_min ?_ (by decide)
  rw [minPageNodes]
  omega

/-- A page has no more slots than all pages before it, but for those of the first page. -/
theorem pageSlots_le_sum (page : ℕ) :
    pageSlots page ≤ ((List.range page).map pageSlots).sum + minPageNodes := by
  induction page with
  | zero => exact pageSlots_zero.le
  | succ page ih =>
    rw [List.range_succ, List.map_append, List.sum_append, pageSlots_succ]
    change min _ _ ≤ _ + (pageSlots page + 0) + _
    have hmin := min_le_left (2 * pageSlots page) maxPageNodes
    omega

theorem minPageNodes_mul_le_sum (pages : ℕ) :
    minPageNodes * pages ≤ ((List.range pages).map pageSlots).sum := by
  induction pages with
  | zero => exact Nat.zero_le _
  | succ pages ih =>
    have hpage := minPageNodes_le_pageSlots pages
    rw [List.range_succ, List.map_append, List.sum_append, Nat.mul_succ]
    change _ ≤ _ + (pageSlots pages + 0)
    omega

/-- An arena with a page has charged the slots of the first one. -/
theorem minPageNodes_le_slots (h : 0 < a.pages.size) : minPageNodes ≤ a.slots :=
  (Nat.le_mul_of_pos_right _ h).trans (minPageNodes_mul_le_sum _)

/-- The pages that are left behind miss one node at most, and every page has a node, as soon as
`pending` more nodes are on them. -/
structure Packed (a : Arena) (pending : ℕ) : Prop where
  slots_le : a.slots ≤ a.numNodes + a.free + (a.pages.size - 1)
  pages_le : a.pages.size ≤ a.numNodes + pending

theorem packed_empty : empty.Packed 0 :=
  ⟨Nat.zero_le _, le_refl 0⟩

/-- Two slots are the most that are asked for, so that a page with two is not left behind. -/
theorem Ensured.packed {budget charged : Budget} {count : ℕ}
    (h : a.Ensured budget count arena charged) (hcount : count ≤ 2) (hpaged : a.Paged)
    (hpacked : a.Packed 0) : arena.Packed 1 := by
  obtain ⟨hslots, hpages⟩ := hpacked
  cases h with
  | free => exact ⟨hslots, hpages.trans (Nat.le_succ _)⟩
  | page hfree =>
    constructor
    · rw [slots_grown, size_pages_grown, ← hpaged.nextCapacity_eq]
      change _ ≤ a.numNodes + a.nextCapacity + _
      rcases Nat.eq_zero_or_pos a.pages.size with hzero | hpos
      · have hnone : a.slots = 0 := by
          rw [slots, hzero]
          rfl
        omega
      · omega
    · rw [size_pages_grown]
      exact Nat.succ_le_succ hpages

theorem Packed.push {pending : ℕ} (h : a.Packed pending) (hfree : 0 < a.free) (node : Node) :
    (a.push node).Packed (pending - 1) := by
  obtain ⟨hslots, hpages⟩ := h
  constructor
  · rw [slots_push, size_pages_push]
    change _ ≤ a.numNodes + 1 + (a.free - 1) + _
    omega
  · rw [size_pages_push]
    change _ ≤ a.numNodes + 1 + _
    omega

/-- There are slots only where there are nodes. -/
theorem Packed.slots_eq_zero_iff (h : a.Packed 0) (hsound : a.Sound) :
    a.slots = 0 ↔ a.numNodes = 0 := by
  have hpages := h.pages_le
  constructor
  · intro hslots
    have hzero : a.pages.size = 0 := by
      by_contra hpos
      have hfirst := minPageNodes_le_slots (Nat.pos_of_ne_zero hpos)
      have hmin : minPageNodes = 1024 := rfl
      omega
    rw [hsound.numNodes_eq, Array.size_eq_zero_iff.mp hzero]
    rfl
  · intro hnodes
    rw [slots, show a.pages.size = 0 by omega]
    rfl

/-- The free slots are on the last page, so that the nodes fill the pages behind it but for one slot
each, and the last page has no more slots than these pages and the first one. -/
theorem Packed.sum_behind_le (h : a.Packed 0) (hpaged : a.Paged) {behind : ℕ}
    (hbehind : a.pages.size = behind + 1) :
    ((List.range behind).map pageSlots).sum ≤ a.numNodes + behind ∧
      a.slots ≤ 2 * ((List.range behind).map pageSlots).sum + 1024 := by
  have hsum : a.slots = ((List.range behind).map pageSlots).sum + pageSlots behind := by
    rw [slots, hbehind, List.range_succ, List.map_append, List.sum_append]
    rfl
  have hfree : a.free ≤ pageSlots behind := by
    obtain ⟨page, hpage⟩ : ∃ page, a.pages[a.pages.size - 1]? = some page :=
      ⟨_, Array.getElem?_eq_getElem (by omega)⟩
    have hlast := hpaged.free_eq page hpage
    rw [hbehind, Nat.add_sub_cancel] at hlast
    omega
  have hslots := h.slots_le
  have hlast : pageSlots behind ≤ _ + 1024 := pageSlots_le_sum behind
  constructor
  · omega
  · omega

/-- The slots are at most twice as many as the nodes and the pages, and one first page. -/
theorem Packed.slots_le_numNodes_add_pages (h : a.Packed 0) (hpaged : a.Paged) :
    a.slots ≤ 2 * (a.numNodes + a.pages.size) + 1024 := by
  rcases Nat.eq_zero_or_pos a.pages.size with hzero | hpos
  · rw [slots, hzero]
    exact Nat.zero_le _
  obtain ⟨behind, hbehind⟩ := Nat.exists_eq_add_of_le' hpos
  obtain ⟨hsum, hslots⟩ := h.sum_behind_le hpaged hbehind
  omega

/-- The slots are about twice as many as the nodes, and one first page. -/
theorem Packed.slots_le_numNodes (h : a.Packed 0) (hpaged : a.Paged) :
    a.slots ≤ 2 * a.numNodes + 2 * (a.numNodes / 1023) + 1024 := by
  rcases Nat.eq_zero_or_pos a.pages.size with hzero | hpos
  · rw [slots, hzero]
    exact Nat.zero_le _
  obtain ⟨behind, hbehind⟩ := Nat.exists_eq_add_of_le' hpos
  obtain ⟨hsum, hslots⟩ := h.sum_behind_le hpaged hbehind
  have hfirst : 1024 * behind ≤ _ := minPageNodes_mul_le_sum behind
  omega

/-! ### Single pages -/

/-- On every page that is left behind there is a node in each slot, but for one slot at most. -/
def FullBehind (a : Arena) : Prop :=
  ∀ (k : ℕ) (page : Array Node), a.pages[k]? = some page → k + 1 < a.pages.size →
    pageSlots k ≤ page.size + 1

/-- The pages that are left behind are full in this way, and there is a node on the last page. -/
structure Dense (a : Arena) : Prop where
  behind : a.FullBehind
  last : ∀ page : Array Node, a.pages[a.pages.size - 1]? = some page → 0 < page.size

theorem dense_empty : empty.Dense where
  behind := fun _ _ h ↦ by simp [empty] at h
  last := fun _ h ↦ by simp [empty] at h

/-- The last page is left behind only when it has fewer free slots than a row needs. -/
theorem Ensured.fullBehind {budget charged : Budget} {count : ℕ}
    (h : a.Ensured budget count arena charged) (hcount : count ≤ 2) (hpaged : a.Paged)
    (hfull : a.FullBehind) : arena.FullBehind := by
  cases h with
  | free => exact hfull
  | page hfree =>
    intro k page hpage hk
    rw [size_pages_grown] at hk
    rcases pages_grown_cases hpage with ⟨rfl, -⟩ | hold
    · omega
    · rcases Nat.lt_or_ge (k + 1) a.pages.size with hlt | hge
      · exact hfull k page hold hlt
      · obtain rfl : k = a.pages.size - 1 := by omega
        have hslots := hpaged.free_eq page hold
        omega

theorem FullBehind.push (h : a.FullBehind) (node : Node) : (a.push node).FullBehind := by
  intro k page hpage hk
  rw [size_pages_push] at hk
  rcases pages_push_cases hpage with ⟨hold, -⟩ | ⟨hlast, -⟩
  · exact h k page hold hk
  · omega

/-- A new node is on the last page. -/
theorem FullBehind.dense_push (h : a.FullBehind) (node : Node) : (a.push node).Dense where
  behind := h.push node
  last := by
    intro page hpage
    rw [size_pages_push] at hpage
    rcases pages_push_cases hpage with ⟨-, hne⟩ | ⟨-, old, -, rfl⟩
    · exact absurd rfl hne
    · rw [Array.size_push]
      exact Nat.succ_pos _

theorem Dense.modify (h : a.Dense) (i : NodeIndex) (change : Node → Node) :
    (a.modify i change).Dense where
  behind := by
    intro k page hpage hk
    rw [size_pages_modify] at hk
    obtain ⟨old, hold, hsize⟩ := exists_page_of_modify hpage
    rw [← hsize]
    exact h.behind k old hold hk
  last := by
    intro page hpage
    rw [size_pages_modify] at hpage
    obtain ⟨old, hold, hsize⟩ := exists_page_of_modify hpage
    rw [← hsize]
    exact h.last old hold

end Arena

namespace Table

variable {t u : Table} {budget : Budget} {isKey : RowRef → Bool} {row : RowRef} {hash : UInt32}

/-- The pages of nodes are well used, and every chain has two nodes. -/
structure Packed (t : Table) : Prop where
  arena : t.arena.Packed 0
  chains_le : 2 * t.overflowing ≤ t.arena.numNodes

theorem packed_empty (probing : ProbingMode) (storage : StorageMode) (size : ℕ) :
    (empty probing storage size).Packed :=
  ⟨Arena.packed_empty, le_refl 0⟩

theorem Inserted.packed {o : Outcome Bool} (h : Inserted t budget isKey row hash o)
    (hsound : t.Sound) (hpaged : t.arena.Paged) (hpacked : t.Packed) : o.table.Packed := by
  obtain ⟨harena, hchains⟩ := hpacked
  cases h with
  | wrongKind => exact ⟨harena, hchains⟩
  | full => exact ⟨harena, hchains⟩
  | refused => exact ⟨harena, hchains⟩
  | first => exact ⟨harena, hchains⟩
  | second probe p matched first arena charged _ _ _ hensured =>
    have hfree : 2 ≤ arena.free := hensured.le_free hsound.arena (by decide)
    have hfirst := (hensured.packed (by decide) hpaged harena).push (by omega)
      ⟨first, matched, none⟩
    refine ⟨hfirst.push ?_ _, ?_⟩
    · change 0 < arena.free - 1
      omega
    · have hnodes : arena.numNodes = t.arena.numNodes := by cases hensured <;> rfl
      change 2 * (t.overflowing + 1) ≤ arena.numNodes + 1 + 1
      omega
  | further probe p head arena charged _ _ _ hensured =>
    have hfree : 1 ≤ arena.free := hensured.le_free hsound.arena (by decide)
    have hnodes : arena.numNodes = t.arena.numNodes := by cases hensured <;> rfl
    refine ⟨(hensured.packed (by decide) hpaged harena).push hfree _, ?_⟩
    change 2 * t.overflowing ≤ arena.numNodes + 1
    omega

/-- A page is added for a row that then takes slots of it. -/
theorem Inserted.dense {o : Outcome Bool} (h : Inserted t budget isKey row hash o)
    (hpaged : t.arena.Paged) (hdense : t.arena.Dense) : o.table.arena.Dense := by
  cases h with
  | wrongKind => exact hdense
  | full => exact hdense
  | refused => exact hdense
  | first => exact hdense
  | second probe p matched first arena charged _ _ _ hensured =>
    have hbehind := hensured.fullBehind (by decide) hpaged hdense.behind
    exact (hbehind.push ⟨first, matched, none⟩).dense_push _
  | further probe p head arena charged _ _ _ hensured =>
    exact (hensured.fullBehind (by decide) hpaged hdense.behind).dense_push _

theorem dense_setMatched (c : Cursor) (h : t.arena.Dense) : (c.setMatched t).arena.Dense := by
  match c with
  | .atEnd => exact h
  | .on _ (some node) => exact h.modify node Arena.markNode
  | .on _ none => exact h

/-- There are nodes only where rows share a bucket. -/
theorem Packed.pages_eq_zero_iff (h : t.Packed) (hsound : t.Sound) :
    t.arena.pages.size = 0 ↔ t.filled = t.entries := by
  have hentries := hsound.entries_eq
  have hchains := h.chains_le
  have hpages := h.arena.pages_le
  constructor
  · intro hzero
    have hnodes := hsound.arena.numNodes_eq
    rw [Array.size_eq_zero_iff.mp hzero] at hnodes
    change t.arena.numNodes = 0 at hnodes
    omega
  · intro hfilled
    omega

theorem Sound.numNodes_le_entries (h : t.Sound) : t.arena.numNodes ≤ t.entries := by
  have hentries := h.entries_eq
  have hchains : t.overflowing ≤ t.filled := by
    rw [h.overflowing_eq, h.filled_eq]
    exact List.countP_le_length
  omega

end Table

end JoinIndex
