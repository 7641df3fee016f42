import JoinIndex.Proofs.Arena.Growth
import JoinIndex.RowStore

/-!
Rows in a store. A store holds the rows that were appended to it in their order, whatever the size
of its pages, its bytes are those of these rows, and the index of a new row leads to it.
-/

set_option autoImplicit false
set_option relaxedAutoImplicit false

namespace JoinIndex.RowStore

variable {s : RowStore}

/-- The rows of a store in the order in which they were appended. -/
def allRows (s : RowStore) : List Row :=
  s.pages.toList.flatMap Array.toList

theorem foldl_byteSize (rows : List Row) (bytes : ℕ) :
    rows.foldl (fun bytes row ↦ bytes + row.byteSize) bytes =
      bytes + (rows.map Row.byteSize).sum := by
  induction rows generalizing bytes with
  | nil => rfl
  | cons row rows ih =>
    rw [List.foldl_cons, ih, List.map_cons, List.sum_cons, Nat.add_assoc]

theorem byteSize_eq (s : RowStore) : s.byteSize = (s.allRows.map Row.byteSize).sum := by
  have hpages : ∀ (pages : List (Array Row)) (bytes : ℕ),
      pages.foldl (fun bytes page ↦ page.foldl (fun bytes row ↦ bytes + row.byteSize) bytes)
        bytes = bytes + ((pages.flatMap Array.toList).map Row.byteSize).sum := by
    intro pages
    induction pages with
    | nil => exact fun bytes ↦ rfl
    | cons page pages ih =>
      intro bytes
      rw [List.foldl_cons, ih, ← Array.foldl_toList, foldl_byteSize, List.flatMap_cons,
        List.map_append, List.sum_append, Nat.add_assoc]
  rw [byteSize, ← Array.foldl_toList, hpages, Nat.zero_add]
  rfl

@[simp] theorem byteSize_new (rowsPerPage : ℕ) : (new rowsPerPage).byteSize = 0 :=
  rfl

/-- A store whose last page is not full has a last page. -/
theorem exists_last (h : s.lastPageIsFull = false) :
    ∃ (init : Array (Array Row)) (last : Array Row),
      s.pages = init.push last ∧ last.size < s.rowsPerPage := by
  have hne : s.pages ≠ #[] := by
    intro hempty
    rw [lastPageIsFull, hempty] at h
    cases h
  obtain ⟨init, last, hpages⟩ := Array.exists_push_of_ne_empty hne
  refine ⟨init, last, hpages, ?_⟩
  rw [lastPageIsFull, hpages, Array.back?_push, Option.all_some, decide_eq_false_iff_not] at h
  omega

/-- A row comes behind the others: on a page of its own, or on the last one. -/
theorem pages_push_cases (s : RowStore) (row : Row) :
    (s.push row).pages = s.pages.push #[row] ∨
      ∃ (init : Array (Array Row)) (last : Array Row), s.pages = init.push last ∧
        last.size < s.rowsPerPage ∧ (s.push row).pages = init.push (last.push row) := by
  rw [push]
  split_ifs with hfull
  · exact Or.inl rfl
  · obtain ⟨init, last, hpages, hlt⟩ := exists_last (eq_false_of_ne_true hfull)
    refine Or.inr ⟨init, last, hpages, hlt, ?_⟩
    show s.pages.modify (s.pages.size - 1) (·.push row) = _
    rw [hpages, Array.size_push, Nat.add_sub_cancel]
    exact Arena.modify_push_last init last _

theorem allRows_push (s : RowStore) (row : Row) :
    (s.push row).allRows = s.allRows ++ [row] := by
  unfold allRows
  rcases pages_push_cases s row with hpages | ⟨init, last, hold, -, hpages⟩
  · simp [hpages]
  · simp [hold, hpages]

theorem byteSize_push (s : RowStore) (row : Row) :
    (s.push row).byteSize = s.byteSize + row.byteSize := by
  rw [byteSize_eq, byteSize_eq, allRows_push, List.map_append, List.sum_append]
  simp

/-! ### Indices -/

theorem rowsPerPage_push (s : RowStore) (row : Row) :
    (s.push row).rowsPerPage = s.rowsPerPage := by
  rw [push]
  split_ifs <;> rfl

theorem numPages_le_push (s : RowStore) (row : Row) : s.numPages ≤ (s.push row).numPages := by
  unfold numPages
  rcases pages_push_cases s row with hpages | ⟨init, last, hold, -, hpages⟩
  · rw [hpages, Array.size_push]
    exact Nat.le_succ _
  · rw [hold, hpages, Array.size_push, Array.size_push]

/-- While pages and offsets fit 32 bits, the index of a new row is given, and the row is found at
it. -/
theorem exists_lastIndex_push (hrows : s.rowsPerPage ≤ 2 ^ 32) {row : Row}
    (hpages : (s.push row).numPages ≤ 2 ^ 32) :
    ∃ index, (s.push row).lastIndex = .ok index ∧ (s.push row).get? index = some row := by
  obtain ⟨init, last, heq, hlast⟩ : ∃ (init : Array (Array Row)) (last : Array Row),
      (s.push row).pages = init.push (last.push row) ∧ last.size < 2 ^ 32 := by
    rcases pages_push_cases s row with heq | ⟨init, last, -, hlt, heq⟩
    · exact ⟨s.pages, #[], heq, by decide⟩
    · exact ⟨init, last, heq, hlt.trans_le hrows⟩
  have hinit : init.size < 2 ^ 32 := by
    rw [numPages, heq, Array.size_push] at hpages
    omega
  refine ⟨⟨init.size.toUInt32, last.size.toUInt32⟩, ?_, ?_⟩
  · rw [lastIndex, heq, Array.size_push, Array.back?_push, Option.map_some, Option.getD_some,
      Array.size_push, Nat.add_sub_cancel, Nat.add_sub_cancel]
    exact if_pos hinit
  · rw [get?, heq, UInt32.toNat_ofNat_of_lt' hinit, UInt32.toNat_ofNat_of_lt' hlast,
      Array.getElem?_push_size, Option.bind_some, Array.getElem?_push_size]

/-! ### Appending -/

/-- A row is refused by the payer, or it is appended and charged. -/
theorem append_cases (s : RowStore) (payer : Option Budget) (row : Row) :
    (∃ budget, payer = some budget ∧ budget.admits row.byteSize = false ∧
      s.append payer row =
        ⟨.error (.memoryLimit row.byteSize budget.remaining), s, some budget.refuse⟩) ∨
    (∀ budget, payer = some budget → budget.admits row.byteSize = true) ∧
      s.append payer row =
        ⟨(s.push row).lastIndex, s.push row, payer.map (·.charge row.byteSize)⟩ := by
  cases payer with
  | none => exact Or.inr ⟨fun _ h ↦ absurd h.symm (Option.some_ne_none _), rfl⟩
  | some budget =>
    by_cases hadmits : budget.admits row.byteSize = true
    · refine Or.inr ⟨fun _ h ↦ Option.some.inj h ▸ hadmits, ?_⟩
      rw [append]
      exact if_pos hadmits
    · refine Or.inl ⟨budget, rfl, eq_false_of_ne_true hadmits, ?_⟩
      rw [append]
      exact if_neg hadmits

end JoinIndex.RowStore
