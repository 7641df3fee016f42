import JoinIndex.Proofs.RowStore.Log
import JoinIndex.Proofs.Table.Payments

/-!
What an append that fails leaves behind. A row that the payer refuses leaves the store and the
charges as they were. A row that comes to stand on a page past the last one that an index can name
is reported as an internal error, but only after it was charged and stored: it stays in the store,
where no index leads to it, and so does its charge.
-/

set_option autoImplicit false
set_option relaxedAutoImplicit false

namespace JoinIndex

namespace RowStore

variable {s : RowStore} {payer : Option Budget} {row : Row}

/-- An append left everything that can be seen of the store, and the charges of its payer, as they
were. -/
structure Unchanged (s : RowStore) (payer : Option Budget) (a : Appended) : Prop where
  pages_eq : a.store.pages = s.pages
  numRows_eq : a.store.numRows = s.numRows
  numPages_eq : a.store.numPages = s.numPages
  get?_eq : ∀ i, a.store.get? i = s.get? i
  consumed_eq : a.payer.map Budget.consumed = payer.map Budget.consumed

/-- An append left the row and its charge behind, but no index that leads to it. -/
structure LeftBehind (s : RowStore) (payer : Option Budget) (row : Row) (a : Appended) : Prop where
  allRows_eq : a.store.allRows = s.allRows ++ [row]
  numRows_eq : a.store.numRows = s.numRows + 1
  get?_eq : ∀ i, a.store.get? i = s.get? i
  consumed_eq : a.payer.map Budget.consumed =
    payer.map fun budget ↦ budget.consumed + row.byteSize

theorem numPages_push_pos (s : RowStore) (row : Row) : 0 < (s.push row).numPages := by
  unfold numPages
  rcases pages_push_cases s row with hpages | ⟨init, last, -, -, hpages⟩
  · rw [hpages, Array.size_push]
    exact Nat.succ_pos _
  · rw [hpages, Array.size_push]
    exact Nat.succ_pos _

/-- The row has no index exactly if its page cannot be named. -/
theorem lastIndex_push_eq_error_iff {e : Error} :
    (s.push row).lastIndex = .error e ↔
      2 ^ 32 < (s.push row).numPages ∧ e = .internal .rowPageOverflow := by
  have hpos : 0 < (s.push row).pages.size := s.numPages_push_pos row
  have hnamed : (s.push row).pages.size - 1 < UInt32.size ↔ ¬ 2 ^ 32 < (s.push row).pages.size := by
    show _ < 2 ^ 32 ↔ _
    omega
  rw [lastIndex, numPages]
  split_ifs with hpage
  · refine ⟨fun h ↦ ?_, fun h ↦ absurd h.1 (hnamed.mp hpage)⟩
    cases h
  · rw [hnamed, not_not] at hpage
    exact ⟨fun h ↦ ⟨hpage, (Except.error.inj h).symm⟩, fun h ↦ h.2 ▸ rfl⟩

/-- A page that cannot be named is not read. -/
theorem get?_push_of_overflow (h : 2 ^ 32 < (s.push row).numPages) (i : RowIndex) :
    (s.push row).get? i = s.get? i := by
  have hpage : i.page.toNat < 2 ^ 32 := i.page.toNat_lt
  rw [numPages] at h
  rw [get?, get?]
  rcases pages_push_cases s row with hpages | ⟨init, last, hold, -, hpages⟩
  · rw [hpages, Array.size_push] at h
    rw [hpages, Array.getElem?_push, if_neg (by omega)]
  · rw [hpages, Array.size_push] at h
    rw [hpages, hold, Array.getElem?_push, Array.getElem?_push, if_neg (by omega),
      if_neg (by omega)]

/-- An append fails if the payer refuses the row, and then everything is as it was, or if the page
of the row cannot be named, and then the row and its charge stay behind. So a failed append changes
nothing as long as all pages can be named. -/
theorem append_error_exact (s : RowStore) (payer : Option Budget) (row : Row) :
    let a := s.append payer row
    (∀ e, a.index = .error e ↔
      (∃ budget, payer = some budget ∧ budget.admits row.byteSize = false ∧
        e = .memoryLimit row.byteSize budget.remaining) ∨
      (∀ budget, payer = some budget → budget.admits row.byteSize = true) ∧
        2 ^ 32 < (s.push row).numPages ∧ e = .internal .rowPageOverflow) ∧
    (∀ requested remaining, a.index = .error (.memoryLimit requested remaining) →
      Unchanged s payer a) ∧
    (∀ cause, a.index = .error (.internal cause) → LeftBehind s payer row a) ∧
    ((s.push row).numPages ≤ 2 ^ 32 → ∀ e, a.index = .error e → Unchanged s payer a) := by
  dsimp only
  rcases s.append_cases payer row with ⟨budget, rfl, hrefused, heq⟩ | ⟨hgranted, heq⟩
  · have hunchanged : Unchanged s (some budget) (s.append (some budget) row) := by
      rw [heq]
      exact ⟨rfl, rfl, rfl, fun i ↦ rfl, rfl⟩
    refine ⟨fun e ↦ ⟨fun he ↦ ?_, ?_⟩, fun _ _ _ ↦ hunchanged, fun cause hcause ↦ ?_,
      fun _ _ _ ↦ hunchanged⟩
    · rw [heq] at he
      exact Or.inl ⟨budget, rfl, hrefused, (Except.error.inj he).symm⟩
    · rintro (⟨_, hbudget, -, rfl⟩ | ⟨hgranted, -⟩)
      · obtain rfl := Option.some.inj hbudget
        rw [heq]
      · rw [hgranted budget rfl] at hrefused
        cases hrefused
    · rw [heq] at hcause
      cases hcause
  · have hindex : ∀ e, (s.append payer row).index = .error e ↔
        2 ^ 32 < (s.push row).numPages ∧ e = .internal .rowPageOverflow := by
      intro e
      rw [heq]
      exact lastIndex_push_eq_error_iff
    refine ⟨fun e ↦ ?_, fun _ _ he ↦ ?_, fun cause he ↦ ?_, fun hpages e he ↦ ?_⟩
    · rw [hindex]
      refine ⟨fun h ↦ Or.inr ⟨hgranted, h⟩, ?_⟩
      rintro (⟨budget, hbudget, hrefused, -⟩ | ⟨-, h⟩)
      · rw [hgranted budget hbudget] at hrefused
        cases hrefused
      · exact h
    · cases ((hindex _).mp he).2
    · have hpages := ((hindex _).mp he).1
      rw [heq]
      refine ⟨s.allRows_push row, ?_, get?_push_of_overflow hpages, ?_⟩
      · rw [numRows_eq, numRows_eq, allRows_push, List.length_append]
        rfl
      · rw [Option.map_map]
        rfl
    · exact absurd ((hindex _).mp he).1 (not_lt.mpr hpages)

/-! ### A store whose pages are all taken -/

/-- Every page holds one row, all rows are the same, and they are all that the payer, which has no
limit, is charged for. -/
structure Filled (row : Row) (n : ℕ) (l : RowLog) : Prop where
  compact : l.store.Compact
  rowsPerPage_eq : l.store.rowsPerPage = 1
  allRows_eq : l.store.allRows = List.replicate n row
  payer : ∃ budget, l.payer = some budget ∧ budget.limit = none ∧
    budget.consumed = n * row.byteSize

variable {n : ℕ} {l : RowLog}

theorem filled_new (row : Row) (label : String) :
    Filled row 0 (.new 1 (some (.unlimited label)) .empty) := by
  refine ⟨compact_new 1, rfl, rfl, .unlimited label, rfl, rfl, ?_⟩
  rw [Nat.zero_mul]
  rfl

theorem Filled.numRows_eq (h : Filled row n l) : l.store.numRows = n := by
  rw [RowStore.numRows_eq, h.allRows_eq, List.length_replicate]

/-- One more row is granted while the range of the charges has room for it. -/
theorem Filled.append_eq (h : Filled row n l) (hroom : (n + 1) * row.byteSize < Budget.wordRange) :
    l.store.append l.payer row =
      ⟨(l.store.push row).lastIndex, l.store.push row, l.payer.map (·.charge row.byteSize)⟩ := by
  obtain ⟨budget, hpayer, hlimit, hconsumed⟩ := h.payer
  rcases l.store.append_cases l.payer row with ⟨_, hpayer', hrefused, -⟩ | ⟨-, heq⟩
  · obtain rfl := Option.some.inj (hpayer.symm.trans hpayer')
    have hgranted : budget.admits row.byteSize = true := by
      rw [Budget.admits_iff, hlimit, hconsumed, ← Nat.succ_mul]
      exact ⟨hroom, fun limit hmem ↦ absurd hmem.symm (Option.some_ne_none limit)⟩
    rw [hgranted] at hrefused
    cases hrefused
  · exact heq

theorem Filled.step (h : Filled row n l) (hroom : (n + 1) * row.byteSize < Budget.wordRange) :
    Filled row (n + 1) (l.step (.append row)) := by
  obtain ⟨budget, hpayer, hlimit, hconsumed⟩ := h.payer
  rw [RowLog.step, h.append_eq hroom, hpayer]
  refine ⟨h.compact.push row, ?_, ?_, budget.charge row.byteSize, rfl, hlimit, ?_⟩
  · rw [rowsPerPage_push, h.rowsPerPage_eq]
  · rw [allRows_push, h.allRows_eq, List.replicate_succ']
  · rw [Nat.succ_mul, ← hconsumed]
    rfl

theorem filled_run (row : Row) (label : String) (n : ℕ)
    (hroom : n * row.byteSize < Budget.wordRange) :
    Filled row n
      ((RowLog.new 1 (some (.unlimited label)) .empty).run (List.replicate n (.append row))) := by
  induction n with
  | zero => exact filled_new row label
  | succ n ih =>
    have hle : n * row.byteSize ≤ (n + 1) * row.byteSize := Nat.mul_le_mul_right _ n.le_succ
    rw [List.replicate_succ', RowLog.run, List.foldl_append]
    exact (ih (hle.trans_lt hroom)).step hroom

/-- Once `2 ^ 32` pages are taken, every further row is left behind. -/
theorem Filled.leftBehind (h : Filled row n l) (hpages : 2 ^ 32 ≤ n)
    (hroom : (n + 1) * row.byteSize < Budget.wordRange) :
    (l.store.append l.payer row).index = .error (.internal .rowPageOverflow) ∧
      LeftBehind l.store l.payer row (l.store.append l.payer row) := by
  have hpush : 2 ^ 32 < (l.store.push row).numPages := by
    rw [(h.compact.push row).numPages_eq, rowsPerPage_push, h.rowsPerPage_eq, ceilDiv_one,
      allRows_push, h.allRows_eq, List.length_append, List.length_replicate]
    exact Nat.lt_succ_of_le hpages
  have hindex : (l.store.append l.payer row).index = .error (.internal .rowPageOverflow) := by
    rw [h.append_eq hroom]
    exact lastIndex_push_eq_error_iff.mpr ⟨hpush, rfl⟩
  obtain ⟨-, -, hleft, -⟩ := append_error_exact l.store l.payer row
  exact ⟨hindex, hleft _ hindex⟩

/-- After `2 ^ 32` pages of one row each, the next row is charged and stored, but refused. -/
theorem append_overflow_charged :
    ∃ l, l = (RowLog.new 1 (some (.unlimited "rows")) .empty).run
        (List.replicate (2 ^ 32) (.append ⟨[.int64 7]⟩)) ∧
      let a := l.store.append l.payer ⟨[.int64 7]⟩
      a.index = .error (.internal .rowPageOverflow) ∧
        l.store.numRows = 2 ^ 32 ∧ a.store.numRows = 2 ^ 32 + 1 ∧
        l.payer.map Budget.consumed = some (2 ^ 32 * 56) ∧
        a.payer.map Budget.consumed = some (2 ^ 32 * 56 + 56) := by
  have hroom : (2 ^ 32 + 1) * Row.byteSize ⟨[.int64 7]⟩ < Budget.wordRange := by decide
  have hroom' : 2 ^ 32 * Row.byteSize ⟨[.int64 7]⟩ < Budget.wordRange := by decide
  have hfilled := filled_run ⟨[.int64 7]⟩ "rows" (2 ^ 32) hroom'
  refine ⟨_, rfl, ?_⟩
  obtain ⟨hindex, hleft⟩ := hfilled.leftBehind (le_refl _) hroom
  obtain ⟨budget, hpayer, -, hconsumed⟩ := hfilled.payer
  refine ⟨hindex, hfilled.numRows_eq, ?_, ?_, ?_⟩
  · rw [hleft.numRows_eq, hfilled.numRows_eq]
  · rw [hpayer, Option.map_some, hconsumed]
    rfl
  · rw [hleft.consumed_eq, hpayer, Option.map_some, hconsumed]
    rfl

end RowStore

end JoinIndex
