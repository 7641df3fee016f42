import JoinIndex.Proofs.RowStore

/-!
How rows lie on the pages of a store. All pages are full but for the last one, which holds a row at
least, so the place of a row follows from how many rows were there before it, and what stands at an
index can be read off the list of all rows.
-/

set_option autoImplicit false
set_option relaxedAutoImplicit false

namespace JoinIndex.RowStore

variable {s : RowStore}

/-! ### Full pages -/

section Pages

variable {α : Type} {perPage : ℕ} {pages : List (Array α)}

theorem length_flatMap_toList (hfull : ∀ page ∈ pages, page.size = perPage) :
    (pages.flatMap Array.toList).length = pages.length * perPage := by
  have hlengths : pages.map (fun page ↦ page.toList.length) = pages.map fun _ ↦ perPage :=
    List.map_congr_left hfull
  rw [List.length_flatMap, hlengths, List.map_const', List.sum_replicate, smul_eq_mul]

/-- The induction is on the full pages: an index passes each of them by the rows on it. -/
theorem getElem?_flatMap_toList (hfull : ∀ page ∈ pages, page.size = perPage) {last : Array α}
    (hlast : last.size ≤ perPage) (k : ℕ) {offset : ℕ} (hoffset : offset < perPage) :
    (pages.flatMap Array.toList ++ last.toList)[k * perPage + offset]? =
      (pages ++ [last])[k]?.bind (·[offset]?) := by
  induction pages generalizing k with
  | nil =>
    cases k with
    | zero => simp
    | succ k =>
      have hpast : last.toList.length ≤ (k + 1) * perPage + offset := by
        rw [Array.length_toList, Nat.succ_mul]
        omega
      simpa using hpast
  | cons page pages ih =>
    have hpage : page.toList.length = perPage := hfull page List.mem_cons_self
    rw [List.flatMap_cons, List.append_assoc]
    cases k with
    | zero =>
      rw [List.getElem?_append_left (by omega)]
      simp
    | succ k =>
      have hpassed : (k + 1) * perPage + offset - perPage = k * perPage + offset := by
        rw [Nat.succ_mul]
        omega
      rw [List.getElem?_append_right (by rw [Nat.succ_mul]; omega), hpage, hpassed,
        ih fun page hmem ↦ hfull page (List.mem_cons_of_mem _ hmem)]
      rfl

end Pages

/-! ### Compact stores -/

/-- All pages are full but for the last one, which holds a row at least. -/
structure Compact (s : RowStore) : Prop where
  rowsPerPage_pos : 0 < s.rowsPerPage
  pages : s.pages = #[] ∨
    ∃ (init : Array (Array Row)) (last : Array Row), s.pages = init.push last ∧
      (∀ page ∈ init.toList, page.size = s.rowsPerPage) ∧
      0 < last.size ∧ last.size ≤ s.rowsPerPage

theorem compact_new (rowsPerPage : ℕ) : (new rowsPerPage).Compact :=
  ⟨lt_of_lt_of_le Nat.zero_lt_one (le_max_right _ _), Or.inl rfl⟩

theorem Compact.push (h : s.Compact) (row : Row) : (s.push row).Compact := by
  refine ⟨by rw [rowsPerPage_push]; exact h.rowsPerPage_pos, Or.inr ?_⟩
  rw [rowsPerPage_push, RowStore.push]
  split_ifs with hfull
  · -- every page there was is full now
    refine ⟨s.pages, #[row], rfl, fun page hpage ↦ ?_, Nat.zero_lt_one, h.rowsPerPage_pos⟩
    rcases h.pages with hempty | ⟨init, last, hpages, hinit, -, hlast⟩
    · rw [hempty] at hpage
      exact absurd hpage List.not_mem_nil
    · rw [lastPageIsFull, hpages, Array.back?_push, Option.all_some, decide_eq_true_eq] at hfull
      rw [hpages, Array.toList_push, List.mem_append, List.mem_singleton] at hpage
      rcases hpage with hpage | rfl
      · exact hinit page hpage
      · exact le_antisymm hlast hfull
  · obtain ⟨init, last, hpages, hlt⟩ := exists_last (eq_false_of_ne_true hfull)
    refine ⟨init, last.push row, ?_, fun page hpage ↦ ?_, ?_, ?_⟩
    · show s.pages.modify (s.pages.size - 1) (·.push row) = _
      rw [hpages, Array.size_push, Nat.add_sub_cancel]
      exact Arena.modify_push_last init last _
    · rcases h.pages with hempty | ⟨init', last', hpages', hinit, -, -⟩
      · rw [hempty] at hpages
        exact absurd hpages.symm (Array.push_ne_empty)
      · obtain ⟨-, rfl⟩ := Array.push_eq_push.mp (hpages.symm.trans hpages')
        exact hinit page hpage
    · rw [Array.size_push]
      exact Nat.succ_pos _
    · rw [Array.size_push]
      exact hlt

theorem allRows_eq {init : Array (Array Row)} {last : Array Row} (h : s.pages = init.push last) :
    s.allRows = init.toList.flatMap Array.toList ++ last.toList := by
  rw [allRows, h, Array.toList_push, List.flatMap_append, List.flatMap_singleton]

/-- The last page of a store that is not empty, and how many rows there are. -/
theorem Compact.exists_last (h : s.Compact) (hne : s.allRows ≠ []) :
    ∃ (init : Array (Array Row)) (last : Array Row), s.pages = init.push last ∧
      (∀ page ∈ init.toList, page.size = s.rowsPerPage) ∧
      0 < last.size ∧ last.size ≤ s.rowsPerPage ∧
      s.allRows.length = init.size * s.rowsPerPage + last.size := by
  rcases h.pages with hempty | ⟨init, last, hpages, hinit, hpos, hle⟩
  · rw [allRows, hempty] at hne
    exact absurd rfl hne
  · refine ⟨init, last, hpages, hinit, hpos, hle, ?_⟩
    rw [allRows_eq hpages, List.length_append, length_flatMap_toList hinit, Array.length_toList,
      Array.length_toList]

/-- A row needs a page of its own whenever the rows before it fill their pages. -/
theorem Compact.numPages_eq (h : s.Compact) : s.numPages = s.allRows.length ⌈/⌉ s.rowsPerPage := by
  by_cases hne : s.allRows = []
  · rcases h.pages with hempty | ⟨init, last, hpages, -, hpos, -⟩
    · rw [numPages, hempty, hne]
      exact (zero_ceilDiv s.rowsPerPage).symm
    · have hlength := congrArg List.length hne
      rw [allRows_eq hpages, List.length_append, List.length_nil, Nat.add_eq_zero_iff] at hlength
      exact absurd hlength.2 hpos.ne'
  · obtain ⟨init, last, hpages, -, hpos, hle, hlength⟩ := h.exists_last hne
    rw [numPages, hpages, Array.size_push, hlength, Nat.ceilDiv_eq_add_pred_div]
    symm
    rw [Nat.div_eq_iff h.rowsPerPage_pos, Nat.succ_mul]
    omega

/-! ### Rows by their number -/

/-- The index of a row with so many rows before it. -/
def indexOf (rowsPerPage n : ℕ) : RowIndex :=
  ⟨(n / rowsPerPage).toUInt32, (n % rowsPerPage).toUInt32⟩

theorem numRows_eq (s : RowStore) : s.numRows = s.allRows.length := by
  have hpages : ∀ (pages : List (Array Row)) (rows : ℕ),
      pages.foldl (fun rows page ↦ rows + page.size) rows =
        rows + (pages.flatMap Array.toList).length := by
    intro pages
    induction pages with
    | nil => exact fun rows ↦ rfl
    | cons page pages ih =>
      intro rows
      rw [List.foldl_cons, ih, List.flatMap_cons, List.length_append, Nat.add_assoc]
      rfl
  rw [numRows, ← Array.foldl_toList, hpages, Nat.zero_add]
  rfl

/-- What stands at an index. -/
theorem Compact.get?_eq (h : s.Compact) (i : RowIndex) :
    s.get? i =
      if i.offset.toNat < s.rowsPerPage then
        s.allRows[i.page.toNat * s.rowsPerPage + i.offset.toNat]?
      else none := by
  rcases h.pages with hempty | ⟨init, last, hpages, hinit, -, hlast⟩
  · rw [get?, allRows, hempty]
    simp
  · have hpage : s.pages[i.page.toNat]? = (init.toList ++ [last])[i.page.toNat]? := by
      rw [hpages, ← Array.toList_push, Array.getElem?_toList]
    rw [get?, hpage]
    split_ifs with hoffset
    · rw [allRows_eq hpages, getElem?_flatMap_toList hinit hlast _ hoffset]
    · rw [Option.bind_eq_none_iff]
      intro page hmem
      rcases List.mem_append.mp (List.mem_of_getElem? hmem) with hmem | hmem
      · rw [Array.getElem?_eq_none_iff, hinit page hmem]
        exact not_lt.mp hoffset
      · rw [List.mem_singleton] at hmem
        rw [Array.getElem?_eq_none_iff, hmem]
        exact hlast.trans (not_lt.mp hoffset)

/-! ### Indices that can be named -/

/-- The number of a row leads back from its index, while the index can be named. -/
theorem offset_indexOf {perPage : ℕ} (hpos : 0 < perPage) (hle : perPage ≤ 2 ^ 32) (n : ℕ) :
    (indexOf perPage n).offset.toNat = n % perPage :=
  UInt32.toNat_ofNat_of_lt' ((Nat.mod_lt n hpos).trans_le hle)

theorem Compact.page_indexOf (h : s.Compact) (hpages : s.numPages ≤ 2 ^ 32) {n : ℕ}
    (hn : n < s.allRows.length) : (indexOf s.rowsPerPage n).page.toNat = n / s.rowsPerPage := by
  have hlt : n / s.rowsPerPage < s.numPages := by
    rw [Nat.div_lt_iff_lt_mul h.rowsPerPage_pos, Nat.mul_comm]
    refine hn.trans_le ((ceilDiv_le_iff_le_mul h.rowsPerPage_pos).mp ?_)
    exact h.numPages_eq.ge
  exact UInt32.toNat_ofNat_of_lt' (hlt.trans_le hpages)

/-- The index of the last row, if its page can be named. -/
theorem Compact.lastIndex_push (h : s.Compact) {row : Row}
    (hpages : (s.push row).numPages ≤ 2 ^ 32) :
    (s.push row).lastIndex = .ok (indexOf s.rowsPerPage s.allRows.length) := by
  have hpush := h.push row
  have hne : (s.push row).allRows ≠ [] := by
    rw [allRows_push]
    exact List.append_ne_nil_of_right_ne_nil _ (List.cons_ne_nil _ _)
  obtain ⟨init, last, heq, -, hpos, hle, hlength⟩ := hpush.exists_last hne
  rw [rowsPerPage_push] at hle hlength
  rw [allRows_push, List.length_append, List.length_singleton] at hlength
  have hsplit : s.allRows.length = last.size - 1 + s.rowsPerPage * init.size := by
    rw [Nat.mul_comm]
    omega
  have hpage : s.allRows.length / s.rowsPerPage = init.size := by
    rw [hsplit, Nat.add_mul_div_left _ _ h.rowsPerPage_pos, Nat.div_eq_of_lt (by omega),
      Nat.zero_add]
  have hoffset : s.allRows.length % s.rowsPerPage = last.size - 1 := by
    rw [hsplit, Nat.add_mul_mod_self_left, Nat.mod_eq_of_lt (by omega)]
  have hinit : init.size < 2 ^ 32 := by
    rw [numPages, heq, Array.size_push] at hpages
    exact hpages
  rw [lastIndex, heq, Array.size_push, Array.back?_push, Option.map_some, Option.getD_some,
    Nat.add_sub_cancel, indexOf, hpage, hoffset]
  exact if_pos hinit

/-- The rows are found at their indices. -/
theorem Compact.get?_indexOf (h : s.Compact) (hrows : s.rowsPerPage ≤ 2 ^ 32)
    (hpages : s.numPages ≤ 2 ^ 32) {n : ℕ} (hn : n < s.allRows.length) :
    s.get? (indexOf s.rowsPerPage n) = s.allRows[n]? := by
  rw [h.get?_eq, h.page_indexOf hpages hn, offset_indexOf h.rowsPerPage_pos hrows,
    if_pos (Nat.mod_lt n h.rowsPerPage_pos), Nat.div_add_mod']

/-- No other index leads to a row. -/
theorem Compact.exists_indexOf_eq (h : s.Compact) {i : RowIndex} {row : Row}
    (hget : s.get? i = some row) :
    ∃ n, n < s.allRows.length ∧ indexOf s.rowsPerPage n = i := by
  rw [h.get?_eq] at hget
  split_ifs at hget with hoffset
  obtain ⟨hlt, -⟩ := List.getElem?_eq_some_iff.mp hget
  refine ⟨_, hlt, ?_⟩
  rw [indexOf, Nat.mul_comm, Nat.mul_add_div h.rowsPerPage_pos, Nat.div_eq_of_lt hoffset,
    Nat.add_zero, Nat.mul_add_mod_self_left, Nat.mod_eq_of_lt hoffset]
  simp

/-- Later rows have later indices. -/
theorem Compact.indexOf_lt (h : s.Compact) (hrows : s.rowsPerPage ≤ 2 ^ 32)
    (hpages : s.numPages ≤ 2 ^ 32) {m n : ℕ} (hlt : m < n) (hn : n < s.allRows.length) :
    (indexOf s.rowsPerPage m).le (indexOf s.rowsPerPage n) = true ∧
      indexOf s.rowsPerPage m ≠ indexOf s.rowsPerPage n := by
  have hpage := h.page_indexOf hpages (hlt.trans hn)
  have hpage' := h.page_indexOf hpages hn
  have hoffset := offset_indexOf h.rowsPerPage_pos hrows m
  have hoffset' := offset_indexOf h.rowsPerPage_pos hrows n
  have hsplit := Nat.div_add_mod m s.rowsPerPage
  have hsplit' := Nat.div_add_mod n s.rowsPerPage
  constructor
  · rw [RowIndex.le, Bool.or_eq_true, Bool.and_eq_true, decide_eq_true_eq, decide_eq_true_eq,
      decide_eq_true_eq, UInt32.lt_iff_toNat_lt, UInt32.le_iff_toNat_le, ← UInt32.toNat_inj, hpage,
      hpage', hoffset, hoffset']
    rcases (Nat.div_le_div_right hlt.le).lt_or_eq with hdiv | hdiv
    · exact Or.inl hdiv
    · refine Or.inr ⟨hdiv, ?_⟩
      rw [hdiv] at hsplit
      omega
  · intro heq
    rw [heq] at hpage hoffset
    rw [← hpage, hpage', ← hoffset, hoffset'] at hsplit
    omega

end JoinIndex.RowStore
