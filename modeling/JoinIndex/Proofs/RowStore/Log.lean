import JoinIndex.Proofs.RowStore.Paging

/-!
A row store as a log. It is filled by appending and is read in between, while its payer may be used
by others. The log remembers the indices that were returned and the rows that they were returned
for: these indices count the rows page by page, each of them leads to its row for ever after, and no
other index leads anywhere.
-/

set_option autoImplicit false
set_option relaxedAutoImplicit false

namespace JoinIndex

/-- A row store in use, with its payer and the row that rows are copied over, and the indices that
appending returned so far, with the rows that were appended. -/
structure RowLog where
  store : RowStore
  payer : Option Budget
  scratch : Row
  issued : List (RowIndex × Row)

namespace RowLog

inductive Op where
  | append (row : Row)
  | get (index : RowIndex)
  | materialize (index : RowIndex)
  /-- Others charge the payer or give back to it. -/
  | charged (payer : Option Budget)

def new (rowsPerPage : ℕ) (payer : Option Budget) (scratch : Row) : RowLog :=
  ⟨.new rowsPerPage, payer, scratch, []⟩

variable (l : RowLog)

def step : Op → RowLog
  | .append row =>
    let a := l.store.append l.payer row
    let issued :=
      match a.index with
      | .ok index => l.issued ++ [(index, row)]
      | .error _ => l.issued
    { l with store := a.store, payer := a.payer, issued }
  | .get _ => l
  | .materialize index => { l with scratch := (l.store.materialize index l.scratch).2 }
  | .charged payer => { l with payer }

/-- All operations, one after the other. -/
def run (ops : List Op) : RowLog :=
  ops.foldl step l

/-- The indices that were returned, in their order. -/
def indices : List RowIndex :=
  l.issued.map Prod.fst

variable {l}

/-! ### What the pages hold -/

/-- The rows of the store are those that an index was returned for, each at its index. -/
structure Holds (l : RowLog) : Prop where
  compact : l.store.Compact
  rows_eq : l.store.allRows = l.issued.map Prod.snd
  indices_eq : l.indices =
    (List.range l.issued.length).map (RowStore.indexOf l.store.rowsPerPage)

theorem holds_new (rowsPerPage : ℕ) (payer : Option Budget) (scratch : Row) :
    (new rowsPerPage payer scratch).Holds :=
  ⟨RowStore.compact_new rowsPerPage, rfl, rfl⟩

theorem Holds.length_eq (h : l.Holds) : l.store.allRows.length = l.issued.length := by
  rw [h.rows_eq, List.length_map]

/-- A row that is appended is the next one, and its index is the next index. -/
theorem Holds.push (h : l.Holds) {row : Row} (hpages : (l.store.push row).numPages ≤ 2 ^ 32)
    (payer : Option Budget) :
    (l.store.push row).lastIndex = .ok (RowStore.indexOf l.store.rowsPerPage l.issued.length) ∧
      Holds { l with
        store := l.store.push row
        payer
        issued := l.issued ++
          [(RowStore.indexOf l.store.rowsPerPage l.issued.length, row)] } := by
  have hindex := h.compact.lastIndex_push hpages
  rw [h.length_eq] at hindex
  refine ⟨hindex, h.compact.push row, ?_, ?_⟩
  · rw [RowStore.allRows_push, h.rows_eq, List.map_append, List.map_singleton]
  · have hindices := h.indices_eq
    rw [indices] at hindices
    rw [indices, List.map_append, hindices, RowStore.rowsPerPage_push, List.length_append,
      List.length_singleton, List.range_succ, List.map_append]
    rfl

/-- While the pages can be named, every operation keeps it. -/
theorem Holds.step (h : l.Holds) (op : Op) (hpages : (l.step op).store.numPages ≤ 2 ^ 32) :
    (l.step op).Holds := by
  cases op with
  | append row =>
    rcases l.store.append_cases l.payer row with ⟨budget, -, -, heq⟩ | ⟨-, heq⟩
    · rw [RowLog.step, heq]
      exact ⟨h.compact, h.rows_eq, h.indices_eq⟩
    · rw [RowLog.step, heq] at hpages ⊢
      obtain ⟨hindex, hholds⟩ := h.push hpages (l.payer.map (·.charge row.byteSize))
      dsimp only
      rw [hindex]
      exact hholds
  | get index => exact h
  | materialize index => exact ⟨h.compact, h.rows_eq, h.indices_eq⟩
  | charged payer => exact ⟨h.compact, h.rows_eq, h.indices_eq⟩

theorem rowsPerPage_step (l : RowLog) (op : Op) :
    (l.step op).store.rowsPerPage = l.store.rowsPerPage := by
  cases op with
  | append row =>
    rw [step]
    rcases l.store.append_cases l.payer row with ⟨budget, -, -, heq⟩ | ⟨-, heq⟩
    · rw [heq]
    · rw [heq]
      exact l.store.rowsPerPage_push row
  | _ => rfl

theorem numPages_le_step (l : RowLog) (op : Op) :
    l.store.numPages ≤ (l.step op).store.numPages := by
  cases op with
  | append row =>
    rw [step]
    rcases l.store.append_cases l.payer row with ⟨budget, -, -, heq⟩ | ⟨-, heq⟩
    · rw [heq]
    · rw [heq]
      exact l.store.numPages_le_push row
  | _ => exact le_refl _

theorem numPages_le_run (l : RowLog) (ops : List Op) :
    l.store.numPages ≤ (l.run ops).store.numPages := by
  induction ops generalizing l with
  | nil => exact le_refl _
  | cons op ops ih => exact (l.numPages_le_step op).trans (ih (l.step op))

/-- The induction is on the operations; pages are never taken away, so that they could be named all
the time if they can in the end. -/
theorem Holds.run (h : l.Holds) (ops : List Op)
    (hpages : (l.run ops).store.numPages ≤ 2 ^ 32) :
    (l.run ops).Holds ∧ (l.run ops).store.rowsPerPage = l.store.rowsPerPage := by
  induction ops generalizing l with
  | nil => exact ⟨h, rfl⟩
  | cons op ops ih =>
    have hle := (l.step op).numPages_le_run ops
    obtain ⟨hend, hsame⟩ := ih (h.step op (hle.trans hpages)) hpages
    exact ⟨hend, hsame.trans (l.rowsPerPage_step op)⟩

/-! ### What is read -/

/-- The indices that were returned count the rows page by page and lead to them; all other indices
lead nowhere. -/
structure Exact (l : RowLog) : Prop where
  page_eq : ∀ (n : ℕ) (index : RowIndex), l.indices[n]? = some index →
    index.page.toNat = n / l.store.rowsPerPage
  offset_eq : ∀ (n : ℕ) (index : RowIndex), l.indices[n]? = some index →
    index.offset.toNat = n % l.store.rowsPerPage
  increasing : l.indices.Pairwise fun i j ↦ i.le j = true ∧ i ≠ j
  get?_eq : ∀ x ∈ l.issued, l.store.get? x.1 = some x.2
  materialize_eq : ∀ x ∈ l.issued, ∀ scratch, l.store.materialize x.1 scratch = (true, x.2)
  get?_eq_none : ∀ index ∉ l.indices, l.store.get? index = none
  materialize_eq_self : ∀ index ∉ l.indices, ∀ scratch,
    l.store.materialize index scratch = (false, scratch)
  numRows_eq : l.store.numRows = l.issued.length
  numPages_eq : l.store.numPages = l.issued.length ⌈/⌉ l.store.rowsPerPage

theorem Holds.getElem?_indices (h : l.Holds) {n : ℕ} {index : RowIndex}
    (hindex : l.indices[n]? = some index) :
    n < l.store.allRows.length ∧ RowStore.indexOf l.store.rowsPerPage n = index := by
  rw [h.indices_eq, List.getElem?_map, Option.map_eq_some_iff] at hindex
  obtain ⟨m, hm, hindex⟩ := hindex
  obtain ⟨hlt, heq⟩ := List.getElem?_eq_some_iff.mp hm
  rw [List.getElem_range] at heq
  rw [List.length_range] at hlt
  subst heq
  exact ⟨h.length_eq ▸ hlt, hindex⟩

theorem Holds.exact (h : l.Holds) (hrows : l.store.rowsPerPage ≤ 2 ^ 32)
    (hpages : l.store.numPages ≤ 2 ^ 32) : l.Exact := by
  have hget : ∀ x ∈ l.issued, l.store.get? x.1 = some x.2 := by
    intro x hx
    obtain ⟨n, hn⟩ := List.mem_iff_getElem?.mp hx
    have hindex : l.indices[n]? = some x.1 := by
      rw [indices, List.getElem?_map, hn, Option.map_some]
    obtain ⟨hlt, heq⟩ := h.getElem?_indices hindex
    rw [← heq, h.compact.get?_indexOf hrows hpages hlt, h.rows_eq, List.getElem?_map, hn,
      Option.map_some]
  have hnone : ∀ index ∉ l.indices, l.store.get? index = none := by
    intro index hindex
    rw [Option.eq_none_iff_forall_ne_some]
    intro row hrow
    obtain ⟨n, hn, rfl⟩ := h.compact.exists_indexOf_eq hrow
    rw [h.indices_eq, ← h.length_eq] at hindex
    exact hindex (List.mem_map_of_mem (List.mem_range.mpr hn))
  refine
    { page_eq := fun n index hindex ↦ ?_
      offset_eq := fun n index hindex ↦ ?_
      increasing := ?_
      get?_eq := hget
      materialize_eq := fun x hx scratch ↦ ?_
      get?_eq_none := hnone
      materialize_eq_self := fun index hindex scratch ↦ ?_
      numRows_eq := by rw [RowStore.numRows_eq, h.length_eq]
      numPages_eq := by rw [h.compact.numPages_eq, h.length_eq] }
  · obtain ⟨hlt, rfl⟩ := h.getElem?_indices hindex
    exact h.compact.page_indexOf hpages hlt
  · obtain ⟨-, rfl⟩ := h.getElem?_indices hindex
    exact RowStore.offset_indexOf h.compact.rowsPerPage_pos hrows n
  · rw [h.indices_eq, ← h.length_eq, List.pairwise_map]
    refine List.pairwise_lt_range.imp_of_mem fun _ hn hlt ↦ ?_
    exact h.compact.indexOf_lt hrows hpages hlt (List.mem_range.mp hn)
  · rw [RowStore.materialize, hget x hx]
  · rw [RowStore.materialize, hnone index hindex]

/-- A store is an exact log of what was appended to it, whatever its payer refuses in between. The
indices that were returned count the rows page by page, so that they increase and none is returned
twice; each of them leads to its row, and reading at any other index leads nowhere and leaves the
row that is copied over as it is. The rows fill the pages one after the other. A row that is not
refused gets the next index. -/
theorem run_log_exact {rowsPerPage : ℕ} (hrows : rowsPerPage ≤ 2 ^ 32) (payer : Option Budget)
    (scratch : Row) (ops : List Op)
    (hpages : ((new rowsPerPage payer scratch).run ops).store.numPages ≤ 2 ^ 32) :
    let l := (new rowsPerPage payer scratch).run ops
    l.store.rowsPerPage = max rowsPerPage 1 ∧ l.Exact ∧
      ∀ row, (∀ budget, l.payer = some budget → budget.admits row.byteSize = true) →
        (l.store.push row).numPages ≤ 2 ^ 32 →
        ∃ index, (l.store.append l.payer row).index = .ok index ∧
          (l.step (.append row)).issued = l.issued ++ [(index, row)] := by
  obtain ⟨h, hperPage⟩ := (holds_new rowsPerPage payer scratch).run ops hpages
  have hle : max rowsPerPage 1 ≤ 2 ^ 32 := max_le hrows (by decide)
  refine ⟨hperPage, h.exact (hperPage.trans_le hle) hpages, fun row hgranted hpush ↦ ?_⟩
  obtain ⟨hindex, -⟩ := h.push hpush none
  rcases RowStore.append_cases _ _ row with ⟨budget, hpayer, hrefused, -⟩ | ⟨-, heq⟩
  · rw [hgranted budget hpayer] at hrefused
    cases hrefused
  · refine ⟨_, by rw [heq, hindex], ?_⟩
    rw [step, heq]
    dsimp only
    rw [hindex]

/-- An empty store with two rows a page. Others have charged 56 of the 168 bytes of its payer. -/
def smallStart : RowLog :=
  new 2 (some ⟨"rows", some 168, 56, 56, 0⟩) ⟨[]⟩

/-- Rows of 56 bytes. The third of them is refused; then others give back what they have charged,
and the next one gets the second page. -/
def smallOps : List Op :=
  [.append ⟨[.int64 1]⟩, .append ⟨[.int64 2]⟩, .append ⟨[.int64 3]⟩, .get ⟨0, 1⟩,
    .charged (some ⟨"rows", some 168, 112, 168, 1⟩), .append ⟨[.int64 4]⟩, .materialize ⟨0, 0⟩,
    .materialize ⟨2, 0⟩]

theorem run_log_exact_small :
    2 ≤ 2 ^ 32 ∧ (smallStart.run smallOps).store.numPages ≤ 2 ^ 32 ∧
      (smallStart.run smallOps).scratch = ⟨[.int64 1]⟩ ∧
      (smallStart.run smallOps).issued =
        [(⟨0, 0⟩, ⟨[.int64 1]⟩), (⟨0, 1⟩, ⟨[.int64 2]⟩), (⟨1, 0⟩, ⟨[.int64 4]⟩)] ∧
      (smallStart.run smallOps).Exact := by
  have hend : (fun l ↦ (l.store.numPages, l.scratch, l.issued)) (smallStart.run smallOps) =
      (2, ⟨[.int64 1]⟩,
        [(⟨0, 0⟩, ⟨[.int64 1]⟩), (⟨0, 1⟩, ⟨[.int64 2]⟩), (⟨1, 0⟩, ⟨[.int64 4]⟩)]) := by cbv
  obtain ⟨htwo, hrest⟩ := Prod.mk.inj hend
  obtain ⟨hscratch, hissued⟩ := Prod.mk.inj hrest
  have hrows : 2 ≤ 2 ^ 32 := by decide
  have hpages : (smallStart.run smallOps).store.numPages ≤ 2 ^ 32 := htwo.trans_le hrows
  obtain ⟨-, hexact, -⟩ := run_log_exact hrows _ _ smallOps hpages
  exact ⟨hrows, hpages, hscratch, hissued, hexact⟩

end RowLog

end JoinIndex
