import JoinIndex.Proofs.RowStore.Refusals

/-!
Who pays for the rows of a store. Each row is charged to the budget that is attached when it is
appended, but the store gives all of its bytes back to the budget that is attached when it is
closed. Both are the same if the budget was attached before the first row and no other one was
attached later; if not, a budget gets back bytes that others have charged to it, or is asked for
more bytes than it was charged for.
-/

set_option autoImplicit false
set_option relaxedAutoImplicit false

namespace JoinIndex

theorem Row.byteSize_pos (row : Row) : 0 < row.byteSize := by
  have hle : ∀ (values : List Value) (bytes : ℕ),
      bytes ≤ values.foldl (fun bytes v ↦ bytes + v.byteSize) bytes := by
    intro values
    induction values with
    | nil => exact fun bytes ↦ le_refl _
    | cons v values ih => exact fun bytes ↦ (Nat.le_add_right _ _).trans (ih _)
  exact lt_of_lt_of_le (by decide) (hle row.values headerBytes)

/-- A row in a store: the budget that was attached when it was appended, and whether an index was
returned for it. -/
structure BilledRow where
  row : Row
  payer : Option ℕ
  answered : Bool

/-- A row store, the budgets that it may be charged to, the one that is attached to it, the rows
that it was given, and the bytes that others have charged to each budget. -/
structure BilledStore where
  store : RowStore
  budgets : ℕ → Budget
  attached : Option ℕ
  billed : List BilledRow
  others : ℕ → ℕ

namespace BilledStore

inductive Op where
  | append (row : Row)
  | attach (budget : ℕ)
  /-- A charge by someone else, unless it is refused. -/
  | charge (budget bytes : ℕ)
  /-- Someone else gives back up to `bytes`, but nothing that others have not charged. -/
  | giveBack (budget bytes : ℕ)

/-- Whether an operation attaches a budget. -/
def Op.isAttach : Op → Bool
  | attach _ => true
  | _ => false

/-- A new store, with budgets that others may have charged. -/
def new (rowsPerPage : ℕ) (budgets : ℕ → Budget) (attached : Option ℕ) : BilledStore :=
  ⟨.new rowsPerPage, budgets, attached, [], fun k ↦ (budgets k).consumed⟩

variable (b : BilledStore)

def step : Op → Except Fault BilledStore
  | .append row =>
    let a := b.store.append (b.attached.map b.budgets) row
    let budgets :=
      match b.attached with
      | some k => Function.update b.budgets k (a.payer.getD (b.budgets k))
      | none => b.budgets
    let billed :=
      match a.index with
      | .ok _ => b.billed ++ [⟨row, b.attached, true⟩]
      | .error (.internal _) => b.billed ++ [⟨row, b.attached, false⟩]
      | .error _ => b.billed
    .ok { b with store := a.store, budgets, billed }
  | .attach k => .ok { b with attached := some k }
  | .charge k bytes =>
    let (granted, budget) := (b.budgets k).tryConsume bytes
    .ok { b with
      budgets := Function.update b.budgets k budget
      others := if granted then Function.update b.others k (b.others k + bytes) else b.others }
  | .giveBack k bytes => do
    let given := min bytes (b.others k)
    let budget ← (b.budgets k).release given
    return { b with
      budgets := Function.update b.budgets k budget
      others := Function.update b.others k (b.others k - given) }

/-- All operations, one after the other. -/
def run (ops : List Op) : Except Fault BilledStore :=
  ops.foldlM step b

/-- Closes the store: the budget that is attached gets the bytes of all rows back. -/
def close : Except Fault (ℕ → Budget) :=
  match b.attached with
  | none => .ok b.budgets
  | some k => do
    let budget ← b.store.close (b.budgets k)
    return Function.update b.budgets k budget

/-- The bytes of the rows that satisfy a condition. -/
def bytesWhere (p : BilledRow → Bool) : ℕ :=
  ((b.billed.filter p).map fun x ↦ x.row.byteSize).sum

/-- The bytes that appending has charged to a budget. -/
def charged (k : ℕ) : ℕ :=
  b.bytesWhere fun x ↦ x.payer = some k

/-- The bytes that appending has charged to a budget when it succeeded. -/
def earned (k : ℕ) : ℕ :=
  b.bytesWhere fun x ↦ x.payer = some k && x.answered

/-- Closing the store does not fault, and each budget gets back what successful appends have charged
to it. -/
def ClosesExactly : Prop :=
  ∃ budgets, b.close = .ok budgets ∧
    ∀ k, (budgets k).consumed + b.earned k = (b.budgets k).consumed

variable {b : BilledStore}

/-! ### Bytes of rows -/

/-- No part of a list weighs as much as the list, if everything has a weight. -/
theorem sum_map_filter_eq_iff {α : Type} {p : α → Bool} {f : α → ℕ} (hpos : ∀ x, 0 < f x)
    (l : List α) :
    ((l.filter p).map f).sum = (l.map f).sum ↔ ∀ x ∈ l, p x = true := by
  induction l with
  | nil => simp
  | cons x l ih =>
    have hx := hpos x
    have hle : ((l.filter p).map f).sum ≤ (l.map f).sum :=
      (List.filter_sublist.map f).sum_le_sum fun _ _ ↦ Nat.zero_le _
    rw [List.forall_mem_cons, ← ih, List.filter_cons, List.map_cons, List.sum_cons]
    split_ifs with hp
    · rw [List.map_cons, List.sum_cons]
      simp [hp]
    · constructor
      · intro h
        omega
      · exact fun h ↦ absurd h.1 hp

/-! ### The balance -/

/-- The rows of the store are the ones that it was given, and each budget is charged for those that
were appended while it was attached, and by others. -/
structure Balanced (b : BilledStore) : Prop where
  rows_eq : b.store.allRows = b.billed.map (·.row)
  consumed_eq : ∀ k, (b.budgets k).consumed = b.charged k + b.others k
  unpaid : b.attached = none → ∀ x ∈ b.billed, x.payer = none

theorem balanced_new (rowsPerPage : ℕ) (budgets : ℕ → Budget) (attached : Option ℕ) :
    (new rowsPerPage budgets attached).Balanced where
  rows_eq := rfl
  consumed_eq := fun _ ↦ (Nat.zero_add _).symm
  unpaid := fun _ _ hx ↦ absurd hx List.not_mem_nil

theorem Balanced.byteSize_eq (h : b.Balanced) :
    b.store.byteSize = (b.billed.map fun x ↦ x.row.byteSize).sum := by
  rw [RowStore.byteSize_eq, h.rows_eq, List.map_map]
  rfl

/-- A row is refused, or it is appended and charged to the budget that is attached. -/
theorem step_append_cases (b : BilledStore) (row : Row) :
    (∃ k, b.attached = some k ∧ b.step (.append row) =
      .ok { b with budgets := Function.update b.budgets k (b.budgets k).refuse }) ∨
    ∃ answered, (∀ k, b.attached = some k → (b.budgets k).admits row.byteSize = true) ∧
      ((b.store.push row).numPages ≤ 2 ^ 32 → answered = true) ∧
      b.step (.append row) = .ok { b with
        store := b.store.push row
        budgets := match b.attached with
          | some k => Function.update b.budgets k ((b.budgets k).charge row.byteSize)
          | none => b.budgets
        billed := b.billed ++ [⟨row, b.attached, answered⟩] } := by
  rw [step]
  rcases b.store.append_cases (b.attached.map b.budgets) row with
    ⟨budget, hpayer, -, heq⟩ | ⟨hgranted, heq⟩
  · obtain ⟨k, hk, rfl⟩ := Option.map_eq_some_iff.mp hpayer
    refine Or.inl ⟨k, hk, ?_⟩
    rw [heq, hk]
    rfl
  · right
    have hadmits : ∀ k, b.attached = some k → (b.budgets k).admits row.byteSize = true :=
      fun k hk ↦ hgranted (b.budgets k) (by rw [hk, Option.map_some])
    rw [heq]
    cases hindex : (b.store.push row).lastIndex with
    | ok index =>
      refine ⟨true, hadmits, fun _ ↦ rfl, ?_⟩
      cases hattached : b.attached <;> rfl
    | error e =>
      obtain ⟨hpages, rfl⟩ := RowStore.lastIndex_push_eq_error_iff.mp hindex
      refine ⟨false, hadmits, fun hle ↦ absurd hpages (not_lt.mpr hle), ?_⟩
      cases hattached : b.attached <;> rfl

theorem charged_append (x : BilledRow) (store : RowStore) (budgets : ℕ → Budget) (k : ℕ) :
    charged { b with store, budgets, billed := b.billed ++ [x] } k =
      b.charged k + if x.payer = some k then x.row.byteSize else 0 := by
  show (((b.billed ++ [x]).filter _).map _).sum = _
  rw [List.filter_append, List.map_append, List.sum_append, List.filter_singleton]
  by_cases hk : x.payer = some k
  · simp [hk, charged, bytesWhere]
  · simp [hk, charged, bytesWhere]

/-- One budget settles its charges for what has become of them. -/
theorem Balanced.settle (h : b.Balanced) {k : ℕ} {budget : Budget} {old now : ℕ}
    (hsettles : (b.budgets k).Settles old now budget) (owed : ℕ → ℕ)
    (hk : owed k + old = b.charged k + b.others k + now)
    (hne : ∀ j, j ≠ k → owed j = b.charged j + b.others j) (j : ℕ) :
    (Function.update b.budgets k budget j).consumed = owed j := by
  by_cases hj : j = k
  · have hconsumed := h.consumed_eq k
    have hchange := hsettles.consumed_eq
    rw [hj, Function.update_self]
    omega
  · rw [Function.update_of_ne hj, hne j hj, h.consumed_eq]

theorem Balanced.append (h : b.Balanced) (row : Row) :
    ∃ b', b.step (.append row) = .ok b' ∧ b'.Balanced := by
  rcases b.step_append_cases row with ⟨k, -, hstep⟩ | ⟨answered, hadmits, -, hstep⟩
  · exact ⟨_, hstep, h.rows_eq, h.settle (.refuse _ 0) _ rfl fun _ _ ↦ rfl, h.unpaid⟩
  · refine ⟨_, hstep, ?_, fun j ↦ ?_, fun hnone x hx ↦ ?_⟩
    · rw [RowStore.allRows_push, h.rows_eq, List.map_append, List.map_singleton]
    · rw [charged_append]
      cases hattached : b.attached with
      | none => exact h.consumed_eq j
      | some k =>
        have hsettled := h.settle (.charge (hadmits k hattached) 0)
          fun j ↦ (b.charged j + if some k = some j then row.byteSize else 0) + b.others j
        refine hsettled ?_ (fun i hi ↦ ?_) j
        · rw [if_pos rfl]
          omega
        · rw [if_neg fun heq ↦ hi (Option.some.inj heq).symm, Nat.add_zero]
    · rcases List.mem_append.mp hx with hx | hx
      · exact h.unpaid hnone x hx
      · rw [List.mem_singleton.mp hx]
        exact hnone

/-- No operation faults, and each of them keeps the balance. -/
theorem Balanced.step (h : b.Balanced) (op : Op) :
    ∃ b', b.step op = .ok b' ∧ b'.Balanced := by
  cases op with
  | append row => exact h.append row
  | attach k =>
    exact ⟨_, rfl, h.rows_eq, h.consumed_eq, fun hnone ↦ absurd hnone (Option.some_ne_none k)⟩
  | charge k bytes =>
    refine ⟨_, rfl, h.rows_eq, h.settle ((b.budgets k).tryConsume_settles bytes 0) _ ?_
      (fun j hj ↦ ?_), h.unpaid⟩
    · show b.charged k + (if ((b.budgets k).tryConsume bytes).1 then _ else _ : ℕ → ℕ) k + 0 = _
      rw [Table.fst_tryConsume]
      split_ifs
      · rw [Function.update_self]
        omega
      · omega
    · show b.charged j + (if ((b.budgets k).tryConsume bytes).1 then _ else _ : ℕ → ℕ) j = _
      split_ifs
      · rw [Function.update_of_ne hj]
      · rfl
  | giveBack k bytes =>
    have hle : min bytes (b.others k) ≤ (b.budgets k).consumed := by
      rw [h.consumed_eq]
      omega
    obtain ⟨budget, hrelease, hsettles⟩ := Budget.exists_release_eq_ok hle 0
    refine ⟨{ b with
      budgets := Function.update b.budgets k budget
      others := Function.update b.others k (b.others k - min bytes (b.others k)) }, ?_, h.rows_eq,
      h.settle hsettles _ ?_ (fun j hj ↦ ?_), h.unpaid⟩
    · rw [BilledStore.step, hrelease]
      rfl
    · show b.charged k + Function.update b.others k _ k + _ = _
      rw [Function.update_self]
      omega
    · show b.charged j + Function.update b.others k _ j = _
      rw [Function.update_of_ne hj]

theorem Balanced.run (h : b.Balanced) (ops : List Op) :
    ∃ b', b.run ops = .ok b' ∧ b'.Balanced := by
  induction ops generalizing b with
  | nil => exact ⟨b, rfl, h⟩
  | cons op ops ih =>
    obtain ⟨next, hnext, hbalanced⟩ := h.step op
    obtain ⟨b', hb', hend⟩ := ih hbalanced
    refine ⟨b', ?_, hend⟩
    rw [BilledStore.run, List.foldlM_cons, hnext]
    exact hb'

/-! ### One budget all the time -/

/-- All rows were appended while one budget was attached, or none, and got an index while pages can
be named. -/
structure Steady (payer : Option ℕ) (b : BilledStore) : Prop where
  attached_eq : b.attached = payer
  payer_eq : ∀ x ∈ b.billed, x.payer = payer
  answered : b.store.numPages ≤ 2 ^ 32 → ∀ x ∈ b.billed, x.answered = true

theorem Steady.step {payer : Option ℕ} (h : Steady payer b) {op : Op} {b' : BilledStore}
    (hop : op.isAttach = false) (hstep : b.step op = .ok b') : Steady payer b' := by
  cases op with
  | append row =>
    rcases b.step_append_cases row with ⟨k, -, heq⟩ | ⟨answered, -, hanswered, heq⟩
    · obtain rfl := Except.ok.inj (hstep.symm.trans heq)
      exact ⟨h.attached_eq, h.payer_eq, h.answered⟩
    · obtain rfl := Except.ok.inj (hstep.symm.trans heq)
      refine ⟨h.attached_eq, fun x hx ↦ ?_, fun hpages x hx ↦ ?_⟩
      · rcases List.mem_append.mp hx with hx | hx
        · exact h.payer_eq x hx
        · rw [List.mem_singleton.mp hx]
          exact h.attached_eq
      · rcases List.mem_append.mp hx with hx | hx
        · exact h.answered ((b.store.numPages_le_push row).trans hpages) x hx
        · rw [List.mem_singleton.mp hx]
          exact hanswered hpages
  | attach k => cases hop
  | charge k bytes =>
    obtain rfl := Except.ok.inj hstep
    exact ⟨h.attached_eq, h.payer_eq, h.answered⟩
  | giveBack k bytes =>
    rw [BilledStore.step] at hstep
    cases hrelease : (b.budgets k).release (min bytes (b.others k)) with
    | error fault =>
      rw [hrelease] at hstep
      cases hstep
    | ok budget =>
      rw [hrelease] at hstep
      obtain rfl := Except.ok.inj hstep
      exact ⟨h.attached_eq, h.payer_eq, h.answered⟩

theorem Steady.run {payer : Option ℕ} (h : Steady payer b) {ops : List Op} {b' : BilledStore}
    (hops : ∀ op ∈ ops, op.isAttach = false) (hrun : b.run ops = .ok b') : Steady payer b' := by
  induction ops generalizing b with
  | nil =>
    obtain rfl := Except.ok.inj hrun
    exact h
  | cons op ops ih =>
    rw [BilledStore.run, List.foldlM_cons] at hrun
    cases hnext : b.step op with
    | error fault =>
      rw [hnext] at hrun
      cases hrun
    | ok next =>
      rw [hnext] at hrun
      exact ih (h.step (hops op List.mem_cons_self) hnext)
        (fun op hmem ↦ hops op (List.mem_cons_of_mem _ hmem)) hrun

/-! ### Closing -/

theorem close_eq {k : ℕ} (hk : b.attached = some k) :
    b.close =
      if b.store.byteSize ≤ (b.budgets k).consumed then
        .ok (Function.update b.budgets k
          { b.budgets k with consumed := (b.budgets k).consumed - b.store.byteSize })
      else .error .releasedMoreThanConsumed := by
  rw [close, hk]
  dsimp only
  rw [RowStore.close, Budget.release]
  split_ifs <;> rfl

theorem bytesWhere_eq_zero {p : BilledRow → Bool} (h : ∀ x ∈ b.billed, p x = false) :
    b.bytesWhere p = 0 := by
  rw [bytesWhere, List.filter_eq_nil_iff.mpr fun x hx ↦ Bool.not_eq_true _ ▸ h x hx]
  rfl

theorem Balanced.bytesWhere_eq_iff (h : b.Balanced) (p : BilledRow → Bool) :
    b.bytesWhere p = b.store.byteSize ↔ ∀ x ∈ b.billed, p x = true := by
  rw [h.byteSize_eq]
  exact sum_map_filter_eq_iff (fun x ↦ x.row.byteSize_pos) b.billed

/-- Closing is exact if the budget that is attached has paid for all rows, each of which got an
index, and only then. -/
theorem Balanced.closesExactly_iff (h : b.Balanced) :
    b.ClosesExactly ↔
      ∀ k, b.attached = some k → ∀ x ∈ b.billed, x.payer = some k ∧ x.answered = true := by
  cases hattached : b.attached with
  | none =>
    refine ⟨fun _ k hk ↦ absurd hk.symm (Option.some_ne_none k), fun _ ↦ ⟨b.budgets, ?_, ?_⟩⟩
    · rw [close, hattached]
    intro k
    have hzero : b.earned k = 0 := bytesWhere_eq_zero fun x hx ↦ by
      rw [h.unpaid hattached x hx]
      rfl
    rw [hzero, Nat.add_zero]
  | some k =>
    have hearned : b.earned k = b.store.byteSize ↔
        ∀ x ∈ b.billed, x.payer = some k ∧ x.answered = true := by
      rw [earned, h.bytesWhere_eq_iff]
      simp
    rw [ClosesExactly, close_eq hattached]
    constructor
    · rintro ⟨budgets, hclose, hexact⟩ _ hk
      obtain rfl := Option.some.inj hk
      split_ifs at hclose with hle
      obtain rfl := Except.ok.inj hclose
      refine hearned.mp ?_
      have hbudget := hexact k
      rw [Function.update_self] at hbudget
      dsimp only at hbudget
      omega
    · intro hall
      have hpaid := hall k rfl
      have hcharged : b.charged k = b.store.byteSize :=
        (h.bytesWhere_eq_iff _).mpr fun x hx ↦ decide_eq_true (hpaid x hx).1
      have hconsumed := h.consumed_eq k
      have hle : b.store.byteSize ≤ (b.budgets k).consumed := by omega
      rw [if_pos hle]
      refine ⟨_, rfl, fun j ↦ ?_⟩
      by_cases hj : j = k
      · rw [hj, Function.update_self, hearned.mpr hpaid]
        exact Nat.sub_add_cancel hle
      · have hzero : b.earned j = 0 := bytesWhere_eq_zero fun x hx ↦ by
          rw [(hpaid x hx).1]
          simp [Ne.symm hj]
        rw [Function.update_of_ne hj, hzero, Nat.add_zero]

/-- Closing a store gives the bytes of all of its rows back to the budget that is attached then,
whoever paid for them: it faults if this budget is charged for less, and takes from what others have
charged to it if the store itself has charged less. Each budget gets back exactly what successful
appends have charged to it if and only if all rows were charged to the budget that is attached in
the end and got an index; so it is if no budget was attached after the store was created and all
pages can be named. -/
theorem run_close_exact (rowsPerPage : ℕ) (budgets : ℕ → Budget) (attached : Option ℕ)
    (ops : List Op) :
    ∃ b, (new rowsPerPage budgets attached).run ops = .ok b ∧
      b.store.allRows = b.billed.map (·.row) ∧
      (∀ k, (b.budgets k).consumed = b.charged k + b.others k) ∧
      (b.attached = none → b.close = .ok b.budgets) ∧
      (∀ k, b.attached = some k →
        if b.store.byteSize ≤ b.charged k + b.others k then
          ∃ after, b.close = .ok after ∧
            (after k).consumed + b.store.byteSize = b.charged k + b.others k ∧
            ∀ j, j ≠ k → after j = b.budgets j
        else b.close = .error .releasedMoreThanConsumed) ∧
      (b.ClosesExactly ↔
        ∀ k, b.attached = some k → ∀ x ∈ b.billed, x.payer = some k ∧ x.answered = true) ∧
      ((∀ op ∈ ops, op.isAttach = false) → b.store.numPages ≤ 2 ^ 32 → b.ClosesExactly) := by
  obtain ⟨b, hrun, h⟩ := (balanced_new rowsPerPage budgets attached).run ops
  refine ⟨b, hrun, h.rows_eq, h.consumed_eq, fun hnone ↦ by rw [close, hnone], fun k hk ↦ ?_,
    h.closesExactly_iff, fun hops hpages ↦ ?_⟩
  · have hclose := close_eq hk
    rw [← h.consumed_eq]
    split_ifs with hle
    · rw [if_pos hle] at hclose
      refine ⟨_, hclose, ?_, fun j hj ↦ Function.update_of_ne hj _ _⟩
      rw [Function.update_self]
      exact Nat.sub_add_cancel hle
    · rwa [if_neg hle] at hclose
  · have hnew : Steady attached (new rowsPerPage budgets attached) :=
      ⟨rfl, fun _ hx ↦ absurd hx List.not_mem_nil, fun _ _ hx ↦ absurd hx List.not_mem_nil⟩
    have hsteady := hnew.run hops hrun
    refine h.closesExactly_iff.mpr fun k hk x hx ↦ ⟨?_, hsteady.answered hpages x hx⟩
    rw [hsteady.payer_eq x hx, ← hsteady.attached_eq, hk]

/-- A budget that is attached after a row was appended is asked for bytes that it was never charged
for. A budget that takes the place of another one gives up bytes that others have charged to it,
and the first one stays charged. -/
theorem close_other_payer :
    ((new 1 (fun _ ↦ .unlimited "rows") none).run [.append ⟨[.int64 7]⟩, .attach 0]).bind close =
        .error .releasedMoreThanConsumed ∧
      (((new 1 (fun _ ↦ .unlimited "rows") (some 0)).run
        [.append ⟨[.int64 7]⟩, .charge 1 100, .attach 1]).bind close).map
          (fun budgets ↦ ((budgets 0).consumed, (budgets 1).consumed)) = .ok (56, 44) := by
  constructor
  · rfl
  · cbv

end BilledStore

end JoinIndex
