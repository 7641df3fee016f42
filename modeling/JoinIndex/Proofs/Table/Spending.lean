import JoinIndex.Proofs.Table.Room

/-!
What a table costs that alone charges a budget without a limit. Each insertion adds one page of
nodes at most, and a page has a largest size, so that the charges of any table that is filled row by
row stay far below the range of words. Then no request is refused: making room for a bucket is
granted as long as three quarters of the largest table suffice, and a row that has room is taken in.
-/

set_option autoImplicit false
set_option relaxedAutoImplicit false

namespace JoinIndex.Table

open Probe

variable {t : Table} {budget : Budget} {isKey : RowRef → Bool} {row : RowRef} {hash : UInt32}
  {n : Nat}

/-- Bytes of the largest page of nodes. -/
def maxPageBytes : Nat := Arena.maxPageNodes * Arena.nodeBytes

/-- What `n` insertions and any resizes may have cost. -/
structure Spent (t : Table) (budget : Budget) (n : Nat) : Prop where
  limit_eq : budget.limit = none
  consumed_le : budget.consumed ≤ bucketBytes t.buckets.size + maxPageBytes * n
  pages_le : t.arena.pages.size ≤ n
  filled_le : t.filled ≤ n

theorem admits_of_limit_eq_none (hlimit : budget.limit = none) {bytes : Nat}
    (hbytes : budget.consumed + bytes < Budget.wordRange) : budget.admits bytes = true := by
  rw [Budget.admits, hlimit, Option.all_none, Bool.and_true, decide_eq_true_iff]
  exact hbytes

theorem bucketBytes_le {size : Nat} (hsize : size ≤ Config.maxBuckets) :
    bucketBytes size ≤ bucketBytes Config.maxBuckets :=
  Nat.mul_le_mul_right _ hsize

/-- While there are at most as many insertions as the largest table has buckets, the budget grants
another array of buckets. -/
theorem Spent.admits_buckets (h : Spent t budget n) (hsound : t.Sound)
    (hn : n ≤ Config.maxBuckets) {size : Nat} (hsize : size ≤ Config.maxBuckets) :
    budget.admits (bucketBytes size) = true := by
  refine admits_of_limit_eq_none h.limit_eq ?_
  have hconsumed := h.consumed_le
  have hbuckets := bucketBytes_le hsound.size_le
  have hbytes := bucketBytes_le hsize
  have hpages : maxPageBytes * n ≤ maxPageBytes * Config.maxBuckets := Nat.mul_le_mul_left _ hn
  have hrange : bucketBytes Config.maxBuckets + maxPageBytes * Config.maxBuckets +
      bucketBytes Config.maxBuckets < Budget.wordRange := by decide
  omega

/-- It grants another page of nodes as well. -/
theorem Spent.admits_page (h : Spent t budget n) (hsound : t.Sound)
    (hn : n ≤ Config.maxBuckets) :
    budget.admits (t.arena.nextCapacity * Arena.nodeBytes) = true := by
  refine admits_of_limit_eq_none h.limit_eq ?_
  have hconsumed := h.consumed_le
  have hbuckets := bucketBytes_le hsound.size_le
  have hpage : t.arena.nextCapacity * Arena.nodeBytes ≤ maxPageBytes :=
    Nat.mul_le_mul_right _ hsound.arena.nextCapacity_le
  have hpages : maxPageBytes * n ≤ maxPageBytes * Config.maxBuckets := Nat.mul_le_mul_left _ hn
  have hrange : bucketBytes Config.maxBuckets + maxPageBytes * Config.maxBuckets +
      maxPageBytes < Budget.wordRange := by decide
  omega

theorem Inserted.filled_le {o : Outcome Bool} (h : Inserted t budget isKey row hash o) :
    o.table.filled ≤ t.filled + 1 := by
  cases h with
  | first => exact le_refl _
  | _ => exact Nat.le_succ _

theorem Inserted.spent {o : Outcome Bool} (h : Inserted t budget isKey row hash o)
    (hspent : Spent t budget n) (hsound : t.Sound) : Spent o.table o.budget (n + 1) := by
  obtain ⟨pages, hle, hsize, hpages, -, hconsumed, hlimit⟩ := h.exists_pages
  have hspentPages := hspent.pages_le
  have hspentFilled := hspent.filled_le
  have hfilled := h.filled_le
  constructor
  · rw [hlimit]
    exact hspent.limit_eq
  · have hpage : t.arena.nextCapacity * Arena.nodeBytes ≤ maxPageBytes :=
      Nat.mul_le_mul_right _ hsound.arena.nextCapacity_le
    have hcost : pages * (t.arena.nextCapacity * Arena.nodeBytes) ≤ 1 * maxPageBytes :=
      Nat.mul_le_mul hle hpage
    rw [hconsumed, hsize, Nat.mul_succ, ← Nat.add_assoc]
    rw [Nat.one_mul] at hcost
    exact Nat.add_le_add hspent.consumed_le hcost
  · omega
  · omega

theorem Resized.spent {size : Nat} {o : Outcome (Except Error Unit)}
    (h : Resized t budget size o) (hspent : Spent t budget n) : Spent o.table o.budget n := by
  cases h with
  | moved buckets _ _ _ _ hmoved =>
    refine ⟨hspent.limit_eq, ?_, hspent.pages_le, hspent.filled_le⟩
    change budget.consumed + bucketBytes size - bucketBytes t.buckets.size ≤
      bucketBytes buckets.size + maxPageBytes * n
    have hconsumed := hspent.consumed_le
    rw [(relocate_eq_some hmoved).1]
    omega
  | _ => exact ⟨hspent.1, hspent.2, hspent.3, hspent.4⟩

/-! ### The kind of the rows -/

theorem Inserted.storage_eq {o : Outcome Bool} (h : Inserted t budget isKey row hash o) :
    o.table.storage = t.storage := by
  cases h <;> rfl

theorem Resized.storage_eq {size : Nat} {o : Outcome (Except Error Unit)}
    (h : Resized t budget size o) : o.table.storage = t.storage := by
  cases h <;> rfl

/-! ### Requests that are granted -/

/-- A resize that three quarters suffice for and that the budget grants succeeds. -/
theorem Resized.granted {size : Nat} {o : Outcome (Except Error Unit)}
    (h : Resized t budget size o) (hsound : t.Sound) (hpower : PowerOfTwo.IsPower size)
    (hle : size ≤ Config.maxBuckets) (hfill : withinFill t.filled size = true)
    (hadmits : budget.admits (bucketBytes size) = true) :
    o.answer = .ok () ∧ o.table.filled = t.filled ∧ o.table.buckets.size = size := by
  cases h with
  | notPower hnot => exact absurd hpower (hnot.resolve_right (Nat.not_lt.mpr hle))
  | tooFull _ _ hnot =>
    rw [hfill] at hnot
    cases hnot
  | refused _ _ _ hnot =>
    rw [hadmits] at hnot
    cases hnot
  | stuck _ _ _ _ hnone =>
    have hroom : (filledBuckets t.buckets).length ≤ size := by
      rw [← hsound.filled_eq]
      rw [withinFill_iff] at hfill
      omega
    obtain ⟨moved, hmoved⟩ : ∃ moved, Table.relocate t.probing t.buckets size = some moved :=
      exists_relocate_eq_some hpower hroom
    rw [hmoved] at hnone
    cases hnone
  | moved buckets _ _ _ _ hmoved => exact ⟨rfl, rfl, (relocate_eq_some hmoved).1⟩

/-- Room for as many buckets as three quarters of the largest table can take is always made. -/
theorem Spent.exists_makeRoom_eq_ok (h : Spent t budget n) (hsound : t.Sound)
    (hcharged : t.Charged budget) (hn : n ≤ Config.maxBuckets) {more : Nat}
    (hmore : 4 * (t.filled + more) ≤ 3 * Config.maxBuckets) :
    ∃ o, t.makeRoom budget more = .ok o ∧ o.answer = .ok () ∧
      ((o.table = t ∧ o.budget = budget) ∨ ∃ size, Resized t budget size o) ∧
      4 * (o.table.filled + more) ≤ 3 * o.table.buckets.size := by
  have hbuckets : bucketBytes t.buckets.size ≤ budget.consumed :=
    (Nat.le_add_right _ _).trans hcharged
  have hneeded : min (t.filled + more) (Budget.wordRange - 1) = t.filled + more := by
    refine min_eq_left ?_
    have hrange : 3 * Config.maxBuckets ≤ Budget.wordRange - 1 := by decide
    omega
  obtain ⟨hpower, hle, hroom⟩ := roomTarget_fits hsound hmore
  rw [makeRoom_eq hsound, hneeded, if_neg (Nat.not_lt.mpr hmore)]
  by_cases hsame : t.roomTarget (t.filled + more) = t.buckets.size
  · rw [if_pos hsame]
    rw [hsame] at hroom
    exact ⟨_, rfl, rfl, Or.inl ⟨rfl, rfl⟩, hroom⟩
  · rw [if_neg hsame]
    have hfill : withinFill t.filled (t.roomTarget (t.filled + more)) = true := by
      rw [withinFill_iff]
      omega
    obtain ⟨o, ho, hresized⟩ := exists_resize_eq_ok (t.roomTarget (t.filled + more)) hbuckets
    obtain ⟨hanswer, hfilled, hsize⟩ := hresized.granted hsound hpower hle hfill
      (h.admits_buckets hsound hn hle)
    refine ⟨o, ho, hanswer, Or.inr ⟨_, hresized⟩, ?_⟩
    rw [hfilled, hsize]
    exact hroom

/-- A row of the table's kind is taken in when some bucket is empty and the budget grants a page. -/
theorem Inserted.granted {o : Outcome Bool} (h : Inserted t budget isKey row hash o)
    (hsound : t.Sound) (hkind : row.storage = t.storage) (hroom : t.filled < t.buckets.size)
    (hadmits : budget.admits (t.arena.nextCapacity * Arena.nodeBytes) = true) :
    o.answer = true := by
  cases h with
  | wrongKind hnot => exact absurd hkind hnot
  | full _ _ hanswers =>
    rw [hsound.filled_eq] at hroom
    obtain ⟨p, hp, hempty⟩ := exists_empty_of_length_lt hroom
    exact absurd hanswers (not_answers_exhausted hsound.size_isPower hp hempty)
  | refused _ _ _ _ _ _ _ hnot =>
    rw [hadmits] at hnot
    cases hnot
  | first => rfl
  | second => rfl
  | further => rfl

end JoinIndex.Table
