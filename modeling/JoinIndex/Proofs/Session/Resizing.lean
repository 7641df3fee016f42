import JoinIndex.Proofs.Session
import JoinIndex.Proofs.Table.Spending

/-!
Resizing a table in use. A resize is refused for a size that the table cannot have, and then for a
charge that the budget does not grant; in no other case. A refusal leaves the table and the charges
as they were. A resize that is granted moves every bucket with its chain and its marks, and only the
places of the buckets, their number and the count of resizes are different afterwards.
-/

set_option autoImplicit false
set_option relaxedAutoImplicit false

namespace JoinIndex

namespace Table

variable {t : Table} {budget : Budget} {size : Nat} {o : Outcome (Except Error Unit)}

/-- A table cannot have this many buckets: they are no power of two, too many, or too few for the
buckets that are filled. -/
def Unfit (t : Table) (size : Nat) : Prop :=
  (¬ ∃ k, size = 2 ^ k) ∨ 2 ^ 30 < size ∨ 3 * size < 4 * t.filled

theorem not_unfit (hpower : PowerOfTwo.IsPower size) (hle : size ≤ Config.maxBuckets)
    (hfill : withinFill t.filled size = true) : ¬ t.Unfit size := by
  rw [withinFill_iff] at hfill
  have hmax : Config.maxBuckets = 2 ^ 30 := rfl
  rintro (hnot | hlt | hlt)
  · exact hnot (PowerOfTwo.isPower_iff.mp hpower)
  · omega
  · omega

/-- The three answers to a resize of a sound table, each with its condition. -/
theorem Resized.answer_cases (h : Resized t budget size o) (hsound : t.Sound) :
    (t.Unfit size ∧ ∃ cause, o.answer = .error (.capacity cause)) ∨
    (¬ t.Unfit size ∧ budget.admits (bucketBytes size) = false ∧
      o.answer = .error (.memoryLimit (bucketBytes size) budget.remaining)) ∨
    (¬ t.Unfit size ∧ budget.admits (bucketBytes size) = true ∧ o.answer = .ok ()) := by
  cases h with
  | notPower hnot =>
    refine Or.inl ⟨?_, _, rfl⟩
    rcases hnot with hnot | hlt
    · exact Or.inl fun hpower ↦ hnot (PowerOfTwo.isPower_iff.mpr hpower)
    · exact Or.inr (Or.inl hlt)
  | tooFull hpower hle hfill =>
    refine Or.inl ⟨Or.inr (Or.inr ?_), _, rfl⟩
    rw [Bool.eq_false_iff, ne_eq, withinFill_iff] at hfill
    omega
  | refused hpower hle hfill hadmits =>
    exact Or.inr (Or.inl ⟨not_unfit hpower hle hfill, hadmits, rfl⟩)
  | stuck hpower hle hfill hadmits hnone =>
    obtain ⟨hok, -⟩ := (Resized.stuck hpower hle hfill hadmits hnone).granted hsound hpower hle
      hfill hadmits
    cases hok
  | moved buckets hpower hle hfill hadmits =>
    exact Or.inr (Or.inr ⟨not_unfit hpower hle hfill, hadmits, rfl⟩)

/-- A refusal is counted at most: the table and the charges stay. -/
theorem Resized.unchanged {e : Error} (h : Resized t budget size o) (he : o.answer = .error e) :
    o.table = t ∧ o.budget.consumed = budget.consumed := by
  cases h with
  | moved => cases he
  | _ => exact ⟨rfl, rfl⟩

/-- What a resize that is granted does to the table and the charges. -/
theorem Resized.moved_of_ok (h : Resized t budget size o) (hok : o.answer = .ok ()) :
    o.table = { t with buckets := o.table.buckets, resizes := t.resizes + 1 } ∧
      o.table.buckets.size = size ∧
      (filledBuckets o.table.buckets).Perm (filledBuckets t.buckets) ∧
      o.budget.consumed = budget.consumed + bucketBytes size - bucketBytes t.buckets.size := by
  cases h with
  | moved buckets _ _ _ _ hmoved =>
    obtain ⟨hsize, -, hperm⟩ := relocate_eq_some hmoved
    exact ⟨rfl, hsize, hperm, rfl⟩
  | _ => cases hok

end Table

namespace Session

open Table

variable {s : Session}

/-- After any operations on a new table, a resize to any size answers, and its answer is an error
for a size that the table cannot have, an error for a charge of 24 bytes a bucket that the budget
does not grant, or success. After an error the table and the charges are as before. After a success
the buckets are the same ones at other places, holding the same rows with the same marks in the same
order, and nothing else has changed but the number of buckets, the count of resizes and the bytes
charged. -/
theorem run_resize_exact {config : Config} {stored : Bool} {budget : Budget} {rows : RowStore}
    (h : create config stored budget rows = .ok s) (ops : List Op) :
    ∃ s', s.run ops = .ok s' ∧ ∀ size, ∃ o, s'.table.resize s'.budget size = .ok o ∧
      ((∃ cause, o.answer = .error (.capacity cause)) ↔ s'.table.Unfit size) ∧
      ((∃ requested remaining, o.answer = .error (.memoryLimit requested remaining)) ↔
        ¬ s'.table.Unfit size ∧ (s'.budget.tryConsume (24 * size)).1 = false) ∧
      (o.answer = .ok () ↔
        ¬ s'.table.Unfit size ∧ (s'.budget.tryConsume (24 * size)).1 = true) ∧
      (∀ cause, o.answer ≠ .error (.internal cause)) ∧
      (∀ e, o.answer = .error e →
        o.table = s'.table ∧ o.budget.consumed = s'.budget.consumed) ∧
      (o.answer = .ok () →
        o.table.buckets.size = size ∧
        (filledBuckets o.table.buckets).Perm (filledBuckets s'.table.buckets) ∧
        o.table.groups.Perm s'.table.groups ∧
        o.table = { s'.table with
          buckets := o.table.buckets
          resizes := s'.table.resizes + 1 } ∧
        (o.table.byteSize : Int) =
          s'.table.byteSize + 24 * size - 24 * s'.table.buckets.size ∧
        (o.budget.consumed : Int) =
          s'.budget.consumed + 24 * size - 24 * s'.table.buckets.size) := by
  obtain ⟨s', hrun, hsolvent, hintact⟩ := exists_run_eq_ok (P := fun s ↦ s.table.Intact)
    (fun _ _ hs hchanges ↦ hchanges.intact hs) (solvent_create h) (intact_create h) ops
  refine ⟨s', hrun, fun size ↦ ?_⟩
  have hcharged : bucketBytes s'.table.buckets.size ≤ s'.budget.consumed :=
    (Nat.le_add_right _ _).trans hsolvent
  obtain ⟨o, ho, hresized⟩ := exists_resize_eq_ok (t := s'.table) size hcharged
  have hbytes : ∀ buckets, bucketBytes buckets = 24 * buckets :=
    fun buckets ↦ Nat.mul_comm buckets 24
  have hgroups := hresized.groups_perm
  have hanswer := hresized.answer_cases hintact.sound
  rw [hbytes] at hanswer hcharged
  refine ⟨o, ho, ?_, ?_, ?_, ?_, fun e he ↦ hresized.unchanged he, fun hok ↦ ?_⟩
  · rcases hanswer with ⟨hunfit, hcause⟩ | ⟨hfit, -, heq⟩ | ⟨hfit, -, heq⟩
    · exact iff_of_true hcause hunfit
    · exact iff_of_false (by simp [heq]) hfit
    · exact iff_of_false (by simp [heq]) hfit
  · rw [fst_tryConsume]
    rcases hanswer with ⟨hunfit, _, heq⟩ | ⟨hfit, hadmits, heq⟩ | ⟨hfit, hadmits, heq⟩
    · exact iff_of_false (by simp [heq]) fun hall ↦ hall.1 hunfit
    · exact iff_of_true ⟨_, _, heq⟩ ⟨hfit, hadmits⟩
    · exact iff_of_false (by simp [heq]) (by simp [hadmits])
  · rw [fst_tryConsume]
    rcases hanswer with ⟨hunfit, _, heq⟩ | ⟨hfit, hadmits, heq⟩ | ⟨hfit, hadmits, heq⟩
    · exact iff_of_false (by simp [heq]) fun hall ↦ hall.1 hunfit
    · exact iff_of_false (by simp [heq]) (by simp [hadmits])
    · exact iff_of_true heq ⟨hfit, hadmits⟩
  · intro cause
    rcases hanswer with ⟨_, _, heq⟩ | ⟨_, _, heq⟩ | ⟨_, _, heq⟩ <;> simp [heq]
  · obtain ⟨htable, hsize, hperm, hconsumed⟩ := hresized.moved_of_ok hok
    rw [hbytes, hbytes] at hconsumed
    refine ⟨hsize, hperm, hgroups, htable, ?_, ?_⟩
    · have harena := hresized.arena_eq
      rw [byteSize, byteSize, harena, hsize, hbytes, hbytes]
      omega
    · omega

/-- The table of the small session has two filled buckets in four. It cannot be halved, nor have
three buckets, and it can be doubled, with its chain. -/
theorem run_resize_exact_small :
    create (.linear 2) false (Budget.unlimited "small") (.new 1) = .ok smallStart ∧
      ∃ s', smallStart.run smallOps = .ok s' ∧
        (∃ o, s'.table.resize s'.budget 2 = .ok o ∧
          (∃ cause, o.answer = .error (.capacity cause)) ∧ o.table = s'.table) ∧
        ∃ o, s'.table.resize s'.budget 8 = .ok o ∧ o.answer = .ok () ∧
          o.table.buckets.size = 8 ∧ o.table.groups.Perm s'.table.groups := by
  obtain ⟨s', hrun, hall⟩ := run_resize_exact create_small smallOps
  have hstate : (smallStart.run smallOps).map
      (fun s ↦ (s.table.filled, (s.budget.tryConsume (24 * 8)).1)) = .ok (2, true) := by cbv
  rw [hrun] at hstate
  obtain ⟨hfilled, hgranted⟩ := Prod.mk.inj (Except.ok.inj hstate)
  refine ⟨create_small, s', hrun, ?_, ?_⟩
  · obtain ⟨o, ho, hcapacity, -, -, -, hkeeps, -⟩ := hall 2
    obtain ⟨cause, hcause⟩ := hcapacity.mpr (Or.inr (Or.inr (by rw [hfilled]; decide)))
    exact ⟨o, ho, ⟨cause, hcause⟩, (hkeeps _ hcause).1⟩
  · obtain ⟨o, ho, -, -, hok, -, -, hmoved⟩ := hall 8
    have hfit : ¬ s'.table.Unfit 8 := by
      rintro (hnot | hlt | hlt)
      · exact hnot ⟨3, rfl⟩
      · omega
      · omega
    obtain ⟨hsize, -, hgroups, -⟩ := hmoved (hok.mpr ⟨hfit, hgranted⟩)
    exact ⟨o, ho, hok.mpr ⟨hfit, hgranted⟩, hsize, hgroups⟩

end Session

end JoinIndex
