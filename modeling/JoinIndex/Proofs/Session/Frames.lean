import JoinIndex.Proofs.Owners
import JoinIndex.Proofs.Table.Spending

/-!
What single operations leave alone. Only insertions and clearing change how full a table is, in its
buckets and in its pages of nodes; only resizing and making room change how many buckets it has; and
no operation changes the limit of the budget.
-/

set_option autoImplicit false
set_option relaxedAutoImplicit false

namespace JoinIndex

namespace Table

variable {t u v : Table}

/-- The second table has as many rows, filled buckets, chains and nodes as the first one, and its
last page has as many free slots. -/
structure AsFull (t u : Table) : Prop where
  filled_eq : u.filled = t.filled
  entries_eq : u.entries = t.entries
  overflowing_eq : u.overflowing = t.overflowing
  numNodes_eq : u.arena.numNodes = t.arena.numNodes
  free_eq : u.arena.free = t.arena.free
  pages_eq : u.arena.pages.size = t.arena.pages.size

theorem AsFull.refl (t : Table) : AsFull t t :=
  ⟨rfl, rfl, rfl, rfl, rfl, rfl⟩

theorem AsFull.trans (h : AsFull t u) (h' : AsFull u v) : AsFull t v :=
  ⟨h'.1.trans h.1, h'.2.trans h.2, h'.3.trans h.3, h'.4.trans h.4, h'.5.trans h.5,
    h'.6.trans h.6⟩

theorem asFull_setMatched (c : Cursor) (t : Table) : AsFull t (c.setMatched t) := by
  match c with
  | .atEnd => exact AsFull.refl t
  | .on _ (some node) => exact ⟨rfl, rfl, rfl, rfl, rfl, Arena.size_pages_setMatched _ _⟩
  | .on _ none => exact ⟨rfl, rfl, rfl, rfl, rfl, rfl⟩

theorem size_walk (c : Cursor) (t : Table) (rows : RowStore) (steps : List Cursor.Step) :
    (c.walk t rows steps).2.buckets.size = t.buckets.size :=
  walk_induction (P := fun u ↦ u.buckets.size = t.buckets.size)
    (fun c u h ↦ (size_buckets_setMatched c u).trans h) c rows steps rfl

theorem Resized.asFull {budget : Budget} {size : Nat} {o : Outcome (Except Error Unit)}
    (h : Resized t budget size o) : AsFull t o.table := by
  cases h with
  | moved => exact ⟨rfl, rfl, rfl, rfl, rfl, rfl⟩
  | _ => exact AsFull.refl t

end Table

namespace Session

open Table

variable {s s' : Session} {op : Op}

def Op.isInsert : Op → Bool
  | insert _ _ _ => true
  | _ => false

def Op.isClear : Op → Bool
  | clear => true
  | _ => false

def Op.isResize : Op → Bool
  | resize _ => true
  | _ => false

def Op.isMakeRoom : Op → Bool
  | makeRoom _ => true
  | _ => false

/-- What searches keep, every placing of a cursor keeps. -/
theorem place_induction {P : Table → Prop}
    (hsearched : ∀ (t : Table) (probe : Probe), P t → P (t.searched probe)) (s : Session)
    (start : Start) (ht : P s.table) : P (s.place start).2 := by
  cases start with
  | find context hash =>
    obtain ⟨probe, -, heq⟩ := find_eq s.table s.rows context hash
    rw [place, heq]
    exact hsearched _ probe ht
  | first => exact ht
  | firstUnmatched => exact ht

theorem table_giveBack {bytes : Nat} (h : s.step (.giveBack bytes) = .ok s') :
    s'.table = s.table := by
  rw [step, Budget.release, if_pos ((min_le_right _ _).trans (Nat.sub_le _ _))] at h
  obtain rfl := Except.ok.inj h
  rfl

theorem step_clear (h : s.Solvent) :
    s.step .clear = .ok { s with
      table := s.table.cleared
      budget := { s.budget with consumed := s.budget.consumed - s.table.arena.byteSize }
      kept := [] } := by
  rw [step, clear_eq_ok ((Nat.le_add_left _ _).trans h)]
  rfl

/-- What searches, marks and moves of the buckets keep, every operation keeps that is neither an
insertion nor a clearing. -/
theorem step_induction {P : Table → Prop}
    (hsearched : ∀ (t : Table) (probe : Probe), P t → P (t.searched probe))
    (hmarked : ∀ (c : Cursor) (t : Table), P t → P (c.setMatched t))
    (hmoved : ∀ (t : Table) (buckets : Array Bucket), P t →
      P { t with buckets, resizes := t.resizes + 1 })
    (h : s.Solvent) (hinsert : op.isInsert = false) (hclear : op.isClear = false)
    (hstep : s.step op = .ok s') (ht : P s.table) : P s'.table := by
  have hbuckets : bucketBytes s.table.buckets.size ≤ s.budget.consumed :=
    (Nat.le_add_right _ _).trans h
  have hresize : ∀ {size : Nat} {o : Outcome (Except Error Unit)},
      Resized s.table s.budget size o → P o.table := by
    intro size o hresized
    cases hresized with
    | moved => exact hmoved _ _ ht
    | _ => exact ht
  cases op with
  | insert => cases hinsert
  | clear => cases hclear
  | probe =>
    obtain rfl := Except.ok.inj hstep
    exact hsearched _ _ ht
  | walk start steps =>
    obtain rfl := Except.ok.inj hstep
    exact walk_induction hmarked _ _ _ (place_induction hsearched s start ht)
  | resize size =>
    obtain ⟨o, ho, hresized⟩ := exists_resize_eq_ok size hbuckets
    rw [step, ho] at hstep
    obtain rfl := Except.ok.inj hstep
    exact hresize hresized
  | makeRoom more =>
    obtain ⟨o, ho, hcases⟩ := exists_makeRoom_eq_ok more hbuckets
    rw [step, ho] at hstep
    obtain rfl := Except.ok.inj hstep
    rcases hcases with ⟨htable, -⟩ | ⟨size, hresized⟩
    · exact htable ▸ ht
    · exact hresize hresized
  | append =>
    obtain rfl := Except.ok.inj hstep
    exact ht
  | charge =>
    obtain rfl := Except.ok.inj hstep
    exact ht
  | giveBack => exact table_giveBack hstep ▸ ht

/-- Operations other than insertions and clearing leave a table as full as it was. -/
theorem asFull_step (h : s.Solvent) (hinsert : op.isInsert = false) (hclear : op.isClear = false)
    (hstep : s.step op = .ok s') : AsFull s.table s'.table :=
  step_induction (P := AsFull s.table)
    (fun _ _ hu ↦ hu.trans ⟨rfl, rfl, rfl, rfl, rfl, rfl⟩)
    (fun c u hu ↦ hu.trans (asFull_setMatched c u))
    (fun _ _ hu ↦ hu.trans ⟨rfl, rfl, rfl, rfl, rfl, rfl⟩)
    h hinsert hclear hstep (AsFull.refl _)

/-- Operations other than resizing and making room leave a table its number of buckets. -/
theorem size_step (h : s.Solvent) (hresize : op.isResize = false)
    (hroom : op.isMakeRoom = false) (hstep : s.step op = .ok s') :
    s'.table.buckets.size = s.table.buckets.size := by
  cases op with
  | insert context row hash =>
    obtain rfl := Except.ok.inj hstep
    obtain ⟨-, -, hsize, -⟩ :=
      (insert_inserted s.table s.budget s.rows context row hash).exists_pages
    exact hsize
  | clear =>
    rw [step_clear h] at hstep
    obtain rfl := Except.ok.inj hstep
    exact Array.size_replicate
  | probe =>
    obtain rfl := Except.ok.inj hstep
    rfl
  | walk start steps =>
    obtain rfl := Except.ok.inj hstep
    exact (size_walk _ _ _ _).trans (place_induction
      (P := fun u ↦ u.buckets.size = s.table.buckets.size) (fun _ _ hu ↦ hu) s start rfl)
  | resize => cases hresize
  | makeRoom => cases hroom
  | append =>
    obtain rfl := Except.ok.inj hstep
    rfl
  | charge =>
    obtain rfl := Except.ok.inj hstep
    rfl
  | giveBack => rw [table_giveBack hstep]

/-- No operation changes the limit of the budget or charges past it. -/
theorem budget_step (h : s.Solvent) (hstep : s.step op = .ok s') :
    s'.budget.limit = s.budget.limit ∧ (s.budget.Sound → s'.budget.Sound) := by
  have hof : ∀ {b : Budget} {old now : ℕ}, s.budget.Settles old now b →
      b.limit = s.budget.limit ∧ (s.budget.Sound → b.Sound) :=
    fun hsettles ↦ ⟨hsettles.limit_eq, hsettles.sound⟩
  by_cases hop : op.onTable = true
  · obtain ⟨u, hu, hsettles⟩ := exists_step_settles h hop
    rw [hstep] at hu
    obtain rfl := Except.ok.inj hu
    exact hof hsettles
  cases op with
  | append row paid =>
    obtain rfl := Except.ok.inj hstep
    cases paid with
    | false => exact ⟨rfl, id⟩
    | true =>
      rw [if_pos rfl, RowStore.append]
      dsimp only
      split_ifs with hadmits
      · exact hof (.charge hadmits 0)
      · exact hof (.refuse s.budget 0)
  | charge bytes =>
    obtain rfl := Except.ok.inj hstep
    exact hof (s.budget.tryConsume_settles bytes 0)
  | giveBack bytes =>
    have hle : min bytes (s.budget.consumed - s.table.byteSize) ≤ s.budget.consumed :=
      (min_le_right _ _).trans (Nat.sub_le _ _)
    obtain ⟨b, hb, hsettles⟩ := Budget.exists_release_eq_ok hle 0
    rw [step, hb] at hstep
    obtain rfl := Except.ok.inj hstep
    exact hof hsettles
  | _ => exact absurd rfl hop

end Session

end JoinIndex
