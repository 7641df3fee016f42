import JoinIndex.Proofs.Session.Frames
import JoinIndex.Proofs.Table.Packing

/-!
What a table in use charges for its nodes. Only insertions add pages, each for a row that then
takes slots of it, and only clearing takes pages away. So at any time every page but the last has a
node in each slot, but for one slot at most, and the last page has a node. The slots without a node
are therefore the free ones of the last page and one more a page, and the bytes of all slots are at
most about twice those of the nodes, a slot for each page and one first page. Without a node nothing
is charged.
-/

set_option autoImplicit false
set_option relaxedAutoImplicit false

namespace JoinIndex

namespace Table

variable {t u : Table}

theorem Packed.of_asFull (h : t.Packed) (hfull : AsFull t u) : u.Packed := by
  obtain ⟨⟨hslots, hpages⟩, hchains⟩ := h
  refine ⟨⟨?_, ?_⟩, ?_⟩
  · rw [Arena.slots, hfull.numNodes_eq, hfull.free_eq, hfull.pages_eq]
    exact hslots
  · rw [hfull.numNodes_eq, hfull.pages_eq]
    exact hpages
  · rw [hfull.overflowing_eq, hfull.numNodes_eq]
    exact hchains

end Table

namespace Session

open Table

variable {s s' : Session} {op : Op}

theorem packed_step (hsolvent : s.Solvent) (hsound : s.table.Sound) (hpaged : s.table.arena.Paged)
    (hpacked : s.table.Packed) (hstep : s.step op = .ok s') : s'.table.Packed := by
  cases op with
  | insert context row hash =>
    obtain rfl := Except.ok.inj hstep
    exact (insert_inserted s.table s.budget s.rows context row hash).packed hsound hpaged hpacked
  | clear =>
    rw [step_clear hsolvent] at hstep
    obtain rfl := Except.ok.inj hstep
    exact ⟨Arena.packed_empty, le_refl 0⟩
  | _ => exact hpacked.of_asFull (asFull_step hsolvent rfl rfl hstep)

theorem dense_step (hsolvent : s.Solvent) (hpaged : s.table.arena.Paged)
    (hdense : s.table.arena.Dense) (hstep : s.step op = .ok s') : s'.table.arena.Dense := by
  have hquiet : op.isInsert = false → op.isClear = false → s'.table.arena.Dense :=
    fun hinsert hclear ↦ step_induction (P := fun t ↦ t.arena.Dense) (fun _ _ h ↦ h)
      (fun c _ h ↦ dense_setMatched c h) (fun _ _ h ↦ h) hsolvent hinsert hclear hstep hdense
  cases op with
  | insert context row hash =>
    obtain rfl := Except.ok.inj hstep
    exact (insert_inserted s.table s.budget s.rows context row hash).dense hpaged hdense
  | clear =>
    rw [step_clear hsolvent] at hstep
    obtain rfl := Except.ok.inj hstep
    exact Arena.dense_empty
  | _ => exact hquiet rfl rfl

/-- What the slots of a table in use are reckoned from. -/
structure WellUsed (s : Session) : Prop where
  sound : s.table.Sound
  paged : s.table.arena.Paged
  packed : s.table.Packed
  dense : s.table.arena.Dense

theorem wellUsed_create {config : Config} {stored : Bool} {budget : Budget} {rows : RowStore}
    (h : create config stored budget rows = .ok s) : s.WellUsed := by
  have hsound := (intact_create h).sound
  obtain ⟨-, -, rfl⟩ := create_eq_ok h
  exact ⟨hsound, Arena.paged_empty, packed_empty _ _ _, Arena.dense_empty⟩

theorem WellUsed.step (h : s.WellUsed) (hsolvent : s.Solvent) (hstep : s.step op = .ok s') :
    s'.WellUsed := by
  have hmoves := (changes_of_step hsolvent hstep).1.moves h.sound
  exact ⟨hmoves.sound h.sound, hmoves.paged h.paged,
    packed_step hsolvent h.sound h.paged h.packed hstep,
    dense_step hsolvent h.paged h.dense hstep⟩

/-- After any operations on a new table, each page has the slots that the plan gives to its number.
Every page but the last has a node in each of them, but for one at most; the last page has a node,
and its other slots are the free ones. So the slots of all pages are as many as the nodes, the pages
that are left behind and the free slots, at most; and the bytes that are charged for them are at
most those of twice as many slots as there are nodes and pages, and of the first page. Nothing is
charged if and only if there is no node. -/
theorem run_pages_wellUsed {config : Config} {stored : Bool} {budget : Budget} {rows : RowStore}
    (h : create config stored budget rows = .ok s) (ops : List Op) :
    ∃ s', s.run ops = .ok s' ∧
      let a := s'.table.arena
      a.numNodes = (a.pages.toList.map Array.size).sum ∧
      a.nextCapacity = Arena.pageSlots a.pages.size ∧
      (∀ (k : ℕ) (page : Array Node), a.pages[k]? = some page →
        page.size ≤ Arena.pageSlots k ∧
        (k + 1 < a.pages.size → Arena.pageSlots k ≤ page.size + 1) ∧
        (k + 1 = a.pages.size → 0 < page.size ∧ page.size + a.free = Arena.pageSlots k)) ∧
      (1 ≤ a.pages.size → a.slots ≤ a.numNodes + (a.pages.size - 1) + a.free) ∧
      a.byteSize = 32 * a.slots ∧
      a.byteSize ≤ 32 * (2 * (a.numNodes + a.pages.size) + 1024) ∧
      (a.byteSize = 0 ↔ a.numNodes = 0) := by
  obtain ⟨s', hrun, -, hused⟩ := run_induction (P := WellUsed)
    (fun _ _ _ hsolvent hs hstep ↦ hs.step hsolvent hstep) (solvent_create h) (wellUsed_create h)
    ops
  have hpaged := hused.paged
  have hpacked := hused.packed.arena
  have hbytes : s'.table.arena.byteSize = 32 * s'.table.arena.slots := hpaged.byteSize_eq
  refine ⟨s', hrun, hused.sound.arena.numNodes_eq, hpaged.nextCapacity_eq, fun k page hpage ↦
    ⟨hpaged.size_le k page hpage, hused.dense.behind k page hpage, fun hlast ↦ ?_⟩, fun _ ↦ ?_,
    hbytes, ?_, ?_⟩
  · obtain rfl : k = s'.table.arena.pages.size - 1 := by omega
    exact ⟨hused.dense.last page hpage, hpaged.free_eq page hpage⟩
  · have hslots := hpacked.slots_le
    omega
  · have hslots := hpacked.slots_le_numNodes_add_pages hpaged
    omega
  · rw [hbytes, ← hpacked.slots_eq_zero_iff hused.sound.arena]
    omega

/-- A session with a table of two buckets and a budget for one page of nodes besides. -/
def pageStart : Session :=
  ⟨.empty .linear .direct 2, (Budget.new "small" (some 32816)).charge (bucketBytes 2), .new 1, []⟩

/-- A second row is refused as long as someone else holds a byte, and taken in afterwards. The table
is cleared and takes two rows again, and a third one. -/
def pageOps : List Op :=
  let insert (id : ℕ) : Op := .insert (intContext 1) (intRow id 1) 5
  [insert 0, .charge 1, insert 1, .giveBack 1, insert 2, .clear, insert 3, insert 4, insert 5]

/-- Three nodes are on the page in the end, and the bytes of its 1024 slots are charged. -/
theorem run_pages_wellUsed_small :
    create (.linear 2) false (Budget.new "small" (some 32816)) (.new 1) = .ok pageStart ∧
      ∃ s', pageStart.run pageOps = .ok s' ∧ s'.budget.refusals = 1 ∧
        s'.table.arena.numNodes = 3 ∧ s'.table.arena.pages.size = 1 ∧
        s'.table.arena.slots ≤ 3 + s'.table.arena.free ∧
        s'.table.arena.byteSize ≤ 32 * (2 * (3 + 1) + 1024) ∧ s'.table.arena.byteSize ≠ 0 := by
  have hcreate : create (.linear 2) false (Budget.new "small" (some 32816)) (.new 1) =
    .ok pageStart := rfl
  obtain ⟨s', hrun, -, -, -, hslots, -, hbytes, hzero⟩ := run_pages_wellUsed hcreate pageOps
  have hstate : (pageStart.run pageOps).map (fun s ↦
      (s.budget.refusals, s.table.arena.numNodes, s.table.arena.pages.size)) =
        .ok (1, 3, 1) := by cbv
  rw [hrun] at hstate
  obtain ⟨hrefusals, hrest⟩ := Prod.mk.inj (Except.ok.inj hstate)
  obtain ⟨hnodes, hpages⟩ := Prod.mk.inj hrest
  rw [hnodes, hpages] at hslots hbytes
  refine ⟨hcreate, s', hrun, hrefusals, hnodes, hpages, hslots (le_refl 1), hbytes, ?_⟩
  rw [Ne, hzero, hnodes]
  decide

end Session

end JoinIndex
