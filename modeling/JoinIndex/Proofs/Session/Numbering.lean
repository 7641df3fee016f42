import JoinIndex.Proofs.Session

/-!
The insertions that a table accepted, by number, the oldest one first. Each group of the table has
the numbers of its rows, which tell rows apart that were stored under one reference. A row that is
taken in has the next number, which stands in front of the others of its group, so that the numbers
of a group fall from the row stored last to the first. Whatever else is done to the table, every
number belongs to one row of one group.
-/

set_option autoImplicit false
set_option relaxedAutoImplicit false

namespace JoinIndex

open Table

/-- The reference of the insertion with a number; the latest insertion is kept first. -/
def Insertion.refAt (kept : List Insertion) (number : ℕ) : Option RowRef :=
  kept.reverse[number]?.map Insertion.ref

theorem Insertion.refAt_cons_of_lt {kept : List Insertion} {number : ℕ}
    (h : number < kept.length) (i : Insertion) :
    refAt (i :: kept) number = refAt kept number := by
  rw [refAt, List.reverse_cons, List.getElem?_append_left (by rwa [List.length_reverse])]
  rfl

theorem Insertion.refAt_cons_self (kept : List Insertion) (i : Insertion) :
    refAt (i :: kept) kept.length = some i.ref := by
  rw [refAt, List.reverse_cons, ← List.length_reverse, List.getElem?_concat_length]
  rfl

/-- A group of a table with the numbers of its rows. -/
abbrev NumberedGroup := (UInt32 × List RowRef) × List ℕ

/-- The groups with numbers: each number is that of a row, and each insertion has one. -/
structure Numbered (shapes : List (UInt32 × List RowRef)) (kept : List Insertion)
    (groups : List NumberedGroup) : Prop where
  shapes_perm : shapes.Perm (groups.map Prod.fst)
  refs_eq : ∀ g ∈ groups, g.1.2.map some = g.2.map (Insertion.refAt kept)
  falling : ∀ g ∈ groups, g.2.Pairwise (· > ·)
  numbers_perm : (groups.flatMap Prod.snd).Perm (List.range kept.length)

namespace Numbered

variable {shapes shapes' others : List (UInt32 × List RowRef)} {kept : List Insertion}
  {groups groups' : List NumberedGroup}

theorem nil : Numbered [] [] [] :=
  ⟨List.Perm.refl _, fun _ hg ↦ absurd hg List.not_mem_nil,
    fun _ hg ↦ absurd hg List.not_mem_nil, List.Perm.refl _⟩

theorem of_perm (h : Numbered shapes kept groups) (hperm : shapes'.Perm shapes) :
    Numbered shapes' kept groups :=
  ⟨hperm.trans h.shapes_perm, h.refs_eq, h.falling, h.numbers_perm⟩

theorem reorder (h : Numbered shapes kept groups) (hperm : groups'.Perm groups) :
    Numbered shapes kept groups' :=
  ⟨h.shapes_perm.trans (hperm.symm.map _), fun g hg ↦ h.refs_eq g (hperm.mem_iff.mp hg),
    fun g hg ↦ h.falling g (hperm.mem_iff.mp hg),
    (hperm.flatMap_right _).trans h.numbers_perm⟩

/-- The groups may be listed in the order of the table. -/
theorem exists_groups_eq (h : Numbered shapes kept groups) :
    ∃ ordered, ordered.map Prod.fst = shapes ∧ Numbered shapes kept ordered := by
  have hcomp : Relation.Comp (fun l m ↦ l = m.map Prod.fst) List.Perm shapes groups := by
    rw [List.eq_map_comp_perm]
    exact h.shapes_perm
  obtain ⟨ordered, heq, hperm⟩ := hcomp
  exact ⟨ordered, heq.symm, h.reorder hperm⟩

/-- The numbers of a group are those of insertions that were accepted. -/
theorem lt_length (h : Numbered shapes kept groups) {g : NumberedGroup} (hg : g ∈ groups)
    {number : ℕ} (hnumber : number ∈ g.2) : number < kept.length := by
  rw [← List.mem_range, ← h.numbers_perm.mem_iff, List.mem_flatMap]
  exact ⟨g, hg, hnumber⟩

/-- The old numbers keep their meaning when a row is taken in. -/
theorem refs_eq_cons (h : Numbered shapes kept groups) (i : Insertion) {g : NumberedGroup}
    (hg : g ∈ groups) : g.1.2.map some = g.2.map (Insertion.refAt (i :: kept)) := by
  rw [h.refs_eq g hg]
  exact List.map_congr_left fun number hnumber ↦
    (Insertion.refAt_cons_of_lt (h.lt_length hg hnumber) i).symm

/-- The next number comes to the numbers of all groups. -/
theorem range_length_cons (h : Numbered shapes kept groups) (i : Insertion) :
    (kept.length :: groups.flatMap Prod.snd).Perm (List.range (i :: kept).length) := by
  rw [List.length_cons, List.range_succ]
  exact (h.numbers_perm.cons _).trans (List.perm_append_singleton _ _).symm

/-- A row that is taken in as a group of its own. -/
theorem cons_new (h : Numbered shapes kept groups) (i : Insertion) :
    Numbered ((i.hash, [i.ref]) :: shapes) (i :: kept)
      (((i.hash, [i.ref]), [kept.length]) :: groups) := by
  refine ⟨h.shapes_perm.cons _, fun g hg ↦ ?_, fun g hg ↦ ?_, h.range_length_cons i⟩
  · rcases List.mem_cons.mp hg with rfl | hg
    · rw [List.map_singleton, List.map_singleton, Insertion.refAt_cons_self]
    · exact h.refs_eq_cons i hg
  · rcases List.mem_cons.mp hg with rfl | hg
    · exact List.pairwise_singleton _ _
    · exact h.falling g hg

/-- A row that is taken in in front of the rows of a group. -/
theorem cons_old {hash : UInt32} {refs : List RowRef}
    (h : Numbered ((hash, refs) :: others) kept groups) (i : Insertion) :
    ∃ groups', Numbered ((hash, i.ref :: refs) :: others) (i :: kept) groups' := by
  obtain ⟨ordered, hshapes, hordered⟩ := h.exists_groups_eq
  cases ordered with
  | nil => cases hshapes
  | cons g rest =>
    obtain ⟨hfirst, hrest⟩ := List.cons.inj hshapes
    have hg := hordered.refs_eq_cons i List.mem_cons_self
    have hfalling := hordered.falling g List.mem_cons_self
    rw [hfirst] at hg
    refine ⟨((hash, i.ref :: refs), kept.length :: g.2) :: rest, ?_, fun x hx ↦ ?_,
      fun x hx ↦ ?_, hordered.range_length_cons i⟩
    · rw [List.map_cons, hrest]
    · rcases List.mem_cons.mp hx with rfl | hx
      · rw [List.map_cons, List.map_cons, Insertion.refAt_cons_self, hg]
      · exact hordered.refs_eq_cons i (List.mem_cons_of_mem _ hx)
    · rcases List.mem_cons.mp hx with rfl | hx
      · exact List.pairwise_cons.mpr
          ⟨fun number hnumber ↦ hordered.lt_length List.mem_cons_self hnumber, hfalling⟩
      · exact hordered.falling x (List.mem_cons_of_mem _ hx)

end Numbered

namespace Session

variable {s s' : Session}

/-- The groups of the table have numbers. -/
def IsNumbered (s : Session) : Prop :=
  s.table.arena.Addressable → ∃ groups, Numbered s.table.shapes s.kept groups

theorem exists_numbered_insert {context : KeyContext} {row : RowRef} {hash : UInt32}
    {o : Outcome Bool} {groups : List NumberedGroup} (hintact : s.table.Intact)
    (hinserted : Inserted s.table s.budget (context.holds s.rows) row hash o)
    (haddr : o.table.arena.Addressable) (h : Numbered s.table.shapes s.kept groups) :
    ∃ groups', Numbered o.table.shapes
      (if o.answer then ⟨row, row.resolve s.rows, context, hash⟩ :: s.kept else s.kept)
      groups' := by
  let i : Insertion := ⟨row, row.resolve s.rows, context, hash⟩
  rcases hinserted.groups_cases hintact haddr with
    ⟨hanswer, hgroups⟩ | ⟨p, hanswer, -, hgroups⟩ |
      ⟨p, others, hanswer, hanswers, hbefore, hafter⟩
  · rw [if_neg (by simp [hanswer]), shapes, hgroups]
    exact ⟨groups, h⟩
  · rw [if_pos hanswer]
    exact ⟨_, (h.cons_new i).of_perm (hgroups.map _)⟩
  · rw [if_pos hanswer]
    obtain ⟨groups', hgroups'⟩ := (h.of_perm (hbefore.map Group.shape).symm).cons_old i
    exact ⟨groups', hgroups'.of_perm (hafter.map _)⟩

theorem Changes.isNumbered (h : Changes s s') (hintact : s.table.Intact) (hs : s.IsNumbered) :
    s'.IsNumbered := by
  intro haddr
  cases h with
  | insert context row hash o hinserted =>
    obtain ⟨groups, hgroups⟩ := hs (hinserted.addressable haddr)
    exact exists_numbered_insert hintact hinserted haddr hgroups
  | quiet u budget _ hshapes hpages =>
    have haddr' : s.table.arena.Addressable := by
      rw [Arena.Addressable, ← hpages]
      exact haddr
    obtain ⟨groups, hgroups⟩ := hs haddr'
    exact ⟨groups, hgroups.of_perm hshapes⟩
  | clear =>
    refine ⟨[], Numbered.nil.of_perm ?_⟩
    rw [shapes_eq_nil (filledBuckets_replicate s.table.buckets.size)]
  | append => exact hs haddr

theorem isNumbered_create {config : Config} {stored : Bool} {budget : Budget} {rows : RowStore}
    (h : create config stored budget rows = .ok s) : s.IsNumbered := by
  obtain ⟨-, -, rfl⟩ := create_eq_ok h
  refine fun _ ↦ ⟨[], Numbered.nil.of_perm ?_⟩
  rw [shapes_eq_nil (filledBuckets_replicate config.startBuckets)]

end Session

end JoinIndex
