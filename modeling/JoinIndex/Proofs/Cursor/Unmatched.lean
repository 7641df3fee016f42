import JoinIndex.Proofs.Cursor.Positions

/-!
Walks over the rows without a mark. From a position such a walk passes over marked rows only, and
there are never more of them ahead than rows in the table, so that the bound on the steps of
`skipMatched` does not show. From the first row without a mark on, the walk therefore meets what a
scan of all rows meets, in the same order, less the rows with a mark.
-/

set_option autoImplicit false
set_option relaxedAutoImplicit false

namespace JoinIndex

namespace Cursor

variable {t : Table}

theorem skipMatched_atEnd (t : Table) (steps : Nat) : skipMatched .atEnd t steps = .atEnd := by
  cases steps <;> rfl

/-- Enough steps lead to the first position without a mark, or to the end. -/
theorem skipMatched_headD {cs : List Cursor} (h : Leads t .next cs) {steps : Nat}
    (hsteps : cs.length ≤ steps) : (cs.headD .atEnd).skipMatched t steps =
      (cs.filter fun c ↦ !c.isMatched t).headD .atEnd := by
  induction cs generalizing steps with
  | nil => exact skipMatched_atEnd t steps
  | cons c rest ih =>
    obtain ⟨-, hnext, hrest⟩ := h
    rw [List.length_cons] at hsteps
    obtain ⟨steps, rfl⟩ := Nat.exists_eq_add_of_le' (Nat.one_le_of_lt hsteps)
    change c.next t = _ at hnext
    rw [List.headD_cons, skipMatched, hnext, ih hrest (by omega)]
    cases hmatched : c.isMatched t with
    | true => rw [if_pos rfl, List.filter_cons_of_neg (by simp [hmatched])]
    | false => rw [if_neg Bool.false_ne_true, List.filter_cons_of_pos (by simp [hmatched]),
        List.headD_cons]

/-- The positions without a mark lead to each other when only such rows are met. -/
theorem leads_unmatched {cs : List Cursor} (h : Leads t .next cs)
    (hlength : cs.length ≤ t.entries) :
    Leads t .unmatched (cs.filter fun c ↦ !c.isMatched t) := by
  induction cs with
  | nil => trivial
  | cons c rest ih =>
    obtain ⟨hc, hnext, hrest⟩ := h
    rw [List.length_cons] at hlength
    have hleads := ih hrest (by omega)
    cases hmatched : c.isMatched t with
    | true =>
      rw [List.filter_cons_of_neg (by simp [hmatched])]
      exact hleads
    | false =>
      rw [List.filter_cons_of_pos (by simp [hmatched])]
      refine ⟨hc, ?_, hleads⟩
      change c.next t = _ at hnext
      rw [advance, nextUnmatched, hnext, skipMatched_headD hrest (by omega)]

end Cursor

namespace Table

variable {t : Table}

open Cursor

/-- From the first row without a mark a walk meets the rows without a mark, in the order of a
scan. -/
theorem positionsUpTo_firstUnmatched (h : t.Linked) (hsound : t.Sound) (count : Nat) :
    t.firstUnmatched.positionsUpTo t .unmatched count =
      ((t.first.positions t .next).filter fun c ↦ !c.isMatched t).take count := by
  have hleads : Leads t .next t.cursors := leads_cursorsFrom h 0 _ (Nat.zero_add _)
  have hlength : t.cursors.length ≤ t.entries := (length_cursors h hsound).le
  rw [firstUnmatched, first_eq_headD h, skipMatched_headD hleads hlength,
    positionsUpTo_eq_take (leads_unmatched hleads hlength), ← first_eq_headD h,
    positions_first h hsound]

/-! ### No position twice -/

theorem bucket?_of_mem_ofBucket {a : Arena} {p : Nat} {b : Bucket} {c : Cursor}
    (hc : c ∈ ofBucket a p b) : c.bucket? = some p := by
  cases b with
  | empty => cases hc
  | inline =>
    rw [ofBucket, List.mem_singleton] at hc
    rw [hc, bucket?]
  | chain =>
    rw [ofBucket, List.mem_map] at hc
    obtain ⟨i, -, rfl⟩ := hc
    rfl

theorem nodup_ofBucket (h : t.Linked) (p : Nat) :
    (ofBucket t.arena p (bucketAt t.buckets p)).Nodup := by
  cases hb : bucketAt t.buckets p with
  | empty => exact List.nodup_nil
  | inline => exact List.nodup_singleton _
  | chain hash head =>
    have hmem : Bucket.chain hash head ∈ filledBuckets t.buckets :=
      hb ▸ bucketAt_mem_filledBuckets (by rw [hb]; rfl)
    have hnodes := (List.nodup_flatMap.mp h.nodup).1 _ hmem
    refine hnodes.map fun i j heq ↦ ?_
    rw [Cursor.on.injEq, Option.some.injEq] at heq
    exact heq.2

theorem nodup_cursors (h : t.Linked) : t.cursors.Nodup := by
  have hplaces : (List.range' 0 t.buckets.size).Nodup := List.nodup_range'
  rw [cursors, cursorsFrom, List.nodup_flatMap]
  refine ⟨fun p _ ↦ nodup_ofBucket h p, hplaces.imp fun hne c hc hc' ↦ hne ?_⟩
  have hboth := (bucket?_of_mem_ofBucket hc).symm.trans (bucket?_of_mem_ofBucket hc')
  exact Option.some.inj hboth

end Table

end JoinIndex
