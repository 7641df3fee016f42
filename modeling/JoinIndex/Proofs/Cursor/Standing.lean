import JoinIndex.Proofs.Cursor.Positions

/-!
Cursors that stand. A cursor put on a table stands on one of its rows or at the end, and goes on to
stand when it is moved and when rows are marked; the node that it holds is then always in the arena.
-/

set_option autoImplicit false
set_option relaxedAutoImplicit false

namespace JoinIndex

namespace Table

variable {t : Table} {c : Cursor}

open Cursor

theorem mem_cursors : c ∈ t.cursors ↔
    ∃ p, c ∈ ofBucket t.arena p (bucketAt t.buckets p) := by
  rw [cursors, cursorsFrom, List.mem_flatMap]
  constructor
  · rintro ⟨p, -, hc⟩
    exact ⟨p, hc⟩
  · rintro ⟨p, hc⟩
    refine ⟨p, ?_, hc⟩
    have hfilled : (bucketAt t.buckets p).isFilled = true := by
      cases hb : bucketAt t.buckets p with
      | empty =>
        rw [hb] at hc
        cases hc
      | inline => rfl
      | chain => rfl
    rw [List.mem_range'_1]
    have hp := lt_size_of_isFilled hfilled
    omega

/-- On a row of the table, or at the end. -/
def Stands (t : Table) (c : Cursor) : Prop :=
  c = .atEnd ∨ c ∈ t.cursors

theorem stands_atEnd (t : Table) : t.Stands .atEnd := Or.inl rfl

theorem stands_cursorAt (h : t.Linked) {p : Nat}
    (hfilled : (bucketAt t.buckets p).isFilled = true) : t.Stands (t.cursorAt p) := by
  refine Or.inr (mem_cursors.mpr ⟨p, ?_⟩)
  have hhead := headD_ofBucket (p := p) hfilled (h.links_bucketAt p) []
  rw [List.append_nil] at hhead
  rw [cursorAt_eq, ← hhead]
  cases hcs : ofBucket t.arena p (bucketAt t.buckets p) with
  | nil =>
    rw [hcs] at hhead
    cases hhead
  | cons c rest => exact List.mem_cons_self

theorem stands_advance_of_leads {way : Advance} {cs : List Cursor} (hleads : Leads t way cs)
    (hcs : ∀ c ∈ cs, t.Stands c) (hc : c ∈ cs) : t.Stands (c.advance t way) := by
  induction cs with
  | nil => cases hc
  | cons first rest ih =>
    obtain ⟨-, hnext, hrest⟩ := hleads
    rcases List.mem_cons.mp hc with rfl | hc
    · rw [hnext]
      cases rest with
      | nil => exact t.stands_atEnd
      | cons second rest => exact hcs second (by simp)
    · exact ih hrest (fun d hd ↦ hcs d (List.mem_cons_of_mem _ hd)) hc

theorem Stands.next (hc : t.Stands c) (h : t.Linked) : t.Stands (c.next t) := by
  rcases hc with rfl | hc
  · exact t.stands_atEnd
  · exact stands_advance_of_leads (leads_cursorsFrom h 0 _ (Nat.zero_add _))
      (fun d hd ↦ Or.inr hd) hc

theorem Stands.nextDuplicate (hc : t.Stands c) (h : t.Linked) : t.Stands (c.nextDuplicate t) := by
  rcases hc with rfl | hc
  · exact t.stands_atEnd
  · obtain ⟨p, hp⟩ := mem_cursors.mp hc
    exact stands_advance_of_leads (leads_duplicate h p)
      (fun d hd ↦ Or.inr (mem_cursors.mpr ⟨p, hd⟩)) hp

theorem Stands.skipMatched (hc : t.Stands c) (h : t.Linked) (steps : Nat) :
    t.Stands (c.skipMatched t steps) := by
  induction steps generalizing c with
  | zero => exact hc
  | succ steps ih =>
    rw [Cursor.skipMatched]
    split_ifs
    · exact ih (hc.next h)
    · exact hc

theorem Stands.advance (hc : t.Stands c) (h : t.Linked) (way : Advance) :
    t.Stands (c.advance t way) := by
  cases way with
  | next => exact hc.next h
  | duplicate => exact hc.nextDuplicate h
  | unmatched => exact (hc.next h).skipMatched h t.entries

theorem stands_first (h : t.Linked) : t.Stands t.first := by
  rw [first_eq_headD h]
  cases hcs : t.cursors with
  | nil => exact t.stands_atEnd
  | cons c rest => exact Or.inr (by rw [hcs]; exact List.mem_cons_self)

theorem stands_find (h : t.Linked) (rows : RowStore) (ctx : KeyContext) (hash : UInt32) :
    (t.find rows ctx hash).2.Stands (t.find rows ctx hash).1 := by
  obtain ⟨probe, hanswers, heq⟩ := find_eq t rows ctx hash
  rw [heq]
  cases hresult : probe.result with
  | found p =>
    rw [hresult] at hanswers
    exact stands_cursorAt h hanswers.isFilled
  | vacant => exact stands_atEnd _
  | exhausted => exact stands_atEnd _

theorem ofBucket_congr {a a' : Arena} {b b' : Bucket} (p : Nat)
    (hfilled : b'.isFilled = b.isFilled) (hhead : b'.head? = b.head?)
    (hnodes : b'.nodes a' = b.nodes a) : ofBucket a' p b' = ofBucket a p b := by
  have hlist : ∀ (a : Arena) (b : Bucket), ofBucket a p b =
      if b.isFilled then
        match b.head? with
        | none => [.on p none]
        | some _ => (b.nodes a).map fun i ↦ .on p (some i)
      else [] := by
    intro a b
    cases b <;> rfl
  rw [hlist, hlist, hfilled, hhead, hnodes]

/-- Marking a row moves no row. -/
theorem ofBucket_setMatched (c : Cursor) (t : Table) (p : Nat) :
    ofBucket (c.setMatched t).arena p (bucketAt (c.setMatched t).buckets p) =
      ofBucket t.arena p (bucketAt t.buckets p) := by
  have hsame := sameChains_mark t c
  have hbucket :
      (bucketAt (c.setMatched t).buckets p).isFilled = (bucketAt t.buckets p).isFilled ∧
        (bucketAt (c.setMatched t).buckets p).head? = (bucketAt t.buckets p).head? := by
    match c with
    | .atEnd => exact ⟨rfl, rfl⟩
    | .on _ (some _) => exact ⟨rfl, rfl⟩
    | .on q none =>
      change (bucketAt (t.buckets.modify q Bucket.setMatched) p).isFilled = _ ∧
        (bucketAt (t.buckets.modify q Bucket.setMatched) p).head? = _
      rw [bucketAt_modify _ _ _ rfl]
      split_ifs
      · exact ⟨Bucket.isFilled_setMatched _, Bucket.head?_setMatched _⟩
      · exact ⟨rfl, rfl⟩
  exact ofBucket_congr p hbucket.1 hbucket.2 (hsame.nodes_eq hbucket.2)

theorem cursors_setMatched (c : Cursor) (t : Table) : (c.setMatched t).cursors = t.cursors := by
  rw [cursors, cursors, size_buckets_setMatched, cursorsFrom, cursorsFrom]
  exact List.flatMap_congr fun p _ ↦ ofBucket_setMatched c t p

theorem Stands.setMatched (hc : t.Stands c) (d : Cursor) : (d.setMatched t).Stands c := by
  rw [Stands, cursors_setMatched]
  exact hc

/-- The bucket that a cursor stands on is filled, and the node that it holds is in the arena. -/
theorem Stands.in_range (hc : t.Stands c) (h : t.Linked) {p : Nat} {node? : Option NodeIndex}
    (heq : c = .on p node?) : p < t.buckets.size ∧ (bucketAt t.buckets p).isFilled = true ∧
      ∀ i, node? = some i → ∃ node, t.arena.get? i = some node := by
  subst heq
  rcases hc with hc | hc
  · cases hc
  · obtain ⟨q, hq⟩ := mem_cursors.mp hc
    cases hb : bucketAt t.buckets q with
    | empty =>
      rw [hb] at hq
      cases hq
    | inline hash matched row =>
      rw [hb, ofBucket, List.mem_singleton, Cursor.on.injEq] at hq
      obtain ⟨rfl, rfl⟩ := hq
      have hfilled : (bucketAt t.buckets p).isFilled = true := by rw [hb]; rfl
      exact ⟨lt_size_of_isFilled hfilled, hfilled, fun i hi ↦ by cases hi⟩
    | chain hash head =>
      have hlinks := h.links_bucketAt q
      rw [hb] at hq hlinks
      rw [ofBucket, List.mem_map] at hq
      obtain ⟨j, hj, heq⟩ := hq
      rw [Cursor.on.injEq] at heq
      obtain ⟨rfl, rfl⟩ := heq
      have hfilled : (bucketAt t.buckets q).isFilled = true := by rw [hb]; rfl
      refine ⟨lt_size_of_isFilled hfilled, hfilled, fun i hi ↦ ?_⟩
      rw [Option.some.injEq] at hi
      rw [← hi]
      exact Option.isSome_iff_exists.mp (hlinks.isSome_get? hj)

end Table

end JoinIndex
