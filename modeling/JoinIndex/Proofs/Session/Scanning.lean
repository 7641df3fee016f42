import JoinIndex.Proofs.Cursor.Standing
import JoinIndex.Proofs.Cursor.Unmatched
import JoinIndex.Proofs.Session.KeyUniqueness
import JoinIndex.Proofs.Session.Multimap
import JoinIndex.Proofs.Session.Numbering

/-!
What a scan of all rows meets. It goes from bucket to bucket in the order of their places, and
in a bucket from the row stored last to the first, so that it meets every accepted insertion at one
position and ends after as many positions as there are rows. The rows of one key stand together in
it, and they are what a search for the key leads to.
-/

set_option autoImplicit false
set_option relaxedAutoImplicit false

namespace JoinIndex

namespace Cursor

variable {t : Table} {way : Advance}

/-- The end is never left. -/
theorem advance_atEnd (t : Table) (way : Advance) : atEnd.advance t way = .atEnd := by
  cases way with
  | next => rfl
  | duplicate => rfl
  | unmatched => exact skipMatched_atEnd t _

/-- The position after some steps, or the end. -/
theorem iterate_advance {cs : List Cursor} (h : Leads t way cs) (k : ℕ) :
    (fun c ↦ c.advance t way)^[k] (cs.headD .atEnd) = cs[k]?.getD .atEnd := by
  induction k generalizing cs with
  | zero => cases cs <;> rfl
  | succ k ih =>
    cases cs with
    | nil =>
      have hnil : Leads t way [] := trivial
      have hend := ih hnil
      rw [Function.iterate_succ_apply, List.headD_nil, advance_atEnd]
      exact hend
    | cons c rest =>
      obtain ⟨-, hnext, hrest⟩ := h
      rw [Function.iterate_succ_apply, List.headD_cons, hnext, List.getElem?_cons_succ]
      exact ih hrest

theorem ne_atEnd_of_leads {cs : List Cursor} (h : Leads t way cs) {c : Cursor} (hc : c ∈ cs) :
    c ≠ .atEnd := by
  induction cs with
  | nil => cases hc
  | cons first rest ih =>
    obtain ⟨hfirst, -, hrest⟩ := h
    rcases List.mem_cons.mp hc with rfl | hc
    · exact hfirst
    · exact ih hrest hc

theorem iterate_advance_eq_atEnd_iff {cs : List Cursor} (h : Leads t way cs) (k : ℕ) :
    (fun c ↦ c.advance t way)^[k] (cs.headD .atEnd) = .atEnd ↔ cs.length ≤ k := by
  rw [iterate_advance h]
  constructor
  · intro hend
    by_contra hlt
    rw [List.getElem?_eq_getElem (Nat.lt_of_not_le hlt)] at hend
    exact ne_atEnd_of_leads h (List.getElem_mem _) hend
  · intro hle
    rw [List.getElem?_eq_none hle]
    rfl

end Cursor

namespace Table

variable {t : Table} {p q : ℕ} {kept : List Insertion} {groups : List NumberedGroup}

open Cursor

/-! ### The numbers of the rows on the way -/

/-- In a bucket at an earlier place, or in the same bucket and stored later. -/
def Before (x y : Cursor × ℕ) : Prop :=
  ∃ p q, x.1.bucket? = some p ∧ y.1.bucket? = some q ∧ (p < q ∨ p = q ∧ y.2 < x.2)

theorem isFilled_of_mem_ofBucket {a : Arena} {b : Bucket} {c : Cursor} (hc : c ∈ ofBucket a p b) :
    b.isFilled = true := by
  cases b with
  | empty => cases hc
  | inline => rfl
  | chain => rfl

theorem ofBucket_eq_nil {a : Arena} {b : Bucket} (h : b.isFilled = false) :
    ofBucket a p b = [] := by
  cases b with
  | empty => rfl
  | inline => cases h
  | chain => cases h

/-- The positions on a bucket with numbers for its rows: the numbers lead to the rows, and they
fall. -/
theorem zip_ofBucket (h : t.Linked) {numbers : List ℕ}
    (hrefs : ((bucketAt t.buckets p).group t.arena).refs.map some =
      numbers.map (Insertion.refAt kept)) (hfalling : numbers.Pairwise (· > ·)) :
    let cs := ofBucket t.arena p (bucketAt t.buckets p)
    cs.length = numbers.length ∧
      cs.map (·.ref? t) = numbers.map (Insertion.refAt kept) ∧
      (cs.zip numbers).Pairwise Before := by
  have hcs := (map_ref?_ofBucket (h.links_bucketAt p)).trans hrefs
  have hlength := congrArg List.length hcs
  rw [List.length_map, List.length_map] at hlength
  refine ⟨hlength, hcs, ?_⟩
  have hzip : ((ofBucket t.arena p (bucketAt t.buckets p)).zip numbers).map Prod.snd = numbers :=
    List.map_snd_zip hlength.ge
  rw [← hzip, List.pairwise_map] at hfalling
  refine hfalling.imp_of_mem fun {x y} hx hy hxy ↦ ⟨p, p, ?_, ?_, Or.inr ⟨rfl, hxy⟩⟩
  · exact bucket?_of_mem_ofBucket (List.of_mem_zip (show (x.1, x.2) ∈ _ from hx)).1
  · exact bucket?_of_mem_ofBucket (List.of_mem_zip (show (y.1, y.2) ∈ _ from hy)).1

/-- The induction is on the places: the group of a filled bucket is the next one, and an empty
bucket has none. -/
theorem zip_flatMap_ofBucket (h : t.Linked) {places : List ℕ}
    (hplaces : places.Pairwise (· < ·))
    (hshapes : groups.map Prod.fst = ((places.map (bucketAt t.buckets)).filter
      Bucket.isFilled).map fun b ↦ (b.group t.arena).shape)
    (hrefs : ∀ g ∈ groups, g.1.2.map some = g.2.map (Insertion.refAt kept))
    (hfalling : ∀ g ∈ groups, g.2.Pairwise (· > ·)) :
    let cs := places.flatMap fun p ↦ ofBucket t.arena p (bucketAt t.buckets p)
    let numbers := groups.flatMap Prod.snd
    cs.map (·.ref? t) = numbers.map (Insertion.refAt kept) ∧
      (cs.zip numbers).Pairwise Before := by
  induction places generalizing groups with
  | nil =>
    obtain rfl : groups = [] := List.map_eq_nil_iff.mp hshapes
    exact ⟨rfl, List.Pairwise.nil⟩
  | cons p places ih =>
    obtain ⟨hlt, hplaces⟩ := List.pairwise_cons.mp hplaces
    rw [List.map_cons] at hshapes
    dsimp only
    rw [List.flatMap_cons]
    cases hfilled : (bucketAt t.buckets p).isFilled with
    | false =>
      rw [List.filter_cons_of_neg (by simp [hfilled])] at hshapes
      rw [ofBucket_eq_nil hfilled, List.nil_append]
      exact ih hplaces hshapes hrefs hfalling
    | true =>
      rw [List.filter_cons_of_pos hfilled, List.map_cons] at hshapes
      cases groups with
      | nil => cases hshapes
      | cons g rest =>
        obtain ⟨hfirst, hshapes⟩ := List.cons.inj hshapes
        have hg := hrefs g List.mem_cons_self
        rw [hfirst] at hg
        obtain ⟨hlength, hmap, hzip⟩ := zip_ofBucket h hg (hfalling g List.mem_cons_self)
        obtain ⟨hmaps, hzips⟩ := ih hplaces hshapes
          (fun x hx ↦ hrefs x (List.mem_cons_of_mem _ hx))
          (fun x hx ↦ hfalling x (List.mem_cons_of_mem _ hx))
        rw [List.flatMap_cons, List.map_append, List.map_append, hmap, hmaps,
          List.zip_append hlength, List.pairwise_append]
        refine ⟨rfl, hzip, hzips, fun x hx y hy ↦ ?_⟩
        have hxc := (List.of_mem_zip (show (x.1, x.2) ∈ _ from hx)).1
        have hyc := (List.of_mem_zip (show (y.1, y.2) ∈ _ from hy)).1
        obtain ⟨q, hq, hyq⟩ := List.mem_flatMap.mp hyc
        exact ⟨p, q, bucket?_of_mem_ofBucket hxc, bucket?_of_mem_ofBucket hyq,
          Or.inl (hlt q hq)⟩

/-- A scan meets the numbers bucket by bucket. -/
theorem exists_numbers (h : t.Linked) (hgroups : Numbered t.shapes kept groups) :
    ∃ numbers : List ℕ, numbers.Perm (List.range kept.length) ∧
      t.cursors.map (·.ref? t) = numbers.map (Insertion.refAt kept) ∧
      (t.cursors.zip numbers).Pairwise Before := by
  obtain ⟨ordered, hshapes, hordered⟩ := hgroups.exists_groups_eq
  have hplaces : ordered.map Prod.fst = (((List.range t.buckets.size).map
      (bucketAt t.buckets)).filter Bucket.isFilled).map fun b ↦ (b.group t.arena).shape := by
    rw [hshapes, shapes, Table.groups, List.map_map, filledBuckets, toList_eq_map_bucketAt]
    rfl
  refine ⟨ordered.flatMap Prod.snd, hordered.numbers_perm, ?_⟩
  rw [cursors, cursorsFrom, ← List.range_eq_range']
  exact zip_flatMap_ofBucket h List.pairwise_lt_range hplaces hordered.refs_eq hordered.falling

/-! ### One bucket in a scan -/

/-- The positions on a bucket stand together among all positions. -/
theorem exists_cursors_eq (hp : p < t.buckets.size) : ∃ front back : List Cursor,
    t.cursors = front ++ ofBucket t.arena p (bucketAt t.buckets p) ++ back ∧
      ∀ c ∈ front ++ back, ∃ q, q ≠ p ∧ c ∈ ofBucket t.arena q (bucketAt t.buckets q) := by
  obtain ⟨front, back, hrange⟩ := List.append_of_mem (List.mem_range.mpr hp)
  have hnodup : (front ++ p :: back).Nodup := hrange ▸ List.nodup_range
  have hnot : p ∉ front ++ back := (List.nodup_cons.mp (List.nodup_middle.mp hnodup)).1
  refine ⟨front.flatMap fun q ↦ ofBucket t.arena q (bucketAt t.buckets q),
    back.flatMap fun q ↦ ofBucket t.arena q (bucketAt t.buckets q), ?_, fun c hc ↦ ?_⟩
  · rw [cursors, cursorsFrom, ← List.range_eq_range', hrange, List.flatMap_append,
      List.flatMap_cons, List.append_assoc]
  · rw [← List.flatMap_append, List.mem_flatMap] at hc
    obtain ⟨q, hq, hcq⟩ := hc
    exact ⟨q, fun heq ↦ hnot (heq ▸ hq), hcq⟩

/-- What holds at the positions on one bucket and at no others selects that bucket. -/
theorem filter_cursors_eq_ofBucket (hp : p < t.buckets.size) (selects : Cursor → Bool)
    (hin : ∀ c ∈ ofBucket t.arena p (bucketAt t.buckets p), selects c = true)
    (hout : ∀ q ≠ p, ∀ c ∈ ofBucket t.arena q (bucketAt t.buckets q), selects c = false) :
    t.cursors.filter selects = ofBucket t.arena p (bucketAt t.buckets p) ∧
      t.cursors.filter selects <:+: t.cursors := by
  obtain ⟨front, back, hcursors, hothers⟩ := exists_cursors_eq hp
  have hnone : ∀ l : List Cursor, l ⊆ front ++ back → l.filter selects = [] := by
    intro l hl
    refine List.filter_eq_nil_iff.mpr fun c hc ↦ ?_
    obtain ⟨q, hq, hcq⟩ := hothers c (hl hc)
    rw [hout q hq c hcq]
    exact Bool.false_ne_true
  have hfilter : t.cursors.filter selects = ofBucket t.arena p (bucketAt t.buckets p) := by
    rw [hcursors, List.filter_append, List.filter_append, List.filter_eq_self.mpr hin,
      hnone front (List.subset_append_left _ _), hnone back (List.subset_append_right _ _),
      List.nil_append, List.append_nil]
  refine ⟨hfilter, ?_⟩
  rw [hfilter, hcursors]
  exact ⟨front, back, rfl⟩

end Table

namespace Session

open Table Insertion Cursor

variable {s : Session} {exprs : List KeyExpr}

/-! ### The rows of one key -/

/-- The position is on a row with this build key. -/
def isOnKey (exprs : List KeyExpr) (s : Session) (key : List Value) (c : Cursor) : Bool :=
  (c.row? s.table s.rows).any fun row ↦ Row.sameValues (KeyContext.buildKey exprs row) key

/-- The rows of a bucket have the key of its class. -/
theorem isOnKey_eq {r : Insertion} {p : ℕ} {key : List Value} {c : Cursor}
    (hpersistent : s.Persistent) (hkeyed : s.KeyedBy exprs) (hlinked : s.table.Linked)
    (hshape : ((bucketAt s.table.buckets p).group s.table.arena).shape = r.classOf s.kept)
    (hc : c ∈ ofBucket s.table.arena p (bucketAt s.table.buckets p)) :
    isOnKey exprs s key c = Row.sameValues r.key key := by
  have hrefs : ((bucketAt s.table.buckets p).group s.table.arena).refs = (r.classOf s.kept).2 :=
    congrArg Prod.snd hshape
  have hmem := List.mem_map_of_mem (f := (·.ref? s.table)) hc
  rw [map_ref?_ofBucket (hlinked.links_bucketAt p), hrefs, classOf, List.map_map,
    List.mem_map] at hmem
  obtain ⟨i, hi, href⟩ := hmem
  obtain ⟨hi, hri⟩ := List.mem_filter.mp hi
  obtain ⟨row, hrow, hkey⟩ := (hkeyed i hi).exists_row
  have hrow? : c.row? s.table s.rows = some row := by
    rw [Cursor.row?, ← href]
    exact hpersistent i hi row hrow
  rw [isOnKey, hrow?, Option.any_some, ← hkey]
  exact (sameValues_congr_left (alike_iff.mp hri).2).symm

/-- A class has one bucket. -/
theorem eq_of_classOf {r r' : Insertion} {p q : ℕ} (h : InOrder exprs s)
    (haddr : s.table.arena.Addressable) (hkeyed : s.KeyedBy exprs) (hr : r ∈ s.kept)
    (hr' : r' ∈ s.kept) (hp : (bucketAt s.table.buckets p).isFilled = true)
    (hq : (bucketAt s.table.buckets q).isFilled = true)
    (hshape : ((bucketAt s.table.buckets p).group s.table.arena).shape = r.classOf s.kept)
    (hshape' : ((bucketAt s.table.buckets q).group s.table.arena).shape = r'.classOf s.kept)
    (halike : r.alike r' = true) : p = q := by
  obtain ⟨hhash, hsame⟩ := alike_iff.mp halike
  obtain ⟨key, hkey, hrkey⟩ := exists_keyOf_classOf h.persistent hkeyed hr
  obtain ⟨key', hkey', hrkey'⟩ := exists_keyOf_classOf h.persistent hkeyed hr'
  have hhashAt : (bucketAt s.table.buckets p).hash? = some r.hash := by
    rw [Bucket.hash?_eq_some_group hp s.table.arena]
    exact congrArg some (congrArg Prod.fst hshape)
  have hhashAt' : (bucketAt s.table.buckets q).hash? = some r.hash := by
    rw [Bucket.hash?_eq_some_group hq s.table.arena, hhash]
    exact congrArg some (congrArg Prod.fst hshape')
  have hkeyAt : s.keyAt exprs p = some key := by
    rw [keyAt, rowsAt, ← hkey]
    exact congrArg (keyOf exprs s.rows) (congrArg Prod.snd hshape)
  have hkeyAt' : s.keyAt exprs q = some key' := by
    rw [keyAt, rowsAt, ← hkey']
    exact congrArg (keyOf exprs s.rows) (congrArg Prod.snd hshape')
  exact h.eq_of_sameValues_keyAt haddr hkeyed hhashAt hhashAt' hkeyAt hkeyAt'
    (Row.sameValues_trans (Row.sameValues_symm hrkey) (Row.sameValues_trans hsame hrkey'))

section

variable {hashOf : KeyHash} {context : KeyContext} {reps : List Insertion}

/-- A position on a row with the key is in the bucket of the class of the key. -/
theorem exists_rep_of_isOnKey {key : List Value} {q : ℕ} {c : Cursor} (h : InOrder exprs s)
    (haddr : s.table.arena.Addressable) (hkeyed : s.KeyedBy exprs)
    (hhash : ∀ i ∈ s.kept, i.hash = hashOf.toFun i.key)
    (hclasses : Classes s.table.shapes s.kept reps)
    (hc : c ∈ ofBucket s.table.arena q (bucketAt s.table.buckets q))
    (hon : isOnKey exprs s key c = true) :
    ∃ r ∈ reps, ((bucketAt s.table.buckets q).group s.table.arena).shape = r.classOf s.kept ∧
      r.hash = hashOf.toFun key ∧ Row.sameValues r.key key = true := by
  obtain ⟨r, hr, hshape⟩ :=
    hclasses.exists_rep (mem_shapes_bucketAt (isFilled_of_mem_ofBucket hc))
  rw [isOnKey_eq h.persistent hkeyed (h.intact.linked haddr) hshape.symm hc] at hon
  exact ⟨r, hr, hshape.symm, (hhash r (hclasses.mem r hr)).trans (hashOf.eq_of_same _ _ hon), hon⟩

/-- No row has a key whose search leads to no bucket. -/
theorem filter_isOnKey_eq_nil {result : ProbeResult} (h : InOrder exprs s)
    (haddr : s.table.arena.Addressable) (hkeyed : s.KeyedBy exprs)
    (hhash : ∀ i ∈ s.kept, i.hash = hashOf.toFun i.key) (hasks : Asks exprs context)
    (hclasses : Classes s.table.shapes s.kept reps)
    (hanswers : Probe.Answers s.table.probing s.table.buckets (hashOf.toFun context.key)
      (s.table.holdsKey (context.holds s.rows)) result)
    (hresult : ∀ p, result ≠ .found p) :
    s.table.cursors.filter (isOnKey exprs s context.key) = [] := by
  refine List.filter_eq_nil_iff.mpr fun c hc hon ↦ ?_
  obtain ⟨q, hcq⟩ := mem_cursors.mp hc
  obtain ⟨r, hr, -, hrhash, hsame⟩ := exists_rep_of_isOnKey h haddr hkeyed hhash hclasses hcq hon
  obtain ⟨p, hp⟩ := exists_found_of_rep h.persistent hkeyed (h.intact.linked haddr) h.intact.sound
    hasks hclasses hanswers hr hrhash hsame
  exact hresult p hp

/-- The rows with a key that is found are those of the bucket. -/
theorem filter_isOnKey_eq_ofBucket {p : ℕ} (h : InOrder exprs s)
    (haddr : s.table.arena.Addressable) (hkeyed : s.KeyedBy exprs)
    (hhash : ∀ i ∈ s.kept, i.hash = hashOf.toFun i.key) (hasks : Asks exprs context)
    (hclasses : Classes s.table.shapes s.kept reps)
    (hanswers : Probe.Answers s.table.probing s.table.buckets (hashOf.toFun context.key)
      (s.table.holdsKey (context.holds s.rows)) (.found p)) :
    let onKey := s.table.cursors.filter (isOnKey exprs s context.key)
    onKey = ofBucket s.table.arena p (bucketAt s.table.buckets p) ∧ onKey <:+: s.table.cursors := by
  have hlinked := h.intact.linked haddr
  have hfilled := hanswers.isFilled
  obtain ⟨r, hr, hshape, hrhash, hsame⟩ := exists_rep_of_answers_found h.persistent hkeyed
    hlinked hasks hclasses hanswers
  refine filter_cursors_eq_ofBucket (lt_size_of_isFilled hfilled) _ (fun c hc ↦ ?_)
    fun q hq c hc ↦ ?_
  · exact (isOnKey_eq h.persistent hkeyed hlinked hshape hc).trans hsame
  · rw [Bool.eq_false_iff]
    intro hon
    obtain ⟨r', hr', hshape', hrhash', hsame'⟩ :=
      exists_rep_of_isOnKey h haddr hkeyed hhash hclasses hc hon
    have halike : r.alike r' = true := alike_iff.mpr ⟨hrhash.trans hrhash'.symm,
      Row.sameValues_trans hsame (Row.sameValues_symm hsame')⟩
    exact hq (eq_of_classOf h haddr hkeyed (hclasses.mem r hr) (hclasses.mem r' hr') hfilled
      (isFilled_of_mem_ofBucket hc) hshape hshape' halike).symm

/-- A search for a key leads over the positions on rows with the key, and these stand together in
a scan. -/
theorem positionsUpTo_find_eq_filter (h : InOrder exprs s) (haddr : s.table.arena.Addressable)
    (hkeyed : s.KeyedBy exprs) (hhash : ∀ i ∈ s.kept, i.hash = hashOf.toFun i.key)
    (hasks : Asks exprs context) :
    let found := s.table.find s.rows context (hashOf.toFun context.key)
    let onKey := s.table.cursors.filter (isOnKey exprs s context.key)
    onKey <:+: s.table.cursors ∧
      ∀ count, found.1.positionsUpTo found.2 .duplicate count = onKey.take count := by
  obtain ⟨reps, hclasses⟩ := h.grouped haddr hkeyed
  obtain ⟨probe, hanswers, heq⟩ :=
    find_eq s.table s.rows context (hashOf.toFun context.key)
  have hnone := filter_isOnKey_eq_nil h haddr hkeyed hhash hasks hclasses hanswers
  dsimp only
  rw [heq]
  cases hresult : probe.result with
  | vacant p =>
    rw [hnone (by simp [hresult])]
    refine ⟨List.nil_infix, fun count ↦ ?_⟩
    rw [positionsUpTo_atEnd, List.take_nil]
  | exhausted =>
    rw [hnone (by simp [hresult])]
    refine ⟨List.nil_infix, fun count ↦ ?_⟩
    rw [positionsUpTo_atEnd, List.take_nil]
  | found p =>
    rw [hresult] at hanswers
    obtain ⟨hfilter, hblock⟩ :=
      filter_isOnKey_eq_ofBucket h haddr hkeyed hhash hasks hclasses hanswers
    refine ⟨hblock, fun count ↦ ?_⟩
    rw [hfilter]
    have hsearched : (s.table.searched probe).Linked :=
      ((Move.search probe).intact h.intact).linked haddr
    exact positionsUpTo_cursorAt hsearched hanswers.isFilled count

end

/-- After any operations on a new table, with an arena of at most `2 ^ 32` pages, a scan from the
first row on is at the end after as many steps as there are rows and not before, and meets no
position twice. Its rows are those of the insertions kept, each of them once, in the order of the
places of their buckets, and in a bucket from the latest one to the oldest. While every insertion
kept was made with the key of its row and under its hash, the rows of a key stand together in the
scan, and a search for the key leads over them and then to the end. The end is never left. -/
theorem run_scan_exact {config : Config} {stored : Bool} {budget : Budget} {rows : RowStore}
    (hcreate : create config stored budget rows = .ok s) (exprs : List KeyExpr) (hashOf : KeyHash)
    (ops : List Op) :
    ∃ s', s.run ops = .ok s' ∧ (∀ way, Cursor.atEnd.advance s'.table way = .atEnd) ∧
      (s'.table.arena.Addressable →
        let t := s'.table
        let scan := t.first.positions t .next
        (∀ k, (fun c ↦ c.next t)^[k] t.first = scan[k]?.getD .atEnd) ∧
        (∀ k, (fun c ↦ c.next t)^[k] t.first = .atEnd ↔ t.entries ≤ k) ∧
        scan.Nodup ∧
        (∃ numbers : List ℕ, numbers.Perm (List.range s'.kept.length) ∧
          scan.map (·.ref? t) = numbers.map (refAt s'.kept) ∧
          (scan.zip numbers).Pairwise Before) ∧
        (s'.KeyedBy exprs → (∀ i ∈ s'.kept, i.hash = hashOf.toFun i.key) →
          ∀ context : KeyContext, context.buildExprs = exprs →
            context.key.length = exprs.length →
            let found := t.find s'.rows context (hashOf.toFun context.key)
            let onKey := scan.filter (isOnKey exprs s' context.key)
            onKey <:+: scan ∧
              ∀ count, found.1.positionsUpTo found.2 .duplicate count = onKey.take count)) := by
  obtain ⟨s', hrun, -, hinOrder, hnumbered⟩ :=
    exists_run_eq_ok (P := fun s ↦ InOrder exprs s ∧ s.IsNumbered)
      (fun _ _ hs hchanges ↦ ⟨hchanges.inOrder hs.1, hchanges.isNumbered hs.1.intact hs.2⟩)
      (solvent_create hcreate) ⟨inOrder_create hcreate, isNumbered_create hcreate⟩ ops
  refine ⟨s', hrun, advance_atEnd s'.table, fun haddr ↦ ?_⟩
  have hlinked := hinOrder.intact.linked haddr
  have hsound := hinOrder.intact.sound
  have hleads : Leads s'.table .next s'.table.cursors :=
    leads_cursorsFrom hlinked 0 _ (Nat.zero_add _)
  obtain ⟨groups, hgroups⟩ := hnumbered haddr
  dsimp only
  rw [positions_first hlinked hsound, first_eq_headD hlinked]
  refine ⟨iterate_advance hleads, fun k ↦ ?_, nodup_cursors hlinked,
    exists_numbers hlinked hgroups, fun hkeyed hhash context hbuild hlength ↦ ?_⟩
  · rw [← length_cursors hlinked hsound]
    exact iterate_advance_eq_atEnd_iff hleads k
  · exact positionsUpTo_find_eq_filter hinOrder haddr hkeyed hhash ⟨hbuild, hlength⟩

/-- The scan of the small session has three rows, two of which have the key 1. -/
theorem run_scan_exact_small :
    create (.linear 2) false (Budget.unlimited "small") (.new 1) = .ok smallStart ∧
      ∃ s', smallStart.run smallOps = .ok s' ∧ s'.table.arena.Addressable ∧
        s'.KeyedBy [.column 0 .int64] ∧
        (∀ i ∈ s'.kept, i.hash = (KeyHash.constant 5).toFun i.key) ∧
        (fun c ↦ c.next s'.table)^[2] s'.table.first ≠ .atEnd ∧
        (fun c ↦ c.next s'.table)^[3] s'.table.first = .atEnd ∧
        ∃ numbers : List ℕ, numbers.Perm (List.range 3) ∧
          let scan := s'.table.first.positions s'.table .next
          let onKey := scan.filter (isOnKey [.column 0 .int64] s' [.int64 1])
          let found := s'.table.find s'.rows (intContext 1) 5
          scan.map (·.ref? s'.table) = numbers.map (refAt smallKept) ∧ onKey <:+: scan ∧
            found.1.positionsUpTo found.2 .duplicate 3 = onKey.take 3 := by
  obtain ⟨s', hrun, -, hend⟩ :=
    run_scan_exact create_small [.column 0 .int64] (KeyHash.constant 5) smallOps
  obtain ⟨hkept, hpages⟩ := run_small hrun
  have haddr : s'.table.arena.Addressable := by
    rw [Arena.Addressable, hpages]
    decide
  have hentries : (smallStart.run smallOps).map (·.table.entries) = .ok 3 := by cbv
  rw [hrun] at hentries
  have hentries : s'.table.entries = 3 := Except.ok.inj hentries
  have hkeyed := keyedBy_small hkept
  have hhash : ∀ i ∈ s'.kept, i.hash = (KeyHash.constant 5).toFun i.key := by
    rw [hkept]
    rintro i (_ | ⟨_, _ | ⟨_, _ | ⟨_, hi⟩⟩⟩)
    · rfl
    · rfl
    · rfl
    · cases hi
  obtain ⟨-, hends, -, ⟨numbers, hnumbers, hrefs, -⟩, hfind⟩ := hend haddr
  obtain ⟨hblock, hfound⟩ := hfind hkeyed hhash (intContext 1) rfl rfl
  rw [hentries] at hends
  rw [hkept] at hnumbers hrefs
  exact ⟨create_small, s', hrun, haddr, hkeyed, hhash, mt (hends 2).mp (by decide),
    (hends 3).mpr (le_refl 3), numbers, hnumbers, hrefs, hblock, hfound 3⟩

end Session

end JoinIndex
