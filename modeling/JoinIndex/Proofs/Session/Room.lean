import JoinIndex.Proofs.Session.Frames
import JoinIndex.Proofs.Session.Inserting
import JoinIndex.Proofs.Session.Resizing

/-!
Making room in a table in use. The table grows to the estimate for the buckets that are to be
filled, if this is more than it has, and a refusal leaves it as it was. Once there is room for a
number of buckets, as many insertions may follow, of any rows under any hashes: the table stays
within three quarters, and each of them finds a bucket. Only a resize can take the room away.
-/

set_option autoImplicit false
set_option relaxedAutoImplicit false

namespace JoinIndex

namespace Table

open Probe

variable {t : Table} {budget : Budget} {isKey : RowRef → Bool} {row : RowRef} {hash : UInt32}
  {n : Nat}

/-- With `n` more buckets filled the table is within three quarters. -/
def HasRoom (t : Table) (n : Nat) : Prop :=
  4 * (t.filled + n) ≤ 3 * t.buckets.size

theorem HasRoom.of_le {u : Table} (h : t.HasRoom n) (hfilled : u.filled ≤ t.filled)
    (hsize : t.buckets.size ≤ u.buckets.size) : u.HasRoom n := by
  rw [HasRoom] at h ⊢
  omega

/-- An insertion fills one bucket at most. -/
theorem Inserted.hasRoom {o : Outcome Bool} (h : Inserted t budget isKey row hash o)
    (hroom : t.HasRoom (n + 1)) : o.table.HasRoom n := by
  obtain ⟨-, -, hsize, -⟩ := h.exists_pages
  have hfilled := h.filled_le
  rw [HasRoom] at hroom ⊢
  omega

/-- A resize to no less than the table has takes no room away. -/
theorem Resized.hasRoom {size : Nat} {o : Outcome (Except Error Unit)}
    (h : Resized t budget size o) (hle : t.buckets.size ≤ size) (hroom : t.HasRoom n) :
    o.table.HasRoom n := by
  refine hroom.of_le h.asFull.filled_eq.le ?_
  cases h with
  | moved buckets _ _ _ _ hmoved =>
    change t.buckets.size ≤ buckets.size
    rw [(relocate_eq_some hmoved).1]
    exact hle
  | _ => exact le_refl _

/-- A search in a table with an empty bucket ends at a bucket. -/
theorem Sound.probe_ne_exhausted (h : t.Sound) (hlt : t.filled < t.buckets.size)
    (isKey : RowRef → Bool) (hash : UInt32) : (t.probe isKey hash).1 ≠ .exhausted := by
  rw [h.filled_eq] at hlt
  obtain ⟨p, hp, hempty⟩ := exists_empty_of_length_lt hlt
  exact exists_vacant_of_empty h.size_isPower hp hempty

/-- Where there is an empty bucket, only the kind of a row or a refused page is in its way. -/
theorem Inserted.refused_of_filled_lt {o : Outcome Bool}
    (h : Inserted t budget isKey row hash o) (hsound : t.Sound)
    (hlt : t.filled < t.buckets.size) (hfalse : o.answer = false) :
    row.storage ≠ t.storage ∨
      ∃ p, Answers t.probing t.buckets hash (t.holdsKey isKey) (.found p) ∧
        t.arena.free < (bucketAt t.buckets p).slotsToJoin ∧
        (budget.tryConsume (t.arena.nextCapacity * Arena.nodeBytes)).1 = false := by
  rcases (h.answer_eq_false_iff hsound.size_isPower).mp hfalse with hkind | hall | hpage
  · exact Or.inl hkind
  · rw [hsound.filled_eq] at hlt
    obtain ⟨p, hp, hempty⟩ := exists_empty_of_length_lt hlt
    have hfilled := (hall p hp).1
    rw [hempty] at hfilled
    cases hfilled
  · exact Or.inr hpage

/-- What making room does, and what it answers. -/
theorem exists_makeRoom_exact (hsound : t.Sound) (hcharged : t.Charged budget) (more : Nat) :
    let needed := min (t.filled + more) (2 ^ 64 - 1)
    let target := max t.buckets.size (estimateBuckets needed)
    ∃ o, t.makeRoom budget more = .ok o ∧
      (3 * 2 ^ 30 < 4 * needed →
        o = ⟨.error (.capacity (.beyondLargest needed Config.maxBuckets)), t, budget⟩) ∧
      (4 * needed ≤ 3 * 2 ^ 30 → target = t.buckets.size → o = ⟨.ok (), t, budget⟩) ∧
      (4 * needed ≤ 3 * 2 ^ 30 → target ≠ t.buckets.size →
        t.resize budget target = .ok o ∧
        ((budget.tryConsume (24 * target)).1 = true ∧ o.answer = .ok () ∨
          (budget.tryConsume (24 * target)).1 = false ∧
          (∃ requested remaining, o.answer = .error (.memoryLimit requested remaining)) ∧
          o.table = t ∧ o.budget.consumed = budget.consumed)) ∧
      (o.answer = .ok () → o.table.HasRoom more) := by
  intro needed target
  have hmakeRoom := makeRoom_eq hsound budget more
  change _ = if 3 * 2 ^ 30 < 4 * needed then .ok _ else
    if target = t.buckets.size then .ok _ else t.resize budget target at hmakeRoom
  by_cases hcapacity : 3 * 2 ^ 30 < 4 * needed
  · rw [if_pos hcapacity] at hmakeRoom
    refine ⟨_, hmakeRoom, fun _ ↦ rfl, fun hle ↦ absurd hcapacity (Nat.not_lt.mpr hle),
      fun hle ↦ absurd hcapacity (Nat.not_lt.mpr hle), fun hok ↦ ?_⟩
    cases hok
  rw [if_neg hcapacity] at hmakeRoom
  have hneeded : needed = t.filled + more := by omega
  obtain ⟨hpower, hle, hroom⟩ := roomTarget_fits hsound (Nat.not_lt.mp hcapacity)
  change PowerOfTwo.IsPower target at hpower
  change target ≤ Config.maxBuckets at hle
  change 4 * needed ≤ 3 * target at hroom
  by_cases hsame : target = t.buckets.size
  · rw [if_pos hsame] at hmakeRoom
    refine ⟨_, hmakeRoom, fun hlt ↦ absurd hlt hcapacity, fun _ _ ↦ rfl,
      fun _ hne ↦ absurd hsame hne, fun _ ↦ ?_⟩
    rw [hneeded, hsame] at hroom
    exact hroom
  · rw [if_neg hsame] at hmakeRoom
    have hbuckets : bucketBytes t.buckets.size ≤ budget.consumed :=
      (Nat.le_add_right _ _).trans hcharged
    obtain ⟨o, ho, hresized⟩ := exists_resize_eq_ok (t := t) target hbuckets
    have hfill : withinFill t.filled target = true := by
      rw [withinFill_iff]
      omega
    have hbytes : bucketBytes target = 24 * target := Nat.mul_comm target 24
    refine ⟨o, hmakeRoom.trans ho, fun hlt ↦ absurd hlt hcapacity, fun _ heq ↦ absurd heq hsame,
      fun _ _ ↦ ⟨ho, ?_⟩, fun hok ↦ ?_⟩
    · rw [fst_tryConsume, ← hbytes]
      rcases hresized.answer_cases hsound with
        ⟨hunfit, -⟩ | ⟨-, hrefused, herror⟩ | ⟨-, hgranted, hok⟩
      · exact absurd hunfit (not_unfit hpower hle hfill)
      · exact Or.inr ⟨hrefused, ⟨_, _, herror⟩, hresized.unchanged herror⟩
      · exact Or.inl ⟨hgranted, hok⟩
    · obtain ⟨-, hsize, -⟩ := hresized.moved_of_ok hok
      rw [HasRoom, hresized.asFull.filled_eq, hsize, ← hneeded]
      exact hroom

/-- Making room never shrinks a table. -/
theorem hasRoom_makeRoom (hsound : t.Sound) (hcharged : t.Charged budget) {more : Nat}
    {o : Outcome (Except Error Unit)} (ho : t.makeRoom budget more = .ok o)
    (hroom : t.HasRoom n) : o.table.HasRoom n := by
  obtain ⟨o', ho', hcapacity, hsame, hgrows, -⟩ := exists_makeRoom_exact hsound hcharged more
  obtain rfl : o' = o := Except.ok.inj (ho'.symm.trans ho)
  by_cases hle : 4 * min (t.filled + more) (2 ^ 64 - 1) ≤ 3 * 2 ^ 30
  · by_cases heq : max t.buckets.size (estimateBuckets (min (t.filled + more) (2 ^ 64 - 1))) =
        t.buckets.size
    · rw [hsame hle heq]
      exact hroom
    · obtain ⟨hresize, -⟩ := hgrows hle heq
      obtain ⟨o, ho, hresized⟩ := exists_resize_eq_ok (t := t) _
        ((Nat.le_add_right _ _).trans hcharged)
      obtain rfl : o = o' := Except.ok.inj (ho.symm.trans hresize)
      exact hresized.hasRoom (le_max_left _ _) hroom
  · rw [hcapacity (Nat.lt_of_not_le hle)]
    exact hroom

end Table

namespace Session

open Table

variable {s : Session} {n : Nat}

/-- An insertion takes up the room for one bucket, and no other operation but a resize takes up
any. -/
theorem hasRoom_step (hsolvent : s.Solvent) (hsound : s.table.Sound) {op : Op}
    (hop : op.isResize = false) {s' : Session} (hstep : s.step op = .ok s')
    (hroom : s.table.HasRoom (n + if op.isInsert then 1 else 0)) : s'.table.HasRoom n := by
  cases op with
  | insert context row hash =>
    obtain rfl := Except.ok.inj hstep
    exact (insert_inserted s.table s.budget s.rows context row hash).hasRoom hroom
  | clear =>
    rw [step_clear hsolvent] at hstep
    obtain rfl := Except.ok.inj hstep
    exact HasRoom.of_le hroom (Nat.zero_le _) Array.size_replicate.ge
  | resize size => cases hop
  | makeRoom more =>
    obtain ⟨o, ho, -⟩ := exists_makeRoom_exact hsound hsolvent more
    rw [step, ho] at hstep
    obtain rfl := Except.ok.inj hstep
    exact hasRoom_makeRoom hsound hsolvent ho hroom
  | _ =>
    exact HasRoom.of_le hroom (asFull_step hsolvent rfl rfl hstep).filled_eq.le
      (size_step hsolvent rfl rfl hstep).ge

/-- Room for as many buckets as there are insertions lasts until the end of them. -/
theorem exists_run_hasRoom (hsolvent : s.Solvent) (hintact : s.table.Intact) {ops : List Op}
    (hops : ∀ op ∈ ops, op.isResize = false)
    (hroom : s.table.HasRoom (n + ops.countP Op.isInsert)) :
    ∃ s', s.run ops = .ok s' ∧ s'.table.Intact ∧ s'.table.HasRoom n := by
  induction ops generalizing s with
  | nil => exact ⟨s, rfl, hintact, hroom⟩
  | cons op ops ih =>
    obtain ⟨next, hnext, hchanges, hsolvent'⟩ := exists_step_eq_ok hsolvent op
    rw [List.countP_cons, ← Nat.add_assoc] at hroom
    obtain ⟨s', hs', hend⟩ := ih hsolvent' (hchanges.intact hintact)
      (fun later hlater ↦ hops later (List.mem_cons_of_mem _ hlater))
      (hasRoom_step hsolvent hintact.sound (hops op List.mem_cons_self) hnext hroom)
    exact ⟨s', (run_cons hnext ops).trans hs', hend⟩

/-- After any operations on a new table, making room for any number of buckets answers an error if
the largest table has none, does nothing if the table has the room, and else is the resize to the
estimate, which only the budget can refuse. If it answers success, any later operations without a
resize and with as many insertions at most leave the table within three quarters, and as long as
they are fewer, a search for any key under any hash ends at a bucket, so that an insertion is
refused for the kind of its row or for a page of nodes and for no other reason. -/
theorem run_makeRoom_exact {config : Config} {stored : Bool} {budget : Budget} {rows : RowStore}
    (h : create config stored budget rows = .ok s) (ops : List Op) :
    ∃ s', s.run ops = .ok s' ∧ ∀ more,
      let t := s'.table
      let needed := min (t.filled + more) (2 ^ 64 - 1)
      let target := max t.buckets.size (estimateBuckets needed)
      ∃ o, t.makeRoom s'.budget more = .ok o ∧
        (3 * 2 ^ 30 < 4 * needed →
          o = ⟨.error (.capacity (.beyondLargest needed Config.maxBuckets)), t, s'.budget⟩) ∧
        (4 * needed ≤ 3 * 2 ^ 30 → target = t.buckets.size → o = ⟨.ok (), t, s'.budget⟩) ∧
        (4 * needed ≤ 3 * 2 ^ 30 → target ≠ t.buckets.size →
          t.resize s'.budget target = .ok o ∧
          ((s'.budget.tryConsume (24 * target)).1 = true ∧ o.answer = .ok () ∨
            (s'.budget.tryConsume (24 * target)).1 = false ∧
            (∃ requested remaining, o.answer = .error (.memoryLimit requested remaining)) ∧
            o.table = t ∧ o.budget.consumed = s'.budget.consumed)) ∧
        (o.answer = .ok () → ∀ later : List Op, (∀ op ∈ later, op.isResize = false) →
          later.countP Op.isInsert ≤ more →
          ∃ s'', run { s' with table := o.table, budget := o.budget } later = .ok s'' ∧
            4 * s''.table.filled ≤ 3 * s''.table.buckets.size ∧
            (later.countP Op.isInsert < more → ∀ context row hash,
              let isKey := context.holds s''.rows
              (s''.table.probe isKey hash).1 ≠ .exhausted ∧
              ((s''.table.insert s''.budget s''.rows context row hash).answer = false →
                row.storage ≠ s''.table.storage ∨
                ∃ p, (s''.table.probe isKey hash).1 = .found p ∧
                  s''.table.arena.free < (bucketAt s''.table.buckets p).slotsToJoin ∧
                  (s''.budget.tryConsume
                    (s''.table.arena.nextCapacity * Arena.nodeBytes)).1 = false))) := by
  obtain ⟨s', hrun, hsolvent, hintact⟩ := exists_run_eq_ok (P := fun s ↦ s.table.Intact)
    (fun _ _ hs hchanges ↦ hchanges.intact hs) (solvent_create h) (intact_create h) ops
  refine ⟨s', hrun, fun more ↦ ?_⟩
  obtain ⟨o, ho, hcapacity, hsame, hgrows, hroom⟩ :=
    exists_makeRoom_exact hintact.sound hsolvent more
  refine ⟨o, ho, hcapacity, hsame, hgrows, fun hok later hlater hcount ↦ ?_⟩
  obtain ⟨next, hnext, hchanges, hsolvent'⟩ := exists_step_eq_ok hsolvent (.makeRoom more)
  rw [step, ho] at hnext
  obtain rfl := Except.ok.inj hnext
  obtain ⟨left, hleft⟩ := Nat.exists_eq_add_of_le' hcount
  obtain ⟨s'', hrun', hintact', hroom'⟩ := exists_run_hasRoom (n := left) hsolvent'
    (hchanges.intact hintact) hlater (hleft ▸ hroom hok)
  rw [HasRoom] at hroom'
  refine ⟨s'', hrun', by omega, fun hlt context row hash ↦ ?_⟩
  have hempty : s''.table.filled < s''.table.buckets.size := by omega
  have hinserted := insert_inserted s''.table s''.budget s''.rows context row hash
  refine ⟨hintact'.sound.probe_ne_exhausted hempty _ _, fun hfalse ↦ ?_⟩
  rcases hinserted.refused_of_filled_lt hintact'.sound hempty hfalse with
    hkind | ⟨p, hanswers, hpage⟩
  · exact Or.inl hkind
  · exact Or.inr ⟨p, Probe.answers_iff.mp hanswers, hpage⟩

/-- The table of the small session has two filled buckets in four. Room for two more takes eight
buckets, and a new key has a place after one of them is filled. No table has room for `2 ^ 30`
more. -/
theorem run_makeRoom_exact_small :
    create (.linear 2) false (Budget.unlimited "small") (.new 1) = .ok smallStart ∧
      ∃ s', smallStart.run smallOps = .ok s' ∧
        s'.table.makeRoom s'.budget (2 ^ 30) =
          .ok ⟨.error (.capacity (.beyondLargest (2 + 2 ^ 30) Config.maxBuckets)), s'.table,
            s'.budget⟩ ∧
        ∃ o, s'.table.makeRoom s'.budget 2 = .ok o ∧ s'.table.resize s'.budget 8 = .ok o ∧
          o.answer = .ok () ∧
          ∃ s'', run { s' with table := o.table, budget := o.budget }
              [.insert (intContext 7) (intRow 7 7) 5] = .ok s'' ∧
            4 * s''.table.filled ≤ 3 * s''.table.buckets.size ∧
            (s''.table.probe ((intContext 8).holds s''.rows) 5).1 ≠ .exhausted := by
  obtain ⟨s', hrun, hall⟩ := run_makeRoom_exact create_small smallOps
  have hstate : (smallStart.run smallOps).map (fun s ↦
      (s.table.filled, s.table.buckets.size, (s.budget.tryConsume (24 * 8)).1)) =
        .ok (2, 4, true) := by cbv
  rw [hrun] at hstate
  obtain ⟨hfilled, hrest⟩ := Prod.mk.inj (Except.ok.inj hstate)
  obtain ⟨hsize, hgranted⟩ := Prod.mk.inj hrest
  obtain ⟨refused, hrefused, hcapacity, -⟩ := hall (2 ^ 30)
  obtain ⟨o, ho, -, -, hgrows, hroom⟩ := hall 2
  rw [hfilled] at hcapacity hgrows
  rw [hsize] at hgrows
  obtain ⟨hresize, hanswer⟩ := hgrows (by decide) (by decide)
  have hok : o.answer = .ok () := by
    rcases hanswer with ⟨-, hok⟩ | ⟨hnot, -⟩
    · exact hok
    · exact absurd (hgranted.symm.trans hnot) Bool.noConfusion
  obtain ⟨s'', hrun', hfill, hplace⟩ := hroom hok [.insert (intContext 7) (intRow 7 7) 5]
    (by decide) (by decide)
  refine ⟨create_small, s', hrun, ?_, o, ho, hresize, hok, s'', hrun', hfill,
    (hplace (by decide) (intContext 8) (intRow 8 8) 5).1⟩
  rw [hrefused, hcapacity (by decide)]
  rfl

end Session

end JoinIndex
