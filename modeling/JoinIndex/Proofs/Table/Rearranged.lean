import JoinIndex.Proofs.Table.Related
import JoinIndex.Proofs.Table.Soundness

/-!
Tables that hold the same at other places. The nodes are the same ones, and the filled buckets hold
the same, but under other hashes and in another order. Where a search ends is decided by the hash
and the probing mode; if the searches of two such tables end alike, each of them at an empty bucket
or at buckets that hold the same, then the operations answer the same and leave such tables behind.

What is counted is counted alike, since it depends on the collection of filled buckets only. A
resize looks at the hashes, but it succeeds under any hashes if it succeeds under some.
-/

set_option autoImplicit false
set_option relaxedAutoImplicit false

namespace JoinIndex

/-! ### Buckets without their hash -/

namespace Bucket

/-- What a bucket holds, put under the hash 0. -/
def unhashed : Bucket → Bucket
  | empty => empty
  | inline _ matched row => inline 0 matched row
  | chain _ head => chain 0 head

variable {b b' : Bucket}

/-- What does not look at the hash is the same of buckets that hold the same. -/
theorem eq_of_unhashed_eq {β : Type} (f : Bucket → β) (hf : ∀ b, f b.unhashed = f b)
    (h : b.unhashed = b'.unhashed) : f b = f b' := by
  rw [← hf b, h, hf b']

theorem isFilled_unhashed (b : Bucket) : b.unhashed.isFilled = b.isFilled := by
  cases b <;> rfl

theorem head?_unhashed (b : Bucket) : b.unhashed.head? = b.head? := by
  cases b <;> rfl

theorem firstRow?_unhashed (arena : Arena) (b : Bucket) :
    b.unhashed.firstRow? arena = b.firstRow? arena := by
  cases b <;> rfl

theorem unhashed_setMatched (b : Bucket) : b.setMatched.unhashed = b.unhashed.setMatched := by
  cases b <;> rfl

theorem exists_eq_inline {hash : UInt32} {matched : Bool} {row : RowRef}
    (h : (inline hash matched row).unhashed = b.unhashed) :
    ∃ hash', b = inline hash' matched row := by
  cases b with
  | empty => cases h
  | chain => cases h
  | inline hash' matched' row' =>
    obtain ⟨-, rfl, rfl⟩ := inline.inj h
    exact ⟨hash', rfl⟩

theorem exists_eq_chain {hash : UInt32} {head : NodeIndex}
    (h : (chain hash head).unhashed = b.unhashed) : ∃ hash', b = chain hash' head := by
  cases b with
  | empty => cases h
  | inline => cases h
  | chain hash' head' =>
    obtain ⟨-, rfl⟩ := chain.inj h
    exact ⟨hash', rfl⟩

end Bucket

theorem length_filledBuckets_le (buckets : Array Bucket) :
    (filledBuckets buckets).length ≤ buckets.size := by
  have hle : (buckets.toList.filter Bucket.isFilled).length ≤ buckets.toList.length :=
    List.length_filter_le _ _
  exact hle

/-- Arrays whose filled buckets hold the same, in whatever order. -/
def SameContents (buckets buckets' : Array Bucket) : Prop :=
  ((filledBuckets buckets).map Bucket.unhashed).Perm
    ((filledBuckets buckets').map Bucket.unhashed)

namespace SameContents

variable {buckets buckets' : Array Bucket} {p q : ℕ} {b b' : Bucket}

theorem symm (h : SameContents buckets buckets') : SameContents buckets' buckets :=
  List.Perm.symm h

theorem length_eq (h : SameContents buckets buckets') :
    (filledBuckets buckets).length = (filledBuckets buckets').length := by
  have hlength := List.Perm.length_eq h
  rwa [List.length_map, List.length_map] at hlength

/-- What a bucket of the one array holds, some bucket of the other holds. -/
theorem exists_unhashed_eq (h : SameContents buckets buckets')
    (hp : (bucketAt buckets p).isFilled = true) :
    ∃ q, (bucketAt buckets' q).isFilled = true ∧
      (bucketAt buckets p).unhashed = (bucketAt buckets' q).unhashed := by
  have hmem : (bucketAt buckets p).unhashed ∈ (filledBuckets buckets').map Bucket.unhashed :=
    (List.Perm.mem_iff h).mp (List.mem_map_of_mem (bucketAt_mem_filledBuckets hp))
  obtain ⟨b, hb, hsame⟩ := List.mem_map.mp hmem
  obtain ⟨hfilled, q, rfl⟩ := mem_filledBuckets.mp hb
  exact ⟨q, hfilled, hsame.symm⟩

/-- If the one array has an empty bucket, so has another one of its size. -/
theorem exists_empty (h : SameContents buckets buckets') (hsize : buckets.size = buckets'.size)
    (hp : p < buckets.size) (hempty : bucketAt buckets p = .empty) :
    ∃ q < buckets'.size, bucketAt buckets' q = .empty := by
  refine exists_empty_of_length_lt ?_
  -- There is room for one filled bucket more.
  have hperm := filledBuckets_setIfInBounds_of_empty hp hempty (b := .chain 0 ⟨0, 0⟩) rfl
  have hlength := hperm.length_eq
  rw [List.length_cons, h.length_eq] at hlength
  have hle := length_filledBuckets_le (buckets.setIfInBounds p (.chain 0 ⟨0, 0⟩))
  rw [Array.size_setIfInBounds, hsize] at hle
  omega

/-- Two empty buckets are filled alike. -/
theorem set_of_empty (h : SameContents buckets buckets') (hp : p < buckets.size)
    (hempty : bucketAt buckets p = .empty) (hq : q < buckets'.size)
    (hempty' : bucketAt buckets' q = .empty) (hb : b.isFilled = true)
    (hsame : b.unhashed = b'.unhashed) :
    SameContents (buckets.setIfInBounds p b) (buckets'.setIfInBounds q b') := by
  have hb' : b'.isFilled = true := by
    rwa [← Bucket.eq_of_unhashed_eq _ Bucket.isFilled_unhashed hsame]
  have hleft := (filledBuckets_setIfInBounds_of_empty hp hempty hb).map Bucket.unhashed
  have hright := (filledBuckets_setIfInBounds_of_empty hq hempty' hb').map Bucket.unhashed
  rw [List.map_cons] at hleft hright
  rw [hsame] at hleft
  exact (hleft.trans (List.Perm.cons _ h)).trans hright.symm

/-- Two buckets that hold the same are written alike. -/
theorem set_of_filled (h : SameContents buckets buckets')
    (hp : (bucketAt buckets p).isFilled = true)
    (hbefore : (bucketAt buckets p).unhashed = (bucketAt buckets' q).unhashed)
    (hb : b.isFilled = true) (hsame : b.unhashed = b'.unhashed) :
    SameContents (buckets.setIfInBounds p b) (buckets'.setIfInBounds q b') := by
  have hq : (bucketAt buckets' q).isFilled = true := by
    rwa [← Bucket.eq_of_unhashed_eq _ Bucket.isFilled_unhashed hbefore]
  have hb' : b'.isFilled = true := by
    rwa [← Bucket.eq_of_unhashed_eq _ Bucket.isFilled_unhashed hsame]
  obtain ⟨others, hold, hnew⟩ := filledBuckets_setIfInBounds_of_filled hp hb
  obtain ⟨others', hold', hnew'⟩ := filledBuckets_setIfInBounds_of_filled hq hb'
  have hold := hold.map Bucket.unhashed
  have hold' := hold'.map Bucket.unhashed
  have hnew := hnew.map Bucket.unhashed
  have hnew' := hnew'.map Bucket.unhashed
  rw [List.map_cons] at hold hold' hnew hnew'
  rw [hbefore] at hold
  rw [hsame] at hnew
  have hothers : (others.map Bucket.unhashed).Perm (others'.map Bucket.unhashed) :=
    ((hold.symm.trans h).trans hold').cons_inv
  exact (hnew.trans (hothers.cons _)).trans hnew'.symm

/-- The row that is held in a bucket is marked in both arrays. -/
theorem modify_setMatched (h : SameContents buckets buckets')
    (hp : (bucketAt buckets p).isFilled = true)
    (hbefore : (bucketAt buckets p).unhashed = (bucketAt buckets' q).unhashed) :
    SameContents (buckets.modify p Bucket.setMatched) (buckets'.modify q Bucket.setMatched) := by
  have hmodify : ∀ (bs : Array Bucket) (r : ℕ), bs.modify r Bucket.setMatched =
      bs.setIfInBounds r (bucketAt bs r).setMatched := by
    intro bs r
    refine Array.ext (by simp) fun k hk hk' ↦ ?_
    rw [Array.getElem_modify, Array.getElem_setIfInBounds]
    split_ifs with hrk
    · subst hrk
      rw [bucketAt_of_lt (by simpa using hk)]
    · rfl
  rw [hmodify, hmodify]
  refine h.set_of_filled hp hbefore ?_ ?_
  · rwa [Bucket.isFilled_setMatched]
  · rw [Bucket.unhashed_setMatched, Bucket.unhashed_setMatched, hbefore]

end SameContents

/-- Tables with the same nodes whose filled buckets hold the same, under other hashes and at other
places. They may search in different ways and have counted different searches. -/
structure Table.Rearranged (t u : Table) : Prop where
  storage_eq : t.storage = u.storage
  size_eq : t.buckets.size = u.buckets.size
  buckets : SameContents t.buckets u.buckets
  arena_eq : t.arena = u.arena
  filled_eq : t.filled = u.filled
  entries_eq : t.entries = u.entries
  overflowing_eq : t.overflowing = u.overflowing
  hasMatches_eq : t.hasMatches = u.hasMatches
  resizes_eq : t.resizes = u.resizes

/-- Outcomes with one answer and one budget, and tables that hold the same at other places. -/
structure Outcome.Rearranged {α : Type} (o o' : Outcome α) : Prop where
  answer_eq : o.answer = o'.answer
  table : o.table.Rearranged o'.table
  budget_eq : o.budget = o'.budget

namespace Table

/-- Searches that end alike: at buckets that hold the same, at empty buckets, or nowhere. -/
inductive SameEnd (t u : Table) : ProbeResult → ProbeResult → Prop
  | found {p q : ℕ} (hfilled : (bucketAt t.buckets p).isFilled = true)
      (hsame : (bucketAt t.buckets p).unhashed = (bucketAt u.buckets q).unhashed) :
      SameEnd t u (.found p) (.found q)
  | vacant {p q : ℕ} (hp : p < t.buckets.size) (hempty : bucketAt t.buckets p = .empty)
      (hq : q < u.buckets.size) (hempty' : bucketAt u.buckets q = .empty) :
      SameEnd t u (.vacant p) (.vacant q)
  | exhausted : SameEnd t u .exhausted .exhausted

variable {t u : Table} {budget : Budget}

/-- A search counts itself and changes nothing else. -/
theorem exists_probe_eq (t : Table) (isKey : RowRef → Bool) (hash : UInt32) :
    ∃ probe : Probe, t.probe isKey hash = (probe.result, t.searched probe) :=
  ⟨_, rfl⟩

theorem rearranged_empty (probing probing' : ProbingMode) (storage : StorageMode) (size : ℕ) :
    (empty probing storage size).Rearranged (empty probing' storage size) :=
  ⟨rfl, rfl, List.Perm.refl _, rfl, rfl, rfl, rfl, rfl, rfl⟩

namespace Rearranged

theorem symm (h : t.Rearranged u) : u.Rearranged t :=
  ⟨h.storage_eq.symm, h.size_eq.symm, h.buckets.symm, h.arena_eq.symm, h.filled_eq.symm,
    h.entries_eq.symm, h.overflowing_eq.symm, h.hasMatches_eq.symm, h.resizes_eq.symm⟩

theorem byteSize_eq (h : t.Rearranged u) : t.byteSize = u.byteSize := by
  rw [byteSize, byteSize, h.size_eq, h.arena_eq]

theorem searched (h : t.Rearranged u) (probe probe' : Probe) :
    (t.searched probe).Rearranged (u.searched probe') :=
  { h with }

theorem withArena (h : t.Rearranged u) (arena : Arena) :
    (t.withArena arena).Rearranged (u.withArena arena) :=
  { h with arena_eq := rfl }

/-! ### Taking in a row -/

theorem fill (h : t.Rearranged u) {p q : ℕ} (hp : p < t.buckets.size)
    (hempty : bucketAt t.buckets p = .empty) (hq : q < u.buckets.size)
    (hempty' : bucketAt u.buckets q = .empty) (hash hash' : UInt32) (row : RowRef) :
    (t.fill p hash row).Rearranged (u.fill q hash' row) :=
  { h with
    size_eq := by
      rw [Table.fill, Table.fill, Array.size_setIfInBounds, Array.size_setIfInBounds, h.size_eq]
    buckets := h.buckets.set_of_empty hp hempty hq hempty' rfl rfl
    filled_eq := congrArg (· + 1) h.filled_eq
    entries_eq := congrArg (· + 1) h.entries_eq }

/-- A chain is written to buckets that hold the same, and the rows are counted alike. -/
theorem promote (h : t.Rearranged u) {p q : ℕ} (hp : (bucketAt t.buckets p).isFilled = true)
    (hsame : (bucketAt t.buckets p).unhashed = (bucketAt u.buckets q).unhashed)
    (hash hash' : UInt32) (matched : Bool) (first row : RowRef) :
    (t.promote p hash matched first row).Rearranged (u.promote q hash' matched first row) := by
  have harena := h.arena_eq
  refine ⟨h.storage_eq, ?_, ?_, ?_, h.filled_eq, congrArg (· + 1) h.entries_eq,
    congrArg (· + 1) h.overflowing_eq, h.hasMatches_eq, h.resizes_eq⟩
  · rw [Table.promote, Table.promote, Array.size_setIfInBounds, Array.size_setIfInBounds,
      h.size_eq]
  · refine h.buckets.set_of_filled hp hsame rfl ?_
    rw [harena]
    rfl
  · rw [Table.promote, Table.promote, harena]

theorem prepend (h : t.Rearranged u) {p q : ℕ} (hp : (bucketAt t.buckets p).isFilled = true)
    (hsame : (bucketAt t.buckets p).unhashed = (bucketAt u.buckets q).unhashed)
    (hash hash' : UInt32) (head : NodeIndex) (row : RowRef) :
    (t.prepend p hash head row).Rearranged (u.prepend q hash' head row) := by
  have harena := h.arena_eq
  refine ⟨h.storage_eq, ?_, ?_, ?_, h.filled_eq, congrArg (· + 1) h.entries_eq,
    h.overflowing_eq, h.hasMatches_eq, h.resizes_eq⟩
  · rw [Table.prepend, Table.prepend, Array.size_setIfInBounds, Array.size_setIfInBounds,
      h.size_eq]
  · refine h.buckets.set_of_filled hp hsame rfl ?_
    rw [harena]
    rfl
  · rw [Table.prepend, Table.prepend, harena]

theorem addDuplicate (h : t.Rearranged u) {p q : ℕ}
    (hp : (bucketAt t.buckets p).isFilled = true)
    (hsame : (bucketAt t.buckets p).unhashed = (bucketAt u.buckets q).unhashed) (row : RowRef) :
    Outcome.Rearranged (t.addDuplicate budget p row) (u.addDuplicate budget q row) := by
  cases hbucket : bucketAt t.buckets p with
  | empty =>
    rw [hbucket] at hp
    cases hp
  | inline hash matched first =>
    obtain ⟨hash', hbucket'⟩ := Bucket.exists_eq_inline (hbucket ▸ hsame)
    rw [addDuplicate_inline hbucket, addDuplicate_inline hbucket', h.arena_eq]
    obtain ⟨granted, arena, charged⟩ := u.arena.ensure budget 2
    cases granted with
    | false => exact ⟨rfl, h.withArena arena, rfl⟩
    | true => exact ⟨rfl, (h.withArena arena).promote hp hsame hash hash' matched first row, rfl⟩
  | chain hash head =>
    obtain ⟨hash', hbucket'⟩ := Bucket.exists_eq_chain (hbucket ▸ hsame)
    rw [addDuplicate_chain hbucket, addDuplicate_chain hbucket', h.arena_eq]
    obtain ⟨granted, arena, charged⟩ := u.arena.ensure budget 1
    cases granted with
    | false => exact ⟨rfl, h.withArena arena, rfl⟩
    | true => exact ⟨rfl, (h.withArena arena).prepend hp hsame hash hash' head row, rfl⟩

/-- A row is taken in or refused alike if the searches for its key end alike. -/
theorem insert (h : t.Rearranged u) {rows rows' : RowStore} {context context' : KeyContext}
    {hash hash' : UInt32} (row : RowRef)
    (hends : SameEnd t u (t.probe (context.holds rows) hash).1
      (u.probe (context'.holds rows') hash').1) :
    Outcome.Rearranged (t.insert budget rows context row hash)
      (u.insert budget rows' context' row hash') := by
  obtain ⟨probe, hprobe⟩ := exists_probe_eq t (context.holds rows) hash
  obtain ⟨probe', hprobe'⟩ := exists_probe_eq u (context'.holds rows') hash'
  have hsearched := h.searched probe probe'
  rw [hprobe, hprobe'] at hends
  dsimp only at hends
  rw [Table.insert, Table.insert, hprobe, hprobe', h.storage_eq]
  by_cases hkind : row.storage = u.storage
  · rw [if_pos hkind, if_pos hkind]
    generalize probe.result = result at hends
    generalize probe'.result = result' at hends
    cases hends with
    | found hfilled hsame => exact hsearched.addDuplicate hfilled hsame row
    | vacant hp hempty hq hempty' =>
      exact ⟨rfl, hsearched.fill hp hempty hq hempty' hash hash' row, rfl⟩
    | exhausted => exact ⟨rfl, hsearched, rfl⟩
  · rw [if_neg hkind, if_neg hkind]
    exact ⟨rfl, h, rfl⟩

/-! ### Resizing and clearing -/

/-- The buckets of sound tables that hold the same are moved to arrays that hold the same: under
any hashes there is a place for each of them. -/
theorem exists_relocate (h : t.Rearranged u) (ht : t.Sound) (hu : u.Sound) {size : ℕ}
    (hpower : PowerOfTwo.IsPower size) (hfill : withinFill u.filled size = true) :
    ∃ moved moved', relocate t.probing t.buckets size = some moved ∧
      relocate u.probing u.buckets size = some moved' ∧ moved.size = size ∧ moved'.size = size ∧
        SameContents moved moved' := by
  have hroom : u.filled ≤ size := by
    rw [withinFill, decide_eq_true_iff] at hfill
    omega
  obtain ⟨moved, hmoved⟩ : ∃ moved, relocate t.probing t.buckets size = some moved := by
    refine exists_relocate_eq_some hpower ?_
    rwa [← ht.filled_eq, h.filled_eq]
  obtain ⟨moved', hmoved'⟩ : ∃ moved', relocate u.probing u.buckets size = some moved' := by
    refine exists_relocate_eq_some hpower ?_
    rwa [← hu.filled_eq]
  obtain ⟨hsize, -, hperm⟩ := relocate_eq_some hmoved
  obtain ⟨hsize', -, hperm'⟩ := relocate_eq_some hmoved'
  exact ⟨moved, moved', hmoved, hmoved', hsize, hsize',
    ((hperm.map _).trans h.buckets).trans (hperm'.map _).symm⟩

theorem resize (h : t.Rearranged u) (ht : t.Sound) (hu : u.Sound) (budget : Budget) (size : ℕ) :
    SameFault Outcome.Rearranged (t.resize budget size) (u.resize budget size) := by
  rw [Table.resize, Table.resize, h.filled_eq, h.size_eq]
  split_ifs with hunfit hfill hadmits
  · exact .ok ⟨rfl, h, rfl⟩
  · exact .ok ⟨rfl, h, rfl⟩
  · push Not at hunfit
    have hfill : withinFill u.filled size = true := by simpa using hfill
    obtain ⟨moved, moved', hmoved, hmoved', hsize, hsize', hsame⟩ :=
      h.exists_relocate ht hu hunfit.1 hfill
    rw [hmoved, hmoved']
    dsimp only
    cases (budget.charge (bucketBytes size)).release (bucketBytes u.buckets.size) with
    | error fault => exact .error fault
    | ok budget =>
      exact .ok ⟨rfl, { h with
        size_eq := hsize.trans hsize'.symm
        buckets := hsame
        filled_eq := rfl
        resizes_eq := congrArg (· + 1) h.resizes_eq }, rfl⟩
  · exact .ok ⟨rfl, h, rfl⟩

theorem makeRoom (h : t.Rearranged u) (ht : t.Sound) (hu : u.Sound) (budget : Budget) (more : ℕ) :
    SameFault Outcome.Rearranged (t.makeRoom budget more) (u.makeRoom budget more) := by
  rw [Table.makeRoom, Table.makeRoom, h.filled_eq, h.size_eq]
  cases roomyCount? (min (u.filled + more) (Budget.wordRange - 1)) u.buckets.size
      (Config.maxBuckets.log2 - u.buckets.size.log2) with
  | none => exact .ok ⟨rfl, h, rfl⟩
  | some size =>
    dsimp only
    split_ifs
    · exact .ok ⟨rfl, h, rfl⟩
    · exact h.resize ht hu budget size

theorem clear (h : t.Rearranged u) (budget : Budget) :
    SameFault (fun r r' ↦ r.1.Rearranged r'.1 ∧ r.2 = r'.2) (t.clear budget) (u.clear budget) := by
  rw [Table.clear, Table.clear, h.arena_eq, h.size_eq]
  cases u.arena.release budget with
  | error fault => exact .error fault
  | ok r =>
    exact .ok ⟨{ h with
      size_eq := rfl
      buckets := List.Perm.refl _
      arena_eq := rfl
      filled_eq := rfl
      entries_eq := rfl
      overflowing_eq := rfl
      hasMatches_eq := rfl }, rfl⟩

end Rearranged

end Table

end JoinIndex
