import JoinIndex.Proofs.Pointwise
import JoinIndex.Proofs.Table.Relocation

/-!
Tables that differ in their references only. A table looks at a reference through the key it is
asked for and otherwise just moves it about. So if the references of two tables are related one by
one, and each key is found at both of two related references or at none, every operation answers the
same on both tables and leaves them related. The relation is a parameter here.
-/

set_option autoImplicit false
set_option relaxedAutoImplicit false

namespace JoinIndex

/-! ### Budgets -/

namespace Budget

/-- Budgets with one limit and the same charges. -/
structure Alike (b b' : Budget) : Prop where
  limit_eq : b.limit = b'.limit
  consumed_eq : b.consumed = b'.consumed

variable {b b' : Budget}

theorem Alike.admits (h : b.Alike b') (bytes : ℕ) : b.admits bytes = b'.admits bytes := by
  rw [Budget.admits, Budget.admits, h.limit_eq, h.consumed_eq]

theorem Alike.remaining (h : b.Alike b') : b.remaining = b'.remaining := by
  rw [Budget.remaining, Budget.remaining, h.limit_eq, h.consumed_eq]

theorem Alike.charge (h : b.Alike b') (bytes : ℕ) : (b.charge bytes).Alike (b'.charge bytes) :=
  ⟨h.limit_eq, congrArg (· + bytes) h.consumed_eq⟩

theorem Alike.refuse (h : b.Alike b') : b.refuse.Alike b'.refuse :=
  ⟨h.limit_eq, h.consumed_eq⟩

end Budget

/-- Results that are related, or one fault. -/
inductive SameFault {α β : Type} (T : α → β → Prop) : Except Fault α → Except Fault β → Prop
  | ok {x : α} {y : β} (h : T x y) : SameFault T (.ok x) (.ok y)
  | error (fault : Fault) : SameFault T (.error fault) (.error fault)

theorem SameFault.bind {α β γ δ : Type} {T : α → β → Prop} {U : γ → δ → Prop}
    {r : Except Fault α} {r' : Except Fault β} (h : SameFault T r r') {f : α → Except Fault γ}
    {g : β → Except Fault δ} (hfg : ∀ x y, T x y → SameFault U (f x) (g y)) :
    SameFault U (r >>= f) (r' >>= g) := by
  cases h with
  | ok h => exact hfg _ _ h
  | error fault => exact .error fault

theorem Budget.Alike.release {b b' : Budget} (h : b.Alike b') (bytes : ℕ) :
    SameFault Budget.Alike (b.release bytes) (b'.release bytes) := by
  rw [Budget.release, Budget.release, h.consumed_eq]
  split_ifs
  · exact .ok ⟨h.limit_eq, rfl⟩
  · exact .error _

section

variable (R : RowRef → RowRef → Prop)

/-! ### Buckets and searches -/

/-- Buckets of one shape, hash and mark that hold related references. -/
inductive Bucket.Related : Bucket → Bucket → Prop
  | empty : Related .empty .empty
  | inline (hash : UInt32) (matched : Bool) {d i : RowRef} (h : R d i) :
      Related (.inline hash matched d) (.inline hash matched i)
  | chain (hash : UInt32) (head : NodeIndex) : Related (.chain hash head) (.chain hash head)

/-- Nodes of one mark and link that hold related references. -/
structure Node.Related (n n' : Node) : Prop where
  row : R n.row n'.row
  matched_eq : n.matched = n'.matched
  next_eq : n.next = n'.next

/-- Arenas whose pages hold related nodes. -/
structure Arena.Related (a a' : Arena) : Prop where
  pages : Pointwise (Pointwise (Node.Related R)) a.pages a'.pages
  free_eq : a.free = a'.free
  nextCapacity_eq : a.nextCapacity = a'.nextCapacity
  numNodes_eq : a.numNodes = a'.numNodes
  byteSize_eq : a.byteSize = a'.byteSize

/-- Tables of one layout that hold related references. Their storage mode may differ. -/
structure Table.Related (t u : Table) : Prop where
  probing_eq : t.probing = u.probing
  buckets : Pointwise (Bucket.Related R) t.buckets u.buckets
  arena : Arena.Related R t.arena u.arena
  filled_eq : t.filled = u.filled
  entries_eq : t.entries = u.entries
  overflowing_eq : t.overflowing = u.overflowing
  hasMatches_eq : t.hasMatches = u.hasMatches
  counts_eq : t.counts = u.counts
  resizes_eq : t.resizes = u.resizes

/-- Outcomes with one answer that leave related tables behind. -/
structure Outcome.Related {α : Type} (o o' : Outcome α) : Prop where
  answer_eq : o.answer = o'.answer
  table : Table.Related R o.table o'.table
  budget : o.budget.Alike o'.budget

end

variable {R S : RowRef → RowRef → Prop}

theorem Bucket.Related.mono (hRS : ∀ d i, R d i → S d i) {b b' : Bucket}
    (h : Bucket.Related R b b') : Bucket.Related S b b' := by
  cases h with
  | empty => exact .empty
  | inline hash matched h => exact .inline hash matched (hRS _ _ h)
  | chain hash head => exact .chain hash head

theorem Node.Related.mono (hRS : ∀ d i, R d i → S d i) {n n' : Node}
    (h : Node.Related R n n') : Node.Related S n n' :=
  ⟨hRS _ _ h.row, h.matched_eq, h.next_eq⟩

theorem Table.Related.mono (hRS : ∀ d i, R d i → S d i) {t u : Table}
    (h : Table.Related R t u) : Table.Related S t u :=
  { h with
    buckets := h.buckets.mono fun _ _ ↦ Bucket.Related.mono hRS
    arena := { h.arena with
      pages := h.arena.pages.mono fun _ _ hpage ↦ hpage.mono fun _ _ ↦ Node.Related.mono hRS } }

namespace Bucket.Related

variable {b b' : Bucket}

theorem hash?_eq (h : Bucket.Related R b b') : b.hash? = b'.hash? := by
  cases h <;> rfl

theorem head?_eq (h : Bucket.Related R b b') : b.head? = b'.head? := by
  cases h <;> rfl

theorem isFilled_eq (h : Bucket.Related R b b') : b.isFilled = b'.isFilled := by
  cases h <;> rfl

theorem setMatched (h : Bucket.Related R b b') :
    Bucket.Related R b.setMatched b'.setMatched := by
  cases h with
  | empty => exact .empty
  | inline hash matched h => exact .inline hash true h
  | chain hash head => exact .chain hash head

end Bucket.Related

/-- A search depends on hashes and matches only. -/
theorem Probe.run_congr {mode : ProbingMode} {buckets buckets' : Array Bucket} {hash : UInt32}
    {isMatch isMatch' : Bucket → Bool} (hsize : buckets.size = buckets'.size)
    (hhash : ∀ p, (bucketAt buckets p).hash? = (bucketAt buckets' p).hash?)
    (hmatch : ∀ p, isMatch (bucketAt buckets p) = isMatch' (bucketAt buckets' p)) :
    Probe.run mode buckets hash isMatch = Probe.run mode buckets' hash isMatch' := by
  have hwalk : ∀ left travel collisions,
      walk mode buckets hash isMatch travel collisions left =
        walk mode buckets' hash isMatch' travel collisions left := by
    intro left
    induction left with
    | zero => exact fun _ _ ↦ rfl
    | succ left ih =>
      intro travel collisions
      rw [walk_succ, walk_succ, hsize]
      dsimp only
      rw [hhash, hmatch, ih, ih]
  rw [run, run, hsize]
  exact hwalk _ _ _

namespace Arena.Related

variable {a a' : Arena}

theorem get? (h : Arena.Related R a a') (i : NodeIndex) :
    Option.Rel (Node.Related R) (a.get? i) (a'.get? i) :=
  optionRel_bind (fun _ _ hpage ↦ hpage i.slot.toNat) (h.pages i.page.toNat)

theorem empty : Arena.Related R Arena.empty Arena.empty :=
  ⟨Pointwise.empty, rfl, rfl, rfl, rfl⟩

theorem nextIndex_eq (h : Arena.Related R a a') : a.nextIndex = a'.nextIndex := by
  have hlast : a.pages.back?.map Array.size = a'.pages.back?.map Array.size :=
    map_eq_of_optionRel (fun _ _ hpage ↦ hpage.size_eq) h.pages.back?
  rw [nextIndex, nextIndex, h.pages.size_eq, hlast]

theorem push (h : Arena.Related R a a') {n n' : Node} (hn : Node.Related R n n') :
    Arena.Related R (a.push n) (a'.push n') where
  pages := by
    show Pointwise _ (a.pages.modify (a.pages.size - 1) _) (a'.pages.modify (a'.pages.size - 1) _)
    rw [h.pages.size_eq]
    exact h.pages.modify _ fun _ _ hpage ↦ hpage.push hn
  free_eq := congrArg (· - 1) h.free_eq
  nextCapacity_eq := h.nextCapacity_eq
  numNodes_eq := congrArg (· + 1) h.numNodes_eq
  byteSize_eq := h.byteSize_eq

theorem setMatched (h : Arena.Related R a a') (i : NodeIndex) :
    Arena.Related R (a.setMatched i) (a'.setMatched i) :=
  { h with
    pages := h.pages.modify _ fun _ _ hpage ↦ hpage.modify _ fun _ _ hn ↦
      ⟨hn.row, rfl, hn.next_eq⟩ }

/-- Free slots are made available to both arenas, or refused to both. -/
theorem ensure (h : Arena.Related R a a') {b b' : Budget} (hb : b.Alike b') (count : ℕ) :
    (a.ensure b count).1 = (a'.ensure b' count).1 ∧
      Arena.Related R (a.ensure b count).2.1 (a'.ensure b' count).2.1 ∧
        (a.ensure b count).2.2.Alike (a'.ensure b' count).2.2 := by
  rw [Arena.ensure, Arena.ensure, h.free_eq, Arena.grow, Arena.grow, h.nextCapacity_eq,
    hb.admits, h.byteSize_eq]
  split_ifs
  · exact ⟨rfl, h, hb⟩
  · refine ⟨rfl, ⟨h.pages.push Pointwise.empty, rfl, rfl, h.numNodes_eq, rfl⟩, hb.charge _⟩
  · exact ⟨rfl, h, hb.refuse⟩

/-- The first rows of related buckets are related. -/
theorem firstRow? (h : Arena.Related R a a') {b b' : Bucket} (hb : Bucket.Related R b b') :
    Option.Rel R (b.firstRow? a) (b'.firstRow? a') := by
  cases hb with
  | empty => exact .none
  | inline hash matched hrow => exact .some hrow
  | chain hash head => exact optionRel_map (fun _ _ hn ↦ hn.row) (h.get? head)

end Arena.Related

namespace Table

variable {t u : Table} {budget budget' : Budget} {isKey isKey' : RowRef → Bool} {hash : UInt32}

theorem related_empty (probing : ProbingMode) (storage storage' : StorageMode) (size : ℕ) :
    Table.Related R (empty probing storage size) (empty probing storage' size) :=
  ⟨rfl, Pointwise.replicate _ .empty, Arena.Related.empty, rfl, rfl, rfl, rfl, rfl, rfl⟩

namespace Related

theorem bucketAt (h : Table.Related R t u) (p : ℕ) :
    Bucket.Related R (bucketAt t.buckets p) (bucketAt u.buckets p) :=
  h.buckets.getD p .empty

theorem size_eq (h : Table.Related R t u) : t.buckets.size = u.buckets.size :=
  h.buckets.size_eq

theorem byteSize_eq (h : Table.Related R t u) : t.byteSize = u.byteSize := by
  rw [byteSize, byteSize, h.size_eq, h.arena.byteSize_eq]

theorem stats_eq (h : Table.Related R t u) : t.stats = u.stats := by
  rw [stats, stats, h.size_eq, h.filled_eq, h.entries_eq, h.overflowing_eq, h.arena.numNodes_eq,
    h.counts_eq, h.resizes_eq, h.byteSize_eq]

/-- A key that is found at both of two related references or at none is found in the same bucket,
by the same search. -/
theorem probe (h : Table.Related R t u) (hkey : ∀ d i, R d i → isKey d = isKey' i)
    (hash : UInt32) :
    (t.probe isKey hash).1 = (u.probe isKey' hash).1 ∧
      Table.Related R (t.probe isKey hash).2 (u.probe isKey' hash).2 := by
  have hrun : Probe.run t.probing t.buckets hash (fun b ↦ (b.firstRow? t.arena).any isKey) =
      Probe.run u.probing u.buckets hash fun b ↦ (b.firstRow? u.arena).any isKey' := by
    rw [h.probing_eq]
    exact Probe.run_congr h.size_eq (fun p ↦ (h.bucketAt p).hash?_eq)
      fun p ↦ any_eq_of_optionRel hkey (h.arena.firstRow? (h.bucketAt p))
  refine ⟨congrArg Probe.result hrun, { h with counts_eq := ?_ }⟩
  show t.counts.add _ = u.counts.add _
  rw [hrun, h.counts_eq]

theorem fill (h : Table.Related R t u) (p : ℕ) (hash : UInt32) {d i : RowRef} (hrow : R d i) :
    Table.Related R (t.fill p hash d) (u.fill p hash i) :=
  { h with
    buckets := h.buckets.setIfInBounds p (.inline hash false hrow)
    filled_eq := congrArg (· + 1) h.filled_eq
    entries_eq := congrArg (· + 1) h.entries_eq }

theorem addDuplicate (h : Table.Related R t u) (hb : budget.Alike budget') (p : ℕ)
    {d i : RowRef} (hrow : R d i) :
    Outcome.Related R (t.addDuplicate budget p d) (u.addDuplicate budget' p i) := by
  have hbucket : Bucket.Related R (t.buckets.getD p .empty) (u.buckets.getD p .empty) :=
    h.bucketAt p
  rw [Table.addDuplicate, Table.addDuplicate]
  generalize t.buckets.getD p .empty = b at hbucket
  generalize u.buckets.getD p .empty = b' at hbucket
  cases hbucket with
  | empty => exact ⟨rfl, h, hb⟩
  | inline hash matched hfirst =>
    obtain ⟨hgranted, harena, hbudget⟩ := h.arena.ensure hb 2
    dsimp only
    generalize t.arena.ensure budget 2 = e at *
    generalize u.arena.ensure budget' 2 = e' at *
    obtain ⟨granted, arena, charged⟩ := e
    obtain ⟨granted', arena', charged'⟩ := e'
    obtain rfl : granted = granted' := hgranted
    cases granted with
    | false => exact ⟨rfl, { h with arena := harena }, hbudget⟩
    | true =>
      have hnode : Node.Related R ⟨_, matched, none⟩ ⟨_, matched, none⟩ := ⟨hfirst, rfl, rfl⟩
      have htail := harena.push hnode
      refine ⟨rfl, { h with
        buckets := ?_
        arena := htail.push ⟨hrow, rfl, congrArg some harena.nextIndex_eq⟩
        entries_eq := congrArg (· + 1) h.entries_eq
        overflowing_eq := congrArg (· + 1) h.overflowing_eq }, hbudget⟩
      dsimp only
      rw [htail.nextIndex_eq]
      exact h.buckets.setIfInBounds p (.chain hash _)
  | chain hash head =>
    obtain ⟨hgranted, harena, hbudget⟩ := h.arena.ensure hb 1
    dsimp only
    generalize t.arena.ensure budget 1 = e at *
    generalize u.arena.ensure budget' 1 = e' at *
    obtain ⟨granted, arena, charged⟩ := e
    obtain ⟨granted', arena', charged'⟩ := e'
    obtain rfl : granted = granted' := hgranted
    cases granted with
    | false => exact ⟨rfl, { h with arena := harena }, hbudget⟩
    | true =>
      refine ⟨rfl, { h with
        buckets := ?_
        arena := harena.push ⟨hrow, rfl, rfl⟩
        entries_eq := congrArg (· + 1) h.entries_eq }, hbudget⟩
      dsimp only
      rw [harena.nextIndex_eq]
      exact h.buckets.setIfInBounds p (.chain hash _)

theorem insert (h : Table.Related R t u) (hb : budget.Alike budget') {d i : RowRef}
    (hrow : R d i) (hkind : d.storage = t.storage ↔ i.storage = u.storage)
    {rows rows' : RowStore} {context : KeyContext}
    (hkey : ∀ d i, R d i → context.holds rows d = context.holds rows' i) (hash : UInt32) :
    Outcome.Related R (t.insert budget rows context d hash)
      (u.insert budget' rows' context i hash) := by
  rw [Table.insert, Table.insert]
  by_cases hu : i.storage = u.storage
  · rw [if_pos hu, if_pos (hkind.mpr hu)]
    obtain ⟨hresult, htable⟩ := h.probe hkey hash
    generalize t.probe (context.holds rows) hash = r at *
    generalize u.probe (context.holds rows') hash = r' at *
    obtain ⟨result, searched⟩ := r
    obtain ⟨result', searched'⟩ := r'
    obtain rfl : result = result' := hresult
    cases result with
    | vacant p => exact ⟨rfl, htable.fill p hash hrow, hb⟩
    | found p => exact htable.addDuplicate hb p hrow
    | exhausted => exact ⟨rfl, htable, hb⟩
  · rw [if_neg hu, if_neg fun ht ↦ hu (hkind.mp ht)]
    exact ⟨rfl, h, hb⟩

/-! ### Resizing and clearing -/

theorem place {mode : ProbingMode} {moved moved' : Array Bucket}
    (h : Pointwise (Bucket.Related R) moved moved') {b b' : Bucket}
    (hb : Bucket.Related R b b') :
    Option.Rel (Pointwise (Bucket.Related R)) (relocate.place mode moved b)
      (relocate.place mode moved' b') := by
  have hrun : ∀ hash, Probe.run mode moved hash (fun _ ↦ false) =
      Probe.run mode moved' hash fun _ ↦ false :=
    fun hash ↦ Probe.run_congr h.size_eq (fun p ↦ (h.getD p .empty).hash?_eq) fun _ ↦ rfl
  rw [relocate.place, relocate.place, hb.hash?_eq]
  cases b'.hash? with
  | none => exact .some h
  | some hash =>
    dsimp only
    rw [hrun hash]
    cases (Probe.run mode moved' hash fun _ ↦ false).result with
    | vacant i => exact .some (h.setIfInBounds i hb)
    | found => exact .none
    | exhausted => exact .none

theorem relocate {buckets buckets' : Array Bucket}
    (h : Pointwise (Bucket.Related R) buckets buckets') (mode : ProbingMode) (size : ℕ) :
    Option.Rel (Pointwise (Bucket.Related R)) (relocate mode buckets size)
      (Table.relocate mode buckets' size) := by
  have hfold : ∀ {rest rest' : List Bucket}, List.Forall₂ (Bucket.Related R) rest rest' →
      ∀ {moved moved'}, Pointwise (Bucket.Related R) moved moved' →
        Option.Rel (Pointwise (Bucket.Related R)) (rest.foldlM (relocate.place mode) moved)
          (rest'.foldlM (relocate.place mode) moved') := by
    intro rest rest' hrest
    induction hrest with
    | nil => exact fun hmoved ↦ .some hmoved
    | cons hb _ ih =>
      intro moved moved' hmoved
      rw [List.foldlM_cons, List.foldlM_cons]
      exact optionRel_bind (fun _ _ hmoved ↦ ih hmoved) (place hmoved hb)
  rw [relocate_eq_foldlM, relocate_eq_foldlM]
  exact hfold h.forall₂_toList (Pointwise.replicate size .empty)

theorem resize (h : Table.Related R t u) (hb : budget.Alike budget') (size : ℕ) :
    SameFault (Outcome.Related R) (t.resize budget size) (u.resize budget' size) := by
  rw [Table.resize, Table.resize, h.filled_eq, hb.admits, hb.remaining, h.probing_eq, h.size_eq]
  have hmoved := relocate h.buckets u.probing size
  have hcharged := hb.charge (bucketBytes size)
  split_ifs
  · exact .ok ⟨rfl, h, hb⟩
  · exact .ok ⟨rfl, h, hb⟩
  · generalize Table.relocate u.probing t.buckets size = moved at hmoved
    generalize Table.relocate u.probing u.buckets size = moved' at hmoved
    cases hmoved with
    | none => exact (hcharged.release _).bind fun _ _ hreleased ↦ .ok ⟨rfl, h, hreleased⟩
    | some hmoved =>
      exact (hcharged.release _).bind fun _ _ hreleased ↦ .ok ⟨rfl,
        { h with
          probing_eq := rfl
          buckets := hmoved
          filled_eq := rfl
          resizes_eq := congrArg (· + 1) h.resizes_eq }, hreleased⟩
  · exact .ok ⟨rfl, h, hb.refuse⟩

theorem makeRoom (h : Table.Related R t u) (hb : budget.Alike budget') (more : ℕ) :
    SameFault (Outcome.Related R) (t.makeRoom budget more) (u.makeRoom budget' more) := by
  rw [Table.makeRoom, Table.makeRoom, h.filled_eq, h.size_eq]
  cases roomyCount? (min (u.filled + more) (Budget.wordRange - 1)) u.buckets.size
      (Config.maxBuckets.log2 - u.buckets.size.log2) with
  | none => exact .ok ⟨rfl, h, hb⟩
  | some size =>
    dsimp only
    split_ifs
    · exact .ok ⟨rfl, h, hb⟩
    · exact h.resize hb size

theorem clear (h : Table.Related R t u) (hb : budget.Alike budget') :
    SameFault (fun r r' ↦ Table.Related R r.1 r'.1 ∧ r.2.Alike r'.2) (t.clear budget)
      (u.clear budget') := by
  have harena : SameFault (fun r r' ↦ Arena.Related R r.1 r'.1 ∧ r.2.Alike r'.2)
      (t.arena.release budget) (u.arena.release budget') := by
    rw [Arena.release, Arena.release, h.arena.byteSize_eq]
    exact (hb.release _).bind fun _ _ hreleased ↦ .ok ⟨.empty, hreleased⟩
  rw [Table.clear, Table.clear, h.size_eq]
  refine harena.bind fun r r' hr ↦ .ok ⟨?_, hr.2⟩
  exact { h with
    buckets := Pointwise.replicate _ .empty
    arena := hr.1
    filled_eq := rfl
    entries_eq := rfl
    overflowing_eq := rfl
    hasMatches_eq := rfl }

end Related

/-! ### Equal references -/

theorem related_refl (t : Table) : Table.Related Eq t t := by
  have hbucket : ∀ b, Bucket.Related Eq b b := by
    intro b
    cases b with
    | empty => exact .empty
    | inline hash matched row => exact .inline hash matched rfl
    | chain hash head => exact .chain hash head
  have hpages : Pointwise (Pointwise (Node.Related Eq)) t.arena.pages t.arena.pages :=
    Pointwise.refl (Pointwise.refl fun _ ↦ ⟨rfl, rfl, rfl⟩) _
  exact ⟨rfl, Pointwise.refl hbucket _, ⟨hpages, rfl, rfl, rfl, rfl⟩, rfl, rfl, rfl, rfl, rfl, rfl⟩

/-- Tables of one storage mode with the same references are the same. -/
theorem Related.eq (h : Table.Related Eq t u) (hstorage : t.storage = u.storage) : t = u := by
  have hbuckets : t.buckets = u.buckets := h.buckets.eq fun _ _ hb ↦ by
    cases hb with
    | empty => rfl
    | inline hash matched hrow => rw [hrow]
    | chain => rfl
  have hnode : ∀ n n' : Node, Node.Related Eq n n' → n = n' := by
    rintro ⟨row, matched, next⟩ ⟨row', matched', next'⟩ ⟨hrow, hmatched, hnext⟩
    obtain rfl : row = row' := hrow
    obtain rfl : matched = matched' := hmatched
    obtain rfl : next = next' := hnext
    rfl
  have hpages : t.arena.pages = u.arena.pages :=
    h.arena.pages.eq fun _ _ hpage ↦ hpage.eq hnode
  have harena : t.arena = u.arena := by
    have hrest := h.arena
    generalize t.arena = a at *
    generalize u.arena = a' at *
    obtain ⟨pages, free, nextCapacity, numNodes, byteSize⟩ := a
    obtain rfl := hpages
    obtain rfl : free = _ := hrest.free_eq
    obtain rfl : nextCapacity = _ := hrest.nextCapacity_eq
    obtain rfl : numNodes = _ := hrest.numNodes_eq
    obtain rfl : byteSize = _ := hrest.byteSize_eq
    rfl
  obtain ⟨hprobing, -, -, hfilled, hentries, hoverflowing, hmatches, hcounts, hresizes⟩ := h
  cases t
  cases u
  simp_all

end Table

end JoinIndex
