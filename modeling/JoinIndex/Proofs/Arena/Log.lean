import JoinIndex.Proofs.Table.Pages

/-!
An arena as a log. It gets pages, reserves slots, stores nodes, changes them and is released, while
others use the budget too, who may leave nothing of it but never give back what the arena has
charged. The log remembers the indices that were returned since the last release, with the nodes
that were stored for them as they were changed since: no index is returned twice, each of them leads
to its node whatever happens to the arena, and no other index leads anywhere. Slots that were
reserved are there for the next nodes without another look at the budget.
-/

set_option autoImplicit false
set_option relaxedAutoImplicit false

namespace JoinIndex

/-- An arena in use, with its budget, and the indices that were returned since the last release,
with their nodes as they were changed since. -/
structure ArenaLog where
  arena : Arena
  budget : Budget
  issued : List (NodeIndex × Node)

namespace ArenaLog

inductive Op where
  | grow
  | reserve (count : ℕ)
  | alloc (node : Node)
  | update (index : NodeIndex) (change : Node → Node)
  | release
  /-- Others charge the budget or give back to it. -/
  | others (budget : Budget)

def Op.isAlloc : Op → Bool
  | .alloc _ => true
  | _ => false

def new (budget : Budget) : ArenaLog :=
  ⟨.empty, budget, []⟩

variable (l : ArenaLog)

/-- What the log has on the node at an index is changed as the node is. -/
def amended (index : NodeIndex) (change : Node → Node) : List (NodeIndex × Node) :=
  l.issued.map fun x ↦ (x.1, if x.1 = index then change x.2 else x.2)

/-- One operation. A fault leaves everything as it is. -/
def step : Op → ArenaLog
  | .grow =>
    let (_, arena, budget) := l.arena.grow l.budget
    { l with arena, budget }
  | .reserve count =>
    match l.arena.reserve l.budget count with
    | .ok (_, arena, budget) => { l with arena, budget }
    | .error _ => l
  | .alloc node =>
    match l.arena.alloc l.budget node with
    | (none, arena, budget) => { l with arena, budget }
    | (some index, arena, budget) => ⟨arena, budget, l.issued ++ [(index, node)]⟩
  | .update index change =>
    match l.arena.update index change with
    | .ok arena => { l with arena, issued := l.amended index change }
    | .error _ => l
  | .release =>
    match l.arena.release l.budget with
    | .ok (arena, budget) => ⟨arena, budget, []⟩
    | .error _ => l
  | .others budget => if l.arena.byteSize ≤ budget.consumed then { l with budget } else l

/-- All operations, one after the other. -/
def run (ops : List Op) : ArenaLog :=
  ops.foldl step l

/-- The indices that were returned since the last release, in their order. -/
def indices : List NodeIndex :=
  l.issued.map Prod.fst

variable {l : ArenaLog} {budget : Budget} {count : ℕ}

/-! ### What is noted -/

/-- The arena has the nodes that are noted, each at its index, and no other. -/
structure Noted (l : ArenaLog) : Prop where
  nodup : l.indices.Nodup
  get?_eq_some_iff : ∀ index node, l.arena.get? index = some node ↔ (index, node) ∈ l.issued

theorem Noted.isSome_get?_iff (h : l.Noted) (index : NodeIndex) :
    (l.arena.get? index).isSome = true ↔ index ∈ l.indices := by
  rw [Option.isSome_iff_exists, indices, List.mem_map]
  constructor
  · rintro ⟨node, hnode⟩
    exact ⟨(index, node), (h.get?_eq_some_iff index node).mp hnode, rfl⟩
  · rintro ⟨⟨_, node⟩, hnode, rfl⟩
    exact ⟨node, (h.get?_eq_some_iff _ node).mpr hnode⟩

/-- What is true of the log at any time. The notes are right as long as the pages can be named. -/
structure Kept (l : ArenaLog) : Prop where
  sound : l.arena.Sound
  paged : l.arena.Paged
  charged : l.arena.byteSize ≤ l.budget.consumed
  numNodes_eq : l.arena.numNodes = l.issued.length
  noted : l.arena.Addressable → l.Noted

theorem kept_empty (budget : Budget) : Kept ⟨.empty, budget, []⟩ where
  sound := Arena.sound_empty
  paged := Arena.paged_empty
  charged := Nat.zero_le _
  numNodes_eq := rfl
  noted := fun _ ↦ ⟨List.nodup_nil, fun index node ↦ by simp [Arena.get?, Arena.empty]⟩

theorem Kept.withBudget (h : l.Kept) (hcharged : l.arena.byteSize ≤ budget.consumed) :
    Kept { l with budget } :=
  ⟨h.sound, h.paged, hcharged, h.numNodes_eq, fun haddr ↦ ⟨(h.noted haddr).1, (h.noted haddr).2⟩⟩

/-- A new page has no node, and its bytes are charged. -/
theorem Kept.grown (h : l.Kept) :
    Kept { l with
      arena := l.arena.grown
      budget := l.budget.charge (l.arena.nextCapacity * Arena.nodeBytes) } where
  sound := h.sound.grown
  paged := h.paged.grown
  charged := Nat.add_le_add_right h.charged _
  numNodes_eq := h.numNodes_eq
  noted := fun haddr ↦ by
    have hnoted := h.noted haddr.of_grown
    refine ⟨hnoted.nodup, fun index node ↦ ?_⟩
    rw [Arena.get?_grown]
    exact hnoted.get?_eq_some_iff index node

theorem Kept.ensured (h : l.Kept) {arena : Arena}
    (hensured : l.arena.Ensured l.budget count arena budget) : Kept { l with arena, budget } := by
  cases hensured with
  | free => exact h
  | page => exact h.grown

/-- A free slot takes a node under an index that was not returned before. -/
theorem Kept.push (h : l.Kept) (hfree : 0 < l.arena.free) (node : Node) :
    Kept { l with
      arena := l.arena.push node
      issued := l.issued ++ [(l.arena.nextIndex, node)] } where
  sound := h.sound.push hfree node
  paged := h.paged.push hfree node
  charged := h.charged
  numNodes_eq := by
    rw [List.length_append, ← h.numNodes_eq]
    rfl
  noted := fun haddr ↦ by
    rw [Arena.Addressable, Arena.size_pages_push] at haddr
    have hnoted := h.noted haddr
    -- No node stands at the next index yet, so that it is not among those that were returned.
    have hvacant := Arena.get?_nextIndex h.sound haddr hfree
    have hnew : l.arena.nextIndex ∉ l.indices := by
      rw [← hnoted.isSome_get?_iff, hvacant]
      exact Bool.false_ne_true
    constructor
    · rw [indices, List.map_append]
      exact hnoted.nodup.append (List.nodup_singleton _)
        (List.disjoint_singleton.mpr hnew)
    · intro index found
      rw [Arena.get?_push h.sound haddr hfree, List.mem_append, List.mem_singleton, Prod.mk.injEq,
        ← hnoted.get?_eq_some_iff]
      split_ifs with hindex
      · rw [hindex, hvacant, Option.some.injEq]
        simp [eq_comm]
      · simp [hindex]

theorem Kept.amended (h : l.Kept) (index : NodeIndex) (change : Node → Node) :
    Kept { l with arena := l.arena.modify index change, issued := l.amended index change } where
  sound := h.sound.modify index change
  paged := h.paged.modify index change
  charged := h.charged
  numNodes_eq := by
    rw [ArenaLog.amended, List.length_map]
    exact h.numNodes_eq
  noted := fun haddr ↦ by
    rw [Arena.Addressable, Arena.size_pages_modify] at haddr
    have hnoted := h.noted haddr
    constructor
    · rw [indices, ArenaLog.amended, List.map_map]
      exact hnoted.nodup
    · intro i node
      have hold := hnoted.get?_eq_some_iff i
      rw [Arena.get?_modify]
      simp only [ArenaLog.amended, List.mem_map, Prod.mk.injEq, Prod.exists]
      split_ifs with hi
      · subst hi
        simp [Option.map_eq_some_iff, hold]
      · simp [hold, hi]

/-! ### Runs -/

theorem Kept.step (h : l.Kept) (op : Op) : (l.step op).Kept := by
  cases op with
  | grow =>
    rw [ArenaLog.step, Arena.grow]
    dsimp only
    split_ifs
    · exact h.grown
    · exact h.withBudget h.charged
  | reserve count =>
    rw [ArenaLog.step, Arena.reserve]
    split_ifs
    · rcases l.arena.ensure_cases l.budget count with ⟨arena, budget, heq, hensured⟩ | ⟨heq, -, -⟩
      · rw [heq]
        exact h.ensured hensured
      · rw [heq]
        exact h.withBudget h.charged
    · exact h
  | alloc node =>
    rw [ArenaLog.step, Arena.alloc]
    rcases l.arena.ensure_cases l.budget 1 with ⟨arena, budget, heq, hensured⟩ | ⟨heq, -, -⟩
    · rw [heq]
      exact (h.ensured hensured).push (hensured.le_free h.sound (by decide)) node
    · rw [heq]
      exact h.withBudget h.charged
  | update index change =>
    rw [ArenaLog.step, Arena.update]
    split_ifs
    · exact h.amended index change
    · exact h
  | release =>
    rw [ArenaLog.step, Arena.release, Budget.release, if_pos h.charged]
    exact kept_empty _
  | others budget =>
    rw [ArenaLog.step]
    split_ifs with hcharged
    · exact h.withBudget hcharged
    · exact h

theorem Kept.run (h : l.Kept) (ops : List Op) : (l.run ops).Kept := by
  induction ops generalizing l with
  | nil => exact h
  | cons op ops ih => exact ih (h.step op)

/-! ### Reservations -/

/-- Storing a node takes one free slot, and nothing else but a release takes any. -/
theorem Kept.le_free_step (h : l.Kept) (hcount : count ≤ Arena.minPageNodes)
    (hfree : count ≤ l.arena.free) {op : Op} (hop : op ≠ .release) :
    count - [op].countP Op.isAlloc ≤ (l.step op).arena.free := by
  cases op with
  | grow =>
    rw [ArenaLog.step, Arena.grow]
    dsimp only
    split_ifs
    · exact hcount.trans h.sound.minPageNodes_le
    · exact hfree
  | reserve more =>
    rw [ArenaLog.step, Arena.reserve]
    split_ifs
    · rcases l.arena.ensure_cases l.budget more with ⟨arena, budget, heq, hensured⟩ | ⟨heq, -, -⟩
      · rw [heq]
        exact hensured.le_free_of_imp h.sound hcount fun _ ↦ hfree
      · rw [heq]
        exact hfree
    · exact hfree
  | alloc node =>
    rw [ArenaLog.step, Arena.alloc]
    rcases l.arena.ensure_cases l.budget 1 with ⟨arena, budget, heq, hensured⟩ | ⟨heq, -, -⟩
    · rw [heq]
      exact Nat.sub_le_sub_right (hensured.le_free_of_imp h.sound hcount fun _ ↦ hfree) 1
    · rw [heq]
      exact (Nat.sub_le _ _).trans hfree
  | update index change =>
    rw [ArenaLog.step, Arena.update]
    split_ifs
    · exact hfree
    · exact hfree
  | release => exact absurd rfl hop
  | others budget =>
    rw [ArenaLog.step]
    split_ifs
    · exact hfree
    · exact hfree

/-- The induction is on the operations, with the slots that are still to be free as the count. -/
theorem Kept.le_free_run (h : l.Kept) (hcount : count ≤ Arena.minPageNodes)
    (hfree : count ≤ l.arena.free) {ops : List Op} (hops : Op.release ∉ ops) :
    count - ops.countP Op.isAlloc ≤ (l.run ops).arena.free := by
  induction ops generalizing l count with
  | nil => exact hfree
  | cons op ops ih =>
    rw [List.mem_cons, not_or] at hops
    have hstep := h.le_free_step hcount hfree (Ne.symm hops.1)
    have hrest := ih (h.step op) ((Nat.sub_le _ _).trans hcount) hstep hops.2
    rw [Nat.sub_sub, ← List.countP_append] at hrest
    exact hrest

/-- Reserved slots are there for as many nodes, whatever else happens but for a release. -/
theorem Kept.alloc_reserved (h : l.Kept) {arena : Arena}
    (hreserved : l.arena.reserve l.budget count = .ok (true, arena, budget)) {later : List Op}
    (hlater : Op.release ∉ later) (hallocs : later.countP Op.isAlloc < count) (node : Node) :
    let m := (l.step (.reserve count)).run later
    m.arena.alloc m.budget node = (some m.arena.nextIndex, m.arena.push node, m.budget) := by
  have hcount : count ≤ Arena.minPageNodes := by
    by_contra hlarge
    rw [Arena.reserve, if_neg hlarge] at hreserved
    cases hreserved
  have hfree : count ≤ (l.step (.reserve count)).arena.free := by
    rw [ArenaLog.step, hreserved]
    rw [Arena.reserve, if_pos hcount, Except.ok.injEq] at hreserved
    rcases l.arena.ensure_cases l.budget count with ⟨after, charged, heq, hensured⟩ | ⟨heq, -, -⟩
    · rw [heq, Prod.mk.injEq, Prod.mk.injEq] at hreserved
      obtain ⟨-, rfl, -⟩ := hreserved
      exact hensured.le_free h.sound hcount
    · rw [heq] at hreserved
      cases hreserved
  have hend := (h.step (.reserve count)).le_free_run hcount hfree hlater
  exact Arena.alloc_eq_of_free (by omega) _ node

/-! ### What the log says -/

/-- The nodes of the arena are the noted ones, each at an index of its own. Pages double up to the
largest size and are charged in full; what is free are the slots of the last page without a node. -/
structure Exact (l : ArenaLog) : Prop where
  nodup : l.indices.Nodup
  get_eq : ∀ x ∈ l.issued, l.arena.get x.1 = .ok x.2
  get_error : ∀ index ∉ l.indices, l.arena.get index = .error (l.arena.missing index)
  numNodes_eq : l.arena.numNodes = l.issued.length
  free_eq_zero : l.arena.pages = #[] → l.arena.free = 0
  free_eq : ∀ page, l.arena.pages.back? = some page →
    l.arena.free = Arena.pageSlots (l.arena.pages.size - 1) - page.size
  size_le : ∀ (k : ℕ) (page : Array Node), l.arena.pages[k]? = some page →
    page.size ≤ Arena.pageSlots k
  nextCapacity_eq : l.arena.nextCapacity = Arena.pageSlots l.arena.pages.size
  byteSize_eq : l.arena.byteSize =
    32 * ((List.range l.arena.pages.size).map Arena.pageSlots).sum

/-- What each operation answers: only a page that the budget does not admit is refused, and then
nothing changes but the count of refusals. -/
structure Answers (l : ArenaLog) : Prop where
  grow_iff : (l.arena.grow l.budget).1 = true ↔
    l.budget.admits (32 * Arena.pageSlots l.arena.pages.size) = true
  grow_refused : (l.arena.grow l.budget).1 = false →
    (l.arena.grow l.budget).2 = (l.arena, l.budget.refuse)
  reserve : ∀ count ≤ Arena.minPageNodes, ∃ answer, l.arena.reserve l.budget count = .ok answer ∧
    (answer.1 = true ↔ count ≤ l.arena.free ∨
      l.budget.admits (32 * Arena.pageSlots l.arena.pages.size) = true) ∧
    (answer.1 = false → answer.2 = (l.arena, l.budget.refuse))
  alloc_iff : ∀ node, (l.arena.alloc l.budget node).1.isSome = true ↔
    0 < l.arena.free ∨ l.budget.admits (32 * Arena.pageSlots l.arena.pages.size) = true
  alloc_refused : ∀ node, (l.arena.alloc l.budget node).1 = none →
    (l.arena.alloc l.budget node).2 = (l.arena, l.budget.refuse)
  update_iff : ∀ index change, (∃ arena, l.arena.update index change = .ok arena) ↔
    index ∈ l.indices
  release_eq : l.arena.release l.budget =
    .ok (.empty, { l.budget with consumed := l.budget.consumed - l.arena.byteSize })

theorem Kept.exact (h : l.Kept) (haddr : l.arena.Addressable) : l.Exact where
  nodup := (h.noted haddr).nodup
  get_eq := fun x hx ↦ by
    rw [Arena.get, ((h.noted haddr).get?_eq_some_iff x.1 x.2).mpr hx]
  get_error := fun index hindex ↦ by
    rw [← (h.noted haddr).isSome_get?_iff, Bool.not_eq_true, Option.isSome_eq_false_iff,
      Option.isNone_iff_eq_none] at hindex
    rw [Arena.get, hindex]
  numNodes_eq := h.numNodes_eq
  free_eq_zero := h.sound.free_eq_zero
  free_eq := fun page hpage ↦ by
    rw [Array.back?_eq_getElem?] at hpage
    have hslots := h.paged.free_eq page hpage
    omega
  size_le := h.paged.size_le
  nextCapacity_eq := h.paged.nextCapacity_eq
  byteSize_eq := h.paged.byteSize_eq

theorem Kept.pageBytes_eq (h : l.Kept) :
    l.arena.nextCapacity * Arena.nodeBytes = 32 * Arena.pageSlots l.arena.pages.size := by
  rw [h.paged.nextCapacity_eq, Nat.mul_comm]
  rfl

/-- Free slots are there or on a page that is admitted; a refusal leaves everything as it is. -/
theorem Kept.ensure_answer (h : l.Kept) (count : ℕ) :
    ((l.arena.ensure l.budget count).1 = true ↔ count ≤ l.arena.free ∨
      l.budget.admits (32 * Arena.pageSlots l.arena.pages.size) = true) ∧
    ((l.arena.ensure l.budget count).1 = false →
      (l.arena.ensure l.budget count).2 = (l.arena, l.budget.refuse)) := by
  rw [← h.pageBytes_eq]
  rcases l.arena.ensure_cases l.budget count with ⟨arena, budget, heq, hensured⟩ | ⟨heq, hfull, hno⟩
  · rw [heq]
    refine ⟨iff_of_true rfl ?_, fun hfalse ↦ Bool.noConfusion hfalse⟩
    cases hensured with
    | free hfree => exact Or.inl hfree
    | page _ hadmits => exact Or.inr hadmits
  · rw [heq, hno]
    refine ⟨iff_of_false Bool.false_ne_true ?_, fun _ ↦ rfl⟩
    rw [not_or]
    exact ⟨Nat.not_le_of_lt hfull, Bool.false_ne_true⟩

theorem Kept.answers (h : l.Kept) (haddr : l.arena.Addressable) : l.Answers := by
  have halloc : ∀ node,
      (l.arena.alloc l.budget node).1.isSome = (l.arena.ensure l.budget 1).1 ∧
        ((l.arena.ensure l.budget 1).1 = false →
          (l.arena.alloc l.budget node).2 = (l.arena.ensure l.budget 1).2) := by
    intro node
    rw [Arena.alloc]
    rcases l.arena.ensure l.budget 1 with ⟨_ | _, arena, budget⟩
    · exact ⟨rfl, fun _ ↦ rfl⟩
    · exact ⟨rfl, fun hfalse ↦ Bool.noConfusion hfalse⟩
  have hgrow : l.arena.grow l.budget = l.arena.ensure l.budget (l.arena.free + 1) := by
    rw [Arena.ensure, if_neg (Nat.not_succ_le_self _)]
  constructor
  · rw [hgrow, (h.ensure_answer _).1]
    exact or_iff_right (Nat.not_succ_le_self _)
  · rw [hgrow]
    exact (h.ensure_answer _).2
  · intro count hcount
    exact ⟨_, if_pos hcount, h.ensure_answer count⟩
  · intro node
    rw [(halloc node).1]
    exact (h.ensure_answer 1).1
  · intro node hnone
    have hrefused : (l.arena.ensure l.budget 1).1 = false := by
      rw [← (halloc node).1, hnone]
      rfl
    rw [(halloc node).2 hrefused]
    exact (h.ensure_answer 1).2 hrefused
  · intro index change
    rw [← (h.noted haddr).isSome_get?_iff, Arena.update]
    split_ifs with hindex
    · exact iff_of_true ⟨_, rfl⟩ hindex
    · refine iff_of_false ?_ hindex
      rintro ⟨arena, harena⟩
      cases harena
  · rw [Arena.release, Budget.release, if_pos h.charged]
    rfl

/-- Indices are stable and reservations are honoured, whatever the budget refuses in between. Since
the start or the last release no index was returned twice; each leads to the node that was stored
for it with the changes made to it since, and no other index leads to a node. The arena has as many
nodes as were stored and charges the bytes of all its pages. A refused operation changes nothing.
Reserved slots are there for as many nodes, whatever else happens but for a release, and the budget
is not asked for them. -/
theorem run_indices_stable (budget : Budget) (ops : List Op)
    (haddr : ((new budget).run ops).arena.Addressable) :
    let l := (new budget).run ops
    l.Exact ∧ l.Answers ∧
      ∀ count arena charged, l.arena.reserve l.budget count = .ok (true, arena, charged) →
        ∀ later, .release ∉ later → later.countP Op.isAlloc < count → ∀ node,
          let m := (l.step (.reserve count)).run later
          m.arena.alloc m.budget node =
            (some m.arena.nextIndex, m.arena.push node, m.budget) := by
  have h := (kept_empty budget).run ops
  exact ⟨h.exact haddr, h.answers haddr, fun _ _ _ hreserved _ hlater hallocs node ↦
    h.alloc_reserved hreserved hlater hallocs node⟩

/-- A node for a row, without a link. -/
def smallNode (offset : UInt32) : Node :=
  ⟨.indexed ⟨0, offset⟩, false, none⟩

/-- A budget for the first two pages. -/
def smallBudget (consumed : ℕ) : Budget :=
  ⟨"nodes", some 140000, consumed, 140000, 0⟩

def smallStart : ArenaLog :=
  new (smallBudget 0)

/-- A second page is refused while others use the budget. When it is granted, most of the first page
is left behind. The second change finds no node. -/
def smallOps : List Op :=
  [.reserve 2, .alloc (smallNode 0), .others (smallBudget 140000), .grow,
    .others (smallBudget 32768), .grow, .alloc (smallNode 1), .update ⟨0, 0⟩ Arena.markNode,
    .update ⟨0, 1⟩ Arena.markNode, .grow]

theorem run_indices_stable_small :
    (smallStart.run smallOps).arena.Addressable ∧
      (smallStart.run smallOps).issued =
        [(⟨0, 0⟩, ⟨.indexed ⟨0, 0⟩, true, none⟩), (⟨1, 0⟩, ⟨.indexed ⟨0, 1⟩, false, none⟩)] ∧
      (smallStart.run smallOps).arena.free = 2047 ∧
      (smallStart.run smallOps).Exact ∧ (smallStart.run smallOps).Answers ∧
      ∀ node,
        let m := ((smallStart.run smallOps).step (.reserve 2)).run [.alloc (smallNode 2), .grow]
        m.arena.alloc m.budget node =
          (some m.arena.nextIndex, m.arena.push node, m.budget) := by
  have hend : (fun l ↦ (l.arena.pages.size, l.issued, l.arena.free)) (smallStart.run smallOps) =
      (2, [(⟨0, 0⟩, ⟨.indexed ⟨0, 0⟩, true, none⟩), (⟨1, 0⟩, ⟨.indexed ⟨0, 1⟩, false, none⟩)],
        2047) := by
    cbv
  obtain ⟨hpages, hrest⟩ := Prod.mk.inj hend
  obtain ⟨hissued, hfree⟩ := Prod.mk.inj hrest
  have haddr : (smallStart.run smallOps).arena.Addressable := hpages.trans_le (by decide)
  obtain ⟨hexact, hanswers, hreserved⟩ := run_indices_stable (smallBudget 0) smallOps haddr
  obtain ⟨⟨granted, arena, budget⟩, hanswer, hgranted, -⟩ := hanswers.reserve 2 (by decide)
  obtain rfl : granted = true := hgranted.mpr (Or.inl (hfree.symm ▸ by decide))
  exact ⟨haddr, hissued, hfree, hexact, hanswers, fun node ↦
    hreserved 2 arena budget hanswer [.alloc (smallNode 2), .grow] (by simp) (by decide) node⟩

end ArenaLog

end JoinIndex
