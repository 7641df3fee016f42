import JoinIndex.Budget
import JoinIndex.RowRef

/-!
Nodes of overflow chains in pages. A page never changes its capacity, so the index of a node stays
valid until the arena is released; each page is twice as large as the one before it, up to a
largest size, and is charged to a budget before it is used.
-/

set_option autoImplicit false

namespace JoinIndex

/-- The place of a node in an arena. -/
structure NodeIndex where
  page : UInt32
  slot : UInt32
  deriving DecidableEq, Repr

/-- One row of a chain, linked to the row that was stored before it. -/
structure Node where
  row : RowRef
  matched : Bool
  next : Option NodeIndex
  deriving DecidableEq

/-- Pages of nodes, with the free slots of the last page, the capacity of the next one, the number
of nodes and the bytes charged for all pages. -/
structure Arena where
  pages : Array (Array Node)
  free : Nat
  nextCapacity : Nat
  numNodes : Nat
  byteSize : Nat

namespace Arena

def minPageNodes : Nat := 1024

def maxPageNodes : Nat := 1 <<< 18

def nodeBytes : Nat := 32

def empty : Arena :=
  ⟨#[], 0, minPageNodes, 0, 0⟩

instance : Inhabited Arena := ⟨empty⟩

/-- Bytes of a page of `nodes` nodes, which have to fit a 64-bit word. -/
def pageBytes (nodes : Nat) : Except Fault Nat :=
  if nodes * nodeBytes < Budget.wordRange then .ok (nodes * nodeBytes)
  else .error .productOverflow

/-- Adds a page. Answers false and changes nothing here when the budget refuses it. -/
def grow (a : Arena) (budget : Budget) : Bool × Arena × Budget :=
  let bytes := a.nextCapacity * nodeBytes
  if budget.admits bytes then
    (true,
      { a with
        pages := a.pages.push #[]
        free := a.nextCapacity
        nextCapacity := min (2 * a.nextCapacity) maxPageNodes
        byteSize := a.byteSize + bytes },
      budget.charge bytes)
  else (false, a, budget.refuse)

/-- Sees to it that the last page has `count` free slots, which a new page always has. The free
slots of a page that is left behind stay unused. -/
def ensure (a : Arena) (budget : Budget) (count : Nat) : Bool × Arena × Budget :=
  if count ≤ a.free then (true, a, budget) else a.grow budget

/-- As `ensure`, for no more slots than the smallest page has. -/
def reserve (a : Arena) (budget : Budget) (count : Nat) :
    Except Fault (Bool × Arena × Budget) :=
  if count ≤ minPageNodes then .ok (a.ensure budget count) else .error .reservationTooLarge

/-- The index that the next node of the last page will have. -/
def nextIndex (a : Arena) : NodeIndex :=
  let page := a.pages.size - 1
  ⟨page.toUInt32, ((a.pages.back?.map Array.size).getD 0).toUInt32⟩

/-- Puts a node into a free slot of the last page. -/
def push (a : Arena) (node : Node) : Arena :=
  { a with
    pages := a.pages.modify (a.pages.size - 1) (·.push node)
    free := a.free - 1
    numNodes := a.numNodes + 1 }

/-- Stores a node, on a new page if the last one is full, and answers its index; none if the
budget refuses the page. -/
def alloc (a : Arena) (budget : Budget) (node : Node) : Option NodeIndex × Arena × Budget :=
  match a.ensure budget 1 with
  | (false, a, budget) => (none, a, budget)
  | (true, a, budget) => (some a.nextIndex, a.push node, budget)

def get? (a : Arena) (i : NodeIndex) : Option Node :=
  a.pages[i.page.toNat]?.bind fun page ↦ page[i.slot.toNat]?

/-- The fault of taking the node at an index that no node has: the page is looked for first. -/
def missing (a : Arena) (i : NodeIndex) : Fault :=
  match a.pages[i.page.toNat]? with
  | none => .indexOutOfBounds a.pages.size i.page.toNat
  | some page => .indexOutOfBounds page.size i.slot.toNat

/-- The node at an index that must be in use. -/
def get (a : Arena) (i : NodeIndex) : Except Fault Node :=
  match a.get? i with
  | some node => .ok node
  | none => .error (a.missing i)

/-- Changes the node at an index, if there is one. -/
def modify (a : Arena) (i : NodeIndex) (change : Node → Node) : Arena :=
  { a with pages := a.pages.modify i.page.toNat (·.modify i.slot.toNat change) }

/-- Changes the node at an index that must be in use. -/
def update (a : Arena) (i : NodeIndex) (change : Node → Node) : Except Fault Arena :=
  if (a.get? i).isSome then .ok (a.modify i change) else .error (a.missing i)

/-- Marks the node at an index, if there is one. -/
def setMatched (a : Arena) (i : NodeIndex) : Arena :=
  { a with
    pages := a.pages.modify i.page.toNat fun page ↦
      page.modify i.slot.toNat fun node ↦ { node with matched := true } }

/-- Marks the node at an index that must be in use. -/
def mark (a : Arena) (i : NodeIndex) : Except Fault Arena :=
  if (a.get? i).isSome then .ok (a.setMatched i) else .error (a.missing i)

/-- Drops all pages and gives their bytes back. -/
def release (a : Arena) (budget : Budget) : Except Fault (Arena × Budget) := do
  let budget ← budget.release a.byteSize
  return (empty, budget)

/-- Stores `count` nodes, each linked to the one before it, for the rows that `row` gives them.
Stops at the first node that is refused. Answers how many were stored and the index of the last. -/
def allocChain (a : Arena) (budget : Budget) (row : Nat → RowRef) (count : Nat) :
    Nat × Option NodeIndex × Arena × Budget :=
  go a budget none 0 count
where
  go (a : Arena) (budget : Budget) (last : Option NodeIndex) (stored : Nat) :
      Nat → Nat × Option NodeIndex × Arena × Budget
    | 0 => (stored, last, a, budget)
    | left + 1 =>
      match a.alloc budget ⟨row stored, false, last⟩ with
      | (none, a, budget) => (stored, last, a, budget)
      | (some i, a, budget) => go a budget (some i) (stored + 1) left

end Arena

end JoinIndex
