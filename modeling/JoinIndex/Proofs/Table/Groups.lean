import JoinIndex.Proofs.Arena.Links
import JoinIndex.Proofs.Bucket.Places
import JoinIndex.Table

/-!
What a table holds, without the places it holds it at: for each filled bucket the hash and the rows
with their marks, in the order of the chain. `nodes` lists the nodes of the chain of a bucket and
`entries` its rows; both are computed from the arena, and both are the same in every later arena
that keeps the nodes.
-/

set_option autoImplicit false
set_option relaxedAutoImplicit false

namespace JoinIndex

/-- A stored row with its mark. -/
structure Entry where
  ref : RowRef
  matched : Bool
  deriving DecidableEq

def Node.entry (node : Node) : Entry := ⟨node.row, node.matched⟩

/-- The rows that share a bucket, the one stored last first, and the hash of the bucket. -/
structure Group where
  hash : UInt32
  entries : List Entry

namespace Group

def refs (g : Group) : List RowRef := g.entries.map Entry.ref

/-- A group without its marks. -/
def shape (g : Group) : UInt32 × List RowRef := (g.hash, g.refs)

/-- The group with one more row, which has no mark. -/
def cons (row : RowRef) (g : Group) : Group :=
  { g with entries := ⟨row, false⟩ :: g.entries }

end Group

namespace Bucket

/-- The nodes of the chain, from its head on. -/
def nodes (a : Arena) (b : Bucket) : List NodeIndex :=
  a.trail b.head? a.numNodes

def entries (a : Arena) : Bucket → List Entry
  | empty => []
  | inline _ matched row => [⟨row, matched⟩]
  | chain hash head => ((chain hash head).nodes a).filterMap fun i ↦ (a.get? i).map Node.entry

def group (a : Arena) (b : Bucket) : Group :=
  ⟨b.hash?.getD 0, b.entries a⟩

theorem hash?_eq_some_group {b : Bucket} (hb : b.isFilled = true) (a : Arena) :
    b.hash? = some (b.group a).hash := by
  obtain ⟨hash, hhash⟩ := isFilled_iff.mp hb
  rw [group, hhash]
  rfl

theorem nodes_eq_nil {b : Bucket} (h : b.head? = none) (a : Arena) : b.nodes a = [] := by
  rw [nodes, h, Arena.trail]

theorem nodes_empty (a : Arena) : empty.nodes a = [] := nodes_eq_nil rfl a

theorem nodes_inline (a : Arena) (hash : UInt32) (matched : Bool) (row : RowRef) :
    (inline hash matched row).nodes a = [] := nodes_eq_nil rfl a

theorem length_nodes_le (a : Arena) (b : Bucket) : (b.nodes a).length ≤ a.numNodes :=
  a.trail_length_le _ _

end Bucket

namespace Bucket

variable {a a' : Arena}

theorem nodes_eq_of_links {b : Bucket} {is : List NodeIndex} (h : a.Links b.head? is)
    (hlength : is.length ≤ a.numNodes) : b.nodes a = is :=
  h.trail_eq hlength

theorem nodes_extends {b : Bucket} (h : a.Links b.head? (b.nodes a)) (ha : a.Extends a') :
    b.nodes a' = b.nodes a :=
  nodes_eq_of_links (h.extends ha) ((b.length_nodes_le a).trans ha.numNodes_le)

theorem entries_extends {b : Bucket} (h : a.Links b.head? (b.nodes a)) (ha : a.Extends a') :
    b.entries a' = b.entries a := by
  cases b with
  | empty => rfl
  | inline hash matched row => rfl
  | chain hash head =>
    rw [entries, entries, nodes_extends h ha]
    refine List.filterMap_congr fun i hi ↦ ?_
    obtain ⟨node, hnode⟩ := Option.isSome_iff_exists.mp (h.isSome_get? hi)
    rw [hnode, ha.get?_eq i node hnode]

theorem group_extends {b : Bucket} (h : a.Links b.head? (b.nodes a)) (ha : a.Extends a') :
    b.group a' = b.group a := by
  rw [group, group, entries_extends h ha]

/-- The first row of a bucket is the first of its rows. -/
theorem firstRow?_eq_head? {b : Bucket} (h : a.Links b.head? (b.nodes a)) :
    b.firstRow? a = (b.group a).refs.head? := by
  cases b with
  | empty => rfl
  | inline hash matched row => rfl
  | chain hash head =>
    rw [Group.refs, group, entries]
    have hlinks : a.Links (some head) ((chain hash head).nodes a) := h
    generalize (chain hash head).nodes a = is at hlinks
    cases hlinks with
    | step hget hrest =>
      rw [List.filterMap_cons, hget, firstRow?, hget]
      rfl

end Bucket

namespace Table

/-- The nodes of all chains. -/
def nodes (t : Table) : List NodeIndex :=
  (filledBuckets t.buckets).flatMap (Bucket.nodes t.arena)

/-- What the filled buckets hold. -/
def groups (t : Table) : List Group :=
  (filledBuckets t.buckets).map (Bucket.group t.arena)

end Table

end JoinIndex
