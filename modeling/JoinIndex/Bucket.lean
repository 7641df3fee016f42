import JoinIndex.Arena

/-!
Buckets: places for the rows of one key. The first row of a key is held in the bucket; further
ones move all of them into a chain of nodes.
-/

set_option autoImplicit false

namespace JoinIndex

inductive Bucket where
  | empty
  | inline (hash : UInt32) (matched : Bool) (row : RowRef)
  /-- Two rows or more, `head` being the one stored last. -/
  | chain (hash : UInt32) (head : NodeIndex)
  deriving DecidableEq

namespace Bucket

instance : Inhabited Bucket := ⟨empty⟩

def byteSize : Nat := 24

def isFilled : Bucket → Bool
  | empty => false
  | inline _ _ _ => true
  | chain _ _ => true

def hasOverflow : Bucket → Bool
  | chain _ _ => true
  | _ => false

/-- The hash that the rows of the bucket were stored under. -/
def hash? : Bucket → Option UInt32
  | empty => none
  | inline hash _ _ => some hash
  | chain hash _ => some hash

/-- The first node, if the rows are in a chain. -/
def head? : Bucket → Option NodeIndex
  | chain _ head => some head
  | _ => none

/-- The row held in the bucket, or the one at the head of its chain. -/
def firstRow? (arena : Arena) : Bucket → Option RowRef
  | empty => none
  | inline _ _ row => some row
  | chain _ head => (arena.get? head).map Node.row

/-- Marks the row held in the bucket itself. -/
def setMatched : Bucket → Bucket
  | inline hash _ row => inline hash true row
  | b => b

end Bucket

end JoinIndex
