import JoinIndex.Table

/-!
Cursors: positions on the rows of a table. Rows are met in the order of their buckets, and in a
bucket from the row stored last to the first.
-/

set_option autoImplicit false

namespace JoinIndex

inductive Cursor where
  | atEnd
  /-- On a row of a filled bucket: on a node if the bucket has a chain. -/
  | on (bucket : Nat) (node : Option NodeIndex)
  deriving DecidableEq, Repr

namespace Cursor

def isAtEnd : Cursor → Bool
  | atEnd => true
  | on _ _ => false

def bucket? : Cursor → Option Nat
  | atEnd => none
  | on bucket _ => some bucket

end Cursor

namespace Table

/-- On the first row of a bucket. -/
def cursorAt (t : Table) (bucket : Nat) : Cursor :=
  .on bucket (t.buckets.getD bucket .empty).head?

/-- The first filled bucket of `count` buckets from `start` on. -/
def firstFilled? (t : Table) (start : Nat) : Nat → Option Nat
  | 0 => none
  | count + 1 =>
    if (t.buckets.getD start .empty).isFilled then some start else t.firstFilled? (start + 1) count

/-- On the first row in the buckets from `start` on. -/
def seek (t : Table) (start : Nat) : Cursor :=
  match t.firstFilled? start (t.buckets.size - start) with
  | some bucket => t.cursorAt bucket
  | none => .atEnd

/-- On the first row of all. -/
def first (t : Table) : Cursor :=
  t.seek 0

/-- On the rows of the key evaluated last, which `hash` is the hash of. -/
def find (t : Table) (rows : RowStore) (ctx : KeyContext) (hash : UInt32) : Cursor × Table :=
  match t.probe (ctx.holds rows) hash with
  | (.found bucket, t) => (t.cursorAt bucket, t)
  | (_, t) => (.atEnd, t)

end Table

namespace Cursor

/-- The hash of the bucket. -/
def hash? (c : Cursor) (t : Table) : Option UInt32 :=
  c.bucket?.bind fun bucket ↦ (t.buckets.getD bucket .empty).hash?

/-- The node after this one in the chain. -/
def nextNode? (c : Cursor) (t : Table) : Option NodeIndex :=
  match c with
  | on _ (some node) => (t.arena.get? node).bind Node.next
  | _ => none

/-- On the next row. -/
def next (c : Cursor) (t : Table) : Cursor :=
  match c with
  | atEnd => atEnd
  | on bucket _ =>
    match c.nextNode? t with
    | some node => on bucket (some node)
    | none => t.seek (bucket + 1)

/-- On the next row of the same bucket; at the end after the last of them. -/
def nextDuplicate (c : Cursor) (t : Table) : Cursor :=
  match c with
  | atEnd => atEnd
  | on bucket _ =>
    match c.nextNode? t with
    | some node => on bucket (some node)
    | none => atEnd

def isMatched (c : Cursor) (t : Table) : Bool :=
  match c with
  | atEnd => false
  | on _ (some node) => (t.arena.get? node).any Node.matched
  | on bucket none =>
    match t.buckets.getD bucket .empty with
    | .inline _ matched _ => matched
    | _ => false

/-- Moves on to a row without a mark, over `steps` rows at most. -/
def skipMatched (c : Cursor) (t : Table) : Nat → Cursor
  | 0 => c
  | steps + 1 => if c.isMatched t then (c.next t).skipMatched t steps else c

/-- On the next row without a mark. -/
def nextUnmatched (c : Cursor) (t : Table) : Cursor :=
  (c.next t).skipMatched t t.entries

/-- Marks the row; at the end there is none. -/
def setMatched (c : Cursor) (t : Table) : Table :=
  match c with
  | atEnd => t
  | on _ (some node) => { t with arena := t.arena.setMatched node, hasMatches := true }
  | on bucket none =>
    { t with buckets := t.buckets.modify bucket Bucket.setMatched, hasMatches := true }

/-- The reference to the row. -/
def ref? (c : Cursor) (t : Table) : Option RowRef :=
  match c with
  | atEnd => none
  | on _ (some node) => (t.arena.get? node).map Node.row
  | on bucket none => (t.buckets.getD bucket .empty).firstRow? t.arena

def row? (c : Cursor) (t : Table) (rows : RowStore) : Option Row :=
  (c.ref? t).bind (·.resolve rows)

/-- Ways to go on from a row. -/
inductive Advance where
  | next | duplicate | unmatched
  deriving DecidableEq, Repr

def advance (c : Cursor) (t : Table) : Advance → Cursor
  | .next => c.next t
  | .duplicate => c.nextDuplicate t
  | .unmatched => c.nextUnmatched t

/-- The positions from here to the end, at most `count` of them. -/
def positionsUpTo (c : Cursor) (t : Table) (way : Advance) : Nat → List Cursor
  | 0 => []
  | count + 1 =>
    match c with
    | atEnd => []
    | on _ _ => c :: (c.advance t way).positionsUpTo t way count

/-- The positions from here to the end. There are no more of them than rows. -/
def positions (c : Cursor) (t : Table) (way : Advance) : List Cursor :=
  c.positionsUpTo t way t.entries

end Cursor

namespace Table

/-- On the first row without a mark. -/
def firstUnmatched (t : Table) : Cursor :=
  t.first.skipMatched t t.entries

end Table

end JoinIndex
