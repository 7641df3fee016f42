import JoinIndex.Cursor

/-!
Walks: what is seen and read on the way of a cursor through a table.
-/

set_option autoImplicit false

namespace JoinIndex.Cursor

/-- What a position shows without reading its row. -/
structure View where
  bucket? : Option Nat
  hash? : Option UInt32
  matched : Bool
  deriving DecidableEq

def view (c : Cursor) (t : Table) : View :=
  ⟨c.bucket?, c.hash? t, c.isMatched t⟩

/-- What a position shows of its row. -/
structure Sighting where
  bucket? : Option Nat
  matched : Bool
  row? : Option Row
  ref? : Option RowRef
  deriving DecidableEq

def sighting (c : Cursor) (t : Table) (rows : RowStore) : Sighting :=
  ⟨c.bucket?, c.isMatched t, c.row? t rows, c.ref? t⟩

inductive Step where
  | advance (way : Advance)
  | mark
  | row
  | ref
  /-- Reads every row from here to the end. -/
  | readAll (way : Advance)
  deriving DecidableEq, Repr

/-- What a step reads. -/
inductive Reading where
  | nothing
  | row (row? : Option Row)
  | ref (ref? : Option RowRef)
  | all (sightings : List Sighting)
  deriving DecidableEq

def take (c : Cursor) (t : Table) (rows : RowStore) : Step → Reading × Cursor × Table
  | .advance way => (.nothing, c.advance t way, t)
  | .mark => (.nothing, c, c.setMatched t)
  | .row => (.row (c.row? t rows), c, t)
  | .ref => (.ref (c.ref? t), c, t)
  | .readAll way => (.all ((c.positions t way).map (·.sighting t rows)), .atEnd, t)

/-- What each step reads and what is seen after it. -/
def walk (c : Cursor) (t : Table) (rows : RowStore) : List Step → List (View × Reading) × Table
  | [] => ([], t)
  | step :: steps =>
    let (reading, c, t) := c.take t rows step
    let seen := c.view t
    let (rest, t) := c.walk t rows steps
    ((seen, reading) :: rest, t)

end JoinIndex.Cursor
