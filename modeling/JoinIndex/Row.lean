import JoinIndex.Fault
import JoinIndex.Value

/-!
Rows: values by column.
-/

set_option autoImplicit false

namespace JoinIndex

structure Row where
  values : List Value
  deriving DecidableEq

namespace Row

def empty : Row := ⟨[]⟩

instance : Inhabited Row := ⟨empty⟩

def length (r : Row) : Nat := r.values.length

def isEmpty (r : Row) : Bool := r.values.isEmpty

def get? (r : Row) (column : Nat) : Option Value := r.values[column]?

/-- The value of a column that the row must have. -/
def get (r : Row) (column : Nat) : Except Fault Value :=
  match r.get? column with
  | some v => .ok v
  | none => .error (.indexOutOfBounds r.length column)

/-- The row with one column replaced; none if it has no such column. -/
def set? (r : Row) (column : Nat) (v : Value) : Option Row :=
  if column < r.length then some ⟨r.values.set column v⟩ else none

/-- The row with one column replaced, which it must have. -/
def set (r : Row) (column : Nat) (v : Value) : Except Fault Row :=
  match r.set? column v with
  | some row => .ok row
  | none => .error (.indexOutOfBounds r.length column)

def push (r : Row) (v : Value) : Row := ⟨r.values ++ [v]⟩

/-- Rows are the same when they have equally many values and the same value in every column. -/
def sameValues : List Value → List Value → Bool
  | [], [] => true
  | a :: as, b :: bs => a.same b && sameValues as bs
  | _, _ => false

def same (a b : Row) : Bool :=
  sameValues a.values b.values

/-- Bytes of a row without its values. -/
def headerBytes : Nat := 24

def byteSize (r : Row) : Nat :=
  r.values.foldl (fun bytes v ↦ bytes + v.byteSize) headerBytes

end Row

end JoinIndex
