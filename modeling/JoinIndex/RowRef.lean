import JoinIndex.Config
import JoinIndex.RowStore

/-!
References to stored rows: a row that several places share, or an index into a row store.
-/

set_option autoImplicit false

namespace JoinIndex

/-- A row that several places hold at once. Equal rows that were not shared differ in `id`. -/
structure SharedRow where
  id : Nat
  row : Row
  deriving DecidableEq

inductive RowRef where
  | direct (shared : SharedRow)
  | indexed (index : RowIndex)
  deriving DecidableEq

namespace RowRef

def storage : RowRef → StorageMode
  | direct _ => .direct
  | indexed _ => .indexed

def direct? : RowRef → Option SharedRow
  | direct shared => some shared
  | indexed _ => none

def index? : RowRef → Option RowIndex
  | direct _ => none
  | indexed index => some index

/-- Whether two references lead to one row, and not only to equal rows. -/
def same : RowRef → RowRef → Bool
  | direct a, direct b => a.id == b.id
  | indexed i, indexed j => i == j
  | _, _ => false

/-- The row itself; none if the store has no row at the index. -/
def resolve (rows : RowStore) : RowRef → Option Row
  | direct shared => some shared.row
  | indexed index => rows.get? index

end RowRef

end JoinIndex
