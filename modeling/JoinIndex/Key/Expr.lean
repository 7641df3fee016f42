import JoinIndex.Row

/-!
Key expressions: what each component of a key is read from.
-/

set_option autoImplicit false

namespace JoinIndex

/-- One component of a key. The type of a column is declared, not enforced. -/
inductive KeyExpr where
  | column (index : Nat) (type : ValueType)
  | literal (v : Value)
  deriving DecidableEq

namespace KeyExpr

/-- A column that the row does not have reads as null. -/
def eval (e : KeyExpr) (row : Row) : Value :=
  match e with
  | column index _ => (row.get? index).getD .null
  | literal v => v

def type : KeyExpr → ValueType
  | column _ type => type
  | literal v => v.type

end KeyExpr

end JoinIndex
