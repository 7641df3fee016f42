import JoinIndex.Bench

/-!
Tables and key contexts that share one budget and one row store.
-/

set_option autoImplicit false

namespace JoinIndex

structure Workspace extends Supply where
  /-- Tables keep their places when others are closed. -/
  tables : Array (Option Table)
  contexts : Array KeyContext

namespace Workspace

def new (budget : Budget) (rowsPerPage : Nat) (paysForRows : Bool) : Workspace :=
  ⟨⟨budget, RowStore.new rowsPerPage, paysForRows, #[]⟩, #[], #[]⟩

def table? (w : Workspace) (t : Nat) : Option Table :=
  w.tables[t]?.join

/-- Creates a table, over the row store if `stored`, and answers its place. -/
def addTable (w : Workspace) (config : Config) (stored : Bool) : Except Error Nat × Workspace :=
  match (if stored then Table.withRowStore else Table.new) config w.budget with
  | (.error e, budget) => (.error e, { w with budget })
  | (.ok table, budget) =>
    (.ok w.tables.size, { w with budget, tables := w.tables.push (some table) })

/-- Keeps a context and answers its place. -/
def addContext (w : Workspace) (context : KeyContext) : Nat × Workspace :=
  (w.contexts.size, { w with contexts := w.contexts.push context })

def setContext (w : Workspace) (c : Nat) (context : KeyContext) : Workspace :=
  { w with contexts := w.contexts.setIfInBounds c context }

def append (w : Workspace) (row : Row) : Except Error RowIndex × Workspace :=
  let (index, supply) := w.toSupply.append row
  (index, { w with toSupply := supply })

/-- A table and a context with what they share. -/
def bench? (w : Workspace) (t c : Nat) : Option Bench := do
  let table ← w.table? t
  let context ← w.contexts[c]?
  return ⟨w.toSupply, table, context⟩

/-- Puts back what `bench?` gave for these places. -/
def keep (w : Workspace) (t c : Nat) (b : Bench) : Workspace :=
  { w with
    toSupply := b.toSupply
    tables := w.tables.setIfInBounds t (some b.table)
    contexts := w.contexts.setIfInBounds c b.context }

/-- Puts a table back that an operation left behind, with the budget. -/
def keepTable (w : Workspace) (t : Nat) (table : Table) (budget : Budget) : Workspace :=
  { w with budget, tables := w.tables.setIfInBounds t (some table) }

/-- Ends a table; its place stays taken. -/
def closeTable (w : Workspace) (t : Nat) : Except Fault Workspace :=
  match w.table? t with
  | none => .ok w
  | some table => do
    let budget ← table.close w.budget
    return { w with budget, tables := w.tables.setIfInBounds t none }

/-- The budget once every table and then the row store has given back what it charged. -/
def closeAll (w : Workspace) : Except Fault Budget := do
  let budget ← w.tables.toList.foldlM closeOne w.budget
  if w.paysForRows then w.rows.close budget else return budget
where
  closeOne (budget : Budget) : Option Table → Except Fault Budget
    | none => .ok budget
    | some table => table.close budget

end Workspace

end JoinIndex
