import JoinIndex.Budget
import JoinIndex.Error
import JoinIndex.Row

/-!
Append-only storage of rows in pages of a fixed number of rows. A row is found again by the index
that appending it returned. A store may have a payer, a budget that its rows are charged to.
-/

set_option autoImplicit false

namespace JoinIndex

/-- The place of a row in a store. -/
structure RowIndex where
  page : UInt32
  offset : UInt32
  deriving DecidableEq, Repr

namespace RowIndex

def text (i : RowIndex) : String :=
  s!"{i.page.toNat}:{i.offset.toNat}"

/-- By page, then by offset. -/
def le (i j : RowIndex) : Bool :=
  i.page < j.page || (i.page = j.page && i.offset ≤ j.offset)

def sort (is : List RowIndex) : List RowIndex :=
  is.mergeSort le

end RowIndex

structure RowStore where
  rowsPerPage : Nat
  pages : Array (Array Row)

namespace RowStore

def defaultRowsPerPage : Nat := 1024

/-- An empty store. A page holds at least one row. -/
def new (rowsPerPage : Nat) : RowStore :=
  ⟨max rowsPerPage 1, #[]⟩

instance : Inhabited RowStore := ⟨new defaultRowsPerPage⟩

def numPages (s : RowStore) : Nat := s.pages.size

def numRows (s : RowStore) : Nat :=
  s.pages.foldl (fun rows page ↦ rows + page.size) 0

/-- Bytes of all rows held. -/
def byteSize (s : RowStore) : Nat :=
  s.pages.foldl (fun bytes page ↦ page.foldl (fun bytes row ↦ bytes + row.byteSize) bytes) 0

def get? (s : RowStore) (i : RowIndex) : Option Row :=
  s.pages[i.page.toNat]?.bind fun page ↦ page[i.offset.toNat]?

/-- Copies a row over `scratch`, which stays as it is when there is no such row. -/
def materialize (s : RowStore) (i : RowIndex) (scratch : Row) : Bool × Row :=
  match s.get? i with
  | some row => (true, row)
  | none => (false, scratch)

/-- Whether the next row needs a page of its own. -/
def lastPageIsFull (s : RowStore) : Bool :=
  s.pages.back?.all fun page ↦ s.rowsPerPage ≤ page.size

/-- Puts a row behind the last one. -/
def push (s : RowStore) (row : Row) : RowStore :=
  if s.lastPageIsFull then { s with pages := s.pages.push #[row] }
  else { s with pages := s.pages.modify (s.pages.size - 1) (·.push row) }

/-- Where the last row stands, unless its page is past the last page an index can name. -/
def lastIndex (s : RowStore) : Except Error RowIndex :=
  let page := s.pages.size - 1
  let rows := (s.pages.back?.map Array.size).getD 0
  if page < UInt32.size then .ok ⟨page.toUInt32, (rows - 1).toUInt32⟩
  else .error (.internal .rowPageOverflow)

/-- What an append leaves behind. -/
structure Appended where
  index : Except Error RowIndex
  store : RowStore
  payer : Option Budget

/-- Appends a row and charges its payer first, which may refuse. -/
def append (s : RowStore) (payer : Option Budget) (row : Row) : Appended :=
  let bytes := row.byteSize
  match payer with
  | none =>
    let store := s.push row
    ⟨store.lastIndex, store, none⟩
  | some budget =>
    if budget.admits bytes then
      let store := s.push row
      ⟨store.lastIndex, store, some (budget.charge bytes)⟩
    else ⟨.error (.memoryLimit bytes budget.remaining), s, some budget.refuse⟩

/-- Gives the bytes of all rows back to the payer. -/
def close (s : RowStore) (payer : Budget) : Except Fault Budget :=
  payer.release s.byteSize

def text (s : RowStore) : String :=
  s!"PagedRowStore \x7b rows_per_page: {s.rowsPerPage}, num_pages: {s.numPages}, " ++
    s!"num_rows: {s.numRows} \x7d"

end RowStore

end JoinIndex
