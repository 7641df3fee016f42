/-!
What a TOML document holds, and the rules by which its lines add to tables: no key is given twice,
and a table is not opened again by another kind of line than the one that made it.
-/

set_option autoImplicit false

namespace JoinIndex.Toml

/-- How a table came about: as part of the path of a header, by dotted keys, or by a header of its
own or in braces. -/
inductive Origin where
  | path | dotted | whole
  deriving DecidableEq, Repr

/-- Strings, integers, truth values, arrays and tables. Floats and dates are missing. -/
inductive Item where
  | string (s : String)
  | integer (i : Int)
  | boolean (b : Bool)
  | array (items : List Item)
  | table (origin : Origin) (entries : List (String × Item))
  /-- Tables of one name, the last one being the one lines are added to. -/
  | tables (earlier : List (List (String × Item))) (last : List (String × Item))

abbrev Entries := List (String × Item)

namespace Entries

def get? (es : Entries) (key : String) : Option Item :=
  (es.find? (·.1 = key)).map (·.2)

/-- Replaces what a key holds, or adds the key at the end. -/
def set : Entries → String → Item → Entries
  | [], key, item => [(key, item)]
  | (k, old) :: rest, key, item =>
    if k = key then (k, item) :: rest else (k, old) :: set rest key item

/-- Changes the table that a path of keys leads to from a table with this origin. Tables that are
missing on the way are made with the origin `made`, and dotted keys enter no table of a header. -/
def changeAt (made origin : Origin) (es : Entries) :
    List String → (Origin → Entries → Option Entries) → Option Entries
  | [], change => change origin es
  | key :: path, change =>
    match es.get? key with
    | none => do
      let inner ← changeAt made made [] path change
      some (es.set key (.table made inner))
    | some (.table origin inner) => do
      if made = .dotted ∧ origin = .whole then none
      else
        let inner ← changeAt made origin inner path change
        some (es.set key (.table origin inner))
    | some (.tables earlier last) => do
      let last ← changeAt made .whole last path change
      some (es.set key (.tables earlier last))
    | some _ => none

/-- Adds an item under a dotted key. The last part must be new, and dotted keys add to tables of
dotted keys only. -/
def insert (es : Entries) (parts : List String) (item : Item) : Option Entries :=
  let tablePath := parts.dropLast
  changeAt .dotted .whole es tablePath fun origin inner ↦
    match parts.getLast? with
    | none => none
    | some key =>
      if decide (origin = .dotted) = tablePath.isEmpty then none
      else if (inner.get? key).isSome then none
      else some (inner.set key item)

/-- Opens the table of a header. It must be new, or have been named only in paths of headers. -/
def openTable (es : Entries) (parts : List String) : Option Entries :=
  changeAt .path .whole es parts.dropLast fun _ inner ↦
    match parts.getLast? with
    | none => none
    | some key =>
      match inner.get? key with
      | none => some (inner.set key (.table .whole []))
      | some (.table .path entries) => some (inner.set key (.table .whole entries))
      | some _ => none

/-- Adds a table to the array of tables of a header. -/
def openElement (es : Entries) (parts : List String) : Option Entries :=
  changeAt .path .whole es parts.dropLast fun _ inner ↦
    match parts.getLast? with
    | none => none
    | some key =>
      match inner.get? key with
      | none => some (inner.set key (.tables [] []))
      | some (.tables earlier last) => some (inner.set key (.tables (earlier ++ [last]) []))
      | some _ => none

/-- Adds an item under a dotted key in the table that the last header opened. -/
def insertUnder (es : Entries) (header parts : List String) (item : Item) : Option Entries :=
  changeAt .path .whole es header fun _ inner ↦ inner.insert parts item

end Entries

end JoinIndex.Toml
