import JoinIndex.Toml.Item
import JoinIndex.Toml.Scan

/-!
Reading TOML documents. A document with a float or a date in it is refused, since there is no item
for it.
-/

set_option autoImplicit false

namespace JoinIndex.Toml

open Scan

/-- A number or a truth value. -/
def word (cs : List Char) : Option (Item × List Char) :=
  let word := cs.takeWhile isWordChar
  let item? :=
    if word = ['t', 'r', 'u', 'e'] then some (Item.boolean true)
    else if word = ['f', 'a', 'l', 's', 'e'] then some (Item.boolean false)
    else (integer? word).map Item.integer
  item?.map fun item ↦ (item, cs.drop word.length)

mutual

/-- A value; values inside it are `depth` levels deep at most. -/
def value (cs : List Char) : Nat → Option (Item × List Char)
  | 0 => none
  | depth + 1 =>
    match cs with
    | '"' :: _ | '\'' :: _ => (Scan.string cs).map fun (s, rest) ↦ (.string s, rest)
    | '[' :: rest => (arrayRest rest depth).map fun (items, rest) ↦ (.array items, rest)
    | '{' :: rest =>
      match skipBlanks rest with
      | '}' :: rest => some (.table .whole [], rest)
      | _ => (inlineRest [] rest depth).map fun (es, rest) ↦ (.table .whole es, rest)
    | _ => word cs

/-- The rest of an array, over any number of lines. -/
def arrayRest (cs : List Char) : Nat → Option (List Item × List Char)
  | 0 => none
  | depth + 1 =>
    match skipLines cs (cs.length + 1) with
    | ']' :: rest => some ([], rest)
    | cs => do
      let (item, rest) ← value cs depth
      match skipLines rest (rest.length + 1) with
      | ']' :: rest => some ([item], rest)
      | ',' :: rest =>
        let (items, rest) ← arrayRest rest depth
        some (item :: items, rest)
      | _ => none

/-- The rest of a table in braces, which stands on one line and has no comma at its end. -/
def inlineRest (es : Entries) (cs : List Char) : Nat → Option (Entries × List Char)
  | 0 => none
  | depth + 1 => do
    let (parts, rest) ← key cs
    match rest with
    | '=' :: rest =>
      let (item, rest) ← value (skipBlanks rest) depth
      let es ← es.insert parts item
      match skipBlanks rest with
      | '}' :: rest => some (es, rest)
      | ',' :: rest => inlineRest es rest depth
      | _ => none
    | _ => none

end

/-- The entries so far, and the header under which lines are added. -/
structure Reader where
  entries : Entries
  header : List String

/-- A line that begins with a bracket: the header of a table or of an element of an array. -/
def header (r : Reader) (cs : List Char) : Option (Reader × List Char) :=
  match cs with
  | '[' :: '[' :: rest => do
    let (parts, rest) ← key rest
    match rest with
    | ']' :: ']' :: rest =>
      let entries ← r.entries.openElement parts
      some (⟨entries, parts⟩, ← lineEnd? rest)
    | _ => none
  | '[' :: rest => do
    let (parts, rest) ← key rest
    match rest with
    | ']' :: rest =>
      let entries ← r.entries.openTable parts
      some (⟨entries, parts⟩, ← lineEnd? rest)
    | _ => none
  | _ => none

/-- A line of a key and a value. -/
def assignment (r : Reader) (cs : List Char) : Option (Reader × List Char) := do
  let (parts, rest) ← key cs
  match rest with
  | '=' :: rest =>
    let (item, rest) ← value (skipBlanks rest) (rest.length + 1)
    let entries ← r.entries.insertUnder r.header parts item
    some ({ r with entries }, ← lineEnd? rest)
  | _ => none

/-- Reads on, over `steps` lines at most. -/
def readLines (r : Reader) (cs : List Char) : Nat → Option Entries
  | 0 => none
  | steps + 1 =>
    match skipBlanks cs with
    | [] => some r.entries
    | '[' :: rest => do
      let (r, rest) ← header r ('[' :: rest)
      readLines r rest steps
    | c :: rest =>
      if c = '#' || c = '\n' || c = '\r' then do
        readLines r (← lineEnd? (c :: rest)) steps
      else do
        let (r, rest) ← assignment r (c :: rest)
        readLines r rest steps

/-- The entries of a document, which a byte order mark may precede; none if it is not well formed
or holds a float or a date. -/
def read (text : String) : Option Entries :=
  let cs :=
    match text.toList with
    | '\uFEFF' :: rest => rest
    | cs => cs
  readLines ⟨[], []⟩ cs (cs.length + 1)

end JoinIndex.Toml
