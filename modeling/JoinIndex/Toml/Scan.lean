import JoinIndex.Text.Hex

/-!
The parts of a line of TOML: blanks, comments, keys, strings and numbers. A scanner takes what it
reads off the front of the text and answers none if the text does not go on that way.
-/

set_option autoImplicit false

namespace JoinIndex.Toml.Scan

def isBlank (c : Char) : Bool :=
  c = ' ' || c = '\t'

def skipBlanks (cs : List Char) : List Char :=
  cs.dropWhile isBlank

/-- Characters that may stand in comments and strings: no controls but the tab. -/
def isTextChar (c : Char) : Bool :=
  c = '\t' || (' ' ≤ c && c ≠ '\x7f')

/-- The text behind a line break. -/
def newline? : List Char → Option (List Char)
  | '\n' :: rest => some rest
  | '\r' :: '\n' :: rest => some rest
  | _ => none

/-- The text behind the end of a line, which blanks and a comment may precede. -/
def lineEnd? (cs : List Char) : Option (List Char) :=
  let cs :=
    match skipBlanks cs with
    | '#' :: rest => rest.dropWhile isTextChar
    | rest => rest
  if cs.isEmpty then some [] else newline? cs

/-- Passes over blanks, line breaks and comments, over `steps` lines at most. -/
def skipLines (cs : List Char) : Nat → List Char
  | 0 => cs
  | steps + 1 =>
    let cs := skipBlanks cs
    match cs with
    | '\n' :: _ | '\r' :: _ | '#' :: _ =>
      match lineEnd? cs with
      | some rest => skipLines rest steps
      | none => cs
    | _ => cs

/-- A character by its code point in `count` hexadecimal digits. -/
def codePoint (count : Nat) (cs : List Char) : Option (Char × List Char) := do
  let digits := cs.take count
  if digits.length = count then
    let n ← Text.Hex.number? 16 digits
    if n.isValidChar then some (Char.ofNat n, cs.drop count) else none
  else none

/-- What a backslash and the text behind it stand for. -/
def escape : List Char → Option (Char × List Char)
  | 'b' :: rest => some ('\x08', rest)
  | 't' :: rest => some ('\t', rest)
  | 'n' :: rest => some ('\n', rest)
  | 'f' :: rest => some ('\x0c', rest)
  | 'r' :: rest => some ('\r', rest)
  | '"' :: rest => some ('"', rest)
  | '\\' :: rest => some ('\\', rest)
  | 'u' :: rest => codePoint 4 rest
  | 'U' :: rest => codePoint 8 rest
  | _ => none

/-- The rest of a string on one line, up to the quotation mark that ends it. -/
def basicRest (cs : List Char) : Nat → Option (List Char × List Char)
  | 0 => none
  | steps + 1 =>
    match cs with
    | '"' :: rest => some ([], rest)
    | '\\' :: rest => do
      let (c, rest) ← escape rest
      let (s, rest) ← basicRest rest steps
      some (c :: s, rest)
    | c :: rest =>
      if isTextChar c then do
        let (s, rest) ← basicRest rest steps
        some (c :: s, rest)
      else none
    | [] => none

/-- The rest of a string without escapes on one line. -/
def literalRest (cs : List Char) : Option (List Char × List Char) :=
  let text := cs.takeWhile fun c ↦ isTextChar c && c ≠ '\''
  match cs.drop text.length with
  | '\'' :: rest => some (text, rest)
  | _ => none

/-- The marks that end a string of several lines, with up to two more that belong to it. -/
def closing? (mark : Char) (cs : List Char) : Option (List Char × List Char) :=
  let marks := (cs.takeWhile (· = mark)).length
  if marks < 3 then none
  else
    let inside := min (marks - 3) 2
    some (List.replicate inside mark, cs.drop (inside + 3))

/-- The text behind a backslash at the end of a line and behind all blanks and line breaks that
follow it. -/
def continuation? (cs : List Char) : Option (List Char) :=
  (newline? (skipBlanks cs)).map fun rest ↦
    rest.dropWhile fun c ↦ isBlank c || c = '\n' || c = '\r'

/-- The rest of a string of several lines, with escapes or without. -/
def longRest (mark : Char) (escapes : Bool) (cs : List Char) : Nat → Option (List Char × List Char)
  | 0 => none
  | steps + 1 =>
    match closing? mark cs with
    | some closed => some closed
    | none =>
      match newline? cs with
      | some rest => do
        let (s, rest) ← longRest mark escapes rest steps
        some ('\n' :: s, rest)
      | none =>
        match cs with
        | [] => none
        | c :: rest =>
          if c = '\\' && escapes then
            match continuation? rest with
            | some rest => longRest mark escapes rest steps
            | none => do
              let (c, rest) ← escape rest
              let (s, rest) ← longRest mark escapes rest steps
              some (c :: s, rest)
          else if isTextChar c then do
            let (s, rest) ← longRest mark escapes rest steps
            some (c :: s, rest)
          else none

/-- A string of any of the four kinds. A line break right after three marks is not part of it. -/
def string (cs : List Char) : Option (String × List Char) :=
  let start (cs : List Char) := (newline? cs).getD cs
  let scanned :=
    match cs with
    | '"' :: '"' :: '"' :: rest => longRest '"' true (start rest) (rest.length + 1)
    | '\'' :: '\'' :: '\'' :: rest => longRest '\'' false (start rest) (rest.length + 1)
    | '"' :: rest => basicRest rest (rest.length + 1)
    | '\'' :: rest => literalRest rest
    | _ => none
  scanned.map fun (s, rest) ↦ (String.ofList s, rest)

def isBareKeyChar (c : Char) : Bool :=
  c.isAlphanum || c = '_' || c = '-'

/-- One part of a key: bare, or a string on one line. -/
def simpleKey (cs : List Char) : Option (String × List Char) :=
  match cs with
  | '"' :: rest => (basicRest rest (rest.length + 1)).map fun (s, rest) ↦ (String.ofList s, rest)
  | '\'' :: rest => (literalRest rest).map fun (s, rest) ↦ (String.ofList s, rest)
  | _ =>
    let key := cs.takeWhile isBareKeyChar
    if key.isEmpty then none else some (String.ofList key, cs.drop key.length)

/-- The parts of a key, dots between them, with the blanks around each. -/
def keyParts (cs : List Char) : Nat → Option (List String × List Char)
  | 0 => none
  | steps + 1 => do
    let (part, rest) ← simpleKey (skipBlanks cs)
    match skipBlanks rest with
    | '.' :: rest =>
      let (parts, rest) ← keyParts rest steps
      some (part :: parts, rest)
    | rest => some ([part], rest)

def key (cs : List Char) : Option (List String × List Char) :=
  keyParts cs (cs.length + 1)

/-- Drops the underscores of a number, which has a digit at least; each must stand between two. -/
def joinDigits? : List Char → Option (List Char)
  | [] => none
  | [c] => if c = '_' then none else some [c]
  | c :: '_' :: rest => if c = '_' then none else (joinDigits? rest).map (c :: ·)
  | c :: rest => if c = '_' then none else (joinDigits? rest).map (c :: ·)

/-- An integer without its sign: decimal without leading zeros, or in base 16, 8 or 2. -/
def magnitude? (signed : Bool) (cs : List Char) : Option Nat :=
  match cs with
  | '0' :: 'x' :: digits => if signed then none else joinDigits? digits >>= Text.Hex.number? 16
  | '0' :: 'o' :: digits => if signed then none else joinDigits? digits >>= Text.Hex.number? 8
  | '0' :: 'b' :: digits => if signed then none else joinDigits? digits >>= Text.Hex.number? 2
  | ['0'] => some 0
  | '0' :: _ => none
  | digits => joinDigits? digits >>= Text.Hex.number? 10

/-- An integer of 64 bits. -/
def integer? (word : List Char) : Option Int := do
  let i ← match word with
    | '-' :: digits => (magnitude? true digits).map fun n ↦ -(n : Int)
    | '+' :: digits => (magnitude? true digits).map fun n ↦ (n : Int)
    | digits => (magnitude? false digits).map fun n ↦ (n : Int)
  if Int64.minValue.toInt ≤ i && i ≤ Int64.maxValue.toInt then some i else none

/-- Characters of numbers and names of values. -/
def isWordChar (c : Char) : Bool :=
  c.isAlphanum || c = '_' || c = '-' || c = '+' || c = '.' || c = ':'

end JoinIndex.Toml.Scan
