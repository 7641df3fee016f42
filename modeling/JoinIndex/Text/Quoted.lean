import JoinIndex.Text.Invisible

/-!
Text between quotation marks, with escapes for what would end it or could not be seen.
-/

set_option autoImplicit false

namespace JoinIndex.Text.Quoted

/-- One character inside the quotes. Invisible characters without an escape of their own are
written by their code point in lower-case hexadecimal digits. -/
def escape (c : Char) : String :=
  if c = '\x00' then "\\0"
  else if c = '\t' then "\\t"
  else if c = '\n' then "\\n"
  else if c = '\r' then "\\r"
  else if c = '"' then "\\\""
  else if c = '\\' then "\\\\"
  else if Invisible.isInvisible c then
    "\\u\x7b" ++ String.ofList (Nat.toDigits 16 c.toNat) ++ "\x7d"
  else c.toString

def quote (s : String) : String :=
  "\"" ++ String.join (s.toList.map escape) ++ "\""

end JoinIndex.Text.Quoted
