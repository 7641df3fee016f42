import JoinIndex.Binary64.Text
import JoinIndex.Text.Utf8
import JoinIndex.Value

/-!
The text a value is shown as.
-/

set_option autoImplicit false

namespace JoinIndex.Value

def text : Value → String
  | null => "NULL"
  | bool b => if b then "true" else "false"
  | int64 i => toString i.toInt
  | float64 x => x.shortestText
  | numeric x => x.text
  | string s => s
  | bytes data => "b\"" ++ Text.Utf8.decodeLossy data ++ "\""
  | date d => d.text
  | dateTime m => m.text
  | timestamp m => m.text ++ " UTC"

end JoinIndex.Value
