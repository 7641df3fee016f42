import JoinIndex.Binary64
import JoinIndex.Calendar
import JoinIndex.Numeric

/-!
Values of columns and keys. Values of different types are never the same, numbers of one type are
the same when they are equal as numbers, and null is the same as null.
-/

set_option autoImplicit false

namespace JoinIndex

inductive ValueType where
  | unknown | bool | int64 | float64 | numeric | string | bytes | date | dateTime | timestamp
  deriving DecidableEq, Repr

namespace ValueType

def text : ValueType → String
  | unknown => "UNKNOWN"
  | bool => "BOOL"
  | int64 => "INT64"
  | float64 => "FLOAT64"
  | numeric => "NUMERIC"
  | string => "STRING"
  | bytes => "BYTES"
  | date => "DATE"
  | dateTime => "DATETIME"
  | timestamp => "TIMESTAMP"

end ValueType

inductive Value where
  | null
  | bool (b : Bool)
  | int64 (i : Int64)
  | float64 (x : Binary64)
  | numeric (x : Numeric)
  | string (s : String)
  | bytes (data : List UInt8)
  | date (d : Date)
  | dateTime (m : Moment)
  /-- A moment of universal time. -/
  | timestamp (m : Moment)
  deriving DecidableEq

namespace Value

instance : Inhabited Value := ⟨null⟩

def type : Value → ValueType
  | null => .unknown
  | bool _ => .bool
  | int64 _ => .int64
  | float64 _ => .float64
  | numeric _ => .numeric
  | string _ => .string
  | bytes _ => .bytes
  | date _ => .date
  | dateTime _ => .dateTime
  | timestamp _ => .timestamp

def isNull : Value → Bool
  | null => true
  | _ => false

def toBool? : Value → Option Bool
  | bool b => some b
  | _ => none

def toInt64? : Value → Option Int64
  | int64 i => some i
  | _ => none

/-- Integers are read as the nearest binary64 number. -/
def toBinary64? : Value → Option Binary64
  | float64 x => some x
  | int64 i => some (Binary64.ofInt i.toInt)
  | _ => none

def toString? : Value → Option String
  | string s => some s
  | _ => none

def toBytes? : Value → Option (List UInt8)
  | bytes data => some data
  | _ => none

/-- The equality that keys are compared by. -/
def same : Value → Value → Bool
  | null, null => true
  | bool a, bool b => a == b
  | int64 a, int64 b => a == b
  | float64 a, float64 b => a.same b
  | numeric a, numeric b => a.same b
  | string a, string b => a == b
  | bytes a, bytes b => a == b
  | date a, date b => a == b
  | dateTime a, dateTime b => a == b
  | timestamp a, timestamp b => a == b
  | _, _ => false

/-- Bytes of one value without what it owns elsewhere. -/
def cellBytes : Nat := 32

/-- Bytes that a value takes, text and byte strings counted at their length. -/
def byteSize : Value → Nat
  | string s => cellBytes + s.utf8ByteSize
  | bytes data => cellBytes + data.length
  | _ => cellBytes

end Value

end JoinIndex
