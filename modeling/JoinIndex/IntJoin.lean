import JoinIndex.Cursor

/-!
Joins on an integer key: rows of a key and a payload are stored in a table of their own, which is
then resized, probed for keys and read through.
-/

set_option autoImplicit false

namespace JoinIndex.IntJoin

/-- A key, or null. -/
abbrev Key := Option Int64

def keyValue : Key → Value
  | none => .null
  | some i => .int64 i

def buildRow (key : Key) (payload : Int64) : Row :=
  ⟨[keyValue key, .int64 payload]⟩

def probeRow (key : Key) : Row :=
  ⟨[keyValue key]⟩

/-- The key is the first column on both sides. -/
def keyExprs : List KeyExpr :=
  [.column 0 .int64]

/-- A table that is being filled, and the number of rows shared with it. -/
structure State where
  table : Table
  budget : Budget
  context : KeyContext
  numShared : Nat

/-- The table holds its rows itself, so that no row is ever looked up here. -/
def noRows : RowStore := RowStore.new 1

/-- Makes room for one more bucket, if there is room to be had. -/
def makeRoom (s : State) : Except Fault State := do
  let o ← s.table.makeRoom s.budget 1
  return { s with table := o.table, budget := o.budget }

/-- Stores a row. Answers none if its key is null and nulls are not stored. -/
def insert (s : State) (key : Key) (payload : Int64) : Option Bool × State :=
  let row := buildRow key payload
  match s.context.evaluateBuild row with
  | (context, none) => (none, { s with context })
  | (context, some hash) =>
    let shared : SharedRow := ⟨s.numShared, row⟩
    let o := s.table.insert s.budget noRows context (.direct shared) hash
    (some o.answer, ⟨o.table, o.budget, context, s.numShared + 1⟩)

def insertAll (s : State) (grows : Bool) :
    List (Key × Int64) → Except Fault (List (Option Bool) × State)
  | [] => .ok ([], s)
  | (key, payload) :: rest => do
    let s ← if grows then makeRoom s else .ok s
    let (stored, s) := insert s key payload
    let (answers, s) ← insertAll s grows rest
    return (stored :: answers, s)

/-- Resizes to each count in turn, whether or not the one before was granted. Answers the bucket
count reached. -/
def resizeAll (s : State) : List Nat → Except Fault (List (Except Error Nat) × State)
  | [] => .ok ([], s)
  | size :: rest => do
    let o ← s.table.resize s.budget size
    let s := { s with table := o.table, budget := o.budget }
    let (answers, s) ← resizeAll s rest
    return (o.answer.map (fun _ ↦ o.table.numBuckets) :: answers, s)

def payload? (t : Table) (c : Cursor) : Option Int64 :=
  (c.row? t noRows).bind fun row ↦ (row.get? 1).bind Value.toInt64?

/-- The payloads of the rows with a key, the row stored last coming first. -/
def probe (s : State) (key : Key) : List Int64 × State :=
  match s.context.evaluateProbe (probeRow key) with
  | (context, none) => ([], { s with context })
  | (context, some hash) =>
    let (cursor, table) := s.table.find noRows context hash
    ((cursor.positions table .duplicate).filterMap (payload? table), { s with table, context })

def probeAll (s : State) : List Key → List (List Int64) × State
  | [] => ([], s)
  | key :: rest =>
    let (payloads, s) := probe s key
    let (answers, s) := probeAll s rest
    (payloads :: answers, s)

/-- Payloads by key. -/
abbrev Groups := List (Value × List Int64)

/-- Adds a payload behind the others of its key. -/
def Groups.add : Groups → Value → Int64 → Groups
  | [], key, payload => [(key, [payload])]
  | (k, payloads) :: rest, key, payload =>
    if k.same key then (k, payloads ++ [payload]) :: rest
    else (k, payloads) :: Groups.add rest key payload

/-- The payloads of all rows by their key, in the order in which the rows are met. -/
def scan (s : State) : Groups :=
  (s.table.first.positions s.table .next).foldl visit []
where
  visit (groups : Groups) (c : Cursor) : Groups :=
    match c.row? s.table noRows with
    | none => groups
    | some row =>
      groups.add ((row.get? 0).getD .null) (((row.get? 1).bind Value.toInt64?).getD 0)

/-- Null before the integers, these by size. -/
def keyLe (a b : Value × List Int64) : Bool :=
  match a.1.toInt64?, b.1.toInt64? with
  | none, _ => true
  | some _, none => false
  | some i, some j => i ≤ j

/-- Why there is no join to speak of. -/
inductive Failure where
  | noTable (cause : Error)
  | noContext (config : Config) (cause : Error)
  | fault (cause : Fault)

def Failure.message : Failure → String
  | noTable cause => "failed to create table: " ++ cause.message
  | noContext config cause => s!"invalid test config {config.text}: {cause.message}"
  | fault cause => cause.message

structure Report where
  inserts : List (Option Bool)
  resizes : List (Except Error Nat)
  probes : List (List Int64)
  scan : Groups
  stats : Stats

def start (config : Config) : Except Failure State :=
  match Table.new config (Budget.unlimited "test") with
  | (.error e, _) => .error (.noTable e)
  | (.ok table, budget) =>
    match KeyContext.create config keyExprs keyExprs with
    | .error f => .error (.fault f)
    | .ok (.error e) => .error (.noContext config e)
    | .ok (.ok context) => .ok ⟨table, budget, context, 0⟩

/-- Stores the rows, making room before each if `grows`, then resizes, probes and reads. -/
def run (config : Config) (grows : Bool) (rows : List (Key × Int64)) (resizes : List Nat)
    (probes : List Key) : Except Failure Report := do
  let s ← start config
  let (inserts, s) ← (insertAll s grows rows).mapError .fault
  let (resizes, s) ← (resizeAll s resizes).mapError .fault
  let (probes, s) := probeAll s probes
  return ⟨inserts, resizes, probes, (scan s).mergeSort keyLe, s.table.stats⟩

end JoinIndex.IntJoin
