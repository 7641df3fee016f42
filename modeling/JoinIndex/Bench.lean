import JoinIndex.Cursor

/-!
A table at work with a key context, a budget and a row store: rows are evaluated, stored and
looked for, one by one or in a series.
-/

set_option autoImplicit false

namespace JoinIndex

/-- What tables at work share. -/
structure Supply where
  budget : Budget
  rows : RowStore
  /-- The rows of the store are charged to the budget. -/
  paysForRows : Bool
  /-- The rows shared so far, the place of each being its `id`. -/
  shared : Array SharedRow

/-- Appends a row to the store. -/
def Supply.append (s : Supply) (row : Row) : Except Error RowIndex × Supply :=
  if s.paysForRows then
    let a := s.rows.append (some s.budget) row
    (a.index, { s with rows := a.store, budget := a.payer.getD s.budget })
  else
    let a := s.rows.append none row
    (a.index, { s with rows := a.store })

structure Bench extends Supply where
  table : Table
  context : KeyContext

namespace Bench

/-- The row to be stored: one that is not shared yet, or a shared one again. -/
inductive Source where
  | fresh (row : Row)
  | again (shared : SharedRow)

def Source.row : Source → Row
  | fresh row => row
  | again shared => shared.row

/-- How the row is referred to: by an index that is given, or in one of the two kinds. -/
inductive Target where
  | at (index : RowIndex)
  | by (storage : StorageMode)

structure Request where
  source : Source
  /-- The key of the row is evaluated first. -/
  evaluates : Bool
  /-- Stored under this hash instead of the one evaluated. -/
  hash? : Option UInt32
  /-- Room for one more bucket is made first. -/
  grows : Bool
  /-- In the kind of the table if nothing is said. -/
  target? : Option Target

/-- Evaluates the build key of a row. -/
def evaluateBuild (b : Bench) (row : Row) : Option UInt32 × Bench :=
  let (context, hash?) := b.context.evaluateBuild row
  (hash?, { b with context })

/-- Evaluates the probe key of a row. -/
def evaluateProbe (b : Bench) (row : Row) : Option UInt32 × Bench :=
  let (context, hash?) := b.context.evaluateProbe row
  (hash?, { b with context })

def makeRoom (b : Bench) (more : Nat) : Except Fault (Except Error Unit × Bench) := do
  let o ← b.table.makeRoom b.budget more
  return (o.answer, { b with table := o.table, budget := o.budget })

/-- Shares a row that is not shared yet. -/
def share (b : Bench) : Source → SharedRow × Bench
  | .again shared => (shared, b)
  | .fresh row =>
    let shared : SharedRow := ⟨b.shared.size, row⟩
    (shared, { b with shared := b.shared.push shared })

/-- Makes the reference under which the row will be stored. -/
def refer (b : Bench) (source : Source) : Target → Except Error RowRef × Bench
  | .at index => (.ok (.indexed index), b)
  | .by .direct =>
    let (shared, b) := b.share source
    (.ok (.direct shared), b)
  | .by .indexed =>
    match b.toSupply.append source.row with
    | (.ok index, supply) => (.ok (.indexed index), { b with toSupply := supply })
    | (.error e, supply) => (.error e, { b with toSupply := supply })

def insertRef (b : Bench) (ref : RowRef) (hash : UInt32) : Bool × Bench :=
  let o := b.table.insert b.budget b.rows b.context ref hash
  (o.answer, { b with table := o.table, budget := o.budget })

/-- Stores a row: evaluates its key, makes room, makes a reference and inserts it. Answers none if
there is no hash to store the row under. -/
def insert (b : Bench) (r : Request) : Except Fault (Except Error (Option Bool) × Bench) :=
  let (evaluated?, b) := if r.evaluates then b.evaluateBuild r.source.row else (none, b)
  match r.hash?.or evaluated? with
  | none => .ok (.ok none, b)
  | some hash => do
    let (room, b) ← if r.grows then b.makeRoom 1 else .ok (.ok (), b)
    match room with
    | .error e => return (.error e, b)
    | .ok () =>
      match b.refer r.source (r.target?.getD (.by b.table.storage)) with
      | (.error e, b) => return (.error e, b)
      | (.ok ref, b) =>
        let (stored, b) := b.insertRef ref hash
        return (.ok (some stored), b)

/-- Keys that rise by equal steps, wound around `modulus` if it is given. -/
structure Series where
  start : Int
  step : Int
  modulus? : Option Int
  count : Nat

def Series.key (s : Series) (i : Nat) : Value :=
  let key := s.start + i * s.step
  .int64 (Int64.ofInt (match s.modulus? with
    | some modulus => key.fmod modulus
    | none => key))

/-- How a series of rows was taken in, up to the first error. -/
structure Tally where
  stored : Nat
  failed : Nat
  firstFailed? : Option Nat
  stopped? : Option (Nat × Error)

def Tally.zero : Tally := ⟨0, 0, none, none⟩

def Tally.store (t : Tally) : Tally :=
  { t with stored := t.stored + 1 }

def Tally.fail (t : Tally) (i : Nat) : Tally :=
  { t with failed := t.failed + 1, firstFailed? := t.firstFailed?.or (some i) }

/-- Stores a row of a key and a payload for each key of a series, the payloads rising from
`base`. -/
def insertSeries (b : Bench) (s : Series) (base : Int) (hash? : Option UInt32) (grows : Bool) :
    Except Fault (Tally × Bench) :=
  go b Tally.zero 0 s.count
where
  go (b : Bench) (tally : Tally) (i : Nat) : Nat → Except Fault (Tally × Bench)
    | 0 => .ok (tally, b)
    | left + 1 => do
      let row : Row := ⟨[s.key i, .int64 (Int64.ofInt (base + i))]⟩
      match ← b.insert ⟨.fresh row, true, hash?, grows, none⟩ with
      | (.ok (some true), b) => go b tally.store (i + 1) left
      | (.ok _, b) => go b (tally.fail i) (i + 1) left
      | (.error e, b) => return ({ tally with stopped? := some (i, e) }, b)

/-- On the rows of the key evaluated last. -/
def find (b : Bench) (hash : UInt32) : Cursor × Bench :=
  let (cursor, table) := b.table.find b.rows b.context hash
  (cursor, { b with table })

/-- For each key of a series, the number of its rows and the payload of the first. -/
def findSeries (b : Bench) (s : Series) (hash? : Option UInt32) :
    List (Nat × Option Int64) × Bench :=
  go b [] 0 s.count
where
  go (b : Bench) (found : List (Nat × Option Int64)) (i : Nat) :
      Nat → List (Nat × Option Int64) × Bench
    | 0 => (found.reverse, b)
    | left + 1 =>
      let (evaluated?, b) := b.evaluateProbe ⟨[s.key i]⟩
      match hash?.or evaluated? with
      | none => go b ((0, none) :: found) (i + 1) left
      | some hash =>
        let (cursor, b) := b.find hash
        let count := (cursor.positions b.table .duplicate).length
        let payload := (cursor.row? b.table b.rows).bind fun row ↦
          (row.get? 1).bind Value.toInt64?
        go b ((count, payload) :: found) (i + 1) left

/-- Evaluates the probe key of a row, if one is given; answers the given hash or the evaluated
one. -/
def probeHash (b : Bench) (row? : Option Row) (hash? : Option UInt32) : Option UInt32 × Bench :=
  match row? with
  | none => (hash?, b)
  | some row =>
    let (evaluated?, b) := b.evaluateProbe row
    (hash?.or evaluated?, b)

/-- Searches for the bucket of the key evaluated last. -/
def probe (b : Bench) (hash : UInt32) : ProbeResult × Bench :=
  let (result, table) := b.table.probe (b.context.holds b.rows) hash
  (result, { b with table })

/-- Searches with no key at all, so that no bucket is the one. -/
def probeRaw (b : Bench) (hash : UInt32) : ProbeResult × Bench :=
  let (result, table) := b.table.probe (fun _ ↦ false) hash
  (result, { b with table })

end Bench

end JoinIndex
