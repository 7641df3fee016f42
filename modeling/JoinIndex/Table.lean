import JoinIndex.Key.Context
import JoinIndex.Probe
import JoinIndex.Stats

/-!
The table: an array of buckets and an arena for the rows that share one. A table never grows by
itself; a new key finds no place in a full one.
-/

set_option autoImplicit false

namespace JoinIndex

/-- Buckets and arena, with the number of filled buckets, of rows, and of buckets with a chain. -/
structure Table where
  probing : ProbingMode
  storage : StorageMode
  buckets : Array Bucket
  arena : Arena
  filled : Nat
  entries : Nat
  overflowing : Nat
  /-- Some row was marked as matched. -/
  hasMatches : Bool
  counts : ProbeCounts
  resizes : Nat

/-- What an operation that may charge a budget leaves behind. -/
structure Outcome (α : Type) where
  answer : α
  table : Table
  budget : Budget

/-- Whether the key evaluated last is the key of a stored row. A row that cannot be found has no
key. -/
def KeyContext.holds (ctx : KeyContext) (rows : RowStore) (ref : RowRef) : Bool :=
  (ref.resolve rows).any ctx.equals

namespace Table

def bucketBytes (buckets : Nat) : Nat :=
  buckets * Bucket.byteSize

/-- The largest share of filled buckets that growing aims at: three quarters. -/
def maxFill : Binary64 := Binary64.ofRatio 3 4

/-- Whether at most three quarters of the buckets are filled. -/
def withinFill (filled buckets : Nat) : Bool :=
  4 * filled ≤ 3 * buckets

/-- A table without rows. -/
def empty (probing : ProbingMode) (storage : StorageMode) (buckets : Nat) : Table where
  probing := probing
  storage := storage
  buckets := Array.replicate buckets .empty
  arena := Arena.empty
  filled := 0
  entries := 0
  overflowing := 0
  hasMatches := false
  counts := ProbeCounts.zero
  resizes := 0

instance : Inhabited Table := ⟨empty .linear .direct 1⟩

/-- A table for a configuration that is valid, if the budget grants its buckets. -/
def create (config : Config) (budget : Budget) : Except Error Table × Budget :=
  match config.validate with
  | .error e => (.error e, budget)
  | .ok () =>
    let bytes := bucketBytes config.startBuckets
    if budget.admits bytes then
      (.ok (empty config.probing config.storage config.startBuckets), budget.charge bytes)
    else (.error (.memoryLimit bytes budget.remaining), budget.refuse)

/-- A table that holds its rows itself. -/
def new (config : Config) (budget : Budget) : Except Error Table × Budget :=
  if config.storage = .direct then create config budget
  else (.error (.config .rowStoreMissing), budget)

/-- A table that holds indices into a row store. -/
def withRowStore (config : Config) (budget : Budget) : Except Error Table × Budget :=
  if config.storage = .indexed then create config budget
  else (.error (.config .rowStoreUnused), budget)

/-- Buckets that hold `rows` different keys at three quarters, the fewest possible. The count of
rows times four stops at the largest 64-bit word. -/
def estimateBuckets (rows : Nat) : Nat :=
  PowerOfTwo.ceil (max ((min (4 * rows) (Budget.wordRange - 1) + 2) / 3) 1)

/-- An upper bound on the bytes of a table with `rows` rows. -/
def estimateSize (rows : Nat) : Except Fault Nat := do
  let buckets := bucketBytes (estimateBuckets rows)
  if Budget.wordRange ≤ buckets then throw .productOverflow
  let nodes ← Arena.pageBytes rows
  if Budget.wordRange ≤ buckets + nodes then throw .sumOverflow
  return buckets + nodes

def numBuckets (t : Table) : Nat := t.buckets.size

def emptyBuckets (t : Table) : Nat := t.buckets.size - t.filled

def isEmpty (t : Table) : Bool := t.entries = 0

/-- Bytes that the table has charged. -/
def byteSize (t : Table) : Nat :=
  bucketBytes t.buckets.size + t.arena.byteSize

def loadFactor (t : Table) : Binary64 :=
  Binary64.quotient t.filled t.buckets.size

def stats (t : Table) : Stats where
  buckets := t.buckets.size
  filled := t.filled
  entries := t.entries
  overflowing := t.overflowing
  nodes := t.arena.numNodes
  probes := t.counts.probes
  collisions := t.counts.collisions
  travel := t.counts.travel
  resizes := t.resizes
  bytes := t.byteSize

def text (t : Table) : String :=
  s!"HashTable \x7b num_buckets: {t.buckets.size}, num_entries: {t.entries}, " ++
    s!"probing_mode: {t.probing.text}, storage_mode: {t.storage.text}, " ++
    s!"has_matches: {t.hasMatches} \x7d"

/-- Searches for the bucket with this hash whose first row `isKey` accepts, and counts the
search. -/
def probe (t : Table) (isKey : RowRef → Bool) (hash : UInt32) : ProbeResult × Table :=
  let p := Probe.run t.probing t.buckets hash fun b ↦ (b.firstRow? t.arena).any isKey
  (p.result, { t with counts := t.counts.add p })

/-- Puts the first row of a key into an empty bucket. -/
def fill (t : Table) (bucket : Nat) (hash : UInt32) (row : RowRef) : Table :=
  { t with
    buckets := t.buckets.setIfInBounds bucket (.inline hash false row)
    filled := t.filled + 1
    entries := t.entries + 1 }

/-- Puts another row of a key in front of the rows in its bucket. The row of a bucket without a
chain moves into one first, which takes two nodes at once, so that a refusal changes nothing. -/
def addDuplicate (t : Table) (budget : Budget) (bucket : Nat) (row : RowRef) : Outcome Bool :=
  match t.buckets.getD bucket .empty with
  | .empty => ⟨false, t, budget⟩
  | .inline hash matched first =>
    match t.arena.ensure budget 2 with
    | (false, arena, budget) => ⟨false, { t with arena }, budget⟩
    | (true, arena, budget) =>
      let tail := arena.nextIndex
      let arena := arena.push ⟨first, matched, none⟩
      let head := arena.nextIndex
      let arena := arena.push ⟨row, false, some tail⟩
      ⟨true,
        { t with
          buckets := t.buckets.setIfInBounds bucket (.chain hash head)
          arena
          entries := t.entries + 1
          overflowing := t.overflowing + 1 },
        budget⟩
  | .chain hash next =>
    match t.arena.ensure budget 1 with
    | (false, arena, budget) => ⟨false, { t with arena }, budget⟩
    | (true, arena, budget) =>
      let head := arena.nextIndex
      ⟨true,
        { t with
          buckets := t.buckets.setIfInBounds bucket (.chain hash head)
          arena := arena.push ⟨row, false, some next⟩
          entries := t.entries + 1 },
        budget⟩

/-- Stores a row under the hash of its key, which is the key evaluated last. Answers false, with
the rows as they were, when the reference is not of the table's kind, when a new key finds no
empty bucket, or when the budget refuses a page of nodes. -/
def insert (t : Table) (budget : Budget) (rows : RowStore) (ctx : KeyContext) (row : RowRef)
    (hash : UInt32) : Outcome Bool :=
  if row.storage = t.storage then
    match t.probe (ctx.holds rows) hash with
    | (.vacant bucket, t) => ⟨true, t.fill bucket hash row, budget⟩
    | (.found bucket, t) => t.addDuplicate budget bucket row
    | (.exhausted, t) => ⟨false, t, budget⟩
  else ⟨false, t, budget⟩

/-- Moves every filled bucket into an array of `size` empty ones; none if one finds no place. -/
def relocate (probing : ProbingMode) (buckets : Array Bucket) (size : Nat) :
    Option (Array Bucket) :=
  buckets.foldlM place (Array.replicate size .empty)
where
  place (moved : Array Bucket) (b : Bucket) : Option (Array Bucket) :=
    match b.hash? with
    | none => some moved
    | some hash =>
      match (Probe.run probing moved hash fun _ ↦ false).result with
      | .vacant i => some (moved.setIfInBounds i b)
      | _ => none

/-- Moves the rows into `size` buckets, with their chains and marks. The new buckets are charged
before the old ones are given back. -/
def resize (t : Table) (budget : Budget) (size : Nat) :
    Except Fault (Outcome (Except Error Unit)) :=
  if ¬PowerOfTwo.IsPower size ∨ Config.maxBuckets < size then
    .ok ⟨.error (.capacity (.notPowerOfTwo size Config.maxBuckets)), t, budget⟩
  else if !withinFill t.filled size then
    .ok ⟨.error (.capacity (.tooManyFilled t.filled size)), t, budget⟩
  else if budget.admits (bucketBytes size) then
    let charged := budget.charge (bucketBytes size)
    match relocate t.probing t.buckets size with
    | none => do
      let budget ← charged.release (bucketBytes size)
      return ⟨.error (.internal .noEmptyBucketLeft), t, budget⟩
    | some buckets => do
      let budget ← charged.release (bucketBytes t.buckets.size)
      return ⟨.ok (), { t with buckets, resizes := t.resizes + 1 }, budget⟩
  else
    .ok ⟨.error (.memoryLimit (bucketBytes size) budget.remaining), t, budget.refuse⟩

/-- The first of `size`, `2 * size`, ... that has room for `filled` buckets, after `doublings`
doublings at most. -/
def roomyCount? (filled size : Nat) : Nat → Option Nat
  | 0 => if withinFill filled size then some size else none
  | doublings + 1 =>
    if withinFill filled size then some size else roomyCount? filled (2 * size) doublings

/-- Sees to it that `more` buckets can be filled within three quarters, doubling the bucket count
as often as needed. -/
def makeRoom (t : Table) (budget : Budget) (more : Nat) :
    Except Fault (Outcome (Except Error Unit)) :=
  let needed := min (t.filled + more) (Budget.wordRange - 1)
  match roomyCount? needed t.buckets.size (Config.maxBuckets.log2 - t.buckets.size.log2) with
  | none => .ok ⟨.error (.capacity (.beyondLargest needed Config.maxBuckets)), t, budget⟩
  | some size =>
    if size = t.buckets.size then .ok ⟨.ok (), t, budget⟩ else t.resize budget size

/-- Removes all rows and gives their nodes back. The buckets stay. -/
def clear (t : Table) (budget : Budget) : Except Fault (Table × Budget) := do
  let (arena, budget) ← t.arena.release budget
  return ({ t with
    buckets := Array.replicate t.buckets.size .empty
    arena
    filled := 0
    entries := 0
    overflowing := 0
    hasMatches := false }, budget)

/-- Gives back all that the table has charged. -/
def close (t : Table) (budget : Budget) : Except Fault Budget := do
  let budget ← budget.release (bucketBytes t.buckets.size)
  budget.release t.arena.byteSize

end Table

end JoinIndex
