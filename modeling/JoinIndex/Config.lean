import JoinIndex.Budget
import JoinIndex.Error
import JoinIndex.Hash
import JoinIndex.PowerOfTwo

/-!
The configuration of a table and of the key contexts that go with it.
-/

set_option autoImplicit false

namespace JoinIndex

/-- How the search for a bucket goes on: from one bucket to the next, or with steps that grow by
one each time. -/
inductive ProbingMode where
  | linear | quadratic
  deriving DecidableEq, Repr

/-- Whether a table holds rows themselves or indices into a row store. -/
inductive StorageMode where
  | direct | indexed
  deriving DecidableEq, Repr

def ProbingMode.text : ProbingMode → String
  | linear => "Linear"
  | quadratic => "Quadratic"

def StorageMode.text : StorageMode → String
  | direct => "Direct"
  | indexed => "Indexed"

/-- The name of a mode in documents. -/
def ProbingMode.name : ProbingMode → String
  | linear => "linear"
  | quadratic => "quadratic"

def ProbingMode.ofName? : String → Option ProbingMode
  | "linear" => some linear
  | "quadratic" => some quadratic
  | _ => none

/-- The name of a mode in documents. -/
def StorageMode.name : StorageMode → String
  | direct => "direct"
  | indexed => "indexed"

def StorageMode.ofName? : String → Option StorageMode
  | "direct" => some direct
  | "indexed" => some indexed
  | _ => none

structure Config where
  initialBuckets : Nat
  probing : ProbingMode
  storage : StorageMode
  /-- Build rows with a null in their key are kept. -/
  storesNulls : Bool
  /-- A null in the key of a probe may meet stored nulls. -/
  findsNulls : Bool
  buildKeys : Nat
  probeKeys : Nat
  levels : Nat
  initialSeed : UInt32
  memoryLimit : Option UInt64
  deriving DecidableEq

namespace Config

/-- The most buckets a table may have. -/
def maxBuckets : Nat := 1 <<< 30

/-- The settings that hold where nothing else is chosen. -/
def standard : Config where
  initialBuckets := 1024
  probing := .quadratic
  storage := .direct
  storesNulls := false
  findsNulls := false
  buildKeys := 1
  probeKeys := 1
  levels := 4
  initialSeed := 1
  memoryLimit := none

instance : Inhabited Config := ⟨standard⟩

def linear (buckets : Nat) : Config :=
  { standard with probing := .linear, initialBuckets := buckets }

def quadratic (buckets : Nat) : Config :=
  { standard with probing := .quadratic, initialBuckets := buckets }

/-- Both sides of a join with the same number of key expressions. -/
def withKeys (c : Config) (keys : Nat) : Config :=
  { c with buildKeys := keys, probeKeys := keys }

def withNulls (c : Config) (stores finds : Bool) : Config :=
  { c with storesNulls := stores, findsNulls := finds }

/-- The first reason for which the settings cannot go together. -/
def validate (c : Config) : Except Error Unit :=
  if c.buildKeys = 0 then .error (.config .noKeyExpressions)
  else if c.buildKeys ≠ c.probeKeys then
    .error (.config (.keyCountsDiffer c.buildKeys c.probeKeys))
  else if c.findsNulls && !c.storesNulls then .error (.config .findsUnstoredNulls)
  else if c.levels = 0 then .error (.config .noLevels)
  else if maxBuckets < c.initialBuckets then
    .error (.config (.tooManyBuckets c.initialBuckets maxBuckets))
  else .ok ()

/-- The bucket count a table starts with. -/
def startBuckets (c : Config) : Nat :=
  PowerOfTwo.ceil (max c.initialBuckets 1)

/-- The bucket count a table would start with, which has to fit a 64-bit word. -/
def effectiveBuckets (c : Config) : Except Fault Nat :=
  if c.startBuckets < Budget.wordRange then .ok c.startBuckets else .error .sumOverflow

def budget (c : Config) (label : String) : Budget :=
  Budget.new label c.memoryLimit

/-- The seeds of the levels, whether or not there is room for them. -/
def seeds (c : Config) : Hash.Seeds :=
  Hash.Seeds.new c.initialSeed c.levels

/-- Makes the seeds of the levels. -/
def createSeeds (c : Config) : Except Fault Hash.Seeds :=
  Hash.Seeds.create c.initialSeed c.levels

def text (c : Config) : String :=
  let limit :=
    match c.memoryLimit with
    | some limit => s!"Some({limit.toNat})"
    | none => "None"
  s!"HashTableConfig \x7b initial_num_buckets: {c.initialBuckets}, " ++
    s!"probing_mode: {c.probing.text}, storage_mode: {c.storage.text}, " ++
    s!"stores_nulls: {c.storesNulls}, finds_nulls: {c.findsNulls}, " ++
    s!"num_build_key_exprs: {c.buildKeys}, num_probe_key_exprs: {c.probeKeys}, " ++
    s!"num_levels: {c.levels}, initial_seed: {c.initialSeed.toNat}, " ++
    s!"mem_limit_bytes: {limit} \x7d"

end Config

end JoinIndex
