/-!
Errors: refusals that a caller is expected to handle, by their cause, with their wording in
`Error.message`.
-/

set_option autoImplicit false

namespace JoinIndex

/-- Why a bucket count cannot be used. -/
inductive CapacityCause where
  | notPowerOfTwo (count largest : Nat)
  | tooManyFilled (filled count : Nat)
  | beyondLargest (filled largest : Nat)
  /-- A cause given in the caller's own words. -/
  | stated (text : String)
  deriving DecidableEq, Repr

/-- Why a configuration cannot be used. -/
inductive ConfigCause where
  | noKeyExpressions
  | keyCountsDiffer (build probe : Nat)
  | findsUnstoredNulls
  | noLevels
  | tooManyBuckets (count largest : Nat)
  | buildKeysExpected (expected given : Nat)
  | probeKeysExpected (expected given : Nat)
  | rowStoreMissing
  | rowStoreUnused
  /-- A cause given in the caller's own words. -/
  | stated (text : String)
  deriving DecidableEq, Repr

/-- What went wrong inside an operation that should have succeeded. -/
inductive InternalCause where
  | rowPageOverflow
  | noEmptyBucketLeft
  /-- A cause given in the caller's own words. -/
  | stated (text : String)
  deriving DecidableEq, Repr

inductive Error where
  /-- A request of `requested` bytes met a budget with `remaining` bytes to spare. -/
  | memoryLimit (requested remaining : Nat)
  | capacity (cause : CapacityCause)
  | config (cause : ConfigCause)
  | internal (cause : InternalCause)
  deriving DecidableEq, Repr

namespace CapacityCause

def message : CapacityCause → String
  | notPowerOfTwo count largest =>
    s!"bucket count {count} is not a power of two no larger than {largest}"
  | tooManyFilled filled count => s!"{filled} filled buckets do not fit in {count} buckets"
  | beyondLargest filled largest =>
    s!"{filled} filled buckets exceed the largest table of {largest} buckets"
  | stated text => text

end CapacityCause

namespace ConfigCause

def message : ConfigCause → String
  | noKeyExpressions => "at least one key expression is required"
  | keyCountsDiffer build probe =>
    s!"build side has {build} key expressions but probe side has {probe}"
  | findsUnstoredNulls => "finds_nulls requires stores_nulls"
  | noLevels => "num_levels must be at least 1"
  | tooManyBuckets count largest =>
    s!"initial_num_buckets {count} exceeds the maximum of {largest}"
  | buildKeysExpected expected given =>
    s!"expected {expected} build key expressions, got {given}"
  | probeKeysExpected expected given =>
    s!"expected {expected} probe key expressions, got {given}"
  | rowStoreMissing => "indexed storage requires a row store; use HashTable::with_row_store"
  | rowStoreUnused => "a row store can only back a table with indexed storage"
  | stated text => text

end ConfigCause

namespace InternalCause

def message : InternalCause → String
  | rowPageOverflow => "row store page overflow"
  | noEmptyBucketLeft => "no empty bucket left while resizing"
  | stated text => text

end InternalCause

namespace Error

def message : Error → String
  | memoryLimit requested remaining =>
    s!"Memory limit exceeded: requested {requested} bytes, {remaining} bytes remaining"
  | capacity cause => "Invalid capacity: " ++ cause.message
  | config cause => "Invalid configuration: " ++ cause.message
  | internal cause => "Internal error: " ++ cause.message

/-- Holds of refusals by a budget: the caller may free memory and try again. -/
def isMemoryLimit : Error → Bool
  | memoryLimit _ _ => true
  | _ => false

end Error

end JoinIndex
