import JoinIndex.Bucket

/-!
The search for the bucket of a key. From the place that the hash names it visits buckets in an
order that the probing mode fixes, up to the key's bucket, to an empty one, or through the table.
-/

set_option autoImplicit false

namespace JoinIndex

/-- How far from its start a search is after `k` steps. -/
def ProbingMode.offset : ProbingMode → Nat → Nat
  | linear, k => k
  | quadratic, k => k * (k + 1) / 2

/-- The bucket that a search visits after `k` steps, of a table of `n` buckets. -/
def ProbingMode.slot (mode : ProbingMode) (n : Nat) (hash : UInt32) (k : Nat) : Nat :=
  (hash.toNat + mode.offset k) % n

inductive ProbeResult where
  /-- The bucket of the key. -/
  | found (bucket : Nat)
  /-- The empty bucket where the key would go. -/
  | vacant (bucket : Nat)
  /-- Every bucket was visited, and none was empty. -/
  | exhausted
  deriving DecidableEq, Repr

/-- A search: how it ended, how many buckets it passed, and how many of those had the same hash. -/
structure Probe where
  result : ProbeResult
  travel : Nat
  collisions : Nat
  deriving DecidableEq, Repr

namespace Probe

/-- Goes on after `travel` steps, with at most `left` more buckets to visit. -/
def walk (mode : ProbingMode) (buckets : Array Bucket) (hash : UInt32)
    (isMatch : Bucket → Bool) (travel collisions : Nat) : Nat → Probe
  | 0 => ⟨.exhausted, travel, collisions⟩
  | left + 1 =>
    let place := mode.slot buckets.size hash travel
    let bucket := buckets.getD place .empty
    match bucket.hash? with
    | none => ⟨.vacant place, travel, collisions⟩
    | some h =>
      if h = hash then
        if isMatch bucket then ⟨.found place, travel, collisions⟩
        else walk mode buckets hash isMatch (travel + 1) (collisions + 1) left
      else walk mode buckets hash isMatch (travel + 1) collisions left

/-- Searches for a bucket with this hash that `isMatch` accepts. -/
def run (mode : ProbingMode) (buckets : Array Bucket) (hash : UInt32)
    (isMatch : Bucket → Bool) : Probe :=
  walk mode buckets hash isMatch 0 0 buckets.size

end Probe

/-- Totals over the searches of a table. -/
structure ProbeCounts where
  probes : Nat
  collisions : Nat
  travel : Nat
  deriving DecidableEq, Repr

namespace ProbeCounts

def zero : ProbeCounts := ⟨0, 0, 0⟩

def add (c : ProbeCounts) (p : Probe) : ProbeCounts :=
  ⟨c.probes + 1, c.collisions + p.collisions, c.travel + p.travel⟩

end ProbeCounts

end JoinIndex
