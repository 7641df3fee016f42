import JoinIndex.Fault
import JoinIndex.Text.Quoted

/-!
Budgets of bytes that several owners charge. A request that would pass the limit is refused and
counted; a charge is given back by releasing it.
-/

set_option autoImplicit false

namespace JoinIndex

/-- A budget with the bytes charged to it now, the most that were ever charged at once, and the
number of refused requests. Without a limit, charges are bounded by the range of 64-bit words. -/
structure Budget where
  label : String
  limit : Option UInt64
  consumed : Nat
  peak : Nat
  refusals : Nat
  deriving DecidableEq

namespace Budget

def new (label : String) (limit : Option UInt64) : Budget :=
  ⟨label, limit, 0, 0, 0⟩

def unlimited (label : String) : Budget :=
  new label none

instance : Inhabited Budget := ⟨unlimited "default"⟩

/-- The number of values of a 64-bit word. -/
def wordRange : Nat := UInt64.size

/-- Whether a charge of `bytes` more would be granted. -/
def admits (b : Budget) (bytes : Nat) : Bool :=
  b.consumed + bytes < wordRange && b.limit.all (fun limit ↦ b.consumed + bytes ≤ limit.toNat)

def charge (b : Budget) (bytes : Nat) : Budget :=
  { b with consumed := b.consumed + bytes, peak := max b.peak (b.consumed + bytes) }

def refuse (b : Budget) : Budget :=
  { b with refusals := b.refusals + 1 }

/-- Charges `bytes`, or counts a refusal. -/
def tryConsume (b : Budget) (bytes : Nat) : Bool × Budget :=
  if b.admits bytes then (true, b.charge bytes) else (false, b.refuse)

/-- Gives back `bytes`, which must have been charged before. -/
def release (b : Budget) (bytes : Nat) : Except Fault Budget :=
  if bytes ≤ b.consumed then .ok { b with consumed := b.consumed - bytes }
  else .error .releasedMoreThanConsumed

/-- Bytes left below the limit; the largest word when there is no limit. -/
def remaining (b : Budget) : Nat :=
  match b.limit with
  | some limit => limit.toNat - b.consumed
  | none => wordRange - 1

def isExceeded (b : Budget) : Bool :=
  b.limit.any (fun limit ↦ limit.toNat < b.consumed)

/-- The budget with its label quoted. -/
def text (b : Budget) : String :=
  let limit :=
    match b.limit with
    | some limit => s!"Some({limit.toNat})"
    | none => "None"
  "MemTracker \x7b label: " ++ Text.Quoted.quote b.label ++ ", limit: " ++ limit ++
    s!", consumption: {b.consumed}, peak_consumption: {b.peak} \x7d"

end Budget

end JoinIndex
