import JoinIndex.Binary64.Text

/-!
What a table reports of itself.
-/

set_option autoImplicit false

namespace JoinIndex

structure Stats where
  buckets : Nat
  filled : Nat
  entries : Nat
  overflowing : Nat
  nodes : Nat
  probes : Nat
  collisions : Nat
  travel : Nat
  resizes : Nat
  bytes : Nat
  deriving DecidableEq, Repr

namespace Stats

def zero : Stats := ⟨0, 0, 0, 0, 0, 0, 0, 0, 0, 0⟩

/-- The share of filled buckets. -/
def loadFactor (s : Stats) : Binary64 :=
  if s.buckets = 0 then Binary64.zero else Binary64.quotient s.filled s.buckets

/-- The buckets that a search passes on average. -/
def averageTravel (s : Stats) : Binary64 :=
  if s.probes = 0 then Binary64.zero else Binary64.quotient s.travel s.probes

def text (s : Stats) : String :=
  s!"Buckets: {s.buckets} ({s.filled} filled, {s.overflowing} with overflow, " ++
    "load factor " ++ s.loadFactor.twoPlaces ++ ") " ++
    s!"Entries: {s.entries} ({s.nodes} overflow nodes) " ++
    s!"Probes: {s.probes} (avg travel " ++ s.averageTravel.twoPlaces ++
    s!", {s.collisions} hash collisions) Resizes: {s.resizes} Bytes: {s.bytes}"

end Stats

end JoinIndex
