/-!
Faults: calls that break the contract of an operation. A fault is not an answer a caller may act
on, as an `Error` is; the state it was called in is kept.
-/

set_option autoImplicit false

namespace JoinIndex

/-- The most bytes that the elements of a sequence may take up in memory, which are counted by a
signed word. -/
def maxSequenceBytes : Nat := (1 <<< 63) - 1

/-- A broken contract, by its cause. -/
inductive Fault where
  /-- An element was taken outside a sequence of `length` elements. -/
  | indexOutOfBounds (length index : Nat)
  /-- More bytes were given back to a budget than it had lent. -/
  | releasedMoreThanConsumed
  /-- A level was chosen that has no seed. -/
  | levelOutOfRange (level seeds : Nat)
  /-- More nodes were reserved at once than the smallest page holds. -/
  | reservationTooLarge
  /-- A product of sizes left the range of 64-bit words. -/
  | productOverflow
  /-- A sum of sizes left the range of 64-bit words. -/
  | sumOverflow
  /-- Room was asked for in a sequence that would take up more than `maxSequenceBytes`. -/
  | capacityOverflow
  deriving DecidableEq, Repr

namespace Fault

def message : Fault → String
  | indexOutOfBounds length index =>
    s!"index out of bounds: the len is {length} but the index is {index}"
  | releasedMoreThanConsumed => "released more than consumed"
  | levelOutOfRange level seeds => s!"level {level} out of range for {seeds} seeds"
  | reservationTooLarge => "assertion failed: num_nodes <= MIN_PAGE_NODES"
  | productOverflow => "attempt to multiply with overflow"
  | sumOverflow => "attempt to add with overflow"
  | capacityOverflow => "capacity overflow"

end Fault

end JoinIndex
