import JoinIndex.Fault
import JoinIndex.Hash.Crc32
import JoinIndex.Hash.XxHash32

/-!
The hash functions of the levels and their seeds. Rows that fell into one partition at a level are
hashed again at the next one with another seed, so that they spread.
-/

set_option autoImplicit false

namespace JoinIndex.Hash

/-- Added to every hash of level 0. Its halves differ, so the hash of nothing is never its seed. -/
def levelZeroSalt : UInt32 := 0x9e3779b9

/-- The hash function of a level: at level 0 a checksum with its halves exchanged, at deeper
levels xxHash. -/
def hashBytes (level : Nat) (seed : UInt32) (bytes : List UInt8) : UInt32 :=
  if level = 0 then XxHash32.rotateLeft (Crc32.continued seed bytes) 16 ^^^ levelZeroSalt
  else XxHash32.hash seed bytes

/-- The seeds of the levels, from level 0 on. -/
structure Seeds where
  values : List UInt32
  deriving DecidableEq, Repr

namespace Seeds

def multipliers : List UInt32 :=
  [1431655781, 1183186591, 622729787, 472882027, 338294347, 275604541, 41161739, 29999999,
    27475109, 611603, 16313357, 11380003, 21261403, 33393119, 101, 71043403]

def increment : UInt32 := 0x9e3779b9

/-- The multiplier that leads from a level to the next, the list being used again and again. -/
def multiplier (level : Nat) : UInt32 :=
  multipliers.getD (level % multipliers.length) 0

/-- The seeds of `count` levels, `seed` being that of `level`. -/
def listFrom (level : Nat) (seed : UInt32) : Nat → List UInt32
  | 0 => []
  | count + 1 => seed :: listFrom (level + 1) (seed * multiplier level + increment) count

/-- The seeds of `levels` levels, and of one at least, whether or not there is room for them. -/
def new (initial : UInt32) (levels : Nat) : Seeds :=
  ⟨listFrom 0 initial (max levels 1)⟩

/-- The bytes that a seed takes up. -/
def seedBytes : Nat := 4

/-- Makes room for the seeds of `levels` levels, and of one at least, and then computes them. -/
def create (initial : UInt32) (levels : Nat) : Except Fault Seeds :=
  if max levels 1 * seedBytes ≤ maxSequenceBytes then .ok (new initial levels)
  else .error .capacityOverflow

def length (s : Seeds) : Nat := s.values.length

def isEmpty (s : Seeds) : Bool := s.values.isEmpty

def get? (s : Seeds) (level : Nat) : Option UInt32 := s.values[level]?

end Seeds

end JoinIndex.Hash
