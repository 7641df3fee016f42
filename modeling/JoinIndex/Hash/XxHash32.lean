import JoinIndex.LittleEndian

/-!
The 32-bit xxHash: four lanes over stripes of sixteen bytes, then the remaining words and bytes,
then a final mixing.
-/

set_option autoImplicit false

namespace JoinIndex.Hash.XxHash32

def prime1 : UInt32 := 2654435761
def prime2 : UInt32 := 2246822519
def prime3 : UInt32 := 3266489917
def prime4 : UInt32 := 668265263
def prime5 : UInt32 := 374761393

def rotateLeft (x count : UInt32) : UInt32 :=
  (x <<< count) ||| (x >>> (32 - count))

structure Lanes where
  a : UInt32
  b : UInt32
  c : UInt32
  d : UInt32

namespace Lanes

def start (seed : UInt32) : Lanes :=
  ⟨seed + prime1 + prime2, seed + prime2, seed, seed - prime1⟩

def mix (lane word : UInt32) : UInt32 :=
  rotateLeft (lane + word * prime2) 13 * prime1

/-- Takes in a stripe, one word to each lane. -/
def absorb (l : Lanes) (stripe : List UInt8) : Lanes :=
  ⟨mix l.a (LittleEndian.word (stripe.take 4)),
    mix l.b (LittleEndian.word ((stripe.drop 4).take 4)),
    mix l.c (LittleEndian.word ((stripe.drop 8).take 4)),
    mix l.d (LittleEndian.word ((stripe.drop 12).take 4))⟩

/-- Takes in `count` stripes and returns the bytes behind them. -/
def absorbStripes (l : Lanes) : Nat → List UInt8 → Lanes × List UInt8
  | 0, bytes => (l, bytes)
  | count + 1, bytes => absorbStripes (l.absorb (bytes.take 16)) count (bytes.drop 16)

def merge (l : Lanes) : UInt32 :=
  rotateLeft l.a 1 + rotateLeft l.b 7 + rotateLeft l.c 12 + rotateLeft l.d 18

end Lanes

/-- Takes in `count` words and returns the bytes behind them. -/
def absorbWords (h : UInt32) : Nat → List UInt8 → UInt32 × List UInt8
  | 0, bytes => (h, bytes)
  | count + 1, bytes =>
    absorbWords (rotateLeft (h + LittleEndian.word (bytes.take 4) * prime3) 17 * prime4) count
      (bytes.drop 4)

def absorbByte (h : UInt32) (b : UInt8) : UInt32 :=
  rotateLeft (h + b.toUInt32 * prime5) 11 * prime1

/-- Lets every bit of the state reach every bit of the hash. -/
def avalanche (h : UInt32) : UInt32 :=
  let h := (h ^^^ (h >>> 15)) * prime2
  let h := (h ^^^ (h >>> 13)) * prime3
  h ^^^ (h >>> 16)

/-- The hash of `bytes`, whose length the state takes in before the last words. Without a whole
stripe the state begins at the seed itself. -/
def hash (seed : UInt32) (bytes : List UInt8) : UInt32 :=
  let length := bytes.length
  let begun : UInt32 × List UInt8 :=
    if length < 16 then (seed + prime5, bytes)
    else
      let (lanes, rest) := (Lanes.start seed).absorbStripes (length / 16) bytes
      (lanes.merge, rest)
  let (h, rest) := absorbWords (begun.1 + length.toUInt32) (length % 16 / 4) begun.2
  avalanche (rest.foldl absorbByte h)

end JoinIndex.Hash.XxHash32
