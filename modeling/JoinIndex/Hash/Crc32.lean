/-!
The CRC-32 checksum with reflected bits, continued from a finished checksum.
-/

set_option autoImplicit false

namespace JoinIndex.Hash.Crc32

def polynomial : UInt32 := 0xedb88320

/-- One step of the division: the register moves down by a bit. -/
def shift (register : UInt32) : UInt32 :=
  if register &&& 1 = 1 then (register >>> 1) ^^^ polynomial else register >>> 1

def shift8 (register : UInt32) : UInt32 :=
  shift (shift (shift (shift (shift (shift (shift (shift register)))))))

def feed (register : UInt32) (b : UInt8) : UInt32 :=
  shift8 (register ^^^ b.toUInt32)

/-- The checksum of what `start` is the checksum of, followed by `bytes`. A checksum is the
complement of the register. -/
def continued (start : UInt32) (bytes : List UInt8) : UInt32 :=
  ~~~(bytes.foldl feed (~~~start))

end JoinIndex.Hash.Crc32
