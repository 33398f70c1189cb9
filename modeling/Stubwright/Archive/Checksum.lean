/-!
The checksum of an entry: the remainder of its bits, the least significant first, by the polynomial
`0xedb88320` in reflected form, started and finished with all bits set.
-/
namespace Stubwright.Archive

def shiftBit (remainder : UInt32) : UInt32 :=
  if remainder % 2 = 1 then (remainder >>> 1) ^^^ 0xedb88320 else remainder >>> 1

def shiftByte (remainder : UInt32) (byte : UInt8) : UInt32 :=
  Nat.repeat shiftBit 8 (remainder ^^^ byte.toUInt32)

def checksum (bytes : List UInt8) : UInt32 :=
  bytes.foldl shiftByte 0xffffffff ^^^ 0xffffffff

end Stubwright.Archive
