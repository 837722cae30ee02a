/-! The one's-complement checksum over big-endian 16-bit words. -/
namespace Snooping

abbrev Bytes := List UInt8

/-- The word with the given high and low byte. -/
def be16 (hi lo : UInt8) : UInt16 := hi.toUInt16 <<< 8 ||| lo.toUInt16

def be16Bytes (w : UInt16) : Bytes := [(w >>> 8).toUInt8, w.toUInt8]

namespace Checksum

/-- Adds the words of `data` to `sum` in 32 bits; an odd last byte is the high byte of a word. -/
def wordSum (sum : UInt32) : Bytes → UInt32
  | hi :: lo :: rest => wordSum (sum + (be16 hi lo).toUInt32) rest
  | [last] => sum + (last.toUInt32 <<< (8 : UInt32))
  | [] => sum

/-- Adds the carries above 16 bits back in. -/
def endAround (sum : UInt32) : UInt32 := (sum &&& (0xffff : UInt32)) + (sum >>> (16 : UInt32))

/-- Two rounds leave no carry of a 32-bit sum. -/
def foldCarries (sum : UInt32) : UInt32 := endAround (endAround sum)

def onesComplementSum (data : Bytes) : UInt16 := (foldCarries (wordSum 0 data)).toUInt16

/-- The value to store in a field that is zero in `data`. -/
def checksum (data : Bytes) : UInt16 := ~~~ onesComplementSum data

/-- A message is intact when its words, checksum included, sum to all ones. -/
def isValid (data : Bytes) : Bool := onesComplementSum data == 0xffff

/-- Overwrites the two bytes at `offset`. -/
def putWord (data : Bytes) (offset : Nat) (w : UInt16) : Bytes :=
  (data.set offset (w >>> 8).toUInt8).set (offset + 1) w.toUInt8

/-- Stores the checksum of `data` at `offset`, the field itself counting as zero. -/
def fill (data : Bytes) (offset : Nat) : Bytes :=
  putWord data offset (checksum (putWord data offset 0))

end Checksum
end Snooping
