/-
The cyclic redundancy check of gzip members.

Main definition: `crc32`, with the polynomial of ISO 3309 in reversed bit order.
-/
import HotSwap.Codec.Bytes

namespace HotSwap.Codec

/-- Shifts out `n` bits, adding the polynomial for each one that is set. -/
def crcBits : (n : Nat) → UInt32 → UInt32
  | 0, c => c
  | n + 1, c =>
    let shifted : UInt32 := c >>> 1
    crcBits n (if c % 2 == 1 then shifted ^^^ 0xedb88320 else shifted)

/-- Takes one byte into the check. -/
def crcByte (c : UInt32) (b : UInt8) : UInt32 :=
  crcBits 8 ((c ^^^ b.toUInt32) &&& 0xff) ^^^ (c >>> 8)

/-- The check of a byte string. -/
def crc32 (bytes : Bytes) : UInt32 := (bytes.foldl crcByte 0xffffffff) ^^^ 0xffffffff

end HotSwap.Codec
