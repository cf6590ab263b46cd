import HftRecorder.Lib.ByteLayout

/-!
# CRC32C

`crc32c` and `crc32cUpdate` of `Codec/Crc32c.cpp`: the reflected Castagnoli polynomial, one table
lookup a byte, with the state inverted on the way in and on the way out. Since the two inversions
cancel, a checksum can be continued: `crc32cUpdate_append` is what lets the writer accumulate a
segment's checksum record by record and the reader recompute it block by block.
-/

namespace HftRecorder.Codec

open ByteLayout

/-- The reflected polynomial `0x1EDC6F41`. -/
def kPoly : UInt32 := 0x82F63B78

/-- One of the eight shifts that make a table entry. -/
def tableShift (c : UInt32) : UInt32 :=
  if c &&& 1 ≠ 0 then (c >>> 1) ^^^ kPoly else c >>> 1

/-- The entry of `makeTable()` at `i`. -/
def kTable (i : UInt32) : UInt32 := tableShift^[8] i

/-- The loop body of `crc32cUpdate`: the inverted state after one more byte. -/
def crc32cByte (c : UInt32) (b : UInt8) : UInt32 := kTable ((c ^^^ b.toUInt32) &&& 0xFF) ^^^ (c >>> 8)

/-- `crc32cUpdate`: the checksum of `data`, continued from `seed`. -/
def crc32cUpdate (seed : UInt32) (data : Bytes) : UInt32 :=
  data.foldl crc32cByte (seed ^^^ 0xFFFFFFFF) ^^^ 0xFFFFFFFF

/-- `crc32c`: the checksum of `data`. -/
def crc32c (data : Bytes) : UInt32 := crc32cUpdate 0 data

theorem xor_ones_xor_ones (c : UInt32) : c ^^^ 0xFFFFFFFF ^^^ 0xFFFFFFFF = c := by
  rw [UInt32.xor_assoc, UInt32.xor_self, UInt32.xor_zero]

theorem crc32cUpdate_append (seed : UInt32) (a b : Bytes) :
    crc32cUpdate (crc32cUpdate seed a) b = crc32cUpdate seed (a ++ b) := by
  simp only [crc32cUpdate, xor_ones_xor_ones, List.foldl_append]

theorem crc32cUpdate_nil (seed : UInt32) : crc32cUpdate seed [] = seed :=
  xor_ones_xor_ones seed

/-- The reference vector of the header comment. -/
example : crc32c [0x31, 0x32, 0x33, 0x34, 0x35, 0x36, 0x37, 0x38, 0x39] = 0xE3069283 := by
  decide +kernel

end HftRecorder.Codec
