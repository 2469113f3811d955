import TuyaOpen.Basic.Bytes

/-!
# CRC-16

`get_crc_16` of `src/common/utilities/crc_16.c`: the checksum with the reflected polynomial
`0xa001`, started at `0xffff`.
-/

namespace TuyaOpen

/-- A round of the inner loop of `get_crc_16`: the checksum and the byte after it. -/
def crc16Bit (s : UInt16 × UInt8) : UInt16 × UInt8 :=
  ((s.1 >>> 1) ^^^ (if (s.1 ^^^ s.2.toUInt16) &&& 1 = 1 then 0xa001 else 0), s.2 >>> 1)

def crc16Bits : Nat → UInt16 × UInt8 → UInt16 × UInt8
  | 0, s => s
  | n + 1, s => crc16Bits n (crc16Bit s)

/-- `get_crc_16`. -/
def getCrc16 (data : Bytes) : Nat :=
  (data.foldl (fun crc b => (crc16Bits 8 (crc, b)).1) 0xffff).toNat

/-- The check value of the algorithm, for the digits from 1 to 9. -/
example : getCrc16 [0x31, 0x32, 0x33, 0x34, 0x35, 0x36, 0x37, 0x38, 0x39] = 0x4b37 := by
  decide +kernel

end TuyaOpen
