import Mathlib.Data.List.Basic

/-!
# CRC-32

The CRC of a configuration upload, bit by bit over every byte, as the source computes it.
-/

namespace AccessoryController.CompanionProtocol

def kReflectedPolynomial : UInt32 := 0xEDB88320

/-- One bit: a shift, with the polynomial added when a one was shifted out. -/
def crc32Bit (crc : UInt32) : UInt32 :=
  (crc >>> 1) ^^^ (kReflectedPolynomial &&& (0 - (crc &&& 1)))

/-- One byte: it is added to the low bits, which are then shifted out. -/
def crc32Byte (crc : UInt32) (byte : UInt8) : UInt32 :=
  (List.range 8).foldl (fun crc _ => crc32Bit crc) (crc ^^^ byte.toUInt32)

def crc32 (bytes : List UInt8) : UInt32 :=
  bytes.foldl crc32Byte 0xFFFFFFFF ^^^ 0xFFFFFFFF

-- the check value over the ASCII digits 1 to 9
example : crc32 [0x31, 0x32, 0x33, 0x34, 0x35, 0x36, 0x37, 0x38, 0x39] = 0xCBF43926 := by
  decide +kernel

end AccessoryController.CompanionProtocol
