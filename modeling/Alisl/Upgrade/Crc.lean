import Alisl.Base.Bytes

/-! The CRC of fastCRC.c, configured as `MG_CRC_32_ARITHMETIC_CCITT`; the pack
tool carries a copy. -/

namespace Alisl.Upgrade

open Alisl.Base

def mgCrc32Ccitt : BitVec 32 := 0x04c11db7#32

/-- One turn of the inner loop: the highest bit decides. -/
def crcShift (crc : BitVec 32) : BitVec 32 :=
  if crc.msb then (crc <<< 1) ^^^ mgCrc32Ccitt else crc <<< 1

def mgComputeCrc (crc : BitVec 32) : List Byte → BitVec 32
  | [] => crc
  | byte :: bytes =>
      mgComputeCrc (crcShift^[8] (crc ^^^ (byte.toBitVec.setWidth 32 <<< 24))) bytes

/-- The entry `MG_Setup_CRC_Table` stores at an index. -/
def mgCrcTable (index : BitVec 32) : BitVec 32 := mgComputeCrc (index <<< 24) [0]

def mgTableDrivenCrc (crc : BitVec 32) : List Byte → BitVec 32
  | [] => crc
  | byte :: bytes =>
      mgTableDrivenCrc
        (mgCrcTable (((crc >>> 24) &&& 0xff#32) ^^^ byte.toBitVec.setWidth 32) ^^^ (crc <<< 8)) bytes

/-- The four bytes of a CRC as they stand in memory on the little-endian target. -/
def crcBytes (crc : BitVec 32) : List Byte :=
  [byteOf crc.toNat, byteOf (crc.toNat / 256), byteOf (crc.toNat / 65536),
    byteOf (crc.toNat / 16777216)]

/-- The checksum behind each piece, `MG_Table_Driven_CRC(0xFFFFFFFF, ..)` over its payload. -/
def pieceCrc (payload : List Byte) : List Byte := crcBytes (mgTableDrivenCrc 0xFFFFFFFF#32 payload)

/-- A section followed by its big-endian CRC. -/
def mgFcsCoder (bytes : List Byte) : List Byte :=
  bytes ++ putBe32 (mgTableDrivenCrc 0xFFFFFFFF#32 bytes).toNat

@[simp] theorem pieceCrc_length (payload : List Byte) : (pieceCrc payload).length = 4 := rfl

end Alisl.Upgrade
