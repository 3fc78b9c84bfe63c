import Alisl.Base.BitArray
import Alisl.Base.Blocks
import Alisl.Base.Bytes
import Alisl.Base.DoWhile
import Alisl.Base.Machine

/-! `alislsto_read`, `alislsto_write` and the seeks on a NAND flash: the driver's flash, the handle with
its records of the bad blocks, and the functions as they run. -/

namespace Alisl.Storage.Nand

open Alisl.Base

/-- What `MEMGETINFO` gives; `size` is a 32-bit number there. -/
structure Geometry where
  eraseSize : Nat
  blocks : Nat
  erase_pos : 0 < eraseSize
  fits : blocks * eraseSize < 2 ^ 32

def Geometry.size (geometry : Geometry) : Nat := geometry.blocks * geometry.eraseSize

/-- `STO_ERASE_TYPE_BLOCK` and `STO_ERASE_TYPE_SECTOR`. -/
inductive EraseType where
  | block
  | sector
  deriving DecidableEq, Repr

def sectorSize4k : Nat := 4096

inductive Whence where
  | seekSet
  | seekCur
  | seekEnd
  | other
  deriving DecidableEq, Repr

/-- The chip behind the driver: its bytes, the bad-block table, and which blocks were erased or
written. -/
structure Flash where
  content : Nat → Byte
  bad : Nat → Bool
  touched : List Nat

/-- How erasing goes: where it fails, what a failed erase leaves behind, and whether the driver then
takes the block into its table. -/
structure Erasure where
  fails : Nat → Bool
  left : Nat → Byte
  marks : Nat → Bool

namespace Flash

variable (geometry : Geometry)

def read (flash : Flash) (address count : Nat) : List Byte :=
  (List.range count).map (fun i => flash.content (address + i))

/-- `MEMERASE`. -/
def erase (flash : Flash) (start length : Nat) : Flash where
  content := fun x => if start ≤ x ∧ x < start + length then 0xff else flash.content x
  bad := flash.bad
  touched := start / geometry.eraseSize :: flash.touched

/-- A failed `MEMERASE`. -/
def spoil (flash : Flash) (left : Nat → Byte) (start length : Nat) : Flash where
  content := fun x => if start ≤ x ∧ x < start + length then left x else flash.content x
  bad := flash.bad
  touched := start / geometry.eraseSize :: flash.touched

/-- Programming can only clear bits. -/
def write (flash : Flash) (start : Nat) (data : List Byte) : Flash where
  content := fun x =>
    if start ≤ x ∧ x < start + data.length then
      flash.content x &&& data.getD (x - start) 0xff
    else flash.content x
  bad := flash.bad
  touched := start / geometry.eraseSize :: flash.touched

/-- `MEMSETBADBLOCK`. -/
def setBadBlock (flash : Flash) (address : Nat) : Flash :=
  { flash with bad := Function.update flash.bad (address / geometry.eraseSize) true }

end Flash

/-- What the functions use of `alislsto_dev_t`. -/
structure Dev (geometry : Geometry) where
  flash : Flash
  eraseType : EraseType
  offset : Nat
  badCnt : Nat
  badMap : BitArray 8
  logicSize : Nat

/-- `size - 1` as a 32-bit number. -/
def lastAddr (size : Nat) : Nat := (size + (2 ^ 32 - 1)) % 2 ^ 32

/-- The new address of `alislsto_lseek` and of `alislsto_lseek_logic`, from an `int` offset: a sum goes
through an `int`, and a comparison with the size is unsigned. -/
def seekAddr (size current : Nat) (offset : BitVec 32) : Whence → Option Nat
  | .seekSet =>
      some (if size ≤ offset.toNat then lastAddr size
        else if 0 ≤ offset.toInt then offset.toNat
        else current)
  | .seekCur =>
      let newAddr := BitVec.ofInt 32 (current + offset.toInt)
      some (if newAddr.toInt < 0 then 0
        else if size ≤ newAddr.toNat then lastAddr size
        else newAddr.toNat)
  | .seekEnd =>
      let newAddr := BitVec.ofNat 32 size + offset - 1
      some (if newAddr.toInt < 0 then 0
        else if offset.toInt ≤ 0 then newAddr.toNat
        else current)
  | .other => none

/-- `memcpy` into a buffer. -/
def overlay (buffer : List Byte) (start : Nat) (data : List Byte) : List Byte :=
  buffer.take start ++ data ++ buffer.drop (start + data.length)

namespace Dev

variable {geometry : Geometry}

/-- The bad block scan of `show_flash_info`. -/
def scanBadBlocks (bad : Nat → Bool) (blocks : Nat) : BitArray 8 × Nat :=
  (List.range blocks).foldl (fun found block =>
    if bad block then (found.1.set block, found.2 + 1) else found) (fun _ => 0, 0)

/-- A handle after `alislsto_construct` and `show_flash_info`. -/
def opened (geometry : Geometry) (flash : Flash) (eraseType : EraseType) : Dev geometry :=
  let found := scanBadBlocks flash.bad geometry.blocks
  { flash
    eraseType
    offset := 0
    badCnt := found.2
    badMap := found.1
    logicSize := geometry.size - found.2 * geometry.eraseSize }

def updateBbt (dev : Dev geometry) (address : Nat) (marks : Bool) : Dev geometry :=
  let block := address / geometry.eraseSize
  if marks then
    let flash := dev.flash.setBadBlock geometry address
    if dev.badMap.get block then { dev with flash }
    else
      { dev with
        flash
        badMap := dev.badMap.set block
        badCnt := dev.badCnt + 1
        logicSize := dev.logicSize - geometry.eraseSize }
  else dev

/-- The scan of the map for a good block: `left` blocks to go, `cnt` the next one. -/
def seekGood (badMap : BitArray 8) (blockLogic : Nat) : Nat → Nat → Nat → Nat × Nat
  | 0, cnt, blockIdx => (cnt, blockIdx)
  | left + 1, cnt, blockIdx =>
      if badMap.get cnt then seekGood badMap blockLogic left (cnt + 1) blockIdx
      else if blockIdx = blockLogic then (cnt, blockIdx)
      else seekGood badMap blockLogic left (cnt + 1) (blockIdx + 1)

def getPhyAddr (dev : Dev geometry) (offsetLogic : Nat) : Option Nat :=
  if geometry.size < offsetLogic then none
  else if dev.badCnt = 0 then some offsetLogic
  else
    let found := seekGood dev.badMap (offsetLogic / geometry.eraseSize) geometry.blocks 0 0
    if found.2 = geometry.blocks then none
    else some (found.1 * geometry.eraseSize + offsetLogic % geometry.eraseSize)

def getLogicAddr (dev : Dev geometry) (offsetPhy : Nat) : Option Nat :=
  if geometry.size < offsetPhy then none
  else if dev.badCnt = 0 then some offsetPhy
  else
    let blockIdx := (List.range (offsetPhy / geometry.eraseSize)).foldl (fun blockIdx cnt =>
      if dev.badMap.get cnt then blockIdx else blockIdx + 1) 0
    some (blockIdx * geometry.eraseSize + offsetPhy % geometry.eraseSize)

def alislstoLseek (dev : Dev geometry) (offset : BitVec 32) (whence : Whence) : Int × Dev geometry :=
  match seekAddr geometry.size dev.offset offset whence with
  | none => (-1, dev)
  | some address => ((BitVec.ofNat 32 address).toInt, { dev with offset := address })

def alislstoLseekLogic (dev : Dev geometry) (offset : BitVec 32) (whence : Whence) :
    Int × Dev geometry :=
  match dev.getLogicAddr dev.offset with
  | none => (-1, dev)
  | some current =>
      match seekAddr dev.logicSize current offset whence with
      | none => (-1, dev)
      | some addrLogic =>
          match dev.getPhyAddr addrLogic with
          | none => (-1, dev)
          | some addrPhy => ((BitVec.ofNat 32 addrLogic).toInt, { dev with offset := addrPhy })

def alislstoSetOffset (dev : Dev geometry) (offset : Nat) (flag : Bool) : Dev geometry :=
  if flag then { dev with offset } else dev

end Dev

/-- `alislsto_read` in its loop, with what was read so far. -/
structure Reading (geometry : Geometry) where
  dev : Dev geometry
  buffer : List Byte

/-- `alislsto_write` in its loop. -/
structure Writing (geometry : Geometry) where
  dev : Dev geometry
  totalWrittenSize : Nat

section

variable {geometry : Geometry}

def readLoop (len : Nat) : DoWhile (Reading geometry) where
  body state :=
    let dev := state.dev
    let offset := dev.offset
    if geometry.size ≤ offset then .leave state
    else if dev.flash.bad (offset / geometry.eraseSize) then
      .next { state with dev := { dev with offset := offset + geometry.eraseSize } }
    else
      let rest := geometry.eraseSize - offset % geometry.eraseSize
      let size := if rest ≤ len - state.buffer.length then rest else len - state.buffer.length
      .next ⟨{ dev with offset := offset + size }, state.buffer ++ dev.flash.read offset size⟩
  again state := decide (state.buffer.length < len)

def Dev.unitSize (dev : Dev geometry) : Nat :=
  match dev.eraseType with
  | .sector => sectorSize4k
  | .block => geometry.eraseSize

/-- The unit to write and how much of it is new: the rest of it is read first. -/
def Writing.unit (buf : List Byte) (state : Writing geometry) : List Byte × Nat :=
  let dev := state.dev
  let unitSize := dev.unitSize
  let start := dev.offset - dev.offset % unitSize
  let buffer := buf.drop state.totalWrittenSize
  if dev.offset % unitSize ≠ 0 then
    let dstsize :=
      if buf.length < unitSize - dev.offset % unitSize then buf.length
      else unitSize - dev.offset % unitSize
    (overlay (dev.flash.read start unitSize) (dev.offset % unitSize) (buffer.take dstsize), dstsize)
  else if buf.length - state.totalWrittenSize < unitSize then
    let dstsize := buf.length - state.totalWrittenSize
    (overlay (dev.flash.read start unitSize) 0 (buffer.take dstsize), dstsize)
  else (buffer.take unitSize, unitSize)

def writeLoop (erasure : Erasure) (buf : List Byte) : DoWhile (Writing geometry) where
  body state :=
    let dev := state.dev
    let offset := dev.offset
    if geometry.size ≤ offset then .leave state
    else if dev.flash.bad (offset / geometry.eraseSize) then
      .next { state with dev := { dev with offset := offset + geometry.eraseSize } }
    else
      let unitSize := dev.unitSize
      let start := offset - offset % unitSize
      let unit := state.unit buf
      if erasure.fails (start / geometry.eraseSize) then
        let spoiled : Dev geometry :=
          { dev with flash := dev.flash.spoil geometry erasure.left start unitSize }
        let marked := spoiled.updateBbt start (erasure.marks (start / geometry.eraseSize))
        .next { state with dev := { marked with offset := offset + unitSize } }
      else
        let erased := dev.flash.erase geometry start unitSize
        .next ⟨{ dev with flash := erased.write geometry start unit.1, offset := offset + unit.2 },
          state.totalWrittenSize + unit.2⟩
  again state := decide (state.totalWrittenSize < buf.length)

end

namespace Dev

variable {geometry : Geometry}

/-- Every turn moves the offset on, so that a loop has at most this many turns. -/
def loopFuel (geometry : Geometry) : Nat := geometry.size + 1

def alislstoRead (dev : Dev geometry) (len : Nat) : Option (List Byte × Dev geometry) :=
  ((readLoop len).run (loopFuel geometry) ⟨dev, []⟩).map (fun state => (state.buffer, state.dev))

def alislstoWrite (dev : Dev geometry) (erasure : Erasure) (buf : List Byte) :
    Option (Nat × Dev geometry) :=
  ((writeLoop erasure buf).run (loopFuel geometry) ⟨dev, 0⟩).map (fun state =>
    (state.totalWrittenSize, state.dev))

end Dev

end Alisl.Storage.Nand
