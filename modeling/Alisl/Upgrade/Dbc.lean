import Alisl.Base.Bitmap
import Alisl.Upgrade.ModuleLayout

/-! The receiver's table parsers of lib_ota_dbc.c. Version 4 no longer reads the
module version in DII records and DDB headers, so these parsers are one definition
over the number of version bytes read. It also takes the first group of a DSI as
it is, where version 3 looks for one that fits.

A section is memory and a parser moves an address through it, wherever that
leads; lengths are not checked against the end of the section. -/

namespace Alisl.Upgrade

open Alisl.Base

structure DCGroupInfo where
  groupId : Nat
  groupSize : Nat
  deriving DecidableEq, Repr

/-- `block_received` is the first 32 words of a bitmap. -/
structure DCModuleInfo where
  moduleId : Nat
  moduleLinked : Bool
  moduleFirst : Bool
  moduleLast : Bool
  moduleBufPointer : Nat
  moduleBufSize : Nat
  blockNum : Nat
  nextModuleId : Nat
  nextBlockNum : Nat
  blockReceived : Bitmap
  moduleDownloadFinish : Bool

def bitMapNum : Nat := 32

/-- How a parser ends: `DBC_SUCCESS`, `DBC_FAIL`, or in the middle of a division
by zero or of an access behind `block_received`. -/
inductive DbcOutcome (State : Type) where
  | success (state : State)
  | fail (state : State)
  | fault

/-- The header all messages share: the id behind the first four bytes, the
message length and the address behind the adaptation bytes. -/
structure MessageHeader where
  transactionId : Nat
  messageLen : Nat
  next : Nat
  deriving DecidableEq, Repr

def readMessageHeader (memory : Memory) (data : Nat) : MessageHeader where
  transactionId := getBe32 memory (data + 4)
  messageLen := getBe16 memory (data + 10)
  next := data + 12 + (memory (data + 9)).toNat

/-! DSI. -/

structure DsiParam where
  oui : Nat
  hwModel : Nat
  hwVersion : Nat
  swModel : Nat
  swVersion : Nat
  deriving DecidableEq, Repr

/-- What `alisl_dsi_message` writes through its pointers. -/
structure DsiStore where
  newSwVersion : Nat
  group : DCGroupInfo
  deriving DecidableEq, Repr

/-- What the descriptors of a group have shown so far. -/
structure DsiFit where
  hardwareFit : Bool
  softwareFit : Bool
  newSwVersion : Nat
  deriving DecidableEq, Repr

/-- One descriptor at an address. Only version 4 compares the software version. -/
def dsiFit (checkVersion : Bool) (memory : Memory) (param : DsiParam) (data : Nat) (fit : DsiFit) :
    DsiFit :=
  let descriptorType := (memory data).toNat
  let specifierType := (memory (data + 2)).toNat
  let specifierData := getBe24 memory (data + 3)
  let model := getBe16 memory (data + 6)
  let version := getBe16 memory (data + 8)
  let hardware := descriptorType = 0x01 ∧ specifierType = 0x01 ∧ specifierData = param.oui ∧
    model = param.hwModel ∧ version = param.hwVersion
  let software := descriptorType = 0x02 ∧ specifierType = 0x01 ∧ specifierData = param.oui ∧
    model = param.swModel ∧ (checkVersion = true → param.swVersion ≤ version)
  { hardwareFit := fit.hardwareFit || decide hardware
    softwareFit := fit.softwareFit || decide software
    newSwVersion := if software then version else fit.newSwVersion }

/-- The loop over compatibility descriptors: the address behind them, what is
left of their length, and what they showed. -/
def dsiDescriptors (checkVersion : Bool) (memory : Memory) (param : DsiParam) :
    Nat → Nat → Nat → DsiFit → Nat × Nat × DsiFit
  | 0, data, compatibilityLen, fit => (data, compatibilityLen, fit)
  | count + 1, data, compatibilityLen, fit =>
      let descriptorLen := (memory (data + 1)).toNat
      if compatibilityLen < descriptorLen + 2 then (data + compatibilityLen, 0, fit)
      else
        dsiDescriptors checkVersion memory param count (data + 2 + descriptorLen)
          (compatibilityLen - (descriptorLen + 2)) (dsiFit checkVersion memory param data fit)

/-- The loop over group descriptors; `none` when one is longer than what is left.
Every turn takes two bytes at least, so the length is enough fuel. -/
def dsiGroupInfo (memory : Memory) : Nat → Nat → Nat → Option Nat
  | _, 0, data => some data
  | 0, _ + 1, _ => none
  | fuel + 1, groupInfoLen + 1, data =>
      let descriptorLen := (memory (data + 1)).toNat
      if groupInfoLen + 1 < descriptorLen + 2 then none
      else dsiGroupInfo memory fuel (groupInfoLen + 1 - (descriptorLen + 2)) (data + 2 + descriptorLen)

/-- GroupCompatibility of a group, from its length on. -/
def dsiCompatibility (checkVersion : Bool) (memory : Memory) (param : DsiParam)
    (data newSwVersion : Nat) : Nat × DsiFit :=
  let compatibilityLen := getBe16 memory data
  let fit : DsiFit := ⟨false, false, newSwVersion⟩
  if compatibilityLen < 2 then (data + 2 + compatibilityLen, fit)
  else
    let (data, left, fit) := dsiDescriptors checkVersion memory param (getBe16 memory (data + 2))
      (data + 4) (compatibilityLen - 2) fit
    (data + left, fit)

/-- One group: the address behind it unless its descriptors are cut off, the
group, and what its compatibility showed. -/
def dsiGroup (checkVersion : Bool) (memory : Memory) (param : DsiParam) (data newSwVersion : Nat) :
    Option Nat × DCGroupInfo × DsiFit :=
  let group : DCGroupInfo := ⟨getBe32 memory data, getBe32 memory (data + 4)⟩
  let (data, fit) := dsiCompatibility checkVersion memory param (data + 8) newSwVersion
  let groupInfoLen := getBe16 memory data
  let next := (dsiGroupInfo memory groupInfoLen groupInfoLen (data + 2)).map
    (fun data => data + 2 + getBe16 memory data)
  (next, group, fit)

/-- The number of groups and the address of the first. -/
def dsiGroups (memory : Memory) (data : Nat) : Nat × Nat :=
  let data := (readMessageHeader memory data).next + 20
  let data := data + 2 + getBe16 memory data
  (getBe16 memory (data + 2), data + 4)

namespace V3

/-- The loop over groups, until one fits hardware and software. -/
def dsiLoop (memory : Memory) (param : DsiParam) : Nat → Nat → DsiStore → DbcOutcome DsiStore
  | 0, _, state => .fail state
  | count + 1, data, state =>
      let (next, group, fit) := dsiGroup false memory param data state.newSwVersion
      let state := ⟨fit.newSwVersion, group⟩
      match next with
      | none => .fail state
      | some data =>
          if fit.hardwareFit && fit.softwareFit then .success state
          else dsiLoop memory param count data state

def alislDsiMessage (memory : Memory) (data : Nat) (param : DsiParam) (state : DsiStore) :
    DbcOutcome DsiStore :=
  let (numOfGroups, data) := dsiGroups memory data
  dsiLoop memory param numOfGroups data state

end V3

namespace V4

/-- The first group is taken without a look at what it fits. -/
def alislDsiMessage (memory : Memory) (data : Nat) (param : DsiParam) (state : DsiStore) :
    DbcOutcome DsiStore :=
  let (numOfGroups, data) := dsiGroups memory data
  if numOfGroups = 0 then .fail state
  else
    let (next, group, fit) := dsiGroup true memory param data state.newSwVersion
    let state := ⟨fit.newSwVersion, group⟩
    match next with
    | none => .fail state
    | some _ => .success state

end V4

/-! DII. -/

/-- The globals `g_dc_module`, `g_dc_module_num` and `g_dc_blocksize`. -/
structure ModuleTable where
  modules : Nat → DCModuleInfo
  moduleNum : Nat
  blocksize : Nat

def ModuleTable.put (table : ModuleTable) (index : Nat) (entry : DCModuleInfo) : ModuleTable :=
  { table with modules := Function.update table.modules index entry }

def linkModule (position nextModuleId : Nat) (entry : DCModuleInfo) : DCModuleInfo :=
  if position = 0x00 then
    { entry with moduleLinked := true, moduleFirst := true, nextModuleId := nextModuleId }
  else if position = 0x01 then { entry with moduleLinked := true, nextModuleId := nextModuleId }
  else if position = 0x02 then { entry with moduleLinked := true, moduleLast := true }
  else { entry with moduleLinked := true }

/-- The loop over the descriptors of a module: whether it came to its end, the
address there and the module. -/
def diiDescriptors (memory : Memory) : Nat → Nat → Nat → DCModuleInfo → Bool × Nat × DCModuleInfo
  | _, 0, data, entry => (true, data, entry)
  | 0, _ + 1, data, entry => (false, data, entry)
  | fuel + 1, moduleInfoLen + 1, data, entry =>
      let descriptorTag := (memory data).toNat
      let descriptorLen := (memory (data + 1)).toNat
      if moduleInfoLen + 1 < descriptorLen + 2 then (false, data + 2, entry)
      else if descriptorTag = 0x04 ∧ descriptorLen < 3 then (false, data + 2, entry)
      else
        let entry := if descriptorTag = 0x04 then
          linkModule (memory (data + 2)).toNat (getBe16 memory (data + 3)) entry else entry
        diiDescriptors memory fuel (moduleInfoLen + 1 - (descriptorLen + 2))
          (data + 2 + descriptorLen) entry

/-- The number of blocks, an unsigned short. -/
def blockNumOf (moduleSize blocksize : Nat) : Nat :=
  (if moduleSize % blocksize ≠ 0 then moduleSize / blocksize + 1 else moduleSize / blocksize) % 65536

/-- The entry of a module before its descriptors are read. -/
def freshModule (entry : DCModuleInfo) (moduleId moduleSize pointer blockNum : Nat) : DCModuleInfo :=
  { entry with
    moduleBufPointer := pointer
    moduleId := moduleId
    moduleBufSize := moduleSize
    blockNum := blockNum
    moduleLinked := false
    moduleFirst := false
    moduleLast := false
    nextBlockNum := 0
    blockReceived := Bitmap.ones.clearBelow blockNum
    moduleDownloadFinish := false }

/-- The loop over modules. More than 1024 blocks clear bits behind the map. -/
def diiModules (versionLen : Nat) (memory : Memory) (dataAddr : Nat) :
    Nat → Nat → Nat → ModuleTable → DbcOutcome ModuleTable
  | 0, _, _, table => .success table
  | count + 1, index, data, table =>
      let moduleId := getBe16 memory data
      let moduleSize := getBe32 memory (data + 2)
      let data := data + 6 + versionLen
      let previous := table.modules (index - 1)
      let pointer := if index = 0 then dataAddr
        else previous.moduleBufPointer + previous.moduleBufSize
      if table.blocksize = 0 then .fault
      else
        let blockNum := blockNumOf moduleSize table.blocksize
        if 32 * bitMapNum < blockNum then .fault
        else
          let entry := freshModule (table.modules index) moduleId moduleSize pointer blockNum
          let moduleInfoLen := (memory data).toNat
          match diiDescriptors memory moduleInfoLen moduleInfoLen (data + 1) entry with
          | (false, _, entry) => .fail (table.put index entry)
          | (true, data, entry) =>
              diiModules versionLen memory dataAddr count (index + 1) data (table.put index entry)

def diiMessage (versionLen : Nat) (memory : Memory) (data groupId dataAddr : Nat)
    (table : ModuleTable) : DbcOutcome ModuleTable :=
  let header := readMessageHeader memory data
  if header.transactionId ≠ groupId then .fail table
  else
    let blocksize := getBe16 memory (header.next + 4)
    -- windowSize, ackPeriod, tCDownloadWindow and tCDownloadScenario
    let data := header.next + 6 + 10
    let data := data + 2 + getBe16 memory data
    let numOfModules := getBe16 memory data
    let table := { table with moduleNum := numOfModules % 256, blocksize := blocksize }
    if dcModuleMax < numOfModules then .fail table
    else diiModules versionLen memory dataAddr numOfModules 0 (data + 2) table

/-! DDB. -/

/-- The module of a block and the memory its buffer lies in. -/
structure DdbStore where
  entry : DCModuleInfo
  ram : Memory

def blockLenOf (moduleSize blocksize blockNum : Nat) : Nat :=
  if blocksize < moduleSize - blockNum * blocksize then blocksize
  else moduleSize - blockNum * blocksize

/-- The block is copied, marked, and the module is finished once the map is full. -/
def acceptBlock (memory : Memory) (data blocksize blockNum : Nat) (state : DdbStore) : DdbStore :=
  let entry := state.entry
  let received := entry.blockReceived.set blockNum
  let block := slice memory data (blockLenOf entry.moduleBufSize blocksize blockNum)
  ⟨{ entry with blockReceived := received, moduleDownloadFinish := received.full bitMapNum },
    store state.ram (entry.moduleBufPointer + blockNum * blocksize) block⟩

def ddbData (versionLen : Nat) (memory : Memory) (data blocksize blkId : Nat) (state : DdbStore) :
    DbcOutcome DdbStore :=
  let header := readMessageHeader memory data
  let moduleId := getBe16 memory header.next
  -- the module version, as far as it is read, and the reserved byte
  let data := header.next + 2 + versionLen + 1
  let entry := state.entry
  if entry.moduleId ≠ moduleId then .fail state
  else
    let blockNum := getBe16 memory data
    if blockNum % 256 ≠ blkId then .fail state
    else if entry.blockNum ≤ blockNum then .fail state
    else if entry.moduleBufSize ≤ blockNum * blocksize then .fail state
    else if 32 * bitMapNum ≤ blockNum then .fault
    else if entry.blockReceived.test blockNum then .fail state
    else if header.messageLen < blockLenOf entry.moduleBufSize blocksize blockNum + 6 then .fail state
    else .success (acceptBlock memory (data + 2) blocksize blockNum state)

namespace V3

def alislDiiMessage := diiMessage 1

def alislDdbData := ddbData 1

end V3

namespace V4

def alislDiiMessage := diiMessage 0

def alislDdbData := ddbData 0

end V4

end Alisl.Upgrade
