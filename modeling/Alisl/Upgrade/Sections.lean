import Alisl.Upgrade.PackTool

/-! The DSM-CC sections of the pack tool: `put_dsi_section`, `put_dii_section` and
`put_ddb_section` of aliota.cpp. -/

namespace Alisl.Upgrade

open Alisl.Base

def moduleVersion : Byte := 0
def downloadId : Nat := 0x0B

/-- The two bytes that hold the low twelve bits of the section length. -/
def putSectionLen (len : Nat) : List Byte := [byteOf (0xB0 + len / 256 % 16), byteOf len]

/-- The first eight bytes; `0xc1` carries version number 0. -/
def sectionHeader (tableId : Byte) (len extension sectionNum lastSectionNum : Nat) : List Byte :=
  [tableId] ++ putSectionLen len ++ putBe16 extension ++
    [0xc1, byteOf sectionNum, byteOf lastSectionNum]

/-- `dsmccMessageHeader` and `dsmccDownloadDataHeader`, without adaptation bytes. -/
def messageHeader (messageId transactionId messageLen : Nat) : List Byte :=
  [0x11, 0x03] ++ putBe16 messageId ++ putBe32 transactionId ++ [0xff, 0] ++ putBe16 messageLen

structure GroupInfo where
  oui : Nat
  hwModel : Nat
  hwVer : Nat
  swModel : Nat
  swVer : Nat
  groupId : Nat
  groupLen : Nat
  deriving DecidableEq, Repr

/-- A compatibility descriptor of type `kind` for the IEEE OUI. -/
def putCompatibility (kind : Byte) (oui model version : Nat) : List Byte :=
  [kind, 9, 0x01] ++ putBe24 oui ++ putBe16 model ++ putBe16 version ++ [0]

def putDsiGroup (group : GroupInfo) : List Byte :=
  putBe32 group.groupId ++ putBe32 group.groupLen ++ putBe16 24 ++ putBe16 2 ++
    putCompatibility 0x01 group.oui group.hwModel group.hwVer ++
    putCompatibility 0x02 group.oui group.swModel group.swVer ++ putBe16 0 ++ putBe16 0

def putDsiSection (groups : List GroupInfo) : List Byte :=
  let secLen := 46 + 38 * groups.length
  mgFcsCoder (sectionHeader 0x3B (secLen + 4 - 3) 0 0 0 ++
    messageHeader 0x1006 0x80000000 (secLen - 20) ++
    List.replicate 20 0xff ++ putBe16 0 ++ putBe16 (secLen - 44) ++
    putBe16 groups.length ++ groups.flatMap putDsiGroup)

/-- First, last or between. -/
def linkPosition (num index : Nat) : Byte :=
  if index = 0 then 0 else if index = num - 1 then 2 else 1

/-- The record of one module in a DII of `num` modules. -/
def putDiiModule (num index : Nat) (info : ModuleInfo) (nextModuleId : Nat) : List Byte :=
  putBe16 info.moduleId ++ putBe32 info.moduleSize ++ [moduleVersion] ++
    if 1 < num then [5, 0x04, 3, linkPosition num index] ++ putBe16 nextModuleId else [0]

/-- The id behind the last module, `module_info[module_num].module_id`, goes into
the record of the last one. -/
def nextModuleIdOf (beyond : Nat) (rest : List ModuleInfo) : Nat :=
  match rest with
  | [] => beyond
  | next :: _ => next.moduleId

def putDiiModules (num beyond : Nat) : Nat → List ModuleInfo → List Byte
  | _, [] => []
  | index, info :: rest =>
      putDiiModule num index info (nextModuleIdOf beyond rest) ++
        putDiiModules num beyond (index + 1) rest

def diiSectionLen (num : Nat) : Nat :=
  if 1 < num then 5 + 12 + (18 + 2 + num * 13 + 2) + 4 else 5 + 12 + (18 + 2 + num * 8 + 2) + 4

/-- Everything of a DII message behind its header. -/
def diiBody (beyond : Nat) (modules : List ModuleInfo) : List Byte :=
  putBe32 downloadId ++ putBe16 blockSize ++ [0, 0] ++ putBe32 0 ++ putBe32 0 ++ putBe16 0 ++
    putBe16 modules.length ++ putDiiModules modules.length beyond 0 modules ++ putBe16 0

def putDiiSection (groupId beyond : Nat) (modules : List ModuleInfo) : List Byte :=
  let num := modules.length
  mgFcsCoder (sectionHeader 0x3B (diiSectionLen num) (groupId % 65536) 0 0 ++
    messageHeader 0x1002 groupId (18 + 2 + num * 13 + 2) ++ diiBody beyond modules)

/-- The block number is written from a `BYTE`. -/
def putDdbSection (moduleId sectionNum lastSectionNum : Nat) (block : List Byte) : List Byte :=
  mgFcsCoder (sectionHeader 0x3C (block.length + 18 + 9) moduleId sectionNum lastSectionNum ++
    messageHeader 0x1003 downloadId (block.length + 6) ++
    putBe16 moduleId ++ [moduleVersion, 0xff] ++ putBe16 (sectionNum % 256) ++ block)

/-- The group id of `gen_group_info`. -/
def packGroupId : Nat := 0x80000000 + ((0 + 1) <<< 1)

/-- The length of a block, and no section for a block that starts behind the module. -/
def packBlockLen (moduleSize sectionNum : Nat) : Option Nat :=
  if moduleSize < sectionNum * blockSize then none
  else if blockSize < moduleSize - sectionNum * blockSize then some blockSize
  else some (moduleSize - sectionNum * blockSize)

/-- The sections of a module, and what is left of the file behind them. -/
def packModuleSections (info : ModuleInfo) : List Nat → List Byte → List (List Byte) × List Byte
  | [], file => ([], file)
  | sectionNum :: sectionNums, file =>
      match packBlockLen info.moduleSize sectionNum with
      | none => packModuleSections info sectionNums file
      | some blockLen =>
          let (sections, rest) := packModuleSections info sectionNums (file.drop blockLen)
          (putDdbSection info.moduleId sectionNum info.lastSectionNum (file.take blockLen) :: sections,
            rest)

/-- The DDB sections of `gen_otapkt_start`, from the file at its beginning. -/
def packDdbSections : List ModuleInfo → List Byte → List (List Byte)
  | [], _ => []
  | info :: infos, file =>
      let (sections, rest) := packModuleSections info (List.range 256) file
      sections ++ packDdbSections infos rest

@[simp] theorem sectionHeader_length (tableId : Byte) (len extension sectionNum lastSectionNum : Nat) :
    (sectionHeader tableId len extension sectionNum lastSectionNum).length = 8 := rfl

@[simp] theorem messageHeader_length (messageId transactionId messageLen : Nat) :
    (messageHeader messageId transactionId messageLen).length = 12 := rfl

/-- A section in memory: its header, and what follows without the CRC. -/
theorem holds_section (memory : Memory) (at_ : Nat) (header rest : List Byte)
    (holds : Holds memory at_ (mgFcsCoder (header ++ rest))) :
    Holds memory at_ header ∧ Holds memory (at_ + header.length) rest := by
  rw [mgFcsCoder, holds_append, holds_append] at holds
  exact holds.1

theorem sectionHeader_extension (memory : Memory) (at_ : Nat) (tableId : Byte)
    (len extension sectionNum lastSectionNum : Nat)
    (holds : Holds memory at_ (sectionHeader tableId len extension sectionNum lastSectionNum)) :
    getBe16 memory (at_ + 3) = extension % 65536 := by
  unfold sectionHeader at holds
  rw [holds_append, holds_append] at holds
  exact holds.1.2.getBe16

end Alisl.Upgrade
