import Alisl.Upgrade.Dbc

/-! Dispatch of received sections, lib_ota.c: `parse_dsmcc_sec`, the `ddb_section`
of version 3, which wants every module of the table, and that of version 4, which
wants the modules of one piece. Progress display is left out. -/

namespace Alisl.Upgrade

open Alisl.Base

structure DlInfo where
  hwVersion : Nat
  swVersion : Nat
  swType : Nat
  swSize : Nat
  deriving DecidableEq, Repr

/-- The globals of lib_ota.c and the memory the module buffers lie in. -/
structure Receiver where
  param : DsiParam
  group : DCGroupInfo
  dlInfo : DlInfo
  table : ModuleTable
  ramAddr : Nat
  ram : Memory

inductive SectionType where
  | dsi
  | dii
  | ddb (index : Nat)
  deriving DecidableEq, Repr

/-- What a version of the library puts together: the section bytes it steps over
and its parsers. -/
structure OtaLib where
  headerLen : Nat
  dsiMessage : Memory → Nat → DsiParam → DsiStore → DbcOutcome DsiStore
  diiMessage : Memory → Nat → Nat → Nat → ModuleTable → DbcOutcome ModuleTable
  ddbData : Memory → Nat → Nat → Nat → DdbStore → DbcOutcome DdbStore

/-- Version 3 reads the whole section header. -/
def v3 : OtaLib := ⟨8, V3.alislDsiMessage, V3.alislDiiMessage, V3.alislDdbData⟩

/-- Version 4 leaves out `last_section_num`. -/
def v4 : OtaLib := ⟨7, V4.alislDsiMessage, V4.alislDiiMessage, V4.alislDdbData⟩

def DbcOutcome.map {State Other : Type} (f : State → Other) : DbcOutcome State → DbcOutcome Other
  | .success state => .success (f state)
  | .fail state => .fail (f state)
  | .fault => .fault

def Receiver.putDdb (receiver : Receiver) (index : Nat) (state : DdbStore) : Receiver :=
  { receiver with table := receiver.table.put index state.entry, ram := state.ram }

/-- `new_sw_version` is an uninitialised local; `stale` is what it happens to hold. -/
def parseDsmccSec (lib : OtaLib) (memory : Memory) (buffer stale : Nat) (kind : SectionType)
    (receiver : Receiver) : DbcOutcome Receiver :=
  let extension := getBe16 memory (buffer + 3)
  let sectionNum := (memory (buffer + 6)).toNat
  let data := buffer + lib.headerLen
  match kind with
  | .dsi =>
      if extension ≠ 0x0000 ∧ extension ≠ 0x0001 then .fail receiver
      else
        match lib.dsiMessage memory data receiver.param ⟨stale, receiver.group⟩ with
        | .success state =>
            .success { receiver with
              group := state.group
              dlInfo := { receiver.dlInfo with
                hwVersion := receiver.param.hwVersion
                swVersion := state.newSwVersion
                swType := 0
                swSize := state.group.groupSize } }
        | .fail state => .fail { receiver with group := state.group }
        | .fault => .fault
  | .dii =>
      if extension ≠ receiver.group.groupId % 65536 then .fail receiver
      else (lib.diiMessage memory data receiver.group.groupId receiver.ramAddr receiver.table).map
        (fun table => { receiver with table := table })
  | .ddb index =>
      if extension ≠ (receiver.table.modules index).moduleId then .fail receiver
      else (lib.ddbData memory data receiver.table.blocksize sectionNum
        ⟨receiver.table.modules index, receiver.ram⟩).map (receiver.putDdb index)

/-- The globals and the flag of the section request, `continue_get_sec`. -/
structure Download where
  receiver : Receiver
  continueGetSec : Bool

/-- The first module of that id. -/
def Receiver.findModule (receiver : Receiver) (moduleId : Nat) : Option Nat :=
  (List.range receiver.table.moduleNum).find?
    (fun index => (receiver.table.modules index).moduleId == moduleId)

def Receiver.allFinished (receiver : Receiver) : Bool :=
  (List.range receiver.table.moduleNum).all
    (fun index => (receiver.table.modules index).moduleDownloadFinish)

namespace V3

/-- `none` stands for an access behind a map. -/
def ddbSection (memory : Memory) (download : Download) : Option Download :=
  let receiver := download.receiver
  match receiver.findModule (getBe16 memory 3) with
  | none => some download
  | some index =>
      if ((receiver.table.modules index).blockNum + 255) % 256 ≠ (memory 7).toNat then some download
      else
        match parseDsmccSec v3 memory 0 0 (.ddb index) receiver with
        | .fault => none
        | .fail receiver => some { download with receiver }
        | .success receiver =>
            some ⟨receiver, download.continueGetSec && !receiver.allFinished⟩

def ddbSections : List Memory → Download → Option Download
  | [], download => some download
  | memory :: memories, download => (ddbSection memory download).bind (ddbSections memories)

end V3

/-- `struct modules_range`: the modules of a piece, the last one included. -/
structure ModulesRange where
  start : Nat
  stop : Nat
  deriving DecidableEq, Repr

def ModulesRange.indexes (range : ModulesRange) : List Nat :=
  List.range' range.start (range.stop + 1 - range.start)

/-- One `memcpy` of `alisl_ddb_data`. -/
structure BlockCopy where
  index : Nat
  blockNum : Nat
  address : Nat
  data : List Byte
  deriving DecidableEq, Repr

/-- The globals and the section request of a piece. `unlocks` counts the calls of
`pthread_mutex_unlock` on `continue_mutex`, `copies` lists the copies made. -/
structure PieceRequest where
  receiver : Receiver
  continueGetSec : Bool
  unlocks : Nat
  copies : List BlockCopy

/-- The first module of the range with that id. -/
def Receiver.findInRange (receiver : Receiver) (range : ModulesRange) (moduleId : Nat) : Option Nat :=
  range.indexes.find? (fun index => (receiver.table.modules index).moduleId == moduleId)

def Receiver.rangeFinished (receiver : Receiver) (range : ModulesRange) : Bool :=
  range.indexes.all (fun index => (receiver.table.modules index).moduleDownloadFinish)

/-- A module with every block missing. -/
def DCModuleInfo.restart (entry : DCModuleInfo) : DCModuleInfo :=
  { entry with
    moduleDownloadFinish := false
    blockReceived := Bitmap.ones.clearBelow entry.blockNum }

namespace V4

/-- The copy a section that is accepted asks for. -/
def ddbCopy (memory : Memory) (receiver : Receiver) (index : Nat) : BlockCopy :=
  let entry := receiver.table.modules index
  let blocksize := receiver.table.blocksize
  let data := (readMessageHeader memory v4.headerLen).next + 3
  let blockNum := getBe16 memory data
  { index
    blockNum
    address := entry.moduleBufPointer + blockNum * blocksize
    data := slice memory (data + 2) (blockLenOf entry.moduleBufSize blocksize blockNum) }

/-- `none` stands for an access behind a map. -/
def ddbSection (range : ModulesRange) (memory : Memory) (request : PieceRequest) :
    Option PieceRequest :=
  let receiver := request.receiver
  if receiver.table.moduleNum ≤ range.stop then some request
  else
    match receiver.findInRange range (getBe16 memory 3) with
    | none => some request
    | some index =>
        if ((receiver.table.modules index).blockNum + 255) % 256 ≠ (memory 7).toNat then some request
        else
          match parseDsmccSec v4 memory 0 0 (.ddb index) receiver with
          | .fault => none
          | .fail after => some { request with receiver := after }
          | .success after =>
              let request := { request with
                receiver := after
                copies := request.copies ++ [ddbCopy memory receiver index] }
              if after.rangeFinished range then
                some { request with continueGetSec := false, unlocks := request.unlocks + 1 }
              else some request

def ddbSections (range : ModulesRange) : List Memory → PieceRequest → Option PieceRequest
  | [], request => some request
  | memory :: memories, request => (ddbSection range memory request).bind (ddbSections range memories)

/-- `ota_cmd_start_download_by_piece` up to the request for sections. -/
def startDownloadByPiece (range : ModulesRange) (receiver : Receiver) : PieceRequest where
  receiver := { receiver with
    table := { receiver.table with
      modules := fun index =>
        if index ∈ range.indexes then (receiver.table.modules index).restart
        else receiver.table.modules index } }
  continueGetSec := true
  unlocks := 0
  copies := []

end V4

theorem Receiver.putDdb_self (receiver : Receiver) (index : Nat) :
    receiver.putDdb index ⟨receiver.table.modules index, receiver.ram⟩ = receiver := by
  simp [Receiver.putDdb, ModuleTable.put]

end Alisl.Upgrade
