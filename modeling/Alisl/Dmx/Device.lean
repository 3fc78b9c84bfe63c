import Alisl.Base.Bytes
import Alisl.Base.Ring

/-! The pools of channels and section filters of a demux device, and the calls that
allocate, configure and free them. Each definition is one critical section; a
pointer that is followed while it is NULL gives `none`. -/

namespace Alisl.Dmx

open Alisl.Base

inductive ChType where
  | sections
  | records
  | services
  | streams
  deriving DecidableEq, Repr

/-- The values of `enum dmx_channel_type`. -/
def ChType.code : ChType → Nat
  | .sections => 1
  | .records => 2
  | .services => 3
  | .streams => 4

def ChType.ofCode : Nat → Option ChType
  | 1 => some .sections
  | 2 => some .records
  | 3 => some .services
  | 4 => some .streams
  | _ => none

/-- The length of the channel array of a type. -/
def ChType.max : ChType → Nat
  | .sections => 32
  | .records => 96
  | .services => 16
  | .streams => 10

def maxFilters : Nat := 176

def chid2Type (channelid : Nat) : Nat := (channelid >>> 16) &&& 0xFFFF

def chid2Index (channelid : Nat) : Nat := channelid &&& 0xFFFF

def typeIndex2Chid (type : ChType) (index : Nat) : Nat := (type.code <<< 16) ||| (index &&& 0xFFFF)

def illegalId : Nat := 0xFFFFFFFF

/-- The status bits of channels and filters. ENABLE and DISABLE are always set and
cleared together. -/
inductive Status where
  | none
  | enable
  | disable
  deriving DecidableEq, Repr

inductive FltFlag where
  | init
  | poll
  | dispatch
  | cb
  deriving DecidableEq, Repr

/-- 0, SESSION_ID and ~SESSION_ID. -/
inductive Session where
  | unset
  | mine
  | past
  deriving DecidableEq, Repr

/-- The nodes of the lists: the head of each channel list, a channel in it, the head
of a channel's filter list, a filter in it. -/
inductive Node where
  | channels (type : ChType)
  | channel (type : ChType) (idx : Nat)
  | filters (type : ChType) (idx : Nat)
  | filter (idx : Nat)
  deriving DecidableEq, Repr

structure Callback where
  requestBuffer : Option Nat
  updateBuffer : Option Nat
  priv : Nat
  deriving DecidableEq, Repr

def maxFilterSize : Nat := 18

structure Filter where
  id : Nat
  status : Status
  size : Nat
  filterValue : List Byte
  filterMask : List Byte
  filterMode : List Byte
  continuous : Bool
  callback : Callback
  access : Bool
  crcCheck : Bool
  flag : FltFlag
  waitClose : Bool
  pCh : Option (ChType × Nat)
  sessionId : Session
  deriving DecidableEq

/-- A filter after `memset`. -/
def Filter.zero : Filter where
  id := 0
  status := .none
  size := 0
  filterValue := List.replicate maxFilterSize 0
  filterMask := List.replicate maxFilterSize 0
  filterMode := List.replicate maxFilterSize 0
  continuous := false
  callback := ⟨none, none, 0⟩
  access := false
  crcCheck := false
  flag := .init
  waitClose := false
  pCh := none
  sessionId := .unset

/-- The enumerations of the driver, with what `memset` leaves. -/
inductive OutputSpace where
  | zero
  | user
  | kernel
  deriving DecidableEq, Repr

inductive OutputFormat where
  | zero
  | ts
  | pes
  | sec
  deriving DecidableEq, Repr

/-- What `channel_parameter_default` sets. -/
structure ChannelParam where
  outputSpace : OutputSpace
  outputFormat : OutputFormat
  secMaskLen : Nat
  secTimeout : Nat
  fstCpySlot : Int
  fe : Nat
  nimChipId : Nat
  deriving DecidableEq

structure Channel where
  id : Nat
  type : Nat
  status : Status
  path : Nat
  seefd : Int
  chParam : ChannelParam
  fltCnt : Nat
  sessionId : Session
  deriving DecidableEq

def ChannelParam.zero : ChannelParam := ⟨.zero, .zero, 0, 0, 0, 0, 0⟩

def Channel.zero : Channel := ⟨0, 0, .none, 0, 0, .zero, 0, .unset⟩

structure Device where
  links : Links Node
  channel : ChType → Nat → Channel
  filter : Nat → Filter
  flag : Nat → Bool
  path : Nat
  seefd : Int
  frontEnd : Nat
  nimChipId : Nat
  fastcopy : Bool

inductive Ret where
  | ok
  | nullDev
  | chType
  | noCh
  | noFilter
  | inval
  deriving DecidableEq, Repr

namespace Device

def setFilter (dev : Device) (idx : Nat) (filter : Filter) : Device :=
  { dev with filter := Function.update dev.filter idx filter }

def setChannel (dev : Device) (type : ChType) (idx : Nat) (channel : Channel) : Device :=
  { dev with
    channel := Function.update dev.channel type (Function.update (dev.channel type) idx channel) }

/-- The loop over `dev->filters` that five functions share. -/
def findFilter (dev : Device) (filterid : Nat) : Option Nat :=
  (List.range maxFilters).find? (fun i =>
    (dev.filter i).id = filterid ∧ (dev.filter i).status ≠ .none)

def freeFilterSlot (dev : Device) : Option Nat :=
  (List.range maxFilters).find? (fun i => (dev.filter i).status = .none)

/-- The entries of a channel list, as `list_for_each_entry_safe` meets them. -/
def channelList (dev : Device) (type : ChType) : Option (List Nat) :=
  (dev.links.entries (.channels type) (type.max + 1)).bind (fun nodes =>
    nodes.mapM (fun
      | .channel _ idx => some idx
      | _ => none))

def findChannel (dev : Device) (type : ChType) (id : Nat) : Option (Option Nat) :=
  (dev.channelList type).map (fun slots => slots.find? (fun i => (dev.channel type i).id = id))

/-- A decrement of an `unsigned int`. -/
def dropFlt (dev : Device) (type : ChType) (idx : Nat) : Device :=
  let channel := dev.channel type idx
  dev.setChannel type idx { channel with fltCnt := ulongSub channel.fltCnt 1 }

def allocateFilter (dev : Device) (channelid : Nat) : Option (Ret × Nat × Device) :=
  if chid2Type channelid ≠ ChType.sections.code then some (.chType, illegalId, dev)
  else (dev.findChannel .sections channelid).bind (fun
    | none => some (.noCh, illegalId, dev)
    | some ch =>
        match dev.freeFilterSlot with
        | none => some (.noFilter, illegalId, dev)
        | some i =>
            (dev.links.addTail (.filter i) (.filters .sections ch)).map (fun links =>
              let filter :=
                { dev.filter i with id := i, status := .disable, pCh := some (.sections, ch) }
              let channel := dev.channel .sections ch
              let taken := { dev with links }.setFilter i filter
              (.ok, i, taken.setChannel .sections ch { channel with fltCnt := channel.fltCnt + 1 })))

/-- The end of `alisldmx_free_filter`: the slot leaves its list and is reset. -/
def removeFilter (dev : Device) (i : Nat) : Option Device :=
  (dev.filter i).pCh.bind (fun ch =>
    (dev.links.del (.filter i)).map (fun links =>
      ({ dev with links := links.clear (.filter i) }.dropFlt ch.1 ch.2).setFilter i .zero))

/-- `alisldmx_free_filter` where the filter is not in a callback or the caller is
the poll thread. -/
def freeFilter (dev : Device) (filterid : Nat) : Option (Ret × Device) :=
  match dev.findFilter filterid with
  | none => some (.noFilter, dev)
  | some i => (dev.removeFilter i).map (fun after => (.ok, after))

/-- The loop of `alisldmx_free_filter_all`; the next entry is read before the
current one is taken out. -/
def freeFilterLoop (type : ChType) (ch : Nat) : Nat → Device → Node → Node → Option Device
  | 0, _, _, _ => none
  | fuel + 1, dev, pos, ahead =>
      if pos = .filters type ch then some dev
      else match pos with
        | .filter i =>
            ((dev.dropFlt type ch).links.del (.filter i)).bind (fun links =>
              let after := { dev.dropFlt type ch with links := links.clear (.filter i) }.setFilter i
                .zero
              (after.links.next ahead).bind (fun later =>
                freeFilterLoop type ch fuel after ahead later))
        | _ => none

def freeFilterAll (dev : Device) (channelid : Nat) : Option (Ret × Device) :=
  if chid2Type channelid ≠ ChType.sections.code then some (.chType, dev)
  else (dev.findChannel .sections channelid).bind (fun
    | none => some (.noCh, dev)
    | some ch =>
        (dev.links.next (.filters .sections ch)).bind (fun pos =>
          (dev.links.next pos).bind (fun ahead =>
            (freeFilterLoop .sections ch (maxFilters + 1) dev pos ahead).map (fun after =>
              (.ok, after)))))

/-- How the functions that only change a filter find it. -/
def configureFilter (dev : Device) (filterid : Nat) (change : Filter → Filter) : Ret × Device :=
  match dev.findFilter filterid with
  | none => (.noFilter, dev)
  | some i => (.ok, dev.setFilter i (change (dev.filter i)))

/-- `memcpy` of `size` bytes if there is a source. -/
def copyBytes (size : Nat) (source : Option (List Byte)) (old : List Byte) : List Byte :=
  match source with
  | none => old
  | some bytes => bytes.take size ++ old.drop size

def setFilterBytes (dev : Device) (filterid size : Nat) (value mask mode : Option (List Byte))
    (continuous : Bool) : Ret × Device :=
  if maxFilterSize < size then (.inval, dev)
  else dev.configureFilter filterid (fun filter =>
    { filter with
      filterValue := copyBytes size value filter.filterValue
      filterMask := copyBytes size mask filter.filterMask
      filterMode := copyBytes size mode filter.filterMode
      size
      continuous })

def setFilterCrcCheck (dev : Device) (filterid : Nat) (crcCheck : Bool) : Ret × Device :=
  dev.configureFilter filterid (fun filter => { filter with crcCheck })

def registerFilterCallback (dev : Device) (filterid : Nat) (callback : Callback) : Ret × Device :=
  dev.configureFilter filterid (fun filter => { filter with callback })

inductive Control where
  | reset
  | enable
  | disable
  deriving DecidableEq, Repr

def controlFilter (dev : Device) (filterid : Nat) (ctrl : Control) : Ret × Device :=
  dev.configureFilter filterid (fun filter =>
    match ctrl with
    | .reset => filter
    | .enable => { filter with status := .enable }
    | .disable => { filter with status := .disable })

def channelParameterDefault (dev : Device) (type : ChType) (id : Nat) (param : ChannelParam) :
    ChannelParam :=
  match type with
  | .sections =>
      { param with outputSpace := .user, outputFormat := .sec, secMaskLen := 1, secTimeout := 30 }
  | .records =>
      { param with
        outputFormat := .ts
        outputSpace := .user
        fstCpySlot := if dev.fastcopy then id else -1 }
  | .services =>
      { param with
        outputSpace := .user
        outputFormat := .pes
        fe := dev.frontEnd
        nimChipId := dev.nimChipId }
  | .streams =>
      { param with
        outputFormat := .ts
        outputSpace := .kernel
        fe := dev.frontEnd
        nimChipId := dev.nimChipId }

def freeChannelSlot (dev : Device) (type : ChType) : Option Nat :=
  (List.range type.max).find? (fun i =>
    (dev.channel type i).status = .none ∨ (dev.channel type i).id = 0)

/-- A device flag bit for each section channel. -/
def setFlag (dev : Device) (bit : Nat) (value : Bool) : Device :=
  { dev with flag := Function.update dev.flag bit value }

def allocateChannel (dev : Device) (type : Nat) : Option (Ret × Nat × Device) :=
  match ChType.ofCode type with
  | none => some (.chType, illegalId, dev)
  | some type =>
      match dev.freeChannelSlot type with
      | none => some (.noCh, illegalId, dev)
      | some i =>
          let id := typeIndex2Chid type i
          let old := dev.channel type i
          let channel :=
            { old with
              status := .disable
              id
              type := type.code
              seefd := dev.seefd
              path := dev.path
              fltCnt := 0
              chParam := dev.channelParameterDefault type id old.chParam }
          let headed := { dev with links := dev.links.initHead (.filters type i) }
          (headed.links.addTail (.channel type i) (.channels type)).map (fun links =>
            let taken := { headed with links }.setChannel type i channel
            (.ok, id, if type = .sections then taken.setFlag (chid2Index id) false else taken))

/-- The second critical section of `alisldmx_free_channel`. -/
def removeChannel (dev : Device) (type : ChType) (channelid : Nat) : Option (Ret × Device) :=
  (dev.findChannel type channelid).bind (fun
    | none => some (.noCh, dev)
    | some i =>
        (dev.links.del (.channel type i)).map (fun links =>
          let cleared := (links.clear (.channel type i)).clear (.filters type i)
          (.ok, { dev with links := cleared }.setChannel type i .zero)))

/-- `alisldmx_free_channel` without a call of another thread in between; what
`alisldmx_free_filter_all` returns is not looked at. -/
def freeChannel (dev : Device) (channelid : Nat) : Option (Ret × Device) :=
  match ChType.ofCode (chid2Type channelid) with
  | none => some (.chType, dev)
  | some type =>
      (dev.freeFilterAll channelid).bind (fun result => result.2.removeChannel type channelid)

end Device

end Alisl.Dmx
