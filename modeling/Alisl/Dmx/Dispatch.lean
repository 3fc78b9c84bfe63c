import Alisl.Dmx.Calls
import Alisl.Upgrade.Crc

/-! The poll thread delivering a section while other threads call the interface.
A step is one critical section of `sect_mutex`, or the unlocked end of a callback. -/

namespace Alisl.Dmx

open Alisl.Base

def maxSectionSize : Nat := 4096

/-- The entries of `ccitt_crc32_table` are those of the table of fastCRC.c. -/
def calcCrc32 (data : List Byte) : BitVec 32 := Upgrade.mgTableDrivenCrc 0xFFFFFFFF#32 data

structure HitResult where
  res1 : Bool
  res2 : Bool
  first : Bool

/-- One turn of the loop of `section_hit`. -/
def hitTurn (filter : Filter) (data : List Byte) (result : HitResult) (i : Nat) : HitResult :=
  let filt := filter.filterValue.getD i 0
  let mask := filter.filterMask.getD i 0
  let mode := filter.filterMode.getD i 0 &&& mask
  let modeR := ~~~(filter.filterMode.getD i 0) &&& mask
  let value := data.getD i 0
  let opens := modeR ≠ 0 ∧ result.first
  { res1 := if mode &&& value ≠ mode &&& filt then false else result.res1
    res2 := if modeR &&& value ≠ modeR &&& filt then true
      else if opens then false else result.res2
    first := if opens then false else result.first }

def sectionHit (filter : Filter) (data : List Byte) : Bool :=
  if filter.status ≠ .enable then false
  else
    let result := (List.range filter.size).foldl (hitTurn filter data) ⟨true, true, true⟩
    result.res1 && result.res2

inductive Kind where
  | request
  | update
  deriving DecidableEq, Repr

/-- The user's function that is called, and what of its arguments the device decides. -/
structure Upcall where
  function : Nat
  priv : Nat
  chId : Nat
  fltId : Nat
  deriving DecidableEq, Repr

/-- How a critical section of the poll thread ends. -/
inductive Stop where
  | quit
  | callback (kind : Kind) (slot : Nat) (upcall : Upcall)
  deriving DecidableEq, Repr

namespace Device

def mark (dev : Device) (i : Nat) : Device := dev.setFilter i { dev.filter i with access := true }

/-- The writes before the mutex is released for a callback. -/
def enter (dev : Device) (ch i : Nat) : Device :=
  (dev.setFilter i { dev.filter i with flag := .cb, sessionId := .mine }).setChannel .sections ch
    { dev.channel .sections ch with sessionId := .mine }

/-- The end of the loop body: a filter that is not continuous is disabled. -/
def finish (dev : Device) (ch i : Nat) : Device :=
  let filter := dev.filter i
  if filter.status = .enable ∧ ¬ filter.continuous then
    (dev.setFlag (chid2Index (dev.channel .sections ch).id) true).setFilter i
      { filter with status := .disable, access := true }
  else dev.mark i

/-- The loop over the filters, up to the list head or the next callback. -/
def scan (data : List Byte) (ch : Nat) : Nat → Device → Node → Option (Stop × Device)
  | 0, _, _ => none
  | fuel + 1, dev, pos =>
      if pos = .filters .sections ch then some (.quit, dev)
      else match pos with
        | .filter i =>
            let filter := dev.filter i
            let onward := fun after : Device =>
              (after.links.next (.filter i)).bind (fun next => scan data ch fuel after next)
            if filter.status ≠ .enable ∨ filter.access ∨ filter.waitClose then onward dev
            else if ¬ sectionHit filter data then onward (dev.mark i)
            else if filter.crcCheck ∧ calcCrc32 data ≠ 0 then onward (dev.mark i)
            else
              let upcall := fun function =>
                Upcall.mk function filter.callback.priv (dev.channel .sections ch).id filter.id
              match filter.callback.requestBuffer, filter.callback.updateBuffer with
              | some function, _ =>
                  some (.callback .request i (upcall function), dev.enter ch i)
              | none, some function =>
                  some (.callback .update i (upcall function), dev.enter ch i)
              | none, none => onward (dev.finish ch i)
        | _ => none

def scanFuel : Nat := maxFilters + 1

/-- A list head is no filter: what is written behind it is not modelled. -/
def unmark (dev : Device) : Node → Device
  | .filter i => dev.setFilter i { dev.filter i with access := false }
  | _ => dev

def touch (dev : Device) : Node → Device
  | .filter i => dev.setFilter i { dev.filter i with sessionId := .past }
  | _ => dev

def clearAccess (dev : Device) (ch : Nat) : Option Device :=
  (dev.links.entries (.filters .sections ch) scanFuel).map (fun nodes => nodes.foldl unmark dev)

/-- `section_dispatch` up to its first callback. `readable` says that `fstatfs` succeeds,
and `data` is what `read` gives. -/
def sectionDispatch (dev : Device) (ch : Nat) (readable : Bool) (data : List Byte) :
    Option (Stop × Device) :=
  if (dev.channel .sections ch).status ≠ .enable ∨ ¬ readable ∨ data = [] then some (.quit, dev)
  else (dev.clearAccess ch).bind (fun cleared =>
    (cleared.links.next (.filters .sections ch)).bind (fun pos =>
      scan data ch scanFuel cleared pos))

/-- The loop starts again at the list head. -/
def restart (dev : Device) (data : List Byte) (ch : Nat) : Option (Stop × Device) :=
  (dev.links.next (.filters .sections ch)).bind (fun pos =>
    scan data ch scanFuel (dev.touch pos) pos)

def advance (dev : Device) (data : List Byte) (ch i : Nat) : Option (Stop × Device) :=
  (dev.links.next (.filter i)).bind (fun pos => scan data ch scanFuel dev pos)

def settle (dev : Device) (ch : Nat) : Device :=
  dev.setChannel .sections ch { dev.channel .sections ch with sessionId := .past }

/-- `section_dispatch` after a callback. -/
def resume (dev : Device) (data : List Byte) (ch i : Nat) (kind : Kind) (upcall : Upcall)
    (bufferOk : Bool) : Option (Stop × Device) :=
  let channel := dev.channel .sections ch
  if channel.status ≠ .enable ∨ channel.sessionId ≠ .mine then some (.quit, dev)
  else
    let settled := dev.settle ch
    let filter := settled.filter i
    if filter.sessionId ≠ .mine ∨ filter.status = .none then settled.restart data ch
    else if filter.status ≠ .enable then
      (settled.links.next (.filter i)).bind (fun pos =>
        scan data ch scanFuel (settled.touch pos) pos)
    else match kind with
      | .request =>
          if ¬ bufferOk then settled.advance data ch i
          else match filter.callback.updateBuffer with
            | some function =>
                some (.callback .update i { upcall with function, priv := filter.callback.priv },
                  settled.enter ch i)
            | none => (settled.finish ch i).advance data ch i
      | .update => (settled.finish ch i).advance data ch i

end Device

/-- A filter between its allocation and its removal: how often its slot was taken. -/
structure Inc where
  slot : Nat
  gen : Nat
  deriving DecidableEq, Repr

/-- What `section_dispatch` keeps while the mutex is released. -/
structure Window where
  ch : Nat
  data : List Byte
  kind : Kind
  slot : Nat
  gen : Nat
  upcall : Upcall
  deriving DecidableEq

def Window.inc (window : Window) : Inc := ⟨window.slot, window.gen⟩

inductive Poll where
  | idle
  | running (window : Window)
  | returned (window : Window) (bufferOk : Bool)
  deriving DecidableEq

/-- The window the poll thread is in. -/
def Poll.window? : Poll → Option Window
  | .idle => none
  | .running window => some window
  | .returned window _ => some window

/-- A call of `alisldmx_free_filter` that has returned 0. -/
structure Free where
  poll : Bool
  found : Inc
  removed : Inc
  deriving DecidableEq

/-- `waits` are the calls of `alisldmx_free_filter` in their wait loop, `closing` those of
`alisldmx_free_channel` between their critical sections. How often a slot was taken,
what was removed and which filters got the section is only recorded. -/
structure Sys where
  dev : Device
  poll : Poll
  pollClosing : Option Nat
  waits : List Inc
  closing : List Nat
  gen : Nat → Nat
  delivered : List Inc
  frees : List Free
  removed : List Inc

inductive Label where
  | dispatch (ch : Nat) (readable : Bool) (data : List Byte)
  | callbackReturn (bufferOk : Bool)
  | resume
  | call (poll : Bool) (call : Call)
  | retry (found : Inc)
  | finish (poll : Bool) (channelid : Nat)

namespace Sys

def inc (state : Sys) (i : Nat) : Inc := ⟨i, state.gen i⟩

/-- The mutex is released, with or without a callback. -/
def stop (state : Sys) (ch : Nat) (data : List Byte) : Stop × Device → Sys
  | (.quit, dev) => { state with dev, poll := .idle }
  | (.callback kind slot upcall, dev) =>
      { state with
        dev
        poll := .running ⟨ch, data, kind, slot, state.gen slot, upcall⟩
        delivered :=
          if kind = .update then state.delivered ++ [state.inc slot] else state.delivered }

/-- The poll thread can call the interface while it is not in `section_dispatch`, and
in a callback. -/
def pollFree (state : Sys) : Bool :=
  state.pollClosing = none && match state.poll with
    | .idle => true
    | .running _ => true
    | .returned _ _ => false

def markWait (dev : Device) (i : Nat) : Device :=
  dev.setFilter i { dev.filter i with waitClose := true }

def free (state : Sys) (poll : Bool) (found : Inc) : Option Sys :=
  (state.dev.removeFilter found.slot).map (fun dev =>
    { state with dev, frees := state.frees ++ [⟨poll, found, state.inc found.slot⟩] })

/-- The first critical section of a call. -/
def call (state : Sys) (poll : Bool) : Call → Option Sys
  | .freeFilter filterid =>
      match state.dev.findFilter filterid with
      | none => some state
      | some i =>
          if poll = false ∧ (state.dev.filter i).flag = .cb then
            some { state with dev := markWait state.dev i, waits := state.inc i :: state.waits }
          else state.free poll (state.inc i)
  | .freeChannel channelid =>
      match ChType.ofCode (chid2Type channelid) with
      | none => some state
      | some _ =>
          (state.dev.freeFilterAll channelid).map (fun result =>
            if poll then { state with dev := result.2, pollClosing := some channelid }
            else { state with dev := result.2, closing := channelid :: state.closing })
  | .allocateFilter channelid =>
      (state.dev.allocateFilter channelid).map (fun result =>
        { state with
          dev := result.2.2
          gen :=
            if result.1 = .ok then
              Function.update state.gen result.2.1 (state.gen result.2.1 + 1)
            else state.gen })
  | other => (state.dev.perform other).map (fun result => { state with dev := result.2 })

/-- The wait loop of `alisldmx_free_filter` looks at the flag again. -/
def retry (state : Sys) (found : Inc) : Option Sys :=
  if found ∉ state.waits then none
  else if (state.dev.filter found.slot).flag = .cb then
    some { state with dev := markWait state.dev found.slot }
  else ({ state with waits := state.waits.erase found }).free false found

def closeChannel (state : Sys) (channelid : Nat) : Option Sys :=
  (ChType.ofCode (chid2Type channelid)).bind (fun type =>
    (state.dev.removeChannel type channelid).map (fun result => { state with dev := result.2 }))

def step (state : Sys) : Label → Option Sys
  | .dispatch ch readable data =>
      if state.poll = .idle ∧ state.pollClosing = none ∧ data.length ≤ maxSectionSize then
        (state.dev.sectionDispatch ch readable data).map
          (({ state with delivered := [] } : Sys).stop ch data)
      else none
  | .callbackReturn bufferOk =>
      match state.poll with
      | .running window =>
          if state.pollClosing = none then
            some { state with
              dev := state.dev.setFilter window.slot
                { state.dev.filter window.slot with flag := .dispatch }
              poll := .returned window bufferOk }
          else none
      | _ => none
  | .resume =>
      match state.poll with
      | .returned window bufferOk =>
          (state.dev.resume window.data window.ch window.slot window.kind window.upcall
            bufferOk).map (state.stop window.ch window.data)
      | _ => none
  | .call poll call => if poll && !state.pollFree then none else state.call poll call
  | .retry found => state.retry found
  | .finish poll channelid =>
      if poll then
        if state.pollClosing = some channelid then
          ({ state with pollClosing := none } : Sys).closeChannel channelid
        else none
      else if channelid ∈ state.closing then
        ({ state with closing := state.closing.erase channelid } : Sys).closeChannel channelid
      else none

/-- The filters on the list of a section channel. -/
def listed (dev : Device) (ch : Nat) : List Nat :=
  ((dev.links.entries (.filters .sections ch) Device.scanFuel).getD []).filterMap (fun
    | .filter i => some i
    | _ => none)

/-- The filters `alisldmx_free_filter_all` frees. -/
def listedUnder (dev : Device) (channelid : Nat) : List Nat :=
  if chid2Type channelid ≠ ChType.sections.code then []
  else match dev.findChannel .sections channelid with
    | some (some ch) => listed dev ch
    | _ => []

/-- The slots a step frees. -/
def freedBy (state : Sys) : Label → List Nat
  | .call poll (.freeFilter filterid) =>
      match state.dev.findFilter filterid with
      | none => []
      | some i => if poll = false ∧ (state.dev.filter i).flag = .cb then [] else [i]
  | .call _ (.freeFilterAll channelid) => listedUnder state.dev channelid
  | .call _ (.freeChannel channelid) => listedUnder state.dev channelid
  | .retry found => if (state.dev.filter found.slot).flag = .cb then [] else [found.slot]
  | _ => []

/-- The calls that go on waiting when a step frees a slot. -/
def otherWaits (state : Sys) : Label → List Inc
  | .retry found => state.waits.erase found
  | _ => state.waits

end Sys

/-- The critical section at the end of `channel_start`. -/
def Device.channelStart (dev : Device) (ch : Nat) : Device :=
  dev.setChannel .sections ch { dev.channel .sections ch with status := .enable }

/-- No call in progress. -/
def Sys.atRest (dev : Device) : Sys where
  dev
  poll := .idle
  pollClosing := none
  waits := []
  closing := []
  gen := fun _ => 0
  delivered := []
  frees := []
  removed := []

/-- The threads of a device whose pools are in order. -/
def demux : Machine Sys Label where
  Initial state := (∃ lists, Linked state.dev lists) ∧ state.poll = .idle ∧
    state.pollClosing = none ∧ state.waits = [] ∧ state.closing = [] ∧ state.delivered = [] ∧
    state.frees = [] ∧ state.removed = []
  next state label := (state.step label).map (fun after =>
    { after with removed := state.removed ++ (state.freedBy label).map state.inc })

end Alisl.Dmx
