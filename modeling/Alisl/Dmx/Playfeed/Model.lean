import Alisl.Base.Flag
import Alisl.Base.Machine

/-! The playfeed thread and the thread that starts, pauses and stops the device.

A step is one operation on `dev->status`, or one call of the feed loop. -/

namespace Alisl.Dmx

open Alisl.Base

inductive StatusBit where
  | construct
  | opened
  | start
  | pause
  | stop
  | idleP1
  | idleP2
  | idleP3
  | close
  deriving DecidableEq, Repr

/-- The shifts of the `DMX_STATUS_` constants. -/
def StatusBit.index : StatusBit → Nat
  | .construct => 0
  | .opened => 1
  | .start => 2
  | .pause => 3
  | .stop => 4
  | .idleP1 => 5
  | .idleP2 => 6
  | .idleP3 => 7
  | .close => 8

def dmxStatus (bits : List StatusBit) : BitVec 32 := Flag.pattern (bits.map StatusBit.index)

def playfeedMinAvailableBuf : Int := 47 * 1024 + 2 * 188

/-- The local buffer of the thread; `buf` says that the pointer is not NULL. -/
structure FeedBuffer where
  buf : Bool
  size : Nat
  write : Nat
  deriving DecidableEq, Repr

def FeedBuffer.zero : FeedBuffer := ⟨false, 0, 0⟩

/-- What the next step of the feed loop is. -/
inductive Feeder where
  | testP1
  | clearP1
  | setP2
  | waitP3
  | clearP3
  | waitStart
  | space
  | requestData
  | writeFeed
  deriving DecidableEq, Repr

/-- What the calls of a turn answer. `requestData` is NULL or gives buf, size and fastcopy. -/
structure FeedAnswer where
  pktCnt : Int
  requestData : Option (Bool × Nat × Bool)
  nbytes : Int
  deriving DecidableEq, Repr

/-- The calls that wait for the playfeed thread. -/
inductive Halt where
  | pause
  | stop
  deriving DecidableEq, Repr

/-- What the next step of the controlling thread is. -/
inductive Control where
  | returned
  | startOpen
  | startStart
  | startPause
  | startClear
  | startSet
  | pauseStart
  | pausePause
  | stopAny
  | stopStop
  | stopStart
  | setP1 (halt : Halt)
  | waitP2 (halt : Halt)
  | clearP2 (halt : Halt)
  | clearStart (halt : Halt)
  | setP3 (halt : Halt)
  | haltClear (halt : Halt) (started : Bool)
  | haltSet (halt : Halt) (started : Bool)
  deriving DecidableEq, Repr

inductive ControlCall where
  | start
  | pause
  | stop
  deriving DecidableEq, Repr

def ControlCall.first : ControlCall → Control
  | .start => .startOpen
  | .pause => .pauseStart
  | .stop => .stopAny

/-- `round` counts the handshakes begun, `tag` says for each bit the handshake in which it was
set, and `answering` is the one the playfeed thread takes part in. `quiet` is set when a call that
found the device started returns, until the next start. All four are only recorded. -/
structure Playback where
  status : Flag
  feeder : Feeder
  buffer : FeedBuffer
  fastcopy : Bool
  devFastcopy : Bool
  control : Control
  round : Nat
  tag : StatusBit → Nat
  answering : Nat
  quiet : Bool

namespace Playback

def on (state : Playback) (bit : StatusBit) : Bool := state.status.testAny (dmxStatus [bit])

def onAny (state : Playback) (bits : List StatusBit) : Bool := state.status.testAny (dmxStatus bits)

def clear (state : Playback) (bits : List StatusBit) : Playback :=
  { state with status := state.status.clear (dmxStatus bits) }

/-- A bit that is already set keeps the handshake it was set in. -/
def set (state : Playback) (bit : StatusBit) (round : Nat) : Playback :=
  { state with
    status := state.status.set (dmxStatus [bit])
    tag := if state.on bit then state.tag else Function.update state.tag bit round }

def goFeed (state : Playback) (feeder : Feeder) : Playback := { state with feeder }

def goControl (state : Playback) (control : Control) : Playback := { state with control }

/-- The call returns; `started` says that it found the device started. -/
def leave (state : Playback) (started : Bool) : Playback :=
  { state with control := .returned, quiet := state.quiet || started }

/-- The part of a turn after the request: FSTCPY and `write` both write to `feedfd`. -/
def writeTurn (state : Playback) (nbytes : Int) : Playback :=
  if nbytes ≤ 0 then state.goFeed .testP1
  else
    let write := state.buffer.write + nbytes.toNat
    { state with
      feeder := .testP1
      buffer := if write ≥ state.buffer.size then .zero else { state.buffer with write } }

def requestTurn (state : Playback) : Option (Bool × Nat × Bool) → Playback
  | none => state.goFeed .testP1
  | some (buf, size, fastcopy) =>
      let filled := { state with buffer := { state.buffer with buf, size }, fastcopy }
      if size = 0 ∨ (buf = false ∧ state.devFastcopy = false) then filled.goFeed .testP1
      else filled.goFeed .writeFeed

/-- `alisldmx_playfeed_pthread`. -/
def playfeed (state : Playback) (answer : FeedAnswer) : Option Playback :=
  match state.feeder with
  | .testP1 =>
      if state.on .idleP1 then
        some { state with feeder := .clearP1, answering := state.tag .idleP1 }
      else some (state.goFeed .waitStart)
  | .clearP1 => some ((state.clear [.idleP1]).goFeed .setP2)
  | .setP2 => some ((state.set .idleP2 state.answering).goFeed .waitP3)
  | .waitP3 => if state.on .idleP3 then some (state.goFeed .clearP3) else none
  | .clearP3 => some ((state.clear [.idleP3]).goFeed .waitStart)
  | .waitStart => if state.on .start then some (state.goFeed .space) else none
  | .space =>
      if answer.pktCnt ≤ playfeedMinAvailableBuf then some (state.goFeed .testP1)
      else if state.buffer.buf = false ∨ state.buffer.size = 0 then
        some (state.goFeed .requestData)
      else some (state.goFeed .writeFeed)
  | .requestData => some (state.requestTurn answer.requestData)
  | .writeFeed => some (state.writeTurn answer.nbytes)

/-- The flag that says how the call ended. -/
def haltBit : Halt → StatusBit
  | .pause => .pause
  | .stop => .stop

def haltBits : Halt → List StatusBit
  | .pause => [.start]
  | .stop => [.start, .pause]

/-- `alisldmx_start`, `alisldmx_pause` and `alisldmx_stop` on a device with a playfeed thread. -/
def controller (state : Playback) : Option Playback :=
  match state.control with
  | .returned => none
  | .startOpen => some (if state.on .opened then state.goControl .startStart else state.leave false)
  | .startStart => some (if state.on .start then state.leave false else state.goControl .startPause)
  | .startPause => some (state.goControl .startClear)
  | .startClear => some ((state.clear [.stop, .pause]).goControl .startSet)
  | .startSet =>
      let set := state.set .start state.round
      some { set with control := .returned, quiet := false }
  | .pauseStart =>
      some (if state.on .start then state.goControl .pausePause else state.leave false)
  | .pausePause => some (if state.on .pause then state.leave true else state.goControl (.setP1 .pause))
  | .stopAny =>
      some (if state.onAny [.start, .pause] then state.goControl .stopStop else state.leave false)
  | .stopStop =>
      some (if state.on .stop then state.leave (state.on .start) else state.goControl .stopStart)
  | .stopStart =>
      some (if state.on .start then state.goControl (.setP1 .stop)
        else state.goControl (.haltClear .stop false))
  | .setP1 halt =>
      let set := state.set .idleP1 (state.round + 1)
      some { set with control := .waitP2 halt, round := state.round + 1 }
  | .waitP2 halt => if state.on .idleP2 then some (state.goControl (.clearP2 halt)) else none
  | .clearP2 halt => some ((state.clear [.idleP2]).goControl (.clearStart halt))
  | .clearStart halt => some ((state.clear [.start]).goControl (.setP3 halt))
  | .setP3 halt => some ((state.set .idleP3 state.round).goControl (.haltClear halt true))
  | .haltClear halt started =>
      some ((state.clear (haltBits halt)).goControl (.haltSet halt started))
  | .haltSet halt started => some ((state.set (haltBit halt) state.round).leave started)

end Playback

inductive PlayLabel where
  | feed (answer : FeedAnswer)
  | call (call : ControlCall)
  | control
  deriving DecidableEq, Repr

def Playback.step (state : Playback) : PlayLabel → Option Playback
  | .feed answer => state.playfeed answer
  | .call call => if state.control = .returned then some (state.goControl call.first) else none
  | .control => state.controller

/-- A device whose threads have just been created by `alisldmx_open`. -/
def playback : Machine Playback PlayLabel where
  Initial state :=
    state.status = ⟨dmxStatus [.construct, .opened]⟩ ∧ state.feeder = .testP1 ∧
      state.buffer = .zero ∧ state.control = .returned ∧ state.round = 0 ∧ state.quiet = false
  next := Playback.step

theorem StatusBit.index_lt (bit : StatusBit) : bit.index < 32 := by
  cases bit <;> decide

theorem getLsbD_dmxStatus (bits : List StatusBit) (bit : StatusBit) :
    (dmxStatus bits).getLsbD bit.index = decide (bit ∈ bits) := by
  have injective : ∀ other : StatusBit, other.index = bit.index → other = bit := by
    intro other
    cases other <;> cases bit <;> decide
  rw [dmxStatus, Flag.getLsbD_pattern _ _ bit.index_lt]
  congr 1
  apply propext
  rw [List.mem_map]
  constructor
  case mp =>
    intro found
    rcases found with ⟨other, member, same⟩
    rw [← injective other same]
    exact member
  case mpr =>
    intro member
    exact ⟨bit, member, rfl⟩

namespace Playback

variable (state : Playback) (bit : StatusBit)

theorem on_eq : state.on bit = state.status.has bit.index := by
  rw [on, dmxStatus, Flag.testAny_pattern]
  · simp
  · simp [StatusBit.index_lt]

@[simp] theorem on_clear (bits : List StatusBit) :
    (state.clear bits).on bit = (state.on bit && decide (bit ∉ bits)) := by
  rw [on_eq, on_eq, clear, Flag.has_clear, getLsbD_dmxStatus]
  simp

@[simp] theorem on_set (other : StatusBit) (round : Nat) :
    (state.set other round).on bit = (state.on bit || decide (bit = other)) := by
  rw [on_eq, on_eq, set, Flag.has_set, getLsbD_dmxStatus]
  simp

@[simp] theorem on_goFeed (feeder : Feeder) : (state.goFeed feeder).on bit = state.on bit := rfl

@[simp] theorem on_goControl (control : Control) : (state.goControl control).on bit = state.on bit :=
  rfl

@[simp] theorem control_goControl (control : Control) :
    (state.goControl control).control = control := rfl

@[simp] theorem control_leave (started : Bool) : (state.leave started).control = .returned := rfl

@[simp] theorem on_leave (started : Bool) : (state.leave started).on bit = state.on bit := rfl

end Playback

end Alisl.Dmx
