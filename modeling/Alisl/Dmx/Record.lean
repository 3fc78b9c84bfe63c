import Alisl.Base.Bytes
import Alisl.Base.Machine

/-! The record channel: `record_dispatch` between the driver's block stream and the buffers of the
user. -/

namespace Alisl.Dmx.Record

open Alisl.Base

def tsPktSize : Nat := 188

def readThrowSize : Nat := 1504

def throwThreshold : Nat := 2566952

/-- What `record_dispatch` reads of a `PVR_RECORD_HEADER_PKT`. -/
structure Header where
  pktNum : Nat
  ifmOffset : BitVec 16
  deriving DecidableEq, Repr

/-- The driver's layout of a header packet: `none` for a packet without the block sync. -/
abbrev Layout := List Byte → Option Header

/-- `struct dmx_buffer`; `buf` holds what was read into the user's memory, `none` is `NULL`. -/
structure Buffer where
  buf : Option (List Byte)
  size : Nat
  write : Nat
  ifmOffset : BitVec 16
  deriving DecidableEq, Repr

def Buffer.zero : Buffer := ⟨none, 0, 0, 0⟩

inductive Format where
  | ts
  | pes
  deriving DecidableEq, Repr

structure Channel where
  enabled : Bool
  outputFormat : Format
  uncachePara : Bool
  fastcopy : Bool
  blockSize : Nat
  buffer : Buffer
  needRerequestSize : Nat
  /-- What the driver still has to give on the channel's file. -/
  stream : List Byte
  deriving DecidableEq, Repr

/-- How the driver and the user answer in one call: whether `fstatfs` succeeds, how many reads of a
header packet do, what `ALI_DMX_CHANNEL_GET_CUR_PKT_LEN` gives, whether `request_buffer` gives a buffer
of the requested size, what the reads into `throw_buf` give, and what the read of the payload gives. -/
structure Answers where
  valid : Bool
  headers : Nat
  curPktLen : Option Nat
  granted : Bool
  thrown : List Nat
  got : Nat
  deriving DecidableEq, Repr

/-- A call of `update_buffer`. -/
structure Update where
  data : List Byte
  ifmOffset : BitVec 16
  deriving DecidableEq, Repr

/-- The search for a header packet; `none` when a read fails. -/
def findHeader (layout : Layout) : Nat → List Byte → Option Header × List Byte
  | 0, stream => (none, stream)
  | reads + 1, stream =>
      if stream.length < tsPktSize then (none, stream)
      else match layout (stream.take tsPktSize) with
        | some header => (some header, stream.drop tsPktSize)
        | none => findHeader layout reads (stream.drop tsPktSize)

/-- Data is thrown away piece by piece, up to a read that falls short. -/
def throwAway : List Nat → Nat → List Byte → List Byte
  | [], _, stream => stream
  | read :: reads, remainThrowSize, stream =>
      if remainThrowSize = 0 then stream
      else
        let throwRead := min remainThrowSize readThrowSize
        let nbytes := min read (min throwRead stream.length)
        if nbytes ≠ throwRead then stream.drop nbytes
        else throwAway reads (remainThrowSize - nbytes) (stream.drop nbytes)

namespace Channel

/-- The size to request and the `ifm_offset` of `tmp_pkt`; `none` when no header packet is read. -/
def requestSize (layout : Layout) (ch : Channel) (answers : Answers) :
    Option (Nat × BitVec 16) × List Byte :=
  match ch.outputFormat with
  | .pes => (some (answers.curPktLen.getD ch.blockSize, 0), ch.stream)
  | .ts =>
      if ch.uncachePara then (some (ch.blockSize, 0), ch.stream)
      else if ch.needRerequestSize ≠ 0 then (some (ch.needRerequestSize, 0), ch.stream)
      else
        let (found, stream) := findHeader layout answers.headers ch.stream
        (found.map (fun header => (header.pktNum * tsPktSize, header.ifmOffset)), stream)

/-- The user has no buffer. -/
def refuse (ch : Channel) (answers : Answers) (requestSize : Nat) : Channel :=
  if ch.outputFormat = .ts ∧ throwThreshold ≤ answers.curPktLen.getD 0 then
    { ch with
      buffer := .zero
      needRerequestSize := 0
      stream := throwAway answers.thrown requestSize ch.stream }
  else { ch with buffer := .zero, needRerequestSize := requestSize }

/-- Data is read into the buffer, and the buffer is handed over when it is full. -/
def fill (ch : Channel) (answers : Answers) : Channel × Option Update :=
  let buffer := ch.buffer
  let remainSize := buffer.size - buffer.write
  let data := ch.stream.take (min answers.got remainSize)
  if data = [] then (ch, none)
  else
    let held := buffer.buf.getD []
    let filled :=
      if ch.fastcopy then data ++ held.drop data.length
      else held.take buffer.write ++ data ++ held.drop (buffer.write + data.length)
    let write := buffer.write + data.length
    let stream := ch.stream.drop data.length
    if buffer.size - write = 0 ∨ ch.uncachePara then
      ({ ch with buffer := .zero, stream }, some ⟨filled.take write, buffer.ifmOffset⟩)
    else ({ ch with buffer := { buffer with buf := some filled, write }, stream }, none)

def recordDispatch (layout : Layout) (ch : Channel) (answers : Answers) : Channel × Option Update :=
  if ¬ ch.enabled ∨ ¬ answers.valid then (ch, none)
  else match ch.buffer.buf with
    | some _ => ch.fill answers
    | none =>
        match ch.requestSize layout answers with
        | (none, stream) => ({ ch with stream }, none)
        | (some (requestSize, ifmOffset), stream) =>
            let read := { ch with stream }
            if ¬ answers.granted ∨ requestSize = 0 then (read.refuse answers requestSize, none)
            else ({ read with buffer := ⟨some [], requestSize, 0, ifmOffset⟩ } : Channel).fill answers

def channelStop (ch : Channel) : Channel := { ch with enabled := false }

/-- `channel_start`: the file is opened anew, with another stream behind it. -/
def channelStart (ch : Channel) (opened : Bool) (stream : List Byte) : Channel :=
  if ch.enabled then ch
  else
    let reset := { ch with needRerequestSize := 0 }
    if opened then { reset with enabled := true, stream } else reset

end Channel

/-- A block of the driver: a header packet with the block sync, and the packets it announces. -/
structure Block (layout : Layout) where
  packet : List Byte
  header : Header
  payload : List Byte
  packet_length : packet.length = tsPktSize
  parsed : layout packet = some header
  payload_length : payload.length = header.pktNum * tsPktSize

namespace Block

variable {layout : Layout}

def bytes (block : Block layout) : List Byte := block.packet ++ block.payload

/-- The call of `update_buffer` a block should give. -/
def update (block : Block layout) : Update := ⟨block.payload, block.header.ifmOffset⟩

end Block

/-- A channel, the blocks the driver has since the last start, and the calls of `update_buffer` since
then. -/
structure Session (layout : Layout) where
  ch : Channel
  blocks : List (Block layout)
  delivered : List Update

inductive Label (layout : Layout) where
  | dispatch (answers : Answers)
  | stop
  | start (opened : Bool) (blocks : List (Block layout))

namespace Session

variable {layout : Layout}

/-- The backlog of the driver stays below the threshold. -/
def step (state : Session layout) : Label layout → Option (Session layout)
  | .dispatch answers =>
      if answers.curPktLen.getD 0 < throwThreshold then
        let result := state.ch.recordDispatch layout answers
        some { state with ch := result.1, delivered := state.delivered ++ result.2.toList }
      else none
  | .stop => some { state with ch := state.ch.channelStop }
  | .start opened blocks =>
      let ch := state.ch.channelStart opened (blocks.flatMap Block.bytes)
      if state.ch.enabled ∨ ¬ opened then some { state with ch }
      else some ⟨ch, blocks, []⟩

end Session

/-- A cached TS channel without fastcopy. -/
def recorder (layout : Layout) : Machine (Session layout) (Label layout) where
  Initial state := ∃ blockSize,
    state = ⟨⟨false, .ts, false, false, blockSize, .zero, 0, []⟩, [], []⟩
  next := Session.step

/-- Each call of `update_buffer` carries one block, in the order of the blocks, and no block that was
read is missing. -/
structure Intact {layout : Layout} (state : Session layout) : Prop where
  ordered : state.delivered <+: state.blocks.map Block.update
  complete : state.ch.stream = [] → state.delivered = state.blocks.map Block.update

namespace Session

variable {layout : Layout}

/-- No request succeeds after one that failed, the channel is not started while it holds a buffer of
the last run, and the driver gives no empty block. -/
def smooth (state : Session layout) : Label layout → Bool
  | .dispatch answers =>
      !state.ch.enabled || !answers.valid || state.ch.buffer.buf.isSome ||
        decide (state.ch.needRerequestSize = 0) || !answers.granted
  | .stop => true
  | .start opened blocks =>
      state.ch.enabled || !opened || (state.ch.buffer.buf.isNone &&
        blocks.all (fun block => decide (block.header.pktNum ≠ 0)))

end Session

/-- The runs whose steps all meet this. -/
def smoothRecorder (layout : Layout) : Machine (Session layout) (Label layout) :=
  (recorder layout).restrict (fun state label => state.smooth label = true)

/-! The channel between the blocks that were delivered and those to come. -/

section Phases

variable {layout : Layout}

def bytesOf (blocks : List (Block layout)) : List Byte := blocks.flatMap Block.bytes

theorem bytesOf_cons (block : Block layout) (blocks : List (Block layout)) :
    bytesOf (block :: blocks) = block.packet ++ (block.payload ++ bytesOf blocks) := by
  rw [bytesOf, List.flatMap_cons, Block.bytes, List.append_assoc]
  rfl

structure Channel.Cached (ch : Channel) : Prop where
  ts : ch.outputFormat = .ts
  cached : ch.uncachePara = false
  copied : ch.fastcopy = false

/-- Where the channel is in the blocks that are not delivered yet: before a header, behind a header
whose buffer was refused, or in a payload. -/
inductive Phase (ch : Channel) : List (Block layout) → Prop where
  | idle {rest : List (Block layout)} (empty : ch.buffer.buf = none)
      (fresh : ch.needRerequestSize = 0) (ahead : ch.stream = bytesOf rest) : Phase ch rest
  | refused {block : Block layout} {later : List (Block layout)} (empty : ch.buffer.buf = none)
      (pending : ch.needRerequestSize = block.payload.length)
      (ahead : ch.stream = block.payload ++ bytesOf later) : Phase ch (block :: later)
  | filling {block : Block layout} {later : List (Block layout)} (read left : List Byte)
      (held : ch.buffer =
        ⟨some read, block.payload.length, read.length, block.header.ifmOffset⟩)
      (fresh : ch.needRerequestSize = 0) (cut : block.payload = read ++ left)
      (more : left ≠ []) (ahead : ch.stream = left ++ bytesOf later) : Phase ch (block :: later)

/-- A step of the channel hands over the first of the blocks to come, or none. -/
inductive Advance (rest : List (Block layout)) (after : Channel × Option Update) : Prop where
  | stays (phase : Phase after.1 rest) (silent : after.2 = none)
  | delivers (block : Block layout) (later : List (Block layout)) (first : rest = block :: later)
      (phase : Phase after.1 later) (update : after.2 = some block.update)

theorem payload_ne_nil {block : Block layout} (full : block.header.pktNum ≠ 0) :
    block.payload ≠ [] := by
  apply List.ne_nil_of_length_pos
  rw [block.payload_length]
  exact Nat.mul_pos (Nat.pos_of_ne_zero full) (by decide)

/-- A file with nothing to read is behind all blocks. -/
theorem Phase.exhausted {ch : Channel} {rest : List (Block layout)} (phase : Phase ch rest)
    (full : ∀ block ∈ rest, block.header.pktNum ≠ 0) (over_ : ch.stream = []) : rest = [] := by
  cases phase with
  | idle _ _ ahead =>
      cases rest with
      | nil => rfl
      | cons block later =>
          rw [over_, bytesOf_cons] at ahead
          have packet := (List.append_eq_nil_iff.mp ahead.symm).1
          have long := block.packet_length
          rw [packet] at long
          cases long
  | @refused block later _ _ ahead =>
      rw [over_] at ahead
      have empty := (List.append_eq_nil_iff.mp ahead.symm).1
      exact absurd empty (payload_ne_nil (full block (List.mem_cons_self ..)))
  | filling _ _ _ _ _ more ahead =>
      rw [over_] at ahead
      exact absurd (List.append_eq_nil_iff.mp ahead.symm).1 more

theorem fill_advance {ch : Channel} (cached : ch.Cached) {block : Block layout}
    {later : List (Block layout)} (read left : List Byte)
    (held : ch.buffer = ⟨some read, block.payload.length, read.length, block.header.ifmOffset⟩)
    (fresh : ch.needRerequestSize = 0) (cut : block.payload = read ++ left) (more : left ≠ [])
    (ahead : ch.stream = left ++ bytesOf later) (answers : Answers) :
    Advance (block :: later) (ch.fill answers) := by
  have remain : block.payload.length - read.length = left.length := by
    rw [cut, List.length_append, Nat.add_sub_cancel_left]
  have taken : ch.stream.take (min answers.got left.length) = left.take answers.got := by
    rw [ahead, List.take_append_of_le_length (Nat.min_le_right ..), ← List.take_eq_take_min]
  have parts : left = left.take answers.got ++ left.drop answers.got :=
    (List.take_append_drop ..).symm
  unfold Channel.fill
  simp only [held, remain, taken, cached.cached, cached.copied, Option.getD_some]
  generalize left.take answers.got = data at parts
  generalize left.drop answers.got = tail at parts
  subst parts
  split
  · exact .stays (.filling read (data ++ tail) held fresh cut more ahead) rfl
  case isFalse some_ =>
    have rest : ch.stream.drop data.length = tail ++ bytesOf later := by
      rw [ahead, List.append_assoc, List.drop_left]
    have filled : read.take read.length ++ data ++ read.drop (read.length + data.length) =
        read ++ data := by
      rw [List.take_length, List.drop_of_length_le (Nat.le_add_right ..), List.append_nil]
    have missing : block.payload.length - (read.length + data.length) = tail.length := by
      rw [cut, List.length_append, List.length_append]
      omega
    simp only [Bool.false_eq_true, if_false, or_false, rest, filled, missing, List.length_eq_zero_iff]
    split
    case isTrue full =>
      subst full
      refine .delivers block later rfl (.idle rfl fresh rfl) ?_
      rw [List.append_nil] at cut
      rw [← List.length_append, List.take_length, ← cut]
      rfl
    case isFalse open_ =>
      refine .stays (.filling (read ++ data) tail ?_ fresh ?_ open_ rfl) rfl
      · rw [List.length_append]
      · rw [cut, List.append_assoc]

theorem findHeader_block (block : Block layout) (later : List (Block layout)) (reads : Nat) :
    findHeader layout (reads + 1) (bytesOf (block :: later)) =
      (some block.header, block.payload ++ bytesOf later) := by
  have long := block.packet_length
  have enough : ¬ (bytesOf (block :: later)).length < tsPktSize := by
    rw [bytesOf_cons, List.length_append, long]
    omega
  rw [findHeader, if_neg enough, bytesOf_cons, ← long, List.take_left, List.drop_left, block.parsed]

/-- Before a header: no header is read, or the first block's. -/
theorem findHeader_cases (rest : List (Block layout)) (reads : Nat) :
    findHeader layout reads (bytesOf rest) = (none, bytesOf rest) ∨
      ∃ block later, rest = block :: later ∧ findHeader layout reads (bytesOf rest) =
        (some block.header, block.payload ++ bytesOf later) := by
  cases reads with
  | zero => exact .inl rfl
  | succ reads =>
      cases rest with
      | nil => exact .inl rfl
      | cons block later => exact .inr ⟨block, later, rfl, findHeader_block block later reads⟩

theorem refuse_advance {ch : Channel} {block : Block layout} {later : List (Block layout)}
    {answers : Answers} (below : answers.curPktLen.getD 0 < throwThreshold)
    (ahead : ch.stream = block.payload ++ bytesOf later) :
    Advance (block :: later) (ch.refuse answers block.payload.length, none) := by
  have unthrown : ¬ (ch.outputFormat = .ts ∧ throwThreshold ≤ answers.curPktLen.getD 0) :=
    fun thrown => Nat.not_le.mpr below thrown.2
  rw [Channel.refuse, if_neg unthrown]
  exact .stays (.refused rfl rfl ahead) rfl

/-- A smooth call of `record_dispatch`. -/
theorem dispatch_advance {ch : Channel} (cached : ch.Cached) {rest : List (Block layout)}
    (phase : Phase ch rest) (full : ∀ block ∈ rest, block.header.pktNum ≠ 0) {answers : Answers}
    (below : answers.curPktLen.getD 0 < throwThreshold)
    (smooth : ch.buffer.buf = none → ch.needRerequestSize ≠ 0 → answers.granted = false) :
    Advance rest (ch.recordDispatch layout answers) := by
  unfold Channel.recordDispatch
  split
  · exact .stays phase rfl
  · cases phase with
    | idle empty fresh ahead =>
        have sized : ch.requestSize layout answers =
            ((findHeader layout answers.headers (bytesOf rest)).1.map (fun header =>
              (header.pktNum * tsPktSize, header.ifmOffset)),
              (findHeader layout answers.headers (bytesOf rest)).2) := by
          rw [Channel.requestSize, cached.ts, ← ahead]
          simp only [cached.cached, fresh, Bool.false_eq_true, if_false, ne_eq, not_true_eq_false]
        simp only [empty, sized]
        rcases findHeader_cases rest answers.headers with none_ | ⟨block, later, rfl, found⟩
        · simp only [none_, Option.map_none]
          exact .stays (.idle empty fresh rfl) rfl
        · simp only [found, Option.map_some, ← block.payload_length]
          have more := payload_ne_nil (full block (List.mem_cons_self ..))
          split
          · exact refuse_advance below rfl
          · apply fill_advance _ [] block.payload
            case cut => rfl
            case more => exact more
            case held => rfl
            case fresh => exact fresh
            case ahead => rfl
            exact ⟨cached.ts, cached.cached, cached.copied⟩
    | @refused block later empty pending ahead =>
        have more := payload_ne_nil (full block (List.mem_cons_self ..))
        have needed : ch.needRerequestSize ≠ 0 := by
          rw [pending]
          exact mt List.length_eq_zero_iff.mp more
        have sized : ch.requestSize layout answers =
            (some (block.payload.length, 0), ch.stream) := by
          rw [Channel.requestSize, cached.ts, ← pending]
          simp only [cached.cached, needed, Bool.false_eq_true, if_false, ne_eq, not_false_eq_true,
            if_true]
        have refused := smooth empty needed
        simp only [empty, sized, refused, Bool.false_eq_true, not_false_eq_true, true_or,
          if_true]
        exact refuse_advance below ahead
    | filling read left held fresh cut more ahead =>
        simp only [held]
        exact fill_advance cached read left held fresh cut more ahead answers

/-- The blocks to come follow those that were delivered. -/
structure Follows (state : Session layout) (rest : List (Block layout)) : Prop where
  parts : state.blocks.map Block.update = state.delivered ++ rest.map Block.update
  full : ∀ block ∈ rest, block.header.pktNum ≠ 0
  phase : Phase state.ch rest

theorem Follows.intact {state : Session layout} {rest : List (Block layout)}
    (follows : Follows state rest) : Intact state := by
  constructor
  case ordered => exact ⟨_, follows.parts.symm⟩
  case complete =>
      intro over_
      have parts := follows.parts
      rw [follows.phase.exhausted follows.full over_, List.map_nil, List.append_nil] at parts
      exact parts.symm

structure Sound (state : Session layout) : Prop where
  cached : state.ch.Cached
  intact : Intact state
  follows : state.ch.enabled = true → ∃ rest, Follows state rest

theorem Follows.sound {state : Session layout} {rest : List (Block layout)}
    (follows : Follows state rest) (cached : state.ch.Cached) : Sound state :=
  ⟨cached, follows.intact, fun _ => ⟨rest, follows⟩⟩

theorem fill_cached {ch : Channel} (cached : ch.Cached) (answers : Answers) :
    (ch.fill answers).1.Cached := by
  unfold Channel.fill
  simp only
  split
  · exact cached
  · split
    · exact ⟨cached.ts, cached.cached, cached.copied⟩
    · exact ⟨cached.ts, cached.cached, cached.copied⟩

theorem dispatch_cached {ch : Channel} (cached : ch.Cached) (answers : Answers) :
    (ch.recordDispatch layout answers).1.Cached := by
  unfold Channel.recordDispatch
  split
  · exact cached
  · split
    · exact fill_cached cached answers
    · split
      · exact ⟨cached.ts, cached.cached, cached.copied⟩
      · dsimp only
        split
        · rw [Channel.refuse]
          split
          · exact ⟨cached.ts, cached.cached, cached.copied⟩
          · exact ⟨cached.ts, cached.cached, cached.copied⟩
        · apply fill_cached
          exact ⟨cached.ts, cached.cached, cached.copied⟩

theorem Follows.advance {state : Session layout} {rest : List (Block layout)}
    (follows : Follows state rest) {after : Channel × Option Update} (advance : Advance rest after) :
    ∃ rest, Follows { state with ch := after.1, delivered := state.delivered ++ after.2.toList }
      rest := by
  cases advance with
  | stays phase silent =>
      refine ⟨rest, ?_, follows.full, phase⟩
      rw [silent, Option.toList_none, List.append_nil]
      exact follows.parts
  | delivers block later first phase update =>
      subst first
      refine ⟨later, ?_, fun other member => follows.full other (List.mem_cons_of_mem _ member),
        phase⟩
      rw [update, Option.toList_some, List.append_assoc]
      exact follows.parts

/-- A call that quits at once. -/
theorem Sound.skip {state : Session layout} (sound : Sound state) {answers : Answers}
    (skipped : state.ch.recordDispatch layout answers = (state.ch, none)) :
    Sound { state with
      ch := (state.ch.recordDispatch layout answers).1
      delivered := state.delivered ++ (state.ch.recordDispatch layout answers).2.toList } := by
  rw [skipped, Option.toList_none, List.append_nil]
  exact sound

theorem Sound.dispatch {state after : Session layout} {answers : Answers} (sound : Sound state)
    (smooth : state.smooth (.dispatch answers) = true)
    (moved : state.step (.dispatch answers) = some after) : Sound after := by
  rw [Session.step] at moved
  split at moved
  case isTrue below =>
    have result := Option.some.inj moved
    subst result
    cases enabled : state.ch.enabled with
    | false =>
        apply sound.skip
        rw [Channel.recordDispatch, if_pos]
        simp [enabled]
    | true =>
        cases valid : answers.valid with
        | false =>
            apply sound.skip
            rw [Channel.recordDispatch, if_pos]
            simp [valid]
        | true =>
            rcases sound.follows enabled with ⟨rest, follows⟩
            have refused : state.ch.buffer.buf = none → state.ch.needRerequestSize ≠ 0 →
                answers.granted = false := by
              intro empty needed
              simpa [Session.smooth, enabled, valid, empty, needed] using smooth
            rcases follows.advance (dispatch_advance sound.cached follows.phase follows.full below
              refused) with ⟨rest', follows'⟩
            exact follows'.sound (dispatch_cached sound.cached answers)
  case isFalse => cases moved

theorem Sound.start {state after : Session layout} {opened : Bool} {blocks : List (Block layout)}
    (sound : Sound state) (smooth : state.smooth (.start opened blocks) = true)
    (moved : state.step (.start opened blocks) = some after) : Sound after := by
  rw [Session.step] at moved
  cases enabled : state.ch.enabled with
  | true =>
      simp only [enabled, true_or, if_true, Channel.channelStart] at moved
      cases moved
      exact sound
  | false =>
      cases opened with
      | false =>
          simp only [enabled, Bool.false_eq_true, not_false_eq_true, or_true, if_true,
            if_false, Channel.channelStart] at moved
          cases moved
          refine ⟨⟨sound.cached.ts, sound.cached.cached, sound.cached.copied⟩,
            ⟨sound.intact.ordered, sound.intact.complete⟩, ?_⟩
          simp
      | true =>
          simp only [Session.smooth, enabled, Bool.not_true, Bool.false_or, Bool.and_eq_true,
            List.all_eq_true, decide_eq_true_eq, Option.isNone_iff_eq_none] at smooth
          simp only [enabled, Bool.false_eq_true, not_true_eq_false, or_false, if_true, if_false,
            Channel.channelStart] at moved
          cases moved
          apply Follows.sound
          · exact ⟨rfl, smooth.2, .idle smooth.1 rfl rfl⟩
          · exact ⟨sound.cached.ts, sound.cached.cached, sound.cached.copied⟩

end Phases

/-- The invariant of the runs in which no request succeeds after one that failed. -/
theorem sound_of_reachable (layout : Layout) :
    ∀ state, (smoothRecorder layout).Reachable state → Sound state := by
  apply Machine.Reachable.always
  case initially =>
      rintro state ⟨blockSize, rfl⟩
      refine ⟨⟨rfl, rfl, rfl⟩, ⟨⟨[], rfl⟩, fun _ => rfl⟩, by simp⟩
  case kept =>
      intro state label after _ sound moved
      rcases Machine.restrict_next.mp moved with ⟨smooth, moved⟩
      replace moved : state.step label = some after := moved
      cases label with
      | dispatch answers => exact sound.dispatch smooth moved
      | stop =>
          cases moved
          exact ⟨⟨sound.cached.ts, sound.cached.cached, sound.cached.copied⟩,
            ⟨sound.intact.ordered, sound.intact.complete⟩, by simp [Channel.channelStop]⟩
      | start opened blocks => exact sound.start smooth moved

/-- The recording is intact as long as no request succeeds after one that failed, the channel is not
started with a buffer of the last run, and no block is empty. -/
theorem record_intact (layout : Layout) (state : Session layout)
    (reachable : (smoothRecorder layout).Reachable state) : Intact state :=
  (sound_of_reachable layout state reachable).intact

/-- A layout with the sync in the first byte, `pkt_num` in the second and `ifm_offset` in the third. -/
def plainLayout : Layout
  | 0x4c :: pktNum :: ifmOffset :: _ => some ⟨pktNum.toNat, .ofNat 16 ifmOffset.toNat⟩
  | _ => none

/-- A block of one packet. -/
def plainBlock (ifmOffset fill : Byte) : Block plainLayout where
  packet := 0x4c :: 1 :: ifmOffset :: List.replicate 185 0
  header := ⟨1, .ofNat 16 ifmOffset.toNat⟩
  payload := List.replicate 188 fill
  packet_length := by
    rw [List.length_cons, List.length_cons, List.length_cons, List.length_replicate]
    rfl
  parsed := rfl
  payload_length := List.length_replicate.trans (Nat.one_mul tsPktSize).symm

/-- Everything is there and the user has a buffer. -/
def plenty : Answers := ⟨true, 1, some 0, true, [], 188⟩

def blankSession : Session plainLayout := ⟨⟨false, .ts, false, false, 0, .zero, 0, []⟩, [], []⟩

/-- Two blocks, the second read in two parts. -/
theorem record_intact_two :
    ∃ state, (smoothRecorder plainLayout).Reachable state ∧
      state.delivered = [(plainBlock 7 1).update, (plainBlock 9 2).update] ∧ Intact state := by
  have ran : ((smoothRecorder plainLayout).run blankSession
      [.start true [plainBlock 7 1, plainBlock 9 2], .dispatch plenty,
        .dispatch { plenty with got := 100 }, .dispatch plenty]).map (fun state => state.delivered) =
      some [(plainBlock 7 1).update, (plainBlock 9 2).update] := by
    decide +kernel
  rcases Option.map_eq_some_iff.mp ran with ⟨state, ran, delivered⟩
  have start : (smoothRecorder plainLayout).Initial blankSession := ⟨0, rfl⟩
  have reachable := Machine.reachable_of_run (.initial start) ran
  exact ⟨state, reachable, delivered, record_intact plainLayout state reachable⟩

/-- A request fails once: its block comes with the `ifm_offset` of no header, and the header of the next
block comes as data. -/
theorem header_recorded :
    ¬ ∀ layout state, (recorder layout).Reachable state → Intact state := by
  intro always
  have ran : ((recorder plainLayout).run blankSession
      [.start true [plainBlock 7 1, plainBlock 9 2], .dispatch { plenty with granted := false },
        .dispatch plenty, .dispatch plenty]).map
          (fun state => (state.blocks.map Block.update, state.delivered)) =
      some ([(plainBlock 7 1).update, (plainBlock 9 2).update],
        [⟨(plainBlock 7 1).payload, 0⟩, ⟨(plainBlock 9 2).packet, 0⟩]) := by
    decide +kernel
  rcases Option.map_eq_some_iff.mp ran with ⟨state, ran, result⟩
  have start : (recorder plainLayout).Initial blankSession := ⟨0, rfl⟩
  have reachable := Machine.reachable_of_run (.initial start) ran
  have ordered := (always plainLayout state reachable).ordered
  rw [(Prod.mk.inj result).1, (Prod.mk.inj result).2] at ordered
  revert ordered
  decide +kernel

end Alisl.Dmx.Record
