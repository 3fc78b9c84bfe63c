import Alisl.Dmx.Playfeed.Handshake

/-! The playfeed thread does not feed a device that is paused or stopped. -/

namespace Alisl.Dmx.Playback

open Alisl.Base

/-- The steps after the handshake. -/
def halted : Control → Bool
  | .haltClear _ started => started
  | .haltSet _ started => started
  | _ => false

structure Ordered (state : Playback) : Prop where
  busy : needsStart state.control = true → state.on .start = true
  past : pastStart state.control = true → state.on .start = false
  fresh : state.control = .startSet → state.on .pause = false ∧ state.on .stop = false
  apart : state.on .start = true → state.on .pause = false ∧ state.on .stop = false
  still : state.quiet = true ∨ halted state.control = true →
    state.on .start = false ∧
      (state.feeder = .waitP3 ∨ state.feeder = .clearP3 ∨ state.feeder = .waitStart)

theorem Feeds.on_eq {state after : Playback} (feeds : Feeds state after) (bit : StatusBit)
    (other : bit ∉ [StatusBit.idleP1, .idleP2, .idleP3]) : after.on bit = state.on bit := by
  simp only [List.mem_cons, List.not_mem_nil, or_false, not_or] at other
  cases feeds with
  | clearsP1 => simp [other.1]
  | setsP2 => simp [other.2.1]
  | clearsP3 => simp [other.2.2]
  | turns turn => exact turn.on_eq bit
  | _ => rfl

theorem Ordered.fed {state after : Playback} (ordered : Ordered state)
    (feeds : Feeds state after) : Ordered after := by
  have same := feeds.fed
  have start := feeds.on_eq .start (by decide)
  have pause := feeds.on_eq .pause (by decide)
  have stop := feeds.on_eq .stop (by decide)
  constructor
  case busy =>
    rw [same.control, start]
    exact ordered.busy
  case past =>
    rw [same.control, start]
    exact ordered.past
  case fresh =>
    rw [same.control, pause, stop]
    exact ordered.fresh
  case apart =>
    rw [start, pause, stop]
    exact ordered.apart
  case still =>
    rw [same.control, same.quiet, start]
    intro quiet
    have still := ordered.still quiet
    refine ⟨still.1, ?_⟩
    rcases still with ⟨off, waitP3 | clearP3 | waitStart⟩
    · cases feeds with
      | wakes => exact .inr (.inl rfl)
      | turns turn => simpa [waitP3, running] using turn.before
      | _ other => simp [waitP3] at other
    · cases feeds with
      | clearsP3 => exact .inr (.inr rfl)
      | turns turn => simpa [clearP3, running] using turn.before
      | _ other => simp [clearP3] at other
    · cases feeds with
      | turns turn => simp [turn.wait waitStart] at off
      | _ other => simp [waitStart] at other

/-- Ordered speaks of START, PAUSE and STOP only. -/
theorem Ordered.same {state after : Playback} (ordered : Ordered state)
    (control : after.control = state.control) (quiet : after.quiet = state.quiet)
    (feeder : after.feeder = state.feeder)
    (bits : ∀ bit, bit ∉ [StatusBit.idleP1, .idleP2, .idleP3] → after.on bit = state.on bit) :
    Ordered after := by
  have start := bits .start (by decide)
  have pause := bits .pause (by decide)
  have stop := bits .stop (by decide)
  constructor
  case busy =>
    rw [control, start]
    exact ordered.busy
  case past =>
    rw [control, start]
    exact ordered.past
  case fresh =>
    rw [control, pause, stop]
    exact ordered.fresh
  case apart =>
    rw [start, pause, stop]
    exact ordered.apart
  case still =>
    rw [control, quiet, feeder, start]
    exact ordered.still

theorem Ordered.goControl {state : Playback} (ordered : Ordered state) (control : Control)
    (busy : needsStart control = true → state.on .start = true)
    (past : pastStart control = false) (fresh : control ≠ .startSet) :
    Ordered (state.goControl control) := by
  constructor
  case busy => exact busy
  case past =>
    intro reached
    simp [Playback.goControl, past] at reached
  case fresh =>
    intro reached
    exact absurd reached fresh
  case apart => exact ordered.apart
  case still =>
    intro quiet
    rcases quiet with quiet | reached
    · exact ordered.still (.inl quiet)
    · have never : halted control = false := by
        cases control <;> simp_all [pastStart, halted]
      simp [Playback.goControl, never] at reached

theorem Ordered.leave {state : Playback} (ordered : Ordered state) (started : Bool)
    (still : started = true → state.on .start = false ∧
      (state.feeder = .waitP3 ∨ state.feeder = .clearP3 ∨ state.feeder = .waitStart)) :
    Ordered (state.leave started) := by
  constructor
  case busy =>
    intro reached
    cases reached
  case past =>
    intro reached
    cases reached
  case fresh =>
    intro reached
    cases reached
  case apart => exact ordered.apart
  case still =>
    intro quiet
    rcases quiet with quiet | reached
    · rcases Bool.or_eq_true _ _ |>.mp quiet with before | now
      · exact ordered.still (.inl before)
      · exact still now
    · cases reached

/-- With START clear it is enough to know where the feeder is. -/
theorem Ordered.off {state : Playback} (off : state.on .start = false)
    (idle : needsStart state.control = false) (fresh : state.control ≠ .startSet)
    (still : state.quiet = true ∨ halted state.control = true →
      state.feeder = .waitP3 ∨ state.feeder = .clearP3 ∨ state.feeder = .waitStart) :
    Ordered state := by
  constructor
  case busy =>
    intro needs
    rw [idle] at needs
    cases needs
  case past =>
    intro _
    exact off
  case fresh =>
    intro reached
    exact absurd reached fresh
  case apart =>
    intro start
    rw [off] at start
    cases start
  case still =>
    intro quiet
    exact ⟨off, still quiet⟩

theorem Ordered.controls {state after : Playback} (ordered : Ordered state)
    (phase : Phase state) (controls : Controls state after) : Ordered after := by
  cases controls with
  | tests control before behind busy past fresh =>
      apply ordered.goControl control _ past fresh
      intro needs
      rcases busy needs with needed | start
      · exact ordered.busy needed
      · exact start
  | leaves started before refused =>
      apply ordered.leave
      intro found
      rcases refused found with ⟨needs, pause⟩ | ⟨start, stop⟩
      · simp [(ordered.apart (ordered.busy needs)).1] at pause
      · simp [(ordered.apart start).2] at stop
  | clearsHalts found =>
      constructor
      case busy => simp [needsStart]
      case past => simp [pastStart]
      case fresh => simp
      case apart => simp
      case still =>
        intro quiet
        have still := ordered.still (.inl (quiet.resolve_right Bool.false_ne_true))
        exact ⟨by simp [still.1], still.2⟩
  | starts found =>
      have fresh := ordered.fresh found
      constructor
      case busy => simp [needsStart]
      case past => simp [pastStart]
      case fresh => simp
      case apart =>
        intro _
        show (state.set .start state.round).on .pause = false ∧
          (state.set .start state.round).on .stop = false
        simp [fresh]
      case still =>
        intro quiet
        simp [halted] at quiet
  | asks halt found =>
      have start := ordered.busy (by rw [found]; rfl)
      have same : Ordered { state.set .idleP1 (state.round + 1) with round := state.round + 1 } := by
        refine ordered.same rfl rfl rfl ?_
        intro bit other
        show (state.set .idleP1 (state.round + 1)).on bit = state.on bit
        have apart : bit ≠ .idleP1 := by
          rintro rfl
          simp at other
        simp [apart]
      refine same.goControl (.waitP2 halt) (fun _ => ?_) rfl (by simp)
      show (state.set .idleP1 (state.round + 1)).on .start = true
      simp [start]
  | meets halt found set =>
      have start := ordered.busy (by rw [found]; rfl)
      exact ordered.goControl _ (fun _ => start) rfl (by simp)
  | clearsP2 halt found =>
      have start := ordered.busy (by rw [found]; rfl)
      have same : Ordered (state.clear [.idleP2]) := by
        refine ordered.same rfl rfl rfl ?_
        intro bit other
        have apart : bit ≠ .idleP2 := by
          rintro rfl
          simp at other
        simp [apart]
      refine same.goControl (.clearStart halt) (fun _ => ?_) rfl (by simp)
      simp [start]
  | clearsStart halt found =>
      apply Ordered.off (by simp) rfl (by simp)
      intro quiet
      exact (ordered.still (.inl (quiet.resolve_right Bool.false_ne_true))).2
  | grants halt found =>
      have start := ordered.past (by rw [found]; rfl)
      have waits : state.feeder = .waitP3 := by
        rw [Phase, found] at phase
        exact phase.feeder
      apply Ordered.off (by simp [start]) rfl (by simp)
      intro _
      exact .inl waits
  | clearsStarted halt started found =>
      constructor
      case busy => simp [needsStart]
      case past => cases halt <;> simp [haltBits]
      case fresh => simp
      case apart => cases halt <;> simp [haltBits]
      case still =>
        intro quiet
        have still := ordered.still (by rw [found]; exact quiet)
        exact ⟨by simp [still.1], still.2⟩
  | halts halt started found =>
      have start := ordered.past (by rw [found]; rfl)
      have off : ((state.set (haltBit halt) state.round).leave started).on .start = false := by
        cases halt <;> simp [haltBit, start]
      apply Ordered.off off rfl (by simp)
      intro quiet
      have before : state.quiet = true ∨ halted state.control = true := by
        rw [found]
        exact (Bool.or_eq_true _ _).mp (quiet.resolve_right Bool.false_ne_true)
      exact (ordered.still before).2

theorem called {state : Playback} (phase : Phase state) (ordered : Ordered state)
    (returned : state.control = .returned) (call : ControlCall) :
    Phase (state.goControl call.first) ∧ Ordered (state.goControl call.first) := by
  rw [Phase, returned] at phase
  constructor
  · have away : Away (state.goControl call.first) := Away.aside phase (state.aside_goControl _)
    cases call with
    | start => exact away
    | pause => exact away
    | stop => exact away
  · cases call with
    | start => exact ordered.goControl .startOpen (by simp [needsStart]) rfl (by simp)
    | pause => exact ordered.goControl .pauseStart (by simp [needsStart]) rfl (by simp)
    | stop => exact ordered.goControl .stopAny (by simp [needsStart]) rfl (by simp)

theorem initially (state : Playback) (start : playback.Initial state) :
    Phase state ∧ Ordered state := by
  rcases start with ⟨status, feeder, -, control, -, quiet⟩
  have bits : ∀ bit, state.on bit = decide (bit = .construct ∨ bit = .opened) := by
    intro bit
    rw [on_eq, status, Flag.has, getLsbD_dmxStatus]
    simp
  constructor
  · rw [Phase, control]
    exact ⟨by simp [bits], by simp [bits], by simp [Loose, feeder, bits]⟩
  · constructor
    case busy => simp [control, needsStart]
    case past => simp [control, pastStart]
    case fresh => simp [control]
    case apart => simp [bits]
    case still => simp [control, quiet, halted]

theorem phase_and_ordered (state : Playback) (reachable : playback.Reachable state) :
    Phase state ∧ Ordered state := by
  refine Machine.Reachable.always initially ?_ state reachable
  intro state label after _ kept moved
  rcases kept with ⟨phase, ordered⟩
  cases label with
  | feed answer =>
      have feeds := playfeed_feeds moved
      exact ⟨phase.fed feeds, ordered.fed feeds⟩
  | call call =>
      have returned : state.control = .returned := by
        by_contra busy
        simp [playback, step, busy] at moved
      simp only [playback, step, returned, if_true, Option.some.injEq] at moved
      rw [← moved]
      exact called phase ordered returned call
  | control =>
      have controls := controller_controls moved
      exact ⟨phase.controls controls, ordered.controls phase controls⟩

theorem Phase.sees {state : Playback} (phase : Phase state) (set : state.on .idleP1 = true) :
    (∃ halt, state.control = .waitP2 halt) ∧ state.tag .idleP1 = state.round := by
  have asked : stage state.control = .asked → ∃ halt, state.control = .waitP2 halt := by
    cases state.control <;> simp [stage]
  unfold Phase at phase
  split at phase
  case h_1 => simp [phase.idleP1] at set
  case h_2 found =>
    rcases phase with asks | turns | met
    · exact ⟨asked found, asks.tag⟩
    · simp [turns.idleP1] at set
    · simp [met.idleP1] at set
  case h_3 => simp [phase.idleP1] at set
  case h_4 => simp [phase.idleP1] at set

theorem Phase.meets {state : Playback} (phase : Phase state) {halt : Halt}
    (found : state.control = .waitP2 halt) (set : state.on .idleP2 = true) :
    state.tag .idleP2 = state.round ∧ state.answering = state.round := by
  rw [Phase, found] at phase
  rcases phase with asks | turns | met
  · simp [asks.idleP2] at set
  · simp [turns.idleP2] at set
  · exact ⟨met.tag, met.answering⟩

theorem Phase.wakes {state : Playback} (phase : Phase state) (found : state.feeder = .waitP3)
    (set : state.on .idleP3 = true) : state.tag .idleP3 = state.answering := by
  have kept : Loose state → state.tag .idleP3 = state.answering := by
    intro loose
    simp only [Loose, found] at loose
    exact loose.2
  unfold Phase at phase
  split at phase
  case h_1 => exact kept phase.loose
  case h_2 =>
    rcases phase with asks | turns | met
    · rcases asks.feeder with loose | ⟨other, -, -⟩
      · exact kept loose
      · simp [found] at other
    · simp [turns.idleP3] at set
    · simp [met.idleP3] at set
  case h_3 => simp [phase.idleP3] at set
  case h_4 => simp [phase.idleP3] at set

/-- After a pause or a stop that found the device started, the playfeed thread is at neither of
its calls until the next start. A bit that lets a thread go on was set in the handshake
that thread is in. -/
theorem playfeed_quiescent (state : Playback) (reachable : playback.Reachable state) :
    (state.quiet = true → state.feeder ≠ .requestData ∧ state.feeder ≠ .writeFeed) ∧
      (state.feeder = .testP1 → state.on .idleP1 = true →
        (∃ halt, state.control = .waitP2 halt) ∧ state.tag .idleP1 = state.round) ∧
      (∀ halt, state.control = .waitP2 halt → state.on .idleP2 = true →
        state.tag .idleP2 = state.round ∧ state.answering = state.round) ∧
      (state.feeder = .waitP3 → state.on .idleP3 = true →
        state.tag .idleP3 = state.answering) := by
  rcases phase_and_ordered state reachable with ⟨phase, ordered⟩
  refine ⟨?_, ?_, ?_, ?_⟩
  · intro quiet
    rcases ordered.still (.inl quiet) with ⟨-, waitP3 | clearP3 | waitStart⟩
    · simp [waitP3]
    · simp [clearP3]
    · simp [waitStart]
  · intro _ set
    exact phase.sees set
  · intro halt found set
    exact phase.meets found set
  · intro found set
    exact phase.wakes found set

/-- A device that `alisldmx_open` has just opened. -/
def fresh : Playback where
  status := ⟨dmxStatus [.construct, .opened]⟩
  feeder := .testP1
  buffer := .zero
  fastcopy := false
  devFastcopy := false
  control := .returned
  round := 0
  tag := fun _ => 0
  answering := 0
  quiet := false

/-- A turn in which 188 bytes are requested and written. -/
def onePacket : FeedAnswer := ⟨100000, some (true, 188, false), 188⟩

/-- The device is started, feeds one packet and is paused. -/
def feedThenPause : List PlayLabel :=
  .call .start :: List.replicate 5 .control ++ List.replicate 5 (.feed onePacket) ++
    .call .pause :: List.replicate 3 .control ++ List.replicate 3 (.feed onePacket) ++
    List.replicate 6 .control

theorem playfeed_quiescent_paused : ∃ state, playback.Reachable state ∧ state.quiet = true ∧
    state.feeder ≠ .requestData ∧ state.feeder ≠ .writeFeed := by
  have ran : ((playback.run fresh feedThenPause).map (fun state => state.quiet)) = some true := by
    decide +kernel
  rcases Option.map_eq_some_iff.mp ran with ⟨state, reached, quiet⟩
  have opened : playback.Initial fresh := ⟨rfl, rfl, rfl, rfl, rfl, rfl⟩
  have reachable : playback.Reachable state := Machine.reachable_of_run (.initial opened) reached
  exact ⟨state, reachable, quiet, (playfeed_quiescent state reachable).1 quiet⟩

end Alisl.Dmx.Playback
