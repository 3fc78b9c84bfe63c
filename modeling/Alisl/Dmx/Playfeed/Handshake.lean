import Alisl.Dmx.Playfeed.Model

/-! The handshake of the three idle bits between the playfeed thread and a call that pauses
or stops the device. -/

namespace Alisl.Dmx.Playback

open Alisl.Base

variable (state : Playback) (bit : StatusBit)

/-- How far the handshake of the controlling thread has come. -/
inductive Stage where
  | away
  | asked
  | met
  | granting
  deriving DecidableEq, Repr

def stage : Control → Stage
  | .waitP2 _ => .asked
  | .clearP2 _ => .met
  | .clearStart _ => .granting
  | .setP3 _ => .granting
  | _ => .away

/-- The playfeed thread is in no handshake, or the controlling thread has left its one. -/
def Loose (state : Playback) : Prop :=
  match state.feeder with
  | .clearP1 => False
  | .setP2 => False
  | .waitP3 => state.on .idleP3 = true ∧ state.tag .idleP3 = state.answering
  | .clearP3 => state.on .idleP3 = true
  | _ => state.on .idleP3 = false

/-- The playfeed thread waits for the third bit of the current handshake. -/
structure Waits (state : Playback) : Prop where
  feeder : state.feeder = .waitP3
  answering : state.answering = state.round
  idleP1 : state.on .idleP1 = false
  idleP3 : state.on .idleP3 = false

/-- The first bit is set. Until the playfeed thread tests it, it can still be busy with the third
bit of the handshake before. -/
structure Asks (state : Playback) : Prop where
  idleP1 : state.on .idleP1 = true
  idleP2 : state.on .idleP2 = false
  tag : state.tag .idleP1 = state.round
  feeder : Loose state ∨
    (state.feeder = .clearP1 ∧ state.answering = state.round ∧ state.on .idleP3 = false)

/-- The first bit is consumed and the second one not yet set. -/
structure Turns (state : Playback) : Prop where
  feeder : state.feeder = .setP2
  answering : state.answering = state.round
  idleP1 : state.on .idleP1 = false
  idleP2 : state.on .idleP2 = false
  idleP3 : state.on .idleP3 = false

/-- The second bit is set. -/
structure Met (state : Playback) : Prop extends Waits state where
  idleP2 : state.on .idleP2 = true
  tag : state.tag .idleP2 = state.round

structure Granting (state : Playback) : Prop extends Waits state where
  idleP2 : state.on .idleP2 = false

structure Away (state : Playback) : Prop where
  idleP1 : state.on .idleP1 = false
  idleP2 : state.on .idleP2 = false
  loose : Loose state

/-- What the bits and the playfeed thread are at each stage. -/
def Phase (state : Playback) : Prop :=
  match stage state.control with
  | .away => Away state
  | .asked => Asks state ∨ Turns state ∨ Met state
  | .met => Met state
  | .granting => Granting state

/-- What a step of the playfeed thread leaves alone. -/
structure Fed (state after : Playback) : Prop where
  control : after.control = state.control
  round : after.round = state.round
  quiet : after.quiet = state.quiet

/-- The steps of the feed loop that touch no flag. -/
def running : Feeder → Bool
  | .waitStart => true
  | .space => true
  | .requestData => true
  | .writeFeed => true
  | _ => false

/-- A turn of the feed loop past the wait for START. -/
structure Turn (state after : Playback) : Prop extends Fed state after where
  status : after.status = state.status
  tag : after.tag = state.tag
  answering : after.answering = state.answering
  before : running state.feeder = true
  after : running after.feeder = true ∨ after.feeder = .testP1
  wait : state.feeder = .waitStart → state.on .start = true

/-- Every step of the playfeed thread. -/
inductive Feeds (state : Playback) : Playback → Prop where
  | sees (found : state.feeder = .testP1) (set : state.on .idleP1 = true) :
      Feeds state { state with feeder := .clearP1, answering := state.tag .idleP1 }
  | passes (found : state.feeder = .testP1) (clear : state.on .idleP1 = false) :
      Feeds state (state.goFeed .waitStart)
  | clearsP1 (found : state.feeder = .clearP1) :
      Feeds state ((state.clear [.idleP1]).goFeed .setP2)
  | setsP2 (found : state.feeder = .setP2) :
      Feeds state ((state.set .idleP2 state.answering).goFeed .waitP3)
  | wakes (found : state.feeder = .waitP3) (set : state.on .idleP3 = true) :
      Feeds state (state.goFeed .clearP3)
  | clearsP3 (found : state.feeder = .clearP3) :
      Feeds state ((state.clear [.idleP3]).goFeed .waitStart)
  | turns {after : Playback} (turn : Turn state after) : Feeds state after

theorem turn_to (feeder : Feeder) (buffer : FeedBuffer) (fastcopy : Bool)
    (before : running state.feeder = true)
    (after : running feeder = true ∨ feeder = .testP1)
    (wait : state.feeder = .waitStart → state.on .start = true) :
    Turn state { state with feeder, buffer, fastcopy } where
  control := rfl
  round := rfl
  quiet := rfl
  status := rfl
  tag := rfl
  answering := rfl
  before
  after
  wait

theorem requestTurn_turn (found : state.feeder = .requestData)
    (answer : Option (Bool × Nat × Bool)) : Turn state (state.requestTurn answer) := by
  cases answer with
  | none =>
      apply state.turn_to .testP1 state.buffer state.fastcopy
      all_goals simp [running, found]
  | some given =>
      unfold requestTurn
      dsimp only
      split
      · apply state.turn_to .testP1 { state.buffer with buf := given.1, size := given.2.1 } given.2.2
        all_goals simp [running, found]
      · apply state.turn_to .writeFeed { state.buffer with buf := given.1, size := given.2.1 } given.2.2
        all_goals simp [running, found]

theorem writeTurn_turn (found : state.feeder = .writeFeed) (nbytes : Int) :
    Turn state (state.writeTurn nbytes) := by
  unfold writeTurn
  dsimp only
  split
  · apply state.turn_to .testP1 state.buffer state.fastcopy
    all_goals simp [running, found]
  · apply state.turn_to .testP1 _ state.fastcopy
    all_goals simp [running, found]

theorem playfeed_feeds {state after : Playback} {answer : FeedAnswer}
    (moved : state.playfeed answer = some after) : Feeds state after := by
  unfold playfeed at moved
  cases found : state.feeder with
  | testP1 =>
      rw [found] at moved
      dsimp only at moved
      split at moved
      case isTrue set =>
        cases moved
        exact .sees found set
      case isFalse clear =>
        cases moved
        exact .passes found (Bool.eq_false_iff.mpr clear)
  | clearP1 =>
      rw [found] at moved
      cases moved
      exact .clearsP1 found
  | setP2 =>
      rw [found] at moved
      cases moved
      exact .setsP2 found
  | waitP3 =>
      rw [found] at moved
      dsimp only at moved
      split at moved
      case isTrue set =>
        cases moved
        exact .wakes found set
      case isFalse => cases moved
  | clearP3 =>
      rw [found] at moved
      cases moved
      exact .clearsP3 found
  | waitStart =>
      rw [found] at moved
      dsimp only at moved
      split at moved
      case isTrue set =>
        cases moved
        apply Feeds.turns
        apply state.turn_to .space state.buffer state.fastcopy
        all_goals simp [running, found, set]
      case isFalse => cases moved
  | space =>
      rw [found] at moved
      dsimp only at moved
      apply Feeds.turns
      split at moved
      · cases moved
        apply state.turn_to .testP1 state.buffer state.fastcopy
        all_goals simp [running, found]
      · split at moved
        · cases moved
          apply state.turn_to .requestData state.buffer state.fastcopy
          all_goals simp [running, found]
        · cases moved
          apply state.turn_to .writeFeed state.buffer state.fastcopy
          all_goals simp [running, found]
  | requestData =>
      rw [found] at moved
      cases moved
      exact .turns (state.requestTurn_turn found answer.requestData)
  | writeFeed =>
      rw [found] at moved
      cases moved
      exact .turns (state.writeTurn_turn found answer.nbytes)

theorem Feeds.fed {state after : Playback} (feeds : Feeds state after) : Fed state after := by
  cases feeds with
  | turns turn => exact turn.toFed
  | _ => exact ⟨rfl, rfl, rfl⟩

theorem Turn.on_eq {state after : Playback} (turn : Turn state after) (bit : StatusBit) :
    after.on bit = state.on bit := by
  rw [on, on, turn.status]

/-- Past the wait for START the third bit is clear, and stays so for the next turn. -/
theorem Turn.loose {state after : Playback} (turn : Turn state after) (loose : Loose state) :
    Loose after := by
  have clear : state.on .idleP3 = false := by
    have before := turn.before
    unfold Loose at loose
    split at loose <;> simp_all [running]
  have stays : after.on .idleP3 = false := by rw [turn.on_eq, clear]
  have next := turn.after
  unfold Loose
  split <;> simp_all [running]

/-- Without a first bit the playfeed thread begins no handshake. -/
theorem Away.fed {state after : Playback} (away : Away state) (feeds : Feeds state after) :
    Away after := by
  have loose := away.loose
  cases feeds with
  | sees found set => simp [away.idleP1] at set
  | passes found clear =>
      simp only [Loose, found] at loose
      exact ⟨away.idleP1, away.idleP2, loose⟩
  | clearsP1 found => simp [Loose, found] at loose
  | setsP2 found => simp [Loose, found] at loose
  | wakes found set => exact ⟨away.idleP1, away.idleP2, set⟩
  | clearsP3 found =>
      constructor
      case idleP1 => simp [away.idleP1]
      case idleP2 => simp [away.idleP2]
      case loose => simp [Loose, goFeed, on_eq, clear, getLsbD_dmxStatus]
  | turns turn =>
      constructor
      case idleP1 => rw [turn.on_eq, away.idleP1]
      case idleP2 => rw [turn.on_eq, away.idleP2]
      case loose => exact turn.loose loose

theorem Waits.blocked {state after : Playback} (waits : Waits state) : ¬ Feeds state after := by
  have found := waits.feeder
  intro feeds
  cases feeds with
  | wakes _ set => simp [waits.idleP3] at set
  | turns turn => simpa [found, running] using turn.before
  | _ other => simp [found] at other

/-- The third bit of the handshake before is consumed before the first bit is tested again. -/
theorem Asks.fed {state after : Playback} (asks : Asks state) (feeds : Feeds state after) :
    Asks after ∨ Turns after := by
  rcases asks.feeder with loose | ⟨found, answering, clear⟩
  · left
    cases feeds with
    | sees found set =>
        simp only [Loose, found] at loose
        exact ⟨asks.idleP1, asks.idleP2, asks.tag, .inr ⟨rfl, asks.tag, loose⟩⟩
    | passes found clear => simp [asks.idleP1] at clear
    | clearsP1 found => simp [Loose, found] at loose
    | setsP2 found => simp [Loose, found] at loose
    | wakes found set => exact ⟨asks.idleP1, asks.idleP2, asks.tag, .inl set⟩
    | clearsP3 found =>
        constructor
        case idleP1 => simp [asks.idleP1]
        case idleP2 => simp [asks.idleP2]
        case tag => exact asks.tag
        case feeder =>
          left
          simp [Loose, goFeed, on_eq, clear, getLsbD_dmxStatus]
    | turns turn =>
        constructor
        case idleP1 => rw [turn.on_eq, asks.idleP1]
        case idleP2 => rw [turn.on_eq, asks.idleP2]
        case tag => rw [turn.tag, turn.round, asks.tag]
        case feeder => exact .inl (turn.loose loose)
  · right
    cases feeds with
    | clearsP1 _ =>
        constructor
        case feeder => rfl
        case answering => exact answering
        case idleP1 => simp
        case idleP2 => simp [asks.idleP2]
        case idleP3 => simp [clear]
    | turns turn => simpa [found, running] using turn.before
    | _ other => simp [found] at other

theorem Turns.fed {state after : Playback} (turns : Turns state) (feeds : Feeds state after) :
    Met after := by
  have found := turns.feeder
  cases feeds with
  | setsP2 _ =>
      constructor
      case toWaits =>
        constructor
        case feeder => rfl
        case answering => exact turns.answering
        case idleP1 => simp [turns.idleP1]
        case idleP3 => simp [turns.idleP3]
      case idleP2 => simp
      case tag => simp [goFeed, set, turns.idleP2, turns.answering]
  | turns turn => simpa [found, running] using turn.before
  | _ other => simp [found] at other

theorem Phase.fed {state after : Playback} (phase : Phase state) (feeds : Feeds state after) :
    Phase after := by
  have same := feeds.fed.control
  unfold Phase at phase ⊢
  rw [same]
  split at phase
  case h_1 => exact phase.fed feeds
  case h_2 =>
    rcases phase with asks | turns | met
    · rcases asks.fed feeds with asks | turns
      · exact .inl asks
      · exact .inr (.inl turns)
    · exact .inr (.inr (turns.fed feeds))
    · exact absurd feeds met.toWaits.blocked
  case h_3 => exact absurd feeds phase.toWaits.blocked
  case h_4 => exact absurd feeds phase.toWaits.blocked

/-- A step of the controlling thread that touches no bit of a handshake. -/
structure Aside (state after : Playback) : Prop where
  feeder : after.feeder = state.feeder
  answering : after.answering = state.answering
  tag : after.tag .idleP3 = state.tag .idleP3
  idleP1 : after.on .idleP1 = state.on .idleP1
  idleP2 : after.on .idleP2 = state.on .idleP2
  idleP3 : after.on .idleP3 = state.on .idleP3

theorem Away.aside {state after : Playback} (away : Away state) (aside : Aside state after) :
    Away after := by
  constructor
  case idleP1 => rw [aside.idleP1, away.idleP1]
  case idleP2 => rw [aside.idleP2, away.idleP2]
  case loose =>
    have loose := away.loose
    unfold Loose at loose ⊢
    rw [aside.feeder, aside.tag, aside.answering, aside.idleP3]
    exact loose

theorem aside_leave (started : Bool) : Aside state (state.leave started) :=
  ⟨rfl, rfl, rfl, rfl, rfl, rfl⟩

theorem aside_goControl (control : Control) : Aside state (state.goControl control) :=
  ⟨rfl, rfl, rfl, rfl, rfl, rfl⟩

theorem aside_set (bit : StatusBit) (round : Nat)
    (other : bit ∉ [StatusBit.idleP1, .idleP2, .idleP3]) : Aside state (state.set bit round) := by
  simp only [List.mem_cons, List.not_mem_nil, or_false, not_or] at other
  constructor
  case feeder => rfl
  case answering => rfl
  case tag =>
    unfold set
    dsimp only
    split
    · rfl
    · exact Function.update_of_ne (Ne.symm other.2.2) _ _
  case idleP1 => simp [Ne.symm other.1]
  case idleP2 => simp [Ne.symm other.2.1]
  case idleP3 => simp [Ne.symm other.2.2]

theorem aside_clear (bits : List StatusBit)
    (other : ∀ bit ∈ [StatusBit.idleP1, .idleP2, .idleP3], bit ∉ bits) :
    Aside state (state.clear bits) := by
  constructor
  case feeder => rfl
  case answering => rfl
  case tag => rfl
  case idleP1 => simp [other .idleP1 (by decide)]
  case idleP2 => simp [other .idleP2 (by decide)]
  case idleP3 => simp [other .idleP3 (by decide)]

theorem Aside.go {state after : Playback} (aside : Aside state after) (control : Control) :
    Aside state (after.goControl control) :=
  ⟨aside.feeder, aside.answering, aside.tag, aside.idleP1, aside.idleP2, aside.idleP3⟩

theorem Aside.go_leave {state after : Playback} (aside : Aside state after) (started : Bool) :
    Aside state (after.leave started) :=
  ⟨aside.feeder, aside.answering, aside.tag, aside.idleP1, aside.idleP2, aside.idleP3⟩

/-- The steps between finding the device started and clearing START. -/
def needsStart : Control → Bool
  | .pausePause => true
  | .setP1 _ => true
  | .waitP2 _ => true
  | .clearP2 _ => true
  | .clearStart _ => true
  | _ => false

def pastStart : Control → Bool
  | .setP3 _ => true
  | .haltClear _ started => started
  | .haltSet _ _ => true
  | _ => false

/-- Every step of the controlling thread. -/
inductive Controls (state : Playback) : Playback → Prop where
  | tests (control : Control) (before : stage state.control = .away)
      (behind : stage control = .away)
      (busy : needsStart control = true →
        needsStart state.control = true ∨ state.on .start = true)
      (past : pastStart control = false) (fresh : control ≠ .startSet) :
      Controls state (state.goControl control)
  | leaves (started : Bool) (before : stage state.control = .away)
      (refused : started = true →
        (needsStart state.control = true ∧ state.on .pause = true) ∨
          (state.on .start = true ∧ state.on .stop = true)) :
      Controls state (state.leave started)
  | clearsHalts (found : state.control = .startClear) :
      Controls state ((state.clear [.stop, .pause]).goControl .startSet)
  | starts (found : state.control = .startSet) :
      Controls state { state.set .start state.round with control := .returned, quiet := false }
  | asks (halt : Halt) (found : state.control = .setP1 halt) :
      Controls state { state.set .idleP1 (state.round + 1) with
        control := .waitP2 halt, round := state.round + 1 }
  | meets (halt : Halt) (found : state.control = .waitP2 halt) (set : state.on .idleP2 = true) :
      Controls state (state.goControl (.clearP2 halt))
  | clearsP2 (halt : Halt) (found : state.control = .clearP2 halt) :
      Controls state ((state.clear [.idleP2]).goControl (.clearStart halt))
  | clearsStart (halt : Halt) (found : state.control = .clearStart halt) :
      Controls state ((state.clear [.start]).goControl (.setP3 halt))
  | grants (halt : Halt) (found : state.control = .setP3 halt) :
      Controls state ((state.set .idleP3 state.round).goControl (.haltClear halt true))
  | clearsStarted (halt : Halt) (started : Bool) (found : state.control = .haltClear halt started) :
      Controls state ((state.clear (haltBits halt)).goControl (.haltSet halt started))
  | halts (halt : Halt) (started : Bool) (found : state.control = .haltSet halt started) :
      Controls state ((state.set (haltBit halt) state.round).leave started)

/-- Nothing the controlling thread passes here needs START. -/
theorem Controls.passes {state : Playback} {control : Control}
    (before : stage state.control = .away) (behind : stage control = .away)
    (idle : needsStart control = false) (past : pastStart control = false)
    (fresh : control ≠ .startSet) : Controls state (state.goControl control) := by
  refine .tests control before behind ?_ past fresh
  intro needs
  rw [idle] at needs
  cases needs

theorem Controls.refuses {state : Playback} (before : stage state.control = .away) :
    Controls state (state.leave false) := by
  refine .leaves false before ?_
  intro started
  cases started

theorem controller_controls {state after : Playback} (moved : state.controller = some after) :
    Controls state after := by
  unfold controller at moved
  cases found : state.control with
  | returned =>
      rw [found] at moved
      cases moved
  | startOpen =>
      have away : stage state.control = .away := by rw [found]; rfl
      rw [found] at moved
      cases moved
      split
      · exact .passes away rfl rfl rfl (by simp)
      · exact .refuses away
  | startStart =>
      have away : stage state.control = .away := by rw [found]; rfl
      rw [found] at moved
      cases moved
      split
      · exact .refuses away
      · exact .passes away rfl rfl rfl (by simp)
  | startPause =>
      have away : stage state.control = .away := by rw [found]; rfl
      rw [found] at moved
      cases moved
      exact .passes away rfl rfl rfl (by simp)
  | startClear =>
      rw [found] at moved
      cases moved
      exact .clearsHalts found
  | startSet =>
      rw [found] at moved
      cases moved
      exact .starts found
  | pauseStart =>
      have away : stage state.control = .away := by rw [found]; rfl
      rw [found] at moved
      cases moved
      split
      case isTrue start => exact .tests .pausePause away rfl (fun _ => .inr start) rfl (by simp)
      case isFalse => exact .refuses away
  | pausePause =>
      have away : stage state.control = .away := by rw [found]; rfl
      have needs : needsStart state.control = true := by rw [found]; rfl
      rw [found] at moved
      cases moved
      split
      case isTrue pause => exact .leaves true away (fun _ => .inl ⟨needs, pause⟩)
      case isFalse => exact .tests (.setP1 .pause) away rfl (fun _ => .inl needs) rfl (by simp)
  | stopAny =>
      have away : stage state.control = .away := by rw [found]; rfl
      rw [found] at moved
      cases moved
      split
      · exact .passes away rfl rfl rfl (by simp)
      · exact .refuses away
  | stopStop =>
      have away : stage state.control = .away := by rw [found]; rfl
      rw [found] at moved
      cases moved
      split
      case isTrue stop => exact .leaves _ away (fun start => .inr ⟨start, stop⟩)
      case isFalse => exact .passes away rfl rfl rfl (by simp)
  | stopStart =>
      have away : stage state.control = .away := by rw [found]; rfl
      rw [found] at moved
      cases moved
      split
      case isTrue start => exact .tests (.setP1 .stop) away rfl (fun _ => .inr start) rfl (by simp)
      case isFalse => exact .passes away rfl rfl rfl (by simp)
  | setP1 halt =>
      rw [found] at moved
      cases moved
      exact .asks halt found
  | waitP2 halt =>
      rw [found] at moved
      dsimp only at moved
      split at moved
      case isTrue set =>
        cases moved
        exact .meets halt found set
      case isFalse => cases moved
  | clearP2 halt =>
      rw [found] at moved
      cases moved
      exact .clearsP2 halt found
  | clearStart halt =>
      rw [found] at moved
      cases moved
      exact .clearsStart halt found
  | setP3 halt =>
      rw [found] at moved
      cases moved
      exact .grants halt found
  | haltClear halt started =>
      rw [found] at moved
      cases moved
      exact .clearsStarted halt started found
  | haltSet halt started =>
      rw [found] at moved
      cases moved
      exact .halts halt started found

theorem Away.asks {state : Playback} (away : Away state) (halt : Halt) :
    Asks { state.set .idleP1 (state.round + 1) with
      control := .waitP2 halt, round := state.round + 1 } := by
  constructor
  case idleP1 =>
    show (state.set .idleP1 (state.round + 1)).on .idleP1 = true
    simp
  case idleP2 =>
    show (state.set .idleP1 (state.round + 1)).on .idleP2 = false
    simp [away.idleP2]
  case tag => simp [set, away.idleP1]
  case feeder =>
    left
    have loose := away.loose
    have stays : ∀ bit, bit ≠ .idleP1 →
        ({ state.set .idleP1 (state.round + 1) with
          control := .waitP2 halt, round := state.round + 1 } : Playback).on bit = state.on bit := by
      intro bit other
      show (state.set .idleP1 (state.round + 1)).on bit = state.on bit
      simp [other]
    unfold Loose at loose ⊢
    rw [stays .idleP3 (by decide)]
    simpa [set, away.idleP1] using loose

theorem Met.grants {state : Playback} (met : Met state) (halt : Halt) :
    Granting ((state.clear [.idleP2]).goControl (.clearStart halt)) := by
  constructor
  case toWaits =>
    constructor
    case feeder => exact met.feeder
    case answering => exact met.answering
    case idleP1 => simp [met.idleP1]
    case idleP3 => simp [met.idleP3]
  case idleP2 => simp

theorem Granting.stops {state : Playback} (granting : Granting state) (halt : Halt) :
    Granting ((state.clear [.start]).goControl (.setP3 halt)) := by
  constructor
  case toWaits =>
    constructor
    case feeder => exact granting.feeder
    case answering => exact granting.answering
    case idleP1 => simp [granting.idleP1]
    case idleP3 => simp [granting.idleP3]
  case idleP2 => simp [granting.idleP2]

theorem Granting.leaves {state : Playback} (granting : Granting state) (control : Control) :
    Away ((state.set .idleP3 state.round).goControl control) := by
  constructor
  case idleP1 => simp [granting.idleP1]
  case idleP2 => simp [granting.idleP2]
  case loose =>
    have found : ((state.set .idleP3 state.round).goControl control).feeder = .waitP3 :=
      granting.feeder
    unfold Loose
    rw [found]
    constructor
    · simp
    · simp [goControl, set, granting.idleP3, granting.answering]

theorem Away.phase {state after : Playback} (away : Away state) (aside : Aside state after)
    (behind : stage after.control = .away) : Phase after := by
  rw [Phase, behind]
  exact away.aside aside

theorem Phase.away {state : Playback} (phase : Phase state) (before : stage state.control = .away) :
    Away state := by
  rw [Phase, before] at phase
  exact phase

theorem Phase.controls {state after : Playback} (phase : Phase state)
    (controls : Controls state after) : Phase after := by
  cases controls with
  | tests control before behind => exact (phase.away before).phase (state.aside_goControl _) behind
  | leaves started before => exact (phase.away before).phase (state.aside_leave _) rfl
  | clearsHalts found =>
      have away := phase.away (by rw [found]; rfl)
      exact away.phase ((state.aside_clear _ (by decide)).go _) rfl
  | starts found =>
      have away := phase.away (by rw [found]; rfl)
      have aside := state.aside_set .start state.round (by decide)
      apply away.phase _ rfl
      exact ⟨rfl, rfl, aside.tag, aside.idleP1, aside.idleP2, aside.idleP3⟩
  | asks halt found =>
      rw [Phase, found] at phase
      exact .inl (Away.asks phase halt)
  | meets halt found set =>
      rw [Phase, found] at phase
      rcases phase with asks | turns | met
      · simp [asks.idleP2] at set
      · simp [turns.idleP2] at set
      · exact ⟨⟨met.feeder, met.answering, met.idleP1, met.idleP3⟩, met.idleP2, met.tag⟩
  | clearsP2 halt found =>
      rw [Phase, found] at phase
      exact Met.grants phase halt
  | clearsStart halt found =>
      rw [Phase, found] at phase
      exact Granting.stops phase halt
  | grants halt found =>
      rw [Phase, found] at phase
      exact Granting.leaves phase _
  | clearsStarted halt started found =>
      have away := phase.away (by rw [found]; rfl)
      have aside := state.aside_clear (haltBits halt) (by cases halt <;> decide)
      exact away.phase (aside.go _) rfl
  | halts halt started found =>
      have away := phase.away (by rw [found]; rfl)
      have aside := state.aside_set (haltBit halt) state.round (by cases halt <;> decide)
      exact away.phase (aside.go_leave _) rfl

end Alisl.Dmx.Playback
