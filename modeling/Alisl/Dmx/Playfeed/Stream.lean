import Alisl.Base.Bytes
import Alisl.Base.Conduit
import Alisl.Dmx.Playfeed.Quiet

/-! The bytes the playfeed thread writes to `feedfd`. -/

namespace Alisl.Dmx

open Alisl.Base

/-- The test with which the thread turns down what `request_data` left in the buffer. -/
def Playback.Refused (state : Playback) (buf : Bool) (size : Nat) : Prop :=
  size = 0 ∨ (buf = false ∧ state.devFastcopy = false)

/-- The buffer has bytes, so that nothing is requested. -/
def FeedBuffer.Holds (buffer : FeedBuffer) : Prop := buffer.buf = true ∧ 0 < buffer.size

instance (state : Playback) (buf : Bool) (size : Nat) : Decidable (state.Refused buf size) :=
  inferInstanceAs (Decidable (_ ∨ _))

instance (buffer : FeedBuffer) : Decidable buffer.Holds :=
  inferInstanceAs (Decidable (_ ∧ _))

/-- The playfeed thread with the bytes at `buffer.buf`. The buffers it took and what it wrote
to `feedfd` are only recorded. -/
structure FeedStream where
  play : Playback
  bytes : List Byte
  accepted : List (List Byte)
  written : List Byte

/-- `given` are the bytes at the pointer that `request_data` returns. -/
inductive StreamLabel where
  | feed (answer : FeedAnswer) (given : List Byte)
  | call (call : ControlCall)
  | control
  deriving DecidableEq

def StreamLabel.play : StreamLabel → PlayLabel
  | .feed answer _ => .feed answer
  | .call made => .call made
  | .control => .control

namespace FeedStream

/-- The call of `request_data`. -/
def requested (state : FeedStream) (given : List Byte) : Option (Bool × Nat × Bool) → FeedStream
  | none => state
  | some (buf, size, _) =>
      { state with
        bytes := given
        accepted := if state.play.Refused buf size then state.accepted
          else state.accepted ++ [given] }

/-- The call of `write`, which takes bytes from the position in the buffer on. A fast copy
does not call it. -/
def wrote (state : FeedStream) (nbytes : Int) : FeedStream :=
  if state.play.devFastcopy ∧ state.play.fastcopy then state
  else
    { state with
      written := state.written ++ (state.bytes.drop state.play.buffer.write).take nbytes.toNat }

def effect (state : FeedStream) (label : StreamLabel) : FeedStream :=
  match label, state.play.feeder with
  | .feed answer given, .requestData => state.requested given answer.requestData
  | .feed answer _, .writeFeed => state.wrote answer.nbytes
  | _, _ => state

def step (state : FeedStream) (label : StreamLabel) : Option FeedStream :=
  (state.play.step label.play).map (fun play => { state.effect label with play })

end FeedStream

def feedStream : Machine FeedStream StreamLabel where
  Initial state := playback.Initial state.play ∧ state.play.fastcopy = false ∧
    state.bytes = [] ∧ state.accepted = [] ∧ state.written = []
  next := FeedStream.step

namespace FeedStream

/-- An answer of `request_data` is turned down, or it is a buffer of its size; it asks for
a fast copy only where the device has none. -/
structure Offers (state : FeedStream) (given : List Byte) (answer : Bool × Nat × Bool) : Prop where
  buffer : state.play.Refused answer.1 answer.2.1 ∨
    (answer.1 = true ∧ 0 < answer.2.1 ∧ given.length = answer.2.1)
  slow : state.play.devFastcopy = true → answer.2.2 = false

instance (state : FeedStream) (given : List Byte) (answer : Bool × Nat × Bool) :
    Decidable (state.Offers given answer) :=
  decidable_of_iff (_ ∧ _) ⟨fun both => ⟨both.1, both.2⟩, fun offers => ⟨offers.1, offers.2⟩⟩

/-- What the client answers in a step. -/
def Answers (state : FeedStream) : StreamLabel → Prop
  | .feed answer given =>
      state.play.feeder = .requestData →
        ∀ request ∈ answer.requestData, state.Offers given request
  | _ => True

instance (state : FeedStream) : ∀ label, Decidable (state.Answers label)
  | .feed _ _ => inferInstanceAs (Decidable (_ → _))
  | .call _ => inferInstanceAs (Decidable True)
  | .control => inferInstanceAs (Decidable True)

/-- What is left of the buffer. -/
def rest (state : FeedStream) : List Byte :=
  if state.play.buffer.Holds then state.bytes.drop state.play.buffer.write else []

/-- The thread as a conduit from `request_data` to `feedfd`. -/
def conduit (state : FeedStream) : Conduit Byte := ⟨state.accepted, state.written, state.rest⟩

/-- The playback machine runs underneath. -/
theorem step_play (state : FeedStream) (label : StreamLabel) :
    (state.step label).map FeedStream.play = state.play.step label.play := by
  rw [step, Option.map_map]
  exact Option.map_id'

theorem play_of_step {state after : FeedStream} {label : StreamLabel}
    (moved : state.step label = some after) : state.play.step label.play = some after.play := by
  rw [← step_play, moved, Option.map_some]

/-- What holds of the buffer at each step of the thread. -/
structure Held (state : FeedStream) : Prop where
  size : state.play.buffer.Holds →
    state.bytes.length = state.play.buffer.size ∧
      state.play.buffer.write < state.play.buffer.size
  start : ¬ state.play.buffer.Holds → state.play.buffer.write = 0
  requestData : state.play.feeder = .requestData → ¬ state.play.buffer.Holds
  writeFeed : state.play.feeder = .writeFeed → state.play.buffer.Holds
  slow : state.play.devFastcopy = true → state.play.fastcopy = false

end FeedStream

/-- A step that leaves the buffer alone. -/
structure Playback.Leaves (state after : Playback) : Prop where
  buffer : after.buffer = state.buffer
  fastcopy : after.fastcopy = state.fastcopy
  devFastcopy : after.devFastcopy = state.devFastcopy
  requestData : after.feeder = .requestData → ¬ after.buffer.Holds
  writeFeed : after.feeder = .writeFeed → after.buffer.Holds

namespace Playback

variable {state after : Playback}

/-- The controlling thread does not touch the buffer. -/
theorem Controls.leaves_buffer (controls : Controls state after) :
    after.buffer = state.buffer ∧ after.fastcopy = state.fastcopy ∧
      after.devFastcopy = state.devFastcopy ∧ after.feeder = state.feeder := by
  cases controls with
  | _ => exact ⟨rfl, rfl, rfl, rfl⟩

/-- Outside the request and the write the thread does not touch it either. -/
theorem playfeed_leaves {answer : FeedAnswer} (moved : state.playfeed answer = some after)
    (request : state.feeder ≠ .requestData) (write : state.feeder ≠ .writeFeed) :
    state.Leaves after := by
  cases playfeed_feeds moved with
  | turns turn =>
      have before := turn.before
      unfold playfeed at moved
      cases found : state.feeder with
      | requestData => exact absurd found request
      | writeFeed => exact absurd found write
      | waitStart =>
          rw [found] at moved
          dsimp only at moved
          split at moved
          case isTrue set =>
            cases moved
            exact ⟨rfl, rfl, rfl, by simp [goFeed], by simp [goFeed]⟩
          case isFalse => cases moved
      | space =>
          rw [found] at moved
          dsimp only at moved
          split at moved
          case isTrue full =>
            cases moved
            exact ⟨rfl, rfl, rfl, by simp [goFeed], by simp [goFeed]⟩
          case isFalse room =>
            split at moved
            case isTrue vacant =>
              cases moved
              refine ⟨rfl, rfl, rfl, ?_, by simp [goFeed]⟩
              intro _ holds
              rcases vacant with null | zero
              · exact absurd (null.symm.trans holds.1) Bool.false_ne_true
              · exact absurd holds.2 (by simp [goFeed, zero])
            case isFalse filled =>
              cases moved
              refine ⟨rfl, rfl, rfl, by simp [goFeed], ?_⟩
              intro _
              rw [not_or, Bool.not_eq_false] at filled
              exact ⟨filled.1, Nat.pos_of_ne_zero filled.2⟩
      | _ => simp [running, found] at before
  | _ => exact ⟨rfl, rfl, rfl, by simp [goFeed], by simp [goFeed]⟩

end Playback

namespace FeedStream

variable {state : FeedStream}

theorem rest_of_holds (holds : state.play.buffer.Holds) :
    state.rest = state.bytes.drop state.play.buffer.write :=
  if_pos holds

theorem rest_of_not_holds (vacant : ¬ state.play.buffer.Holds) : state.rest = [] :=
  if_neg vacant

/-- A step between two states that both keep the invariant, as one of the conduit. -/
structure Carries (state after : FeedStream) : Prop where
  held : after.Held
  moves : state.conduit.Moves after.conduit

theorem Held.leaves {play : Playback} (held : state.Held) (leaves : state.play.Leaves play) :
    Carries state { state with play } := by
  constructor
  case held =>
      constructor
      case size =>
          rw [leaves.buffer]
          exact held.size
      case start =>
          rw [leaves.buffer]
          exact held.start
      case requestData => exact leaves.requestData
      case writeFeed => exact leaves.writeFeed
      case slow =>
          rw [leaves.devFastcopy, leaves.fastcopy]
          exact held.slow
  case moves =>
      have same : ({ state with play } : FeedStream).conduit = state.conduit := by
        rw [conduit, conduit, rest, rest, leaves.buffer]
      rw [same]
      exact .stays

/-- A buffer that is turned down leaves nothing behind. -/
theorem not_holds_of_refused {play : Playback} {buf : Bool} {size write : Nat}
    (refused : play.Refused buf size) : ¬ (⟨buf, size, write⟩ : FeedBuffer).Holds := by
  intro holds
  rcases refused with zero | null
  · exact absurd holds.2 (by simp [zero])
  · exact absurd (null.1.symm.trans holds.1) Bool.false_ne_true

theorem Held.request (held : state.Held) (found : state.play.feeder = .requestData)
    {given : List Byte} {answer : Option (Bool × Nat × Bool)}
    (offers : ∀ request ∈ answer, state.Offers given request) :
    Carries state { state.requested given answer with play := state.play.requestTurn answer } := by
  have vacant := held.requestData found
  have write := held.start vacant
  have before : state.conduit = ⟨state.accepted, state.written, []⟩ := by
    rw [conduit, rest_of_not_holds vacant]
  cases answer with
  | none =>
      have leaves : state.play.Leaves (state.play.goFeed .testP1) :=
        ⟨rfl, rfl, rfl, by simp [Playback.goFeed], by simp [Playback.goFeed]⟩
      exact held.leaves leaves
  | some request =>
      rcases request with ⟨buf, size, fastcopy⟩
      have offer := offers _ rfl
      by_cases refused : state.play.Refused buf size
      · have empty : ¬ (⟨buf, size, state.play.buffer.write⟩ : FeedBuffer).Holds :=
          not_holds_of_refused refused
        have turned : state.play.requestTurn (some (buf, size, fastcopy)) =
            { state.play with
              buffer := ⟨buf, size, state.play.buffer.write⟩, fastcopy, feeder := .testP1 } :=
          if_pos refused
        rw [turned, requested]
        simp only [if_pos refused]
        constructor
        case held =>
            constructor
            case size => exact fun holds => absurd holds empty
            case start => exact fun _ => write
            case requestData => exact fun other => absurd other (by simp)
            case writeFeed => exact fun other => absurd other (by simp)
            case slow => exact offer.slow
        case moves =>
            rw [before, conduit, rest, if_neg empty]
            exact .stays
      · rcases offer.buffer with turnedDown | ⟨set, some, length⟩
        · exact absurd turnedDown refused
        have full : (⟨buf, size, state.play.buffer.write⟩ : FeedBuffer).Holds := ⟨set, some⟩
        have turned : state.play.requestTurn (Option.some (buf, size, fastcopy)) =
            { state.play with
              buffer := ⟨buf, size, state.play.buffer.write⟩, fastcopy, feeder := .writeFeed } :=
          if_neg refused
        rw [turned, requested]
        simp only [if_neg refused]
        constructor
        case held =>
            constructor
            case size =>
                intro _
                simp only [write]
                exact ⟨length, some⟩
            case start => exact fun other => absurd full other
            case requestData => exact fun other => absurd other (by simp)
            case writeFeed => exact fun _ => full
            case slow => exact offer.slow
        case moves =>
            rw [before, conduit, rest, if_pos full, write, List.drop_zero]
            exact .accepts given rfl

theorem Held.write (held : state.Held) (found : state.play.feeder = .writeFeed) (nbytes : Int) :
    Carries state { state.wrote nbytes with play := state.play.writeTurn nbytes } := by
  have holds := held.writeFeed found
  rcases held.size holds with ⟨length, inside⟩
  have called : ¬ (state.play.devFastcopy = true ∧ state.play.fastcopy = true) := by
    intro both
    exact absurd ((held.slow both.1).symm.trans both.2) Bool.false_ne_true
  rw [wrote, if_neg called, Playback.writeTurn]
  by_cases nothing : nbytes ≤ 0
  · have leaves : state.play.Leaves (state.play.goFeed .testP1) :=
      ⟨rfl, rfl, rfl, by simp [Playback.goFeed], by simp [Playback.goFeed]⟩
    have zero : nbytes.toNat = 0 := Int.toNat_eq_zero.mpr nothing
    rw [if_pos nothing, zero, List.take_zero, List.append_nil]
    exact held.leaves leaves
  · rw [if_neg nothing]
    have before : state.conduit = ⟨state.accepted, state.written,
        state.bytes.drop state.play.buffer.write⟩ := by
      rw [conduit, rest_of_holds holds]
    by_cases done : state.play.buffer.write + nbytes.toNat ≥ state.play.buffer.size
    · have empty : ¬ FeedBuffer.zero.Holds := by decide
      have drained : (state.bytes.drop state.play.buffer.write).drop nbytes.toNat = [] := by
        rw [List.drop_drop, List.drop_eq_nil_iff, length]
        exact done
      simp only [if_pos done]
      constructor
      case held =>
          constructor
          case size => exact fun other => absurd other empty
          case start => exact fun _ => rfl
          case requestData => exact fun other => absurd other (by simp)
          case writeFeed => exact fun other => absurd other (by simp)
          case slow => exact held.slow
      case moves =>
          rw [before, conduit, rest, if_neg empty, ← drained]
          exact .passes nbytes.toNat
    · have still : ({ state.play.buffer with
          write := state.play.buffer.write + nbytes.toNat } : FeedBuffer).Holds := holds
      simp only [if_neg done]
      constructor
      case held =>
          constructor
          case size => exact fun _ => ⟨length, Nat.lt_of_not_le done⟩
          case start => exact fun other => absurd holds other
          case requestData => exact fun other => absurd other (by simp)
          case writeFeed => exact fun other => absurd other (by simp)
          case slow => exact held.slow
      case moves =>
          rw [before, conduit, rest, if_pos still, ← List.drop_drop]
          exact .passes nbytes.toNat

/-- Every step is one of the conduit, or none. -/
theorem Held.step {after : FeedStream} {label : StreamLabel} (held : state.Held)
    (answers : state.Answers label) (moved : state.step label = some after) :
    Carries state after := by
  rw [FeedStream.step, Option.map_eq_some_iff] at moved
  rcases moved with ⟨play, moved, rfl⟩
  cases label with
  | feed answer given =>
      by_cases request : state.play.feeder = .requestData
      · have turned : state.play.requestTurn answer.requestData = play := by
          simpa [StreamLabel.play, Playback.step, Playback.playfeed, request] using moved
        have asked : state.effect (.feed answer given) =
            state.requested given answer.requestData := by
          simp only [effect, request]
        rw [asked, ← turned]
        exact held.request request (answers request)
      · by_cases write : state.play.feeder = .writeFeed
        · have turned : state.play.writeTurn answer.nbytes = play := by
            simpa [StreamLabel.play, Playback.step, Playback.playfeed, write] using moved
          have called : state.effect (.feed answer given) = state.wrote answer.nbytes := by
            simp only [effect, write]
          rw [called, ← turned]
          exact held.write write answer.nbytes
        · have still : state.effect (.feed answer given) = state := by
            cases feeder : state.play.feeder with
            | requestData => exact absurd feeder request
            | writeFeed => exact absurd feeder write
            | _ => simp only [effect, feeder]
          rw [still]
          exact held.leaves (Playback.playfeed_leaves moved request write)
  | call made =>
      rw [StreamLabel.play, Playback.step] at moved
      split at moved
      case isTrue returned =>
          cases moved
          exact held.leaves ⟨rfl, rfl, rfl, held.requestData, held.writeFeed⟩
      case isFalse busy => cases moved
  | control =>
      rcases (Playback.controller_controls moved).leaves_buffer with
        ⟨buffer, fastcopy, devFastcopy, feeder⟩
      apply held.leaves
      constructor
      case buffer => exact buffer
      case fastcopy => exact fastcopy
      case devFastcopy => exact devFastcopy
      case requestData =>
          rw [feeder, buffer]
          exact held.requestData
      case writeFeed =>
          rw [feeder, buffer]
          exact held.writeFeed

structure Flows (state : FeedStream) : Prop where
  held : state.Held
  whole : state.conduit.Whole

theorem flows_of_reachable (state : FeedStream)
    (reachable : (feedStream.restrict Answers).Reachable state) : state.Flows := by
  refine Machine.Reachable.always ?_ ?_ state reachable
  · intro state start
    rcases start with ⟨⟨_, feeder, buffer, _⟩, fastcopy, bytes, accepted, written⟩
    have empty : ¬ state.play.buffer.Holds := by
      rw [buffer]
      decide
    constructor
    · constructor
      case size => exact fun holds => absurd holds empty
      case start =>
          intro _
          rw [buffer]
          rfl
      case requestData =>
          rw [feeder]
          exact fun other => absurd other (by simp)
      case writeFeed =>
          rw [feeder]
          exact fun other => absurd other (by simp)
      case slow => exact fun _ => fastcopy
    · have none : state.conduit = .empty := by
        rw [conduit, rest_of_not_holds empty, accepted, written, Conduit.empty]
      rw [none]
      exact Conduit.whole_empty
  · intro state label after _ before moved
    rcases Machine.restrict_next.mp moved with ⟨answers, moved⟩
    have carries := before.held.step answers moved
    exact ⟨carries.held, before.whole.moves carries.moves⟩

/-- In every run of the thread and of calls that start, pause and stop it, what has been
written to `feedfd` and what is left of the buffer at hand are the buffers taken so far, in
order; with an empty buffer all of them are written. -/
theorem playfeed_conserves (state : FeedStream)
    (reachable : (feedStream.restrict Answers).Reachable state) :
    state.written ++ state.rest = state.accepted.flatten ∧
      state.rest <:+ state.accepted.getLast?.getD [] ∧
      (state.play.buffer.buf = false ∨ state.play.buffer.size = 0 →
        state.written = state.accepted.flatten) := by
  have whole := (flows_of_reachable state reachable).whole
  refine ⟨whole.joined, whole.last, ?_⟩
  intro empty
  have vacant : ¬ state.play.buffer.Holds := by
    intro holds
    rcases empty with null | zero
    · exact absurd (null.symm.trans holds.1) Bool.false_ne_true
    · exact absurd holds.2 (by simp [zero])
  have joined := whole.joined
  rw [conduit, rest_of_not_holds vacant, List.append_nil] at joined
  exact joined

theorem play_reachable {state : FeedStream} (reachable : feedStream.Reachable state) :
    playback.Reachable state.play := by
  induction reachable with
  | initial start => exact .initial start.1
  | step before moved ih => exact ih.step (play_of_step moved)

/-- A paused or stopped device is not fed. -/
theorem written_of_quiet {state after : FeedStream} {label : StreamLabel}
    (reachable : feedStream.Reachable state) (quiet : state.play.quiet = true)
    (moved : state.step label = some after) : after.written = state.written := by
  have ordered := (Playback.phase_and_ordered state.play (play_reachable reachable)).2
  rw [FeedStream.step, Option.map_eq_some_iff] at moved
  rcases moved with ⟨play, _, rfl⟩
  rcases ordered.still (.inl quiet) with ⟨_, waitP3 | clearP3 | waitStart⟩
  · cases label <;> simp only [effect, waitP3]
  · cases label <;> simp only [effect, clearP3]
  · cases label <;> simp only [effect, waitStart]

/-- A buffer of four bytes is taken and half written, the device is paused and started, and
the other half follows after a failing write and a full driver; then a request is refused. -/
def halfThenPause : List StreamLabel :=
  let half : StreamLabel := .feed ⟨100000, some (true, 4, false), 2⟩ [1, 2, 3, 4]
  let busy : StreamLabel := .feed ⟨100000, none, -1⟩ []
  let full : StreamLabel := .feed ⟨0, none, 0⟩ []
  let refuse : StreamLabel := .feed ⟨100000, some (false, 0, false), 0⟩ []
  let start : List StreamLabel := .call .start :: List.replicate 5 .control
  start ++ List.replicate 5 half ++ .call .pause :: List.replicate 3 .control ++
    List.replicate 3 half ++ List.replicate 6 .control ++ start ++ List.replicate 5 busy ++
    List.replicate 3 full ++ List.replicate 4 half ++ List.replicate 4 refuse

theorem playfeed_conserves_halves : ∃ state, (feedStream.restrict Answers).Reachable state ∧
    state.accepted = [[1, 2, 3, 4]] ∧ state.written = [1, 2, 3, 4] ∧
    state.written ++ state.rest = state.accepted.flatten := by
  have ran : (((feedStream.restrict Answers).run ⟨Playback.fresh, [], [], []⟩ halfThenPause).map
      (fun state => (state.accepted, state.written))) = some ([[1, 2, 3, 4]], [1, 2, 3, 4]) := by
    decide +kernel
  rcases Option.map_eq_some_iff.mp ran with ⟨state, reached, recorded⟩
  rcases Prod.mk.inj recorded with ⟨accepted, written⟩
  have opened : playback.Initial Playback.fresh := ⟨rfl, rfl, rfl, rfl, rfl, rfl⟩
  have reachable : (feedStream.restrict Answers).Reachable state :=
    Machine.reachable_of_run (.initial ⟨opened, rfl, rfl, rfl, rfl⟩) reached
  exact ⟨state, reachable, accepted, written, (playfeed_conserves state reachable).1⟩

end FeedStream

end Alisl.Dmx
