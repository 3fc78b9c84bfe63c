import Alisl.Upgrade.PieceRead.Failure

/-! Downloads that deliver given payloads. -/

namespace Alisl.Upgrade.PieceRead

open Alisl.Base

/-- The layout of a list of payloads, each with room for its CRC. -/
def layoutOf (pieceSize : Nat) (payloads : List (List Byte))
    (fits : ∀ payload ∈ payloads, payload.length + 4 ≤ pieceSize) : Layout where
  pieceSize := pieceSize
  lens := payloads.map (fun payload => payload.length + 4)
  room := by
    intro len member
    obtain ⟨payload, present, rfl⟩ := List.mem_map.mp member
    exact ⟨Nat.le_add_left _ _, fits payload present⟩

/-- No piece fails, and the one that verifies next carries its payload. Pieces
may be received again any number of times before that. -/
def Delivers (payloads : List (List Byte)) (state : State) : Act → Prop
  | .download .fail => False
  | .download .complete => state.rest ≠ [] → state.crcMatches (state.rest.headD 0) = true →
      state.received (state.rest.headD 0) = payloads.getD state.payloads.length []
  | .download (.section _ _) => True
  | .download .step => True
  | .reader _ => True

instance (payloads : List (List Byte)) (state : State) (act : Act) :
    Decidable (Delivers payloads state act) :=
  match act with
  | .download .fail => .isFalse id
  | .download .complete =>
      inferInstanceAs (Decidable (state.rest ≠ [] → state.crcMatches (state.rest.headD 0) = true →
        state.received (state.rest.headD 0) = payloads.getD state.payloads.length []))
  | .download (.section _ _) => .isTrue trivial
  | .download .step => .isTrue trivial
  | .reader _ => .isTrue trivial

def ReaderPc.calling : ReaderPc → Bool
  | .loop | .post | .wait | .resume => true
  | .skipWait | .open | .idle => false

/-- The bytes asked for so far, the call in progress included. -/
def State.requested (state : State) : Nat :=
  (state.results.map Result.size).sum +
    if state.reader.pc.calling = true then state.reader.size else 0

/-- The reads give the payloads in order. A call in progress that asks for no
more than there is never waits for a download thread that is gone. -/
structure Streamed (layout : Layout) (payloads : List (List Byte)) (state : State) : Prop where
  returned : ∀ result ∈ state.results, result.ret = result.size ∧ result.out.length = result.size
  ordered : (state.results.map Result.out).flatten =
    payloads.flatten.take (state.results.map Result.size).sum
  refill : state.pc = .receive → state.copied = state.stream ∧ state.reader.pc.owns = false
  verified : state.payloads <+: payloads
  live : state.reader.pc.calling = true → state.requested ≤ payloads.flatten.length →
    state.pc = .receive ∨ (∃ after, downloadNext state .step = some after) ∨
      ∃ after, readerNext layout state .step = some after

structure Delivered (payloads : List (List Byte)) (state : State) : Prop where
  quiet : state.failed = false
  sound : Sound state
  verified : state.payloads <+: payloads
  returned : ∀ result ∈ state.results, result.ret = result.size ∧ result.out.length = result.size

section

variable {pieceSize : Nat} {payloads : List (List Byte)}
  {fits : ∀ payload ∈ payloads, payload.length + 4 ≤ pieceSize}

/-- The piece verified next carries its payload. -/
theorem DownloadStep.payloads_prefix {state after : State} {act : DownloadAct}
    (step : DownloadStep state act after) (inv : Inv (layoutOf pieceSize payloads fits) state)
    (content : ∀ len rest, state.rest = len :: rest → state.crcMatches len = true →
      act = .complete → state.received len = payloads.getD state.payloads.length [])
    (verified : state.payloads <+: payloads) : after.payloads <+: payloads := by
  cases step with
  | verified pc len tail first crc =>
      have received := content len tail first crc rfl
      have rest := inv.rest
      rw [first] at rest
      have bound : state.payloads.length < payloads.length := by
        by_contra outside
        have none : (layoutOf pieceSize payloads fits).lens.drop state.payloads.length = [] := by
          apply List.drop_eq_nil_of_le
          simpa [layoutOf] using outside
        rw [none] at rest
        contradiction
      obtain ⟨later, whole⟩ := verified
      cases later with
      | nil => simp [← whole] at bound
      | cons payload later =>
          refine ⟨later, ?_⟩
          have same : payloads.getD state.payloads.length [] = payload := by
            rw [← whole]
            simp
          rw [received, same, List.append_assoc]
          exact whole
  | _ => exact verified

theorem DownloadStep.delivered {state after : State} {act : DownloadAct}
    (step : DownloadStep state act after) (inv : Inv (layoutOf pieceSize payloads fits) state)
    (delivers : Delivers payloads state (.download act)) (done : Delivered payloads state) :
    Delivered payloads after := by
  have sound := step.sound done.sound
  have verified : after.payloads <+: payloads := by
    apply step.payloads_prefix inv _ done.verified
    intro len rest first crc complete
    subst complete
    simp only [Delivers, first, List.headD_cons] at delivers
    exact delivers (List.cons_ne_nil _ _) crc
  cases step with
  | fail => exact delivers.elim
  | _ => exact ⟨done.quiet, sound, verified, done.returned⟩

/-- Without a failed piece `p_ota_valid` is set whenever a read is called. -/
theorem Inv.calls_valid {layout : Layout} {state after : State} {act : ReaderAct}
    (inv : Inv layout state) (step : ReaderStep layout state act after)
    (quiet : state.failed = false) : CallsValid state (.reader act) := by
  cases step with
  | callBad pc size valid present => exact .inr (by simp [present])
  | call pc size valid present => exact .inr (by simp [present])
  | callNull pc size null =>
      obtain ⟨valid, present, _⟩ := inv.reading (.inl pc) quiet
      exact .inr (by simp [present])
  | _ => exact trivial

/-- What a step of the reader does to the call in progress: it goes on or begins,
or it returns in full or fails behind a failed piece. -/
theorem ReaderStep.effect {layout : Layout} {state after : State} {act : ReaderAct}
    (step : ReaderStep layout state act after) (inv : Inv layout state)
    (valid : CallsValid state (.reader act)) (some : ∀ size, act = .call size → 1 ≤ size) :
    (after.results = state.results ∧ after.failed = state.failed ∧
      (after.reader.pc.calling = true →
        (state.reader.pc.calling = true ∧ after.reader.size = state.reader.size) ∨
          (act = .call after.reader.size ∧ state.failed = false))) ∨
    (state.reader.pc.calling = true ∧ after.reader.pc.calling = false ∧
      after.failed = state.failed ∧
      ∃ (ret : Int) (out : List Byte),
        after.results = state.results ++ [⟨state.reader.size, ret, out, state.failed⟩] ∧
        (ret = state.reader.size ∧ out.length = state.reader.size ∨
          ret < 0 ∧ state.failed = true)) := by
  cases step with
  | skip pc => exact .inl ⟨rfl, rfl, by simp [ReaderPc.calling]⟩
  | «open» pc => exact .inl ⟨rfl, rfl, by simp [ReaderPc.calling]⟩
  | callBad pc size bound present bad =>
      have quiet := inv.not_failed_of_valid present
      obtain ⟨same, presentSame, bounded, inside, _⟩ := inv.reading (.inl pc) quiet
      rw [present, Option.some.injEq] at presentSame
      omega
  | call pc size bound present =>
      exact .inl ⟨rfl, rfl, fun _ => .inr ⟨rfl, inv.not_failed_of_valid present⟩⟩
  | callNull pc size null =>
      have least := some size rfl
      have zero : size = 0 := by simpa [CallsValid, null] using valid
      omega
  | last pc enough =>
      refine .inr ⟨by simp [pc, ReaderPc.calling], rfl, rfl, _, _, rfl, .inl ⟨rfl, ?_⟩⟩
      simpa using inv.within (.inl pc)
  | drain pc short => exact .inl ⟨rfl, rfl, fun _ => .inl ⟨by simp [pc, ReaderPc.calling], rfl⟩⟩
  | post pc => exact .inl ⟨rfl, rfl, fun _ => .inl ⟨by simp [pc, ReaderPc.calling], rfl⟩⟩
  | wait pc => exact .inl ⟨rfl, rfl, fun _ => .inl ⟨by simp [pc, ReaderPc.calling], rfl⟩⟩
  | resumeFail pc null =>
      have failed : state.failed = true := by
        by_contra quiet
        obtain ⟨bound, present, _⟩ := inv.fresh (.inr (.inr (.inr pc))) (by simpa using quiet)
        rw [null] at present
        contradiction
      exact .inr ⟨by simp [pc, ReaderPc.calling], rfl, rfl, -1, _, rfl, .inr ⟨by decide, failed⟩⟩
  | resume pc => exact .inl ⟨rfl, rfl, fun _ => .inl ⟨by simp [pc, ReaderPc.calling], rfl⟩⟩

theorem ReaderStep.delivered {layout : Layout} {state after : State} {act : ReaderAct}
    (step : ReaderStep layout state act after) (inv : Inv layout state)
    (done : Delivered payloads state) : Delivered payloads after := by
  have sound := step.sound inv (inv.calls_valid step done.quiet) done.sound
  cases step with
  | callBad pc size valid present bad =>
      obtain ⟨same, presentSame, bound, inside, _⟩ := inv.reading (.inl pc) done.quiet
      rw [present, Option.some.injEq] at presentSame
      omega
  | callNull pc size null =>
      obtain ⟨valid, present, _⟩ := inv.reading (.inl pc) done.quiet
      rw [null] at present
      contradiction
  | last pc enough =>
      refine ⟨done.quiet, sound, done.verified, ?_⟩
      intro result member
      simp only [State.return, List.mem_append, List.mem_singleton] at member
      rcases member with member | rfl
      · exact done.returned result member
      · exact ⟨rfl, by simpa using inv.within (.inl pc)⟩
  | resumeFail pc null =>
      obtain ⟨valid, present, _⟩ := inv.fresh (.inr (.inr (.inr pc))) done.quiet
      rw [null] at present
      contradiction
  | _ => exact ⟨done.quiet, sound, done.verified, done.returned⟩

theorem reachable_delivered (state : State)
    (reachable : ((machine (layoutOf pieceSize payloads fits)).restrict
      (Delivers payloads)).Reachable state) : Delivered payloads state := by
  refine Machine.Reachable.always ?_ ?_ state reachable
  · intro start initial
    refine ⟨initial.failed, initial_sound _ start initial, ?_, ?_⟩
    · simp [initial.payloads]
    · simp [initial.results]
  · intro before label after earlier done moved
    have inv := reachable_inv _ before earlier.of_restrict
    obtain ⟨delivers, moved⟩ := Machine.restrict_next.mp moved
    cases label with
    | download act => exact (download_step before after act moved).delivered inv delivers done
    | reader act => exact (reader_step _ before after act moved).delivered inv done

end

theorem sum_sizes (results : List Result) (full : ∀ result ∈ results, result.out.length = result.size) :
    (results.map Result.out).flatten.length = (results.map Result.size).sum := by
  induction results with
  | nil => rfl
  | cons result results ih =>
      simp only [List.map_cons, List.flatten_cons, List.length_append, List.sum_cons]
      rw [full result List.mem_cons_self, ih (fun other member => full other (.tail _ member))]

theorem Delivered.ordered {payloads : List (List Byte)} {state : State}
    (done : Delivered payloads state) : (state.results.map Result.out).flatten =
      payloads.flatten.take (state.results.map Result.size).sum := by
  have sized := sum_sizes state.results (fun result member => (done.returned result member).2)
  obtain ⟨later, whole⟩ := done.verified
  have front : (state.results.map Result.out).flatten <+: payloads.flatten := by
    apply ((List.prefix_append _ state.reader.out).trans done.sound.copied).trans
    exact ⟨later.flatten, by simp [State.stream, ← whole]⟩
  rw [← sized]
  exact List.prefix_iff_eq_take.mp front

/-- A reader waiting with nothing posted: either the download thread has the
token or it has not taken it yet, and it is not gone before the last payload. -/
theorem Inv.waiting_live {layout : Layout} {payloads : List (List Byte)} {state : State}
    (inv : Inv layout state) (done : Delivered payloads state)
    (lens : layout.lens.length = payloads.length) (pc : state.reader.pc = .wait)
    (empty : state.pieceSourceSem = 0) (enough : state.requested ≤ payloads.flatten.length) :
    state.pc = .receive ∨ ∃ after, downloadNext state .step = some after := by
  have tokens := inv.tokens
  have sized := sum_sizes state.results (fun result member => (done.returned result member).2)
  have amount := inv.within (.inr (.inr (.inl pc)))
  have wanted := inv.pending (.inr (.inl pc))
  have asked : state.copied.length < payloads.flatten.length := by
    simp only [State.requested, pc, ReaderPc.calling, if_true] at enough
    simp only [State.copied, List.length_append, sized]
    omega
  have some : layout.lens ≠ [] := by
    intro none
    have nothing : payloads = [] := by
      apply List.eq_nil_of_length_eq_zero
      simp [← lens, none]
    simp [nothing] at asked
  cases state_pc : state.pc with
  | receive => exact .inl rfl
  | postSource => exact .inr ⟨_, by simp [downloadNext, state_pc]; rfl⟩
  | failPost =>
      have failed := inv.failPost state_pc
      rw [done.quiet] at failed
      contradiction
  | waitRead =>
      have posted : 0 < state.pieceReadSem := by
        simp [State.baton, Baton.tokens, state_pc, pc, empty, some, DownloadPc.owns,
          ReaderPc.owns] at tokens
        omega
      exact .inr ⟨_, by simp [downloadNext, state_pc, posted]; rfl⟩
  | finished =>
      exfalso
      have posted : 0 < state.pieceReadSem := by
        simp [State.baton, Baton.tokens, state_pc, pc, empty, some, DownloadPc.owns,
          ReaderPc.owns] at tokens
        omega
      have all : layout.lens.length ≤ state.payloads.length := by
        rw [← List.drop_eq_nil_iff, ← inv.rest]
        exact inv.ended state_pc done.quiet
      have same : state.payloads = payloads :=
        done.verified.eq_of_length_le (by omega)
      have copied := inv.spent (.inr (.inl posted))
      rw [copied, State.stream, same] at asked
      omega

/-- A call in progress that asks for no more than there is can go on, or the
download thread can. -/
theorem calling_live {layout : Layout} {payloads : List (List Byte)} {state : State}
    (inv : Inv layout state) (done : Delivered payloads state)
    (lens : layout.lens.length = payloads.length) (calling : state.reader.pc.calling = true)
    (enough : state.requested ≤ payloads.flatten.length) :
    state.pc = .receive ∨ (∃ after, downloadNext state .step = some after) ∨
      ∃ after, readerNext layout state .step = some after := by
  cases pc : state.reader.pc with
  | loop => exact .inr (.inr ⟨otaFileReadLoop state, by simp [readerNext, pc]⟩)
  | post => exact .inr (.inr ⟨_, by simp [readerNext, pc]; rfl⟩)
  | resume =>
      obtain ⟨valid, present, _⟩ := inv.fresh (.inr (.inr (.inr pc))) done.quiet
      exact .inr (.inr ⟨_, by simp [readerNext, pc, present]; rfl⟩)
  | wait =>
      by_cases posted : 0 < state.pieceSourceSem
      · exact .inr (.inr ⟨_, by simp [readerNext, pc, posted]; rfl⟩)
      · have live := inv.waiting_live done lens pc (by omega) enough
        exact live.imp_right .inl
  | skipWait => simp [pc, ReaderPc.calling] at calling
  | «open» => simp [pc, ReaderPc.calling] at calling
  | idle => simp [pc, ReaderPc.calling] at calling

/-- Any list of payloads, received piece by piece, any reads and any
interleaving: what the reads return is the concatenation of the payloads in
order, and the buffer is refilled only when all of it has been copied out. -/
theorem reads_stream_payloads (pieceSize : Nat) (payloads : List (List Byte))
    (fits : ∀ payload ∈ payloads, payload.length + 4 ≤ pieceSize) (state : State)
    (reachable : ((machine (layoutOf pieceSize payloads fits)).restrict
      (Delivers payloads)).Reachable state) :
    Streamed (layoutOf pieceSize payloads fits) payloads state := by
  have inv := reachable_inv _ state reachable.of_restrict
  have done := reachable_delivered state reachable
  refine ⟨done.returned, done.ordered, ?_, done.verified, ?_⟩
  · intro pc
    refine ⟨inv.spent (.inl pc), ?_⟩
    rcases (inv.download_owns (by simp [pc, DownloadPc.owns])).1 with reader | reader <;>
      simp [reader, ReaderPc.owns]
  · intro calling enough
    exact calling_live inv done (by simp [layoutOf]) calling enough

/-- Two pieces, and a read across their boundary in progress. -/
def acrossRun : List Act :=
  [.download (.section 0 (7 :: pieceCrc [7])), .download .complete, .download .step,
    .reader .step, .reader .step, .reader (.call 2), .reader .step, .reader .step,
    .download .step, .download (.section 0 (8 :: pieceCrc [8])), .download .complete,
    .download .step, .reader .step, .reader .step, .reader .step]

theorem reads_stream_two_pieces :
    ∃ state, ((machine (layoutOf 16 [[7], [8]] (by decide))).restrict
        (Delivers [[7], [8]])).run (start [5, 5]) acrossRun = some state ∧
      state.results = [⟨2, 2, [7, 8], false⟩] ∧
      Streamed (layoutOf 16 [[7], [8]] (by decide)) [[7], [8]] state := by
  have ran : ∃ state, ((machine (layoutOf 16 [[7], [8]] (by decide))).restrict
      (Delivers [[7], [8]])).run (start [5, 5]) acrossRun = some state ∧
      state.results = [⟨2, 2, [7, 8], false⟩] := ⟨_, rfl, rfl⟩
  obtain ⟨state, ran, results⟩ := ran
  have reachable := Machine.reachable_of_run
    (.initial (initial_start (layoutOf 16 [[7], [8]] (by decide)))) ran
  exact ⟨state, ran, results, reads_stream_payloads 16 [[7], [8]] (by decide) state reachable⟩

end Alisl.Upgrade.PieceRead
