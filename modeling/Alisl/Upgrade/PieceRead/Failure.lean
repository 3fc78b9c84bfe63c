import Alisl.Upgrade.PieceRead.Model

/-! Reads behind a failed piece. -/

namespace Alisl.Upgrade.PieceRead

open Alisl.Base

/-- A read that reports its full size wrote verified bytes only, and a read that
returns behind a failed piece reports nothing. -/
structure Safe (state : State) : Prop where
  verified : ∀ result ∈ state.results, result.ret = result.size →
    result.out.length = result.size ∧ result.out <:+: state.payloads.flatten
  failing : ∀ result ∈ state.results, result.afterFailure = true → result.ret ≤ 0

/-- No call for actual bytes is made while `p_ota_valid` is NULL. -/
def CallsValid (state : State) : Act → Prop
  | .reader (.call size) => size = 0 ∨ state.pOtaValid ≠ none
  | .reader .step => True
  | .download _ => True

instance (state : State) (act : Act) : Decidable (CallsValid state act) :=
  match act with
  | .reader (.call size) => inferInstanceAs (Decidable (size = 0 ∨ state.pOtaValid ≠ none))
  | .reader .step => .isTrue trivial
  | .download _ => .isTrue trivial

structure Sound (state : State) : Prop where
  copied : state.copied <+: state.stream
  full : ∀ result ∈ state.results, result.ret = result.size → result.out.length = result.size
  failing : ∀ result ∈ state.results, result.afterFailure = true → result.ret ≤ 0

theorem Sound.safe {state : State} (sound : Sound state) : Safe state := by
  refine ⟨fun result member full => ⟨sound.full result member full, ?_⟩, sound.failing⟩
  have inside : result.out <:+: (state.results.map Result.out).flatten :=
    List.infix_of_mem_flatten (List.mem_map_of_mem member)
  have front : (state.results.map Result.out).flatten <+: state.stream :=
    (List.prefix_append _ _).trans sound.copied
  exact inside.trans front.isInfix

theorem DownloadStep.reader_kept {state after : State} {act : DownloadAct}
    (step : DownloadStep state act after) :
    after.reader = state.reader ∧ after.results = state.results ∧
      state.payloads <+: after.payloads := by
  cases step <;> simp

theorem DownloadStep.sound {state after : State} {act : DownloadAct}
    (step : DownloadStep state act after) (sound : Sound state) : Sound after := by
  obtain ⟨reader, results, ⟨later, grown⟩⟩ := step.reader_kept
  refine ⟨?_, results ▸ sound.full, results ▸ sound.failing⟩
  have longer : state.stream <+: after.stream :=
    ⟨later.flatten, by simp [State.stream, ← grown]⟩
  have same : after.copied = state.copied := by
    simp [State.copied, reader, results]
  rw [same]
  exact sound.copied.trans longer

/-- A returned call joins the results. -/
theorem Sound.return {state : State} {ret : Int} {out : List Byte} (sound : Sound state)
    (copied : (state.results.map Result.out).flatten ++ out <+: state.stream)
    (full : ret = state.reader.size → out.length = state.reader.size)
    (failing : state.failed = true → ret ≤ 0) : Sound (state.return ret out) := by
  refine ⟨by simpa [State.return, State.copied, State.stream] using copied, ?_, ?_⟩
  · intro result member
    simp only [State.return, List.mem_append, List.mem_singleton] at member
    rcases member with member | rfl
    · exact sound.full result member
    · exact full
  · intro result member
    simp only [State.return, List.mem_append, List.mem_singleton] at member
    rcases member with member | rfl
    · exact sound.failing result member
    · exact failing

theorem Sound.calling {state : State} (size : Nat) (sound : Sound state) (empty : state.reader.out = []) :
    Sound { state with reader := { state.reader with size := size, out := [] } } :=
  ⟨by simpa [State.copied, State.stream, empty] using sound.copied, sound.full, sound.failing⟩

theorem ReaderStep.sound {layout : Layout} {state after : State} {act : ReaderAct}
    (step : ReaderStep layout state act after) (inv : Inv layout state)
    (valid : CallsValid state (.reader act)) (sound : Sound state) : Sound after := by
  cases step with
  | skip => exact ⟨sound.copied, sound.full, sound.failing⟩
  | «open» => exact ⟨sound.copied, sound.full, sound.failing⟩
  | callBad pc size =>
      have empty := inv.between (.inr (.inr pc))
      refine (sound.calling size empty).return ?_ ?_ (by simp)
      · simpa [State.copied, State.stream, empty] using sound.copied
      · intro same
        exact_mod_cast same
  | call pc size =>
      have empty := inv.between (.inr (.inr pc))
      exact ⟨by simpa [State.copied, State.stream, empty] using sound.copied, sound.full,
        sound.failing⟩
  | callNull pc size null =>
      have empty := inv.between (.inr (.inr pc))
      have zero : size = 0 := by simpa [CallsValid, null] using valid
      subst zero
      refine (sound.calling 0 empty).return ?_ (by simp) (by simp)
      simpa [State.copied, State.stream, empty, slice] using sound.copied
  | last pc enough =>
      have quiet := inv.looping (.inl pc)
      obtain ⟨bound, _, _, inside, stream, remain⟩ := inv.reading (.inr pc) quiet
      have left := remain pc
      have moved : Sound { state with pOtaBuf := state.pOtaBuf + state.reader.remainReadSize } :=
        ⟨sound.copied, sound.full, sound.failing⟩
      refine moved.return ?_ ?_ (by simp [quiet])
      · have cut := slice_split state.otaBuf state.pOtaBuf state.reader.remainReadSize
          (bound - state.pOtaBuf) (by omega)
        rw [cut] at stream
        refine ⟨slice state.otaBuf (state.pOtaBuf + state.reader.remainReadSize)
          (bound - state.pOtaBuf - state.reader.remainReadSize), ?_⟩
        simpa [State.copied, State.stream] using stream.symm
      · intro _
        have amount := inv.within (.inl pc)
        simpa using amount
  | drain pc short =>
      have quiet := inv.looping (.inl pc)
      obtain ⟨bound, _, _, inside, stream, remain⟩ := inv.reading (.inr pc) quiet
      rw [← remain pc] at stream
      exact ⟨⟨[], by simpa [State.copied, State.stream] using stream.symm⟩, sound.full,
        sound.failing⟩
  | post => exact ⟨sound.copied, sound.full, sound.failing⟩
  | wait => exact ⟨sound.copied, sound.full, sound.failing⟩
  | resumeFail pc null =>
      refine sound.return sound.copied ?_ (by simp)
      intro same
      omega
  | resume => exact ⟨sound.copied, sound.full, sound.failing⟩

theorem initial_sound (layout : Layout) (state : State) (initial : Initial layout state) :
    Sound state := by
  refine ⟨?_, ?_, ?_⟩
  · simp [State.copied, State.stream, initial.results, initial.reader]
  · simp [initial.results]
  · simp [initial.results]

theorem sound_of_valid_calls (layout : Layout) (state : State)
    (reachable : ((machine layout).restrict CallsValid).Reachable state) : Sound state := by
  refine Machine.Reachable.always (initial_sound layout) ?_ state reachable
  intro before label after earlier sound moved
  have inv := reachable_inv layout before earlier.of_restrict
  obtain ⟨valid, moved⟩ := Machine.restrict_next.mp moved
  cases label with
  | download act => exact (download_step before after act moved).sound sound
  | reader act => exact (reader_step layout before after act moved).sound inv valid sound

theorem null_call_unsafe (layout : Layout) (state after : State) (act : Act) (inv : Inv layout state)
    (moved : next layout state act = some after) (invalid : ¬ CallsValid state act) :
    ¬ Safe after := by
  cases act with
  | download act => exact absurd trivial invalid
  | reader act =>
      cases reader_step layout state after act moved with
      | callBad pc size valid present => simp [CallsValid, present] at invalid
      | call pc size valid present => simp [CallsValid, present] at invalid
      | callNull pc size null =>
          have failed : state.failed = true := by
            by_contra quiet
            obtain ⟨valid, present, _⟩ := inv.reading (.inl pc) (by simpa using quiet)
            rw [null] at present
            contradiction
          intro safe
          have nothing := safe.failing ⟨size, size, slice state.otaBuf state.pOtaBuf size, true⟩
            (by simp [State.return, failed]) rfl
          have zero : size = 0 := by
            simp only at nothing
            omega
          exact invalid (.inl zero)
      | _ => exact absurd trivial invalid

/-- Reads stay safe in every run that makes no call for bytes while
`p_ota_valid` is NULL; a step that makes one breaks safety. -/
theorem reads_safe_of_valid_calls (layout : Layout) :
    (∀ state, ((machine layout).restrict CallsValid).Reachable state → Safe state) ∧
      ∀ state act after, (machine layout).Reachable state → next layout state act = some after →
        ¬ CallsValid state act → ¬ Safe after := by
  refine ⟨fun state reachable => (sound_of_valid_calls layout state reachable).safe, ?_⟩
  intro state act after reachable moved invalid
  exact null_call_unsafe layout state after act (reachable_inv layout state reachable) moved invalid

def start (lens : List Nat) : State where
  otaBuf := fun _ => 0xff
  pOtaBuf := 0
  pOtaValid := none
  pieceReadSem := 0
  pieceSourceSem := 0
  pc := if lens = [] then .finished else .receive
  rest := lens
  reader := ⟨.skipWait, 0, [], 0, 0⟩
  failed := false
  payloads := []
  results := []

theorem initial_start (layout : Layout) : Initial layout (start layout.lens) :=
  ⟨rfl, rfl, rfl, rfl, ⟨rfl, rfl⟩, rfl, rfl, rfl⟩

/-- One piece of one byte and its CRC. -/
def oneByte : Layout := ⟨16, [5], by decide⟩

/-- The piece arrives, verifies and is read. -/
def goodRun : List Act :=
  [.download (.section 0 (7 :: pieceCrc [7])), .download .complete, .download .step,
    .reader .step, .reader .step, .reader (.call 1), .reader .step]

/-- The first piece fails; the reader then asks for four bytes. -/
def failedRun : List Act :=
  [.download .fail, .download .step, .reader .step, .reader .step, .reader (.call 4)]

theorem reads_safe_one_byte :
    ∃ state, ((machine oneByte).restrict CallsValid).run (start [5]) goodRun = some state ∧
      state.results = [⟨1, 1, [7], false⟩] ∧ Safe state := by
  have ran : ∃ state, ((machine oneByte).restrict CallsValid).run (start [5]) goodRun =
      some state ∧ state.results = [⟨1, 1, [7], false⟩] := ⟨_, rfl, rfl⟩
  obtain ⟨state, ran, results⟩ := ran
  have reachable := Machine.reachable_of_run (.initial (initial_start oneByte)) ran
  exact ⟨state, ran, results, (reads_safe_of_valid_calls oneByte).1 state reachable⟩

theorem reads_unsafe_first_piece_failed :
    ¬ ∀ layout state, (machine layout).Reachable state → Safe state := by
  intro always
  have ran : ∃ state, (machine oneByte).run (start [5]) failedRun = some state ∧
      state.results = [⟨4, 4, [0xff, 0xff, 0xff, 0xff], true⟩] := ⟨_, rfl, rfl⟩
  obtain ⟨state, ran, results⟩ := ran
  have safe := always oneByte state
    (Machine.reachable_of_run (.initial (initial_start oneByte)) ran)
  have nothing := safe.failing ⟨4, 4, [0xff, 0xff, 0xff, 0xff], true⟩ (by simp [results]) rfl
  exact absurd nothing (by decide)

end Alisl.Upgrade.PieceRead
