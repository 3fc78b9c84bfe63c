import Alisl.Base.Machine
import Alisl.Base.Baton
import Alisl.Upgrade.Crc

/-! Piece-by-piece download: `ota_file_download_by_piece` filling `ota_buf`, and
`ota_file_skip_head` followed by calls of `ota_file_read` draining it, coupled by
`piece_source_sem` and `piece_read_sem`.

Pointers into `ota_buf` are offsets. A download of a piece is any number of
section writes into its part of the buffer, then success or failure of
`alislupg_ota_start_download_by_piece`. -/

namespace Alisl.Upgrade.PieceRead

open Alisl.Base

/-- The sizes the layout gives: `g_piece_size`, and per piece the bytes received,
which end in a CRC and fit into the buffer. -/
structure Layout where
  pieceSize : Nat
  lens : List Nat
  room : ∀ len ∈ lens, 4 ≤ len ∧ len ≤ pieceSize

inductive DownloadPc where
  | receive
  | postSource
  | waitRead
  | failPost
  | finished
  deriving DecidableEq, Repr

inductive ReaderPc where
  | skipWait
  | open
  | idle
  | loop
  | post
  | wait
  | resume
  deriving DecidableEq, Repr

/-- A returned call of `ota_file_read`: its argument, what it returned and wrote,
and whether a piece had failed by then. -/
structure Result where
  size : Nat
  ret : Int
  out : List Byte
  afterFailure : Bool
  deriving DecidableEq, Repr

/-- The locals of `ota_file_read`. -/
structure Reader where
  pc : ReaderPc
  size : Nat
  out : List Byte
  remainBufSize : Nat
  remainReadSize : Nat

structure State where
  otaBuf : Memory
  pOtaBuf : Nat
  pOtaValid : Option Nat
  pieceReadSem : Nat
  pieceSourceSem : Nat
  pc : DownloadPc
  rest : List Nat
  reader : Reader
  failed : Bool
  payloads : List (List Byte)
  results : List Result

inductive DownloadAct where
  | section (offset : Nat) (bytes : List Byte)
  | complete
  | fail
  | step

inductive ReaderAct where
  | call (size : Nat)
  | step

inductive Act where
  | download (act : DownloadAct)
  | reader (act : ReaderAct)

/-- The bytes of the piece in front of its CRC. -/
def State.received (state : State) (len : Nat) : List Byte := slice state.otaBuf 0 (len - 4)

def State.crcMatches (state : State) (len : Nat) : Bool :=
  pieceCrc (state.received len) == slice state.otaBuf (len - 4) 4

def downloadNext (state : State) (act : DownloadAct) : Option State :=
  match state.pc, act, state.rest with
  | .receive, .section offset bytes, len :: _ =>
      if offset + bytes.length ≤ len then
        some { state with otaBuf := store state.otaBuf offset bytes }
      else none
  | .receive, .complete, len :: rest =>
      if state.crcMatches len then
        some { state with
          pOtaValid := some (len - 4)
          rest := rest
          payloads := state.payloads ++ [state.received len]
          pc := .postSource }
      else some state
  | .receive, .fail, _ => some { state with pOtaValid := none, failed := true, pc := .failPost }
  | .postSource, .step, rest =>
      some { state with
        pieceSourceSem := state.pieceSourceSem + 1
        pc := if rest = [] then .finished else .waitRead }
  | .waitRead, .step, _ =>
      if 0 < state.pieceReadSem then
        some { state with pieceReadSem := state.pieceReadSem - 1, pc := .receive }
      else none
  | .failPost, .step, _ =>
      some { state with pieceSourceSem := state.pieceSourceSem + 1, pc := .finished }
  | _, _, _ => none

/-- `ota_file_read` returns. -/
def State.return (state : State) (ret : Int) (out : List Byte) : State :=
  { state with
    reader := { state.reader with pc := .idle, out := [] }
    results := state.results ++ [⟨state.reader.size, ret, out, state.failed⟩] }

def otaFileRead (layout : Layout) (state : State) (size : Nat) : State :=
  let state := { state with reader := { state.reader with size := size, out := [] } }
  match state.pOtaValid with
  | some valid =>
      let remain : Int := valid - state.pOtaBuf
      if remain < 0 ∨ (layout.pieceSize : Int) < remain then state.return 0 []
      else { state with
        reader := ⟨.loop, size, [], remain.toNat, size⟩ }
  | none => state.return size (slice state.otaBuf state.pOtaBuf size)

/-- One turn of the loop up to the post of `piece_read_sem`. -/
def otaFileReadLoop (state : State) : State :=
  let reader := state.reader
  if 0 < reader.remainReadSize then
    if reader.remainReadSize ≤ reader.remainBufSize then
      let out := reader.out ++ slice state.otaBuf state.pOtaBuf reader.remainReadSize
      { state with pOtaBuf := state.pOtaBuf + reader.remainReadSize }.return reader.size out
    else { state with
      reader := { reader with
        pc := .post
        out := reader.out ++ slice state.otaBuf state.pOtaBuf reader.remainBufSize
        remainReadSize := reader.remainReadSize - reader.remainBufSize } }
  else state.return reader.size reader.out

def readerNext (layout : Layout) (state : State) (act : ReaderAct) : Option State :=
  match state.reader.pc, act with
  | .skipWait, .step =>
      if 0 < state.pieceSourceSem then
        some { state with
          pieceSourceSem := state.pieceSourceSem - 1
          reader := { state.reader with pc := .open } }
      else none
  | .open, .step => some { state with pOtaBuf := 0, reader := { state.reader with pc := .idle } }
  | .idle, .call size => some (otaFileRead layout state size)
  | .loop, .step => some (otaFileReadLoop state)
  | .post, .step =>
      some { state with
        pieceReadSem := state.pieceReadSem + 1
        reader := { state.reader with pc := .wait } }
  | .wait, .step =>
      if 0 < state.pieceSourceSem then
        some { state with
          pieceSourceSem := state.pieceSourceSem - 1
          reader := { state.reader with pc := .resume } }
      else none
  | .resume, .step =>
      match state.pOtaValid with
      | none => some (state.return (-1) state.reader.out)
      | some valid =>
          some { state with
            pOtaBuf := 0
            reader := { state.reader with pc := .loop, remainBufSize := valid } }
  | _, _ => none

def next (layout : Layout) (state : State) : Act → Option State
  | .download act => downloadNext state act
  | .reader act => readerNext layout state act

/-- Both semaphores at 0 as `ota_download_start` leaves them; what the globals
hold from earlier does not matter. -/
structure Initial (layout : Layout) (state : State) : Prop where
  pieceReadSem : state.pieceReadSem = 0
  pieceSourceSem : state.pieceSourceSem = 0
  pc : state.pc = if layout.lens = [] then .finished else .receive
  rest : state.rest = layout.lens
  reader : state.reader.pc = .skipWait ∧ state.reader.out = []
  failed : state.failed = false
  payloads : state.payloads = []
  results : state.results = []

def machine (layout : Layout) : Machine State Act where
  Initial := Initial layout
  next := next layout

/-! What a step can do. -/

inductive DownloadStep (state : State) : DownloadAct → State → Prop where
  | section (pc : state.pc = .receive) (offset : Nat) (bytes : List Byte) :
      DownloadStep state (.section offset bytes) { state with otaBuf := store state.otaBuf offset bytes }
  | mismatch (pc : state.pc = .receive) : DownloadStep state .complete state
  | verified (pc : state.pc = .receive) (len : Nat) (rest : List Nat) (more : state.rest = len :: rest)
      (crc : state.crcMatches len = true) :
      DownloadStep state .complete { state with
        pOtaValid := some (len - 4)
        rest := rest
        payloads := state.payloads ++ [state.received len]
        pc := .postSource }
  | fail (pc : state.pc = .receive) :
      DownloadStep state .fail { state with pOtaValid := none, failed := true, pc := .failPost }
  | post (pc : state.pc = .postSource) :
      DownloadStep state .step { state with
        pieceSourceSem := state.pieceSourceSem + 1
        pc := if state.rest = [] then .finished else .waitRead }
  | waitRead (pc : state.pc = .waitRead) (sem : Nat) (token : state.pieceReadSem = sem + 1) :
      DownloadStep state .step { state with pieceReadSem := sem, pc := .receive }
  | failPost (pc : state.pc = .failPost) :
      DownloadStep state .step { state with pieceSourceSem := state.pieceSourceSem + 1, pc := .finished }

theorem download_step (state after : State) (act : DownloadAct)
    (moved : downloadNext state act = some after) : DownloadStep state act after := by
  cases pc : state.pc <;> cases act <;> cases more : state.rest <;>
    simp only [downloadNext, pc, more] at moved
  all_goals try contradiction
  case receive.section.cons offset bytes len rest =>
    split at moved <;> cases moved
    simpa [pc, more] using DownloadStep.section pc offset bytes
  case receive.complete.cons len rest =>
    split at moved <;> cases moved
    · rename_i crc
      exact .verified pc len rest more crc
    · exact .mismatch pc
  case receive.fail.nil =>
    cases moved
    simpa [more] using DownloadStep.fail pc
  case receive.fail.cons =>
    cases moved
    simpa [more] using DownloadStep.fail pc
  case postSource.step.nil =>
    cases moved
    simpa [more] using DownloadStep.post pc
  case postSource.step.cons =>
    cases moved
    simpa [more] using DownloadStep.post pc
  case waitRead.step.nil =>
    split at moved <;> cases moved
    rename_i token
    simpa [more] using DownloadStep.waitRead pc _ (Nat.succ_pred_eq_of_pos token).symm
  case waitRead.step.cons =>
    split at moved <;> cases moved
    rename_i token
    simpa [more] using DownloadStep.waitRead pc _ (Nat.succ_pred_eq_of_pos token).symm
  case failPost.step.nil =>
    cases moved
    simpa [more] using DownloadStep.failPost pc
  case failPost.step.cons =>
    cases moved
    simpa [more] using DownloadStep.failPost pc

inductive ReaderStep (layout : Layout) (state : State) : ReaderAct → State → Prop where
  | skip (pc : state.reader.pc = .skipWait) (sem : Nat) (token : state.pieceSourceSem = sem + 1) :
      ReaderStep layout state .step { state with
        pieceSourceSem := sem
        reader := { state.reader with pc := .open } }
  | open (pc : state.reader.pc = .open) :
      ReaderStep layout state .step { state with
        pOtaBuf := 0
        reader := { state.reader with pc := .idle } }
  | callBad (pc : state.reader.pc = .idle) (size valid : Nat) (present : state.pOtaValid = some valid)
      (bad : valid < state.pOtaBuf ∨ layout.pieceSize < valid - state.pOtaBuf) :
      ReaderStep layout state (.call size)
        (State.return { state with reader := { state.reader with size := size, out := [] } } 0 [])
  | call (pc : state.reader.pc = .idle) (size valid : Nat) (present : state.pOtaValid = some valid)
      (inside : state.pOtaBuf ≤ valid) :
      ReaderStep layout state (.call size) { state with
        reader := ⟨.loop, size, [], valid - state.pOtaBuf, size⟩ }
  | callNull (pc : state.reader.pc = .idle) (size : Nat) (null : state.pOtaValid = none) :
      ReaderStep layout state (.call size)
        (State.return { state with reader := { state.reader with size := size, out := [] } } size
          (slice state.otaBuf state.pOtaBuf size))
  | last (pc : state.reader.pc = .loop)
      (enough : state.reader.remainReadSize ≤ state.reader.remainBufSize) :
      ReaderStep layout state .step
        (State.return { state with pOtaBuf := state.pOtaBuf + state.reader.remainReadSize }
          state.reader.size
          (state.reader.out ++ slice state.otaBuf state.pOtaBuf state.reader.remainReadSize))
  | drain (pc : state.reader.pc = .loop)
      (short : state.reader.remainBufSize < state.reader.remainReadSize) :
      ReaderStep layout state .step { state with
        reader := { state.reader with
          pc := .post
          out := state.reader.out ++ slice state.otaBuf state.pOtaBuf state.reader.remainBufSize
          remainReadSize := state.reader.remainReadSize - state.reader.remainBufSize } }
  | post (pc : state.reader.pc = .post) :
      ReaderStep layout state .step { state with
        pieceReadSem := state.pieceReadSem + 1
        reader := { state.reader with pc := .wait } }
  | wait (pc : state.reader.pc = .wait) (sem : Nat) (token : state.pieceSourceSem = sem + 1) :
      ReaderStep layout state .step { state with
        pieceSourceSem := sem
        reader := { state.reader with pc := .resume } }
  | resumeFail (pc : state.reader.pc = .resume) (null : state.pOtaValid = none) :
      ReaderStep layout state .step (state.return (-1) state.reader.out)
  | resume (pc : state.reader.pc = .resume) (valid : Nat) (present : state.pOtaValid = some valid) :
      ReaderStep layout state .step { state with
        pOtaBuf := 0
        reader := { state.reader with pc := .loop, remainBufSize := valid } }

theorem otaFileRead_step (layout : Layout) (state : State) (size : Nat)
    (pc : state.reader.pc = .idle) : ReaderStep layout state (.call size) (otaFileRead layout state size) := by
  cases present : state.pOtaValid with
  | none => simpa [otaFileRead, present] using ReaderStep.callNull pc size present
  | some valid =>
      by_cases bad : (valid : Int) - state.pOtaBuf < 0 ∨
          (layout.pieceSize : Int) < valid - state.pOtaBuf
      · have step : ReaderStep layout state _ _ := .callBad pc size valid present (by omega)
        simp only [otaFileRead, present]
        rw [if_pos bad]
        simpa [present] using step
      · have inside : state.pOtaBuf ≤ valid := by omega
        have remain : ((valid : Int) - state.pOtaBuf).toNat = valid - state.pOtaBuf := by omega
        have step : ReaderStep layout state _ _ := .call pc size valid present inside
        simp only [otaFileRead, present]
        rw [if_neg bad, remain]
        simpa [present] using step

/-- A turn with nothing left to read is a copy of no bytes. -/
theorem otaFileReadLoop_step (layout : Layout) (state : State) (pc : state.reader.pc = .loop) :
    ReaderStep layout state .step (otaFileReadLoop state) := by
  rcases Nat.lt_or_ge state.reader.remainBufSize state.reader.remainReadSize with short | enough
  · have some : 0 < state.reader.remainReadSize := by omega
    simpa [otaFileReadLoop, some, Nat.not_le.mpr short] using ReaderStep.drain pc short
  · have step : ReaderStep layout state _ _ := .last pc enough
    by_cases some : 0 < state.reader.remainReadSize
    · simpa [otaFileReadLoop, some, enough] using step
    · have zero : state.reader.remainReadSize = 0 := by omega
      simpa [otaFileReadLoop, zero, slice] using step

theorem reader_step (layout : Layout) (state after : State) (act : ReaderAct)
    (moved : readerNext layout state act = some after) : ReaderStep layout state act after := by
  cases pc : state.reader.pc <;> cases act <;> simp only [readerNext, pc] at moved
  all_goals try contradiction
  case skipWait.step =>
    split at moved <;> cases moved
    rename_i token
    exact .skip pc _ (Nat.succ_pred_eq_of_pos token).symm
  case open.step =>
    cases moved
    exact .open pc
  case idle.call size =>
    cases moved
    exact otaFileRead_step layout state size pc
  case loop.step =>
    cases moved
    exact otaFileReadLoop_step layout state pc
  case post.step =>
    cases moved
    exact .post pc
  case wait.step =>
    split at moved <;> cases moved
    rename_i token
    exact .wait pc _ (Nat.succ_pred_eq_of_pos token).symm
  case resume.step =>
    cases present : state.pOtaValid with
    | none =>
        simp only [present] at moved
        cases moved
        exact .resumeFail pc present
    | some valid =>
        simp only [present] at moved
        cases moved
        simpa [present] using ReaderStep.resume pc valid present

/-! Where the buffer is. The download thread owns it from the wait for
`piece_read_sem` to the post of `piece_source_sem`, the reader the rest of the time. -/

def DownloadPc.owns : DownloadPc → Bool
  | .receive | .postSource | .failPost => true
  | .waitRead | .finished => false

def ReaderPc.owns : ReaderPc → Bool
  | .open | .idle | .loop | .post | .resume => true
  | .skipWait | .wait => false

def State.baton (state : State) : Baton where
  holdsFirst := state.pc.owns
  holdsSecond := state.reader.pc.owns
  toFirst := state.pieceReadSem
  toSecond := state.pieceSourceSem

theorem DownloadStep.baton_pass {state after : State} {act : DownloadAct}
    (step : DownloadStep state act after) :
    Baton.Pass state.baton after.baton := by
  cases step with
  | «section» pc => exact .stay _
  | mismatch pc => exact .stay _
  | verified pc => simpa [State.baton, DownloadPc.owns, pc] using Baton.Pass.stay _
  | fail pc => simpa [State.baton, DownloadPc.owns, pc] using Baton.Pass.stay _
  | post pc =>
      by_cases last : state.rest = [] <;>
        simpa [State.baton, DownloadPc.owns, pc, last] using Baton.Pass.giveFirst _ _ _
  | waitRead pc sem token =>
      simpa [State.baton, DownloadPc.owns, pc, token] using Baton.Pass.takeFirst _ _ _
  | failPost pc => simpa [State.baton, DownloadPc.owns, pc] using Baton.Pass.giveFirst _ _ _

theorem ReaderStep.baton_pass {layout : Layout} {state after : State} {act : ReaderAct}
    (step : ReaderStep layout state act after) : Baton.Pass state.baton after.baton := by
  cases step with
  | skip pc sem token =>
      simpa [State.baton, ReaderPc.owns, pc, token] using Baton.Pass.takeSecond _ _ _
  | «open» pc => simpa [State.baton, ReaderPc.owns, pc] using Baton.Pass.stay _
  | callBad pc => simpa [State.baton, State.return, ReaderPc.owns, pc] using Baton.Pass.stay _
  | call pc => simpa [State.baton, ReaderPc.owns, pc] using Baton.Pass.stay _
  | callNull pc => simpa [State.baton, State.return, ReaderPc.owns, pc] using Baton.Pass.stay _
  | last pc => simpa [State.baton, State.return, ReaderPc.owns, pc] using Baton.Pass.stay _
  | drain pc => simpa [State.baton, ReaderPc.owns, pc] using Baton.Pass.stay _
  | post pc => simpa [State.baton, ReaderPc.owns, pc] using Baton.Pass.giveSecond _ _ _
  | wait pc sem token =>
      simpa [State.baton, ReaderPc.owns, pc, token] using Baton.Pass.takeSecond _ _ _
  | resumeFail pc => simpa [State.baton, State.return, ReaderPc.owns, pc] using Baton.Pass.stay _
  | resume pc => simpa [State.baton, ReaderPc.owns, pc] using Baton.Pass.stay _

/-- Everything the reader has copied out, the call in progress included. -/
def State.copied (state : State) : List Byte :=
  (state.results.map Result.out).flatten ++ state.reader.out

/-- The payloads verified so far, one after the other. -/
def State.stream (state : State) : List Byte := state.payloads.flatten

/-- A verified piece has not been started on. -/
def State.Fresh (state : State) : Prop :=
  state.pc = .postSource ∨ 0 < state.pieceSourceSem ∨ state.reader.pc = .open ∨
    state.reader.pc = .resume

/-- The reader is done with the piece in the buffer. -/
def State.Spent (state : State) : Prop :=
  state.pc = .receive ∨ 0 < state.pieceReadSem ∨ state.reader.pc = .post

structure Inv (layout : Layout) (state : State) : Prop where
  tokens : state.baton.tokens = if layout.lens = [] then 0 else 1
  rest : state.rest = layout.lens.drop state.payloads.length
  more : state.pc = .receive ∨ state.pc = .waitRead → state.rest ≠ []
  ended : state.pc = .finished → state.failed = false → state.rest = []
  failure : state.failed = true → state.pOtaValid = none ∧ (state.pc = .failPost ∨ state.pc = .finished)
  failPost : state.pc = .failPost → state.failed = true
  looping : state.reader.pc = .loop ∨ state.reader.pc = .post → state.failed = false
  between : state.reader.pc = .skipWait ∨ state.reader.pc = .open ∨ state.reader.pc = .idle →
    state.reader.out = []
  within : state.reader.pc = .loop ∨ state.reader.pc = .post ∨ state.reader.pc = .wait ∨
      state.reader.pc = .resume →
    state.reader.out.length + state.reader.remainReadSize = state.reader.size
  pending : state.reader.pc = .post ∨ state.reader.pc = .wait ∨ state.reader.pc = .resume →
    0 < state.reader.remainReadSize
  fresh : state.Fresh → state.failed = false → ∃ valid, state.pOtaValid = some valid ∧
    valid ≤ layout.pieceSize ∧ state.stream = state.copied ++ slice state.otaBuf 0 valid
  reading : state.reader.pc = .idle ∨ state.reader.pc = .loop → state.failed = false →
    ∃ valid, state.pOtaValid = some valid ∧ valid ≤ layout.pieceSize ∧ state.pOtaBuf ≤ valid ∧
      state.stream =
        state.copied ++ slice state.otaBuf state.pOtaBuf (valid - state.pOtaBuf) ∧
      (state.reader.pc = .loop → state.reader.remainBufSize = valid - state.pOtaBuf)
  spent : state.Spent → state.copied = state.stream

theorem Inv.tokens_le {layout : Layout} {state : State} (inv : Inv layout state) :
    state.baton.tokens ≤ 1 := by
  rw [inv.tokens]
  split <;> omega

theorem Inv.download_owns {layout : Layout} {state : State} (inv : Inv layout state)
    (owns : state.pc.owns = true) :
    (state.reader.pc = .skipWait ∨ state.reader.pc = .wait) ∧ state.pieceReadSem = 0 ∧
      state.pieceSourceSem = 0 := by
  obtain ⟨away, sems⟩ := Baton.not_second_of_first inv.tokens_le owns
  refine ⟨?_, sems⟩
  have other : state.reader.pc.owns = false := away
  cases pc : state.reader.pc <;> simp [pc, ReaderPc.owns] at other ⊢

theorem Inv.reader_owns {layout : Layout} {state : State} (inv : Inv layout state)
    (owns : state.reader.pc.owns = true) :
    (state.pc = .waitRead ∨ state.pc = .finished) ∧ state.pieceReadSem = 0 ∧
      state.pieceSourceSem = 0 := by
  obtain ⟨away, sems⟩ := Baton.not_first_of_second inv.tokens_le owns
  refine ⟨?_, sems⟩
  have other : state.pc.owns = false := away
  cases pc : state.pc <;> simp [pc, DownloadPc.owns] at other ⊢

theorem Inv.not_failed {layout : Layout} {state : State} (inv : Inv layout state)
    (first : state.pc ≠ .failPost) (second : state.pc ≠ .finished) : state.failed = false := by
  by_contra failed
  rcases (inv.failure (by simpa using failed)).2 with same | same
  · exact first same
  · exact second same

theorem Inv.not_failed_of_valid {layout : Layout} {state : State} {valid : Nat}
    (inv : Inv layout state) (present : state.pOtaValid = some valid) : state.failed = false := by
  by_contra failed
  have null := (inv.failure (by simpa using failed)).1
  rw [present] at null
  contradiction

theorem DownloadStep.inv {layout : Layout} {state after : State} {act : DownloadAct}
    (step : DownloadStep state act after) (inv : Inv layout state) : Inv layout after := by
  have tokens : after.baton.tokens = if layout.lens = [] then 0 else 1 := by
    rw [step.baton_pass.tokens_eq, inv.tokens]
  have owned := inv.download_owns
  have alive := inv.not_failed
  obtain ⟨_, rest, more, ended, failure, failPost, looping, between, within, pending, fresh,
    reading, spent⟩ := inv
  cases step with
  | «section» pc offset bytes =>
      obtain ⟨reader, _, source⟩ := owned (by simp [pc, DownloadPc.owns])
      refine ⟨tokens, rest, more, ended, failure, failPost, looping, between, within, pending,
        ?_, ?_, spent⟩
      · intro full
        rcases reader with reader | reader <;> simp [State.Fresh, pc, source, reader] at full
      · intro busy
        rcases reader with reader | reader <;> simp [reader] at busy
  | mismatch =>
      exact ⟨tokens, rest, more, ended, failure, failPost, looping, between, within, pending,
        fresh, reading, spent⟩
  | verified pc len tail first crc =>
      obtain ⟨reader, read, _⟩ := owned (by simp [pc, DownloadPc.owns])
      have quiet := alive (by simp [pc]) (by simp [pc])
      have member : len ∈ layout.lens := by
        apply List.mem_of_mem_drop
        rw [← rest, first]
        exact List.mem_cons_self
      refine ⟨tokens, ?_, by simp, by simp, by simp [quiet], by simp, looping, between, within,
        pending, ?_, ?_, ?_⟩
      · rw [List.length_append, List.length_singleton, ← List.tail_drop, ← rest, first]
        rfl
      · intro _ _
        refine ⟨len - 4, rfl, (Nat.sub_le _ _).trans (layout.room len member).2, ?_⟩
        have done := spent (.inl pc)
        simp only [State.stream, State.copied, State.received, List.flatten_append,
          List.flatten_cons, List.flatten_nil, List.append_nil] at done ⊢
        rw [done]
      · intro busy
        rcases reader with reader | reader <;> simp [reader] at busy
      · intro used
        rcases reader with reader | reader <;> simp [State.Spent, read, reader] at used
  | fail pc =>
      obtain ⟨reader, read, _⟩ := owned (by simp [pc, DownloadPc.owns])
      refine ⟨tokens, rest, by simp, by simp, by simp, by simp, ?_, between, within, pending,
        by simp, by simp, ?_⟩
      · intro busy
        rcases reader with reader | reader <;> simp [reader] at busy
      · intro used
        rcases reader with reader | reader <;> simp [State.Spent, read, reader] at used
  | post pc =>
      have quiet := alive (by simp [pc]) (by simp [pc])
      refine ⟨tokens, rest, ?_, ?_, by simp [quiet], ?_, looping, between, within,
        pending, ?_, reading, ?_⟩
      · by_cases last : state.rest = [] <;> simp [last]
      · by_cases last : state.rest = [] <;> simp [last]
      · by_cases last : state.rest = [] <;> simp [last]
      · intro _ failed
        exact fresh (.inl pc) failed
      · rintro (now | used | used)
        · by_cases last : state.rest = [] <;> simp [last] at now
        · exact spent (.inr (.inl used))
        · exact spent (.inr (.inr used))
  | waitRead pc sem token =>
      have quiet := alive (by simp [pc]) (by simp [pc])
      refine ⟨tokens, rest, fun _ => more (.inr pc), by simp, by simp [quiet], by simp, looping,
        between, within, pending, ?_, reading, ?_⟩
      · rintro (now | full | full)
        · cases now
        · exact fresh (.inr (.inl full))
        · exact fresh (.inr (.inr full))
      · intro _
        exact spent (.inr (.inl (by omega)))
  | failPost pc =>
      have failed := failPost pc
      refine ⟨tokens, rest, by simp, by simp [failed], fun _ => ⟨(failure failed).1, .inr rfl⟩,
        by simp, looping, between, within, pending, by simp [failed], by simp [failed], ?_⟩
      rintro (now | used)
      · cases now
      · exact spent (.inr used)

/-- While the reader owns the buffer no piece is waiting or being received. -/
theorem Inv.reader_busy {layout : Layout} {state : State} (inv : Inv layout state)
    (owns : state.reader.pc.owns = true) :
    state.pc ≠ .postSource ∧ state.pc ≠ .receive ∧ ¬ 0 < state.pieceSourceSem ∧
      ¬ 0 < state.pieceReadSem := by
  obtain ⟨pc, read, source⟩ := inv.reader_owns owns
  rcases pc with pc | pc <;> simp [pc, read, source]

theorem slice_split (memory : Memory) (at_ front len : Nat) (inside : front ≤ len) :
    slice memory at_ len = slice memory at_ front ++ slice memory (at_ + front) (len - front) := by
  rw [← slice_add, Nat.add_sub_cancel' inside]

theorem ReaderStep.inv {layout : Layout} {state after : State} {act : ReaderAct}
    (step : ReaderStep layout state act after) (inv : Inv layout state) : Inv layout after := by
  have tokens : after.baton.tokens = if layout.lens = [] then 0 else 1 := by
    rw [step.baton_pass.tokens_eq, inv.tokens]
  have busy := inv.reader_busy
  have alive (valid : Nat) (present : state.pOtaValid = some valid) := inv.not_failed_of_valid present
  obtain ⟨_, rest, more, ended, failure, failPost, looping, between, within, pending, fresh,
    reading, spent⟩ := inv
  cases step with
  | skip pc sem token =>
      refine ⟨tokens, rest, more, ended, failure, failPost, by simp, fun _ => between (.inl pc),
        by simp, by simp, ?_, by simp, ?_⟩
      · intro _
        exact fresh (.inr (.inl (by omega)))
      · rintro (used | used | used)
        · exact spent (.inl used)
        · exact spent (.inr (.inl used))
        · cases used
  | «open» pc =>
      obtain ⟨noPost, noReceive, noSource, noRead⟩ := busy (by simp [pc, ReaderPc.owns])
      refine ⟨tokens, rest, more, ended, failure, failPost, by simp,
        fun _ => between (.inr (.inl pc)), by simp, by simp, ?_, ?_, ?_⟩
      · simp [State.Fresh, noPost, noSource]
      · intro _ quiet
        obtain ⟨valid, present, bound, stream⟩ := fresh (.inr (.inr (.inl pc))) quiet
        exact ⟨valid, present, bound, Nat.zero_le _, stream, by simp⟩
      · simp [State.Spent, noReceive, noRead]
  | callBad pc size valid present bad =>
      obtain ⟨same, presentSame, bound, inside, _⟩ := reading (.inl pc) (alive _ present)
      rw [present, Option.some.injEq] at presentSame
      omega
  | call pc size valid present inside =>
      obtain ⟨noPost, noReceive, noSource, noRead⟩ := busy (by simp [pc, ReaderPc.owns])
      obtain ⟨same, presentSame, bound, _, stream, _⟩ := reading (.inl pc) (alive _ present)
      rw [present, Option.some.injEq] at presentSame
      subst presentSame
      refine ⟨tokens, rest, more, ended, failure, failPost, fun _ => alive _ present, by simp,
        by simp, by simp, ?_, ?_, ?_⟩
      · simp [State.Fresh, noPost, noSource]
      · intro _ _
        refine ⟨valid, present, bound, inside, ?_, fun _ => rfl⟩
        have empty := between (.inr (.inr pc))
        simpa [State.copied, State.stream, empty] using stream
      · simp [State.Spent, noReceive, noRead]
  | callNull pc size null =>
      obtain ⟨noPost, noReceive, noSource, noRead⟩ := busy (by simp [pc, ReaderPc.owns])
      have failed : state.failed = true := by
        by_contra quiet
        obtain ⟨valid, present, _⟩ := reading (.inl pc) (by simpa using quiet)
        rw [null] at present
        contradiction
      refine ⟨tokens, rest, more, ended, failure, failPost, by simp [State.return],
        by simp [State.return], by simp [State.return], by simp [State.return],
        by simp [State.return, failed], by simp [State.return, failed], ?_⟩
      simp [State.return, State.Spent, noReceive, noRead]
  | last pc enough =>
      obtain ⟨noPost, noReceive, noSource, noRead⟩ := busy (by simp [pc, ReaderPc.owns])
      refine ⟨tokens, rest, more, ended, failure, failPost, by simp [State.return],
        by simp [State.return], by simp [State.return], by simp [State.return], ?_, ?_, ?_⟩
      · simp [State.return, State.Fresh, noPost, noSource]
      · intro _ quiet
        obtain ⟨valid, present, bound, inside, stream, remain⟩ := reading (.inr pc) quiet
        have left := remain pc
        refine ⟨valid, present, bound, ?_, ?_, by simp [State.return]⟩
        · simp only [State.return]
          omega
        · have cut := slice_split state.otaBuf state.pOtaBuf state.reader.remainReadSize
            (valid - state.pOtaBuf) (by omega)
          rw [cut] at stream
          simpa [State.return, State.copied, State.stream, Nat.sub_sub] using stream
      · simp [State.return, State.Spent, noReceive, noRead]
  | drain pc short =>
      obtain ⟨noPost, noReceive, noSource, noRead⟩ := busy (by simp [pc, ReaderPc.owns])
      have quiet := looping (.inl pc)
      refine ⟨tokens, rest, more, ended, failure, failPost, fun _ => quiet, by simp, ?_, ?_, ?_,
        by simp, ?_⟩
      · intro _
        have amount := within (.inl pc)
        simp only [List.length_append, slice_length]
        omega
      · intro _
        exact Nat.sub_pos_of_lt short
      · simp [State.Fresh, noPost, noSource]
      · intro _
        obtain ⟨valid, _, _, _, stream, remain⟩ := reading (.inr pc) quiet
        have left := remain pc
        rw [← left] at stream
        simpa [State.copied, State.stream] using stream.symm
  | post pc =>
      obtain ⟨noPost, noReceive, noSource, noRead⟩ := busy (by simp [pc, ReaderPc.owns])
      refine ⟨tokens, rest, more, ended, failure, failPost, by simp, by simp,
        fun _ => within (.inr (.inl pc)), fun _ => pending (.inl pc), ?_, by simp,
        fun _ => spent (.inr (.inr pc))⟩
      simp [State.Fresh, noPost, noSource]
  | wait pc sem token =>
      refine ⟨tokens, rest, more, ended, failure, failPost, by simp, by simp,
        fun _ => within (.inr (.inr (.inl pc))), fun _ => pending (.inr (.inl pc)), ?_, by simp, ?_⟩
      · intro _
        exact fresh (.inr (.inl (by omega)))
      · rintro (used | used | used)
        · exact spent (.inl used)
        · exact spent (.inr (.inl used))
        · cases used
  | resumeFail pc null =>
      obtain ⟨noPost, noReceive, noSource, noRead⟩ := busy (by simp [pc, ReaderPc.owns])
      have failed : state.failed = true := by
        by_contra quiet
        obtain ⟨valid, present, _⟩ := fresh (.inr (.inr (.inr pc))) (by simpa using quiet)
        rw [null] at present
        contradiction
      refine ⟨tokens, rest, more, ended, failure, failPost, by simp [State.return],
        by simp [State.return], by simp [State.return], by simp [State.return],
        by simp [State.return, failed], by simp [State.return, failed], ?_⟩
      simp [State.return, State.Spent, noReceive, noRead]
  | resume pc valid present =>
      obtain ⟨noPost, noReceive, noSource, noRead⟩ := busy (by simp [pc, ReaderPc.owns])
      obtain ⟨same, presentSame, bound, stream⟩ := fresh (.inr (.inr (.inr pc))) (alive _ present)
      rw [present, Option.some.injEq] at presentSame
      subst presentSame
      refine ⟨tokens, rest, more, ended, failure, failPost, fun _ => alive _ present, by simp,
        fun _ => within (.inr (.inr (.inr pc))), by simp, ?_, ?_, ?_⟩
      · simp [State.Fresh, noPost, noSource]
      · intro _ _
        exact ⟨valid, present, bound, Nat.zero_le _, stream, fun _ => rfl⟩
      · simp [State.Spent, noReceive, noRead]

theorem initial_inv (layout : Layout) (state : State) (initial : Initial layout state) :
    Inv layout state := by
  obtain ⟨read, source, pc, rest, ⟨reader, out⟩, failed, payloads, results⟩ := initial
  refine ⟨?_, by simp [rest, payloads], ?_, ?_, by simp [failed], ?_, by simp [reader],
    fun _ => out, by simp [reader], by simp [reader], ?_, by simp [reader], ?_⟩
  · by_cases none : layout.lens = [] <;>
      simp [State.baton, Baton.tokens, read, source, pc, reader, none, ReaderPc.owns,
        DownloadPc.owns]
  · by_cases none : layout.lens = [] <;> simp [pc, rest, none]
  · by_cases none : layout.lens = [] <;> simp [pc, rest, none]
  · by_cases none : layout.lens = [] <;> simp [pc, none]
  · by_cases none : layout.lens = [] <;> simp [State.Fresh, pc, source, reader, none]
  · intro _
    simp [State.copied, State.stream, payloads, results, out]

theorem reachable_inv (layout : Layout) (state : State)
    (reachable : (machine layout).Reachable state) : Inv layout state := by
  refine Machine.Reachable.always (initial_inv layout) ?_ state reachable
  intro before label after _ inv moved
  cases label with
  | download act => exact (download_step before after act moved).inv inv
  | reader act => exact (reader_step layout before after act moved).inv inv

end Alisl.Upgrade.PieceRead
