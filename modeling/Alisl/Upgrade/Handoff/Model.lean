import Alisl.Base.Machine
import Alisl.Base.Baton
import Alisl.Upgrade.Writter

/-! The source thread (`upgrade_obj_loop` of the OTA plugin) and the writer
thread sharing `tune`, synchronised by `writersem` and `sourcesem`.

Each thread is cut at every access to shared data. A polling loop around
`sem_getvalue` is the blocked state of its `sem_wait`: nobody else waits on that
semaphore. Reading from the download is any number of partial copies into the
buffer, after which the call returns or fails. -/

namespace Alisl.Upgrade.Handoff

open Alisl.Base

inductive SourcePc where
  | test
  | wait
  | check
  | setElem
  | read
  | publish
  | post
  | failPost
  | over
  deriving DecidableEq, Repr

inductive WritterPc where
  | wait
  | check
  | take
  | prepare
  | write
  | account
  | post
  | exitTest
  | finished
  | fault
  deriving DecidableEq, Repr

/-- `upg_tune_t`, with the contents of `tune->buf` in place of its address. -/
structure Tune where
  buf : Memory
  size : Nat
  elem : Option Elem
  writersem : Nat
  sourcesem : Nat

structure Source where
  pc : SourcePc
  elems : List Elem
  elemread : Nat
  perread : Nat
  totalread : Nat
  filled : Nat

structure State where
  tune : Tune
  total : Nat
  source : Source
  pc : WritterPc
  writter : Writter
  elem : Option Elem
  progressScale : Int
  produced : List Chunk
  consumed : List Chunk

inductive SourceAct where
  | step
  | copy (bytes : List Byte)
  | fail

inductive Act where
  | source (act : SourceAct)
  | writter (env : WritterEnv)

/-- The chunk standing in the shared buffer. -/
def Tune.chunk (tune : Tune) (elem : Elem) : Chunk := ⟨elem, slice tune.buf 0 tune.size⟩

/-- Bookkeeping behind a read: the element is left once nothing remains of it. -/
def Source.advance (source : Source) (elem : Elem) : Source :=
  let elemread := source.elemread + source.perread
  let remain := ulongSub elem.imgSize elemread
  let perread := if remain < upgBufSize then remain else source.perread
  let totalread := source.totalread + source.perread
  if perread = 0 then
    { source with elems := source.elems.tail, elemread := 0, perread := upgBufSize, totalread }
  else { source with elemread, perread, totalread }

def sourceNext (state : State) : SourceAct → Option State
  | act =>
    let source := state.source
    match source.pc, act with
    | .test, .step =>
        if source.totalread < state.total ∧ source.elems ≠ [] then
          some { state with source := { source with pc := .wait } }
        else some { state with source := { source with pc := .over } }
    | .wait, .step =>
        if 0 < state.tune.writersem then
          some { state with
            tune := { state.tune with writersem := state.tune.writersem - 1 }
            source := { source with pc := .check } }
        else none
    | .check, .step =>
        if state.writter.error ≠ .none then
          some { state with source := { source with pc := .over } }
        else some { state with source := { source with pc := .setElem } }
    | .setElem, .step =>
        match source.elems with
        | [] => none
        | elem :: _ =>
            let perread := if elem.imgSize < upgBufSize then elem.imgSize else source.perread
            some { state with
              tune := { state.tune with elem := some elem }
              source := { source with pc := .read, perread, filled := 0 } }
    | .read, .copy bytes =>
        if source.filled + bytes.length ≤ source.perread then
          some { state with
            tune := { state.tune with buf := store state.tune.buf source.filled bytes }
            source := { source with filled := source.filled + bytes.length } }
        else none
    | .read, .step => some { state with source := { source with pc := .publish } }
    | .read, .fail =>
        some { state with
          writter := { state.writter with error := .other }
          source := { source with pc := .failPost } }
    | .publish, .step =>
        match source.elems with
        | [] => none
        | elem :: _ =>
            let tune := { state.tune with size := source.perread }
            some { state with
              tune := tune
              source := { source.advance elem with pc := .post }
              produced := state.produced ++ [tune.chunk elem] }
    | .post, .step =>
        some { state with
          tune := { state.tune with sourcesem := state.tune.sourcesem + 1 }
          source := { source with pc := .test } }
    | .failPost, .step =>
        some { state with
          tune := { state.tune with sourcesem := state.tune.sourcesem + 1 }
          source := { source with pc := .over } }
    | _, _ => none

def writterNext (state : State) (env : WritterEnv) : Option State :=
  match state.pc with
  | .wait =>
      if 0 < state.tune.sourcesem then
        some { state with
          tune := { state.tune with sourcesem := state.tune.sourcesem - 1 }
          pc := .check }
      else none
  | .check =>
      let writter := state.writter.raise env.raised
      if writter.error ≠ .none then
        some { state with writter := writter.signal.finish, pc := .finished }
      else some { state with writter, pc := .take }
  | .take =>
      match state.tune.elem with
      | none => none
      | some elem =>
          some { state with
            elem := some elem
            consumed := state.consumed ++ [state.tune.chunk elem]
            pc := .prepare }
  | .prepare =>
      match state.elem with
      | none => none
      | some elem =>
          let (writter, data) := Writter.prepare env (state.tune.chunk elem) state.writter
          -- writter->buf is tune->buf itself, so the boot parameters land in the shared buffer
          let tune := { state.tune with buf := store state.tune.buf 0 data }
          if writter.error ≠ .none then
            some { state with tune, writter := writter.signal.finish, pc := .finished }
          else some { state with tune, writter, pc := .write }
  | .write =>
      some { state with
        writter := Writter.write (slice state.tune.buf 0 state.tune.size) state.writter
        pc := .account }
  | .account =>
      match Writter.progress state.total state.writter.totalwrite with
      | none => some { state with pc := .fault }
      | some percent =>
          some { state with
            writter := Writter.settle state.progressScale percent env.raisedLate state.writter
            pc := .post }
  | .post =>
      some { state with
        tune := { state.tune with writersem := state.tune.writersem + 1 }
        pc := .exitTest }
  | .exitTest =>
      if state.writter.descPercent = 100 ∨ state.writter.error ≠ .none then
        some { state with writter := state.writter.finish, pc := .finished }
      else some { state with pc := .wait }
  | .finished => none
  | .fault => none

def next (state : State) : Act → Option State
  | .source act => sourceNext state act
  | .writter env => writterNext state env

/-- Both threads just started by `upgrade_tune_start`, with the semaphores as
`upgrade_tune_init` sets them and `tune->total` covering the listed images. -/
structure Initial (elems : List Elem) (state : State) : Prop where
  writersem : state.tune.writersem = 1
  sourcesem : state.tune.sourcesem = 0
  total : state.total = (elems.map Elem.imgSize).sum
  source : state.source = ⟨.test, elems, 0, upgBufSize, 0, 0⟩
  pc : state.pc = .wait
  writter : ∃ elemOld, state.writter = Writter.start elemOld
  produced : state.produced = []
  consumed : state.consumed = []

def machine (elems : List Elem) : Machine State Act where
  Initial := Initial elems
  next := next

/-! What a step can do. -/

inductive SourceStep (state : State) : State → Prop where
  | enter (pc : state.source.pc = .test) (more : state.source.elems ≠ []) :
      SourceStep state { state with source := { state.source with pc := .wait } }
  | leave (pc : state.source.pc = .test) :
      SourceStep state { state with source := { state.source with pc := .over } }
  | wait (pc : state.source.pc = .wait) (writersem : Nat)
      (token : state.tune.writersem = writersem + 1) :
      SourceStep state { state with
        tune := { state.tune with writersem := writersem }
        source := { state.source with pc := .check } }
  | giveUp (pc : state.source.pc = .check) (loud : state.writter.error ≠ .none) :
      SourceStep state { state with source := { state.source with pc := .over } }
  | goOn (pc : state.source.pc = .check) :
      SourceStep state { state with source := { state.source with pc := .setElem } }
  | setElem (pc : state.source.pc = .setElem) (elem : Elem) (rest : List Elem)
      (elems : state.source.elems = elem :: rest) :
      SourceStep state { state with
        tune := { state.tune with elem := some elem }
        source := { state.source with
          pc := .read
          perread := if elem.imgSize < upgBufSize then elem.imgSize else state.source.perread
          filled := 0 } }
  | copy (pc : state.source.pc = .read) (bytes : List Byte) :
      SourceStep state { state with
        tune := { state.tune with buf := store state.tune.buf state.source.filled bytes }
        source := { state.source with filled := state.source.filled + bytes.length } }
  | readDone (pc : state.source.pc = .read) :
      SourceStep state { state with source := { state.source with pc := .publish } }
  | readFail (pc : state.source.pc = .read) :
      SourceStep state { state with
        writter := { state.writter with error := .other }
        source := { state.source with pc := .failPost } }
  | publish (pc : state.source.pc = .publish) (elem : Elem) (rest : List Elem)
      (elems : state.source.elems = elem :: rest) :
      SourceStep state { state with
        tune := { state.tune with size := state.source.perread }
        source := { state.source.advance elem with pc := .post }
        produced := state.produced ++
          [Tune.chunk { state.tune with size := state.source.perread } elem] }
  | post (pc : state.source.pc = .post) :
      SourceStep state { state with
        tune := { state.tune with sourcesem := state.tune.sourcesem + 1 }
        source := { state.source with pc := .test } }
  | failPost (pc : state.source.pc = .failPost) :
      SourceStep state { state with
        tune := { state.tune with sourcesem := state.tune.sourcesem + 1 }
        source := { state.source with pc := .over } }

theorem source_step (state after : State) (act : SourceAct)
    (moved : sourceNext state act = some after) : SourceStep state after := by
  cases pc : state.source.pc <;> cases act <;> simp only [sourceNext, pc] at moved
  all_goals try contradiction
  case test.step =>
    split at moved <;> cases moved
    · rename_i enter
      exact .enter pc enter.2
    · exact .leave pc
  case wait.step =>
    split at moved <;> cases moved
    rename_i token
    exact .wait pc _ (Nat.succ_pred_eq_of_pos token).symm
  case check.step =>
    split at moved <;> cases moved
    · rename_i loud
      exact .giveUp pc loud
    · exact .goOn pc
  case setElem.step =>
    cases elems : state.source.elems with
    | nil => simp [elems] at moved
    | cons elem rest =>
        simp only [elems] at moved
        cases moved
        simpa [elems] using SourceStep.setElem pc elem rest elems
  case read.copy bytes =>
    split at moved <;> cases moved
    simpa [pc] using SourceStep.copy pc bytes
  case read.step =>
    cases moved
    exact .readDone pc
  case read.fail =>
    cases moved
    exact .readFail pc
  case publish.step =>
    cases elems : state.source.elems with
    | nil => simp [elems] at moved
    | cons elem rest =>
        simp only [elems] at moved
        cases moved
        exact .publish pc elem rest elems
  case post.step =>
    cases moved
    exact .post pc
  case failPost.step =>
    cases moved
    exact .failPost pc

inductive WritterStep (state : State) : State → Prop where
  | wait (pc : state.pc = .wait) (sourcesem : Nat) (token : state.tune.sourcesem = sourcesem + 1) :
      WritterStep state { state with
        tune := { state.tune with sourcesem := sourcesem }
        pc := .check }
  | stop (pc : state.pc = .check) (writter : Writter) (loud : writter.error ≠ .none) :
      WritterStep state { state with writter := writter, pc := .finished }
  | goOn (pc : state.pc = .check) :
      WritterStep state { state with pc := .take }
  | take (pc : state.pc = .take) (elem : Elem) (shared : state.tune.elem = some elem) :
      WritterStep state { state with
        elem := some elem
        consumed := state.consumed ++ [state.tune.chunk elem]
        pc := .prepare }
  | prepareFail (pc : state.pc = .prepare) (buf : Memory) (writter : Writter)
      (loud : writter.error ≠ .none) :
      WritterStep state { state with
        tune := { state.tune with buf := buf }
        writter := writter
        pc := .finished }
  | prepare (pc : state.pc = .prepare) (env : WritterEnv) (elem : Elem)
      (taken : state.elem = some elem)
      (quiet : (Writter.prepare env (state.tune.chunk elem) state.writter).1.error = .none) :
      WritterStep state { state with
        tune := { state.tune with
          buf := store state.tune.buf 0
            (Writter.prepare env (state.tune.chunk elem) state.writter).2 }
        writter := (Writter.prepare env (state.tune.chunk elem) state.writter).1
        pc := .write }
  | write (pc : state.pc = .write) :
      WritterStep state { state with
        writter := Writter.write (slice state.tune.buf 0 state.tune.size) state.writter
        pc := .account }
  | fault (pc : state.pc = .account) : WritterStep state { state with pc := .fault }
  | account (pc : state.pc = .account) (percent : Nat) (late : UpgErr) :
      WritterStep state { state with
        writter := Writter.settle state.progressScale percent late state.writter
        pc := .post }
  | post (pc : state.pc = .post) :
      WritterStep state { state with
        tune := { state.tune with writersem := state.tune.writersem + 1 }
        pc := .exitTest }
  | finish (pc : state.pc = .exitTest) :
      WritterStep state { state with writter := state.writter.finish, pc := .finished }
  | again (pc : state.pc = .exitTest) : WritterStep state { state with pc := .wait }

theorem writter_step (state after : State) (env : WritterEnv)
    (moved : writterNext state env = some after) : WritterStep state after := by
  cases pc : state.pc <;> simp only [writterNext, pc] at moved
  all_goals try contradiction
  case wait =>
    split at moved <;> cases moved
    rename_i token
    exact .wait pc _ (Nat.succ_pred_eq_of_pos token).symm
  case check =>
    split at moved <;> cases moved
    · rename_i loud
      exact .stop pc _ (by simpa [Writter.signal, Writter.finish, Writter.call] using loud)
    · rename_i quiet
      rw [Writter.raise_none state.writter env.raised (by simpa using quiet)]
      exact .goOn pc
  case take =>
    cases shared : state.tune.elem with
    | none => simp [shared] at moved
    | some elem =>
        simp only [shared] at moved
        cases moved
        simpa [shared] using WritterStep.take pc elem shared
  case prepare =>
    cases taken : state.elem with
    | none => simp [taken] at moved
    | some elem =>
        simp only [taken] at moved
        split at moved <;> cases moved
        · rename_i loud
          simpa [taken] using WritterStep.prepareFail pc _ _
            (by simpa [Writter.signal, Writter.finish, Writter.call] using loud)
        · rename_i quiet
          simpa [taken] using WritterStep.prepare pc env elem taken (by simpa using quiet)
  case write =>
    cases moved
    exact .write pc
  case account =>
    cases percentage : Writter.progress state.total state.writter.totalwrite with
    | none =>
        simp only [percentage] at moved
        cases moved
        exact .fault pc
    | some percent =>
        simp only [percentage] at moved
        cases moved
        exact .account pc percent env.raisedLate
  case post =>
    cases moved
    exact .post pc
  case exitTest =>
    split at moved <;> cases moved
    · exact .finish pc
    · exact .again pc

end Alisl.Upgrade.Handoff
