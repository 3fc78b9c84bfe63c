import Alisl.Base.Machine
import Alisl.Upgrade.Writter

/-! Several upgrades in one process. `elem_old` is static: it keeps the address
of the element written last, although the list was freed with the run and malloc
may give the address to an element of the next one. -/

namespace Alisl.Upgrade

open Alisl.Base

/-- One upgrade: the element list as malloc built it, and what is handed over to
the writer. Elements alive at one time have different addresses. -/
structure UpgradeRun where
  elems : List Elem
  progressScale : Int
  total : Nat
  turns : List (WritterEnv × Chunk)
  distinct : (elems.map Elem.addr).Nodup
  handed : ∀ turn ∈ turns, turn.2.elem ∈ elems

namespace UpgradeRun

def chunks (run : UpgradeRun) : List Chunk := run.turns.map Prod.snd

def outcome (run : UpgradeRun) (elemOld : Option Nat) : Outcome :=
  upgradeWritterLoop run.progressScale run.total run.turns (Writter.start elemOld)

end UpgradeRun

/-- The partition was opened, and then erased through that handle. -/
def OpenedErased (calls : List StoCall) (partName : String) : Prop :=
  ∃ front back len, calls = front ++ back ∧ .mtdOpenByName partName ∈ front ∧
    .erase (some partName) 0 len ∈ back

/-- What precedes a write: its handle was opened, and the partition of the
element it belongs to was opened and erased. -/
def WriteReady (chunks : List Chunk) (before : List StoCall) (handle : Option String) : Prop :=
  (∃ partName, handle = some partName ∧ .mtdOpenByName partName ∈ before) ∧
    ∃ chunk, chunks[(writes before).length]? = some chunk ∧
      OpenedErased before chunk.elem.partName

/-- Every write of the log was ready when it was made. -/
def Prepared (chunks : List Chunk) (calls : List StoCall) : Prop :=
  ∀ before handle data after, calls = before ++ .write handle data :: after →
    WriteReady chunks before handle

def Outcome.faulted : Outcome → Bool
  | .fault _ => true
  | _ => false

/-- `elem_old`, and the runs so far with what became of them. -/
structure Process where
  elemOld : Option Nat
  done : List (UpgradeRun × Outcome)

/-- A process takes up one run after the other, until a division by zero ends
it. -/
def process : Machine Process UpgradeRun where
  Initial process := process = ⟨none, []⟩
  next process run :=
    if process.done.any (fun entry => entry.2.faulted) then none
    else
      let outcome := run.outcome process.elemOld
      some ⟨outcome.writter.elemOld, process.done ++ [(run, outcome)]⟩

def AllPrepared (process : Process) : Prop :=
  ∀ entry ∈ process.done, Prepared entry.1.chunks entry.2.writter.calls

/-- The first element written is not mistaken for the one written last. -/
def FirstNew (elemOld : Option Nat) : List (WritterEnv × Chunk) → Prop
  | [] => True
  | (env, chunk) :: _ => env.raised ≠ .none ∨ elemOld ≠ some chunk.elem.addr

instance (elemOld : Option Nat) (turns : List (WritterEnv × Chunk)) :
    Decidable (FirstNew elemOld turns) :=
  match turns with
  | [] => inferInstanceAs (Decidable True)
  | (_, _) :: _ => inferInstanceAs (Decidable (_ ∨ _))

def Meets (process : Process) (run : UpgradeRun) : Prop := FirstNew process.elemOld run.turns

instance (process : Process) (run : UpgradeRun) : Decidable (Meets process run) :=
  inferInstanceAs (Decidable (FirstNew _ _))

theorem prepared_nil (chunks : List Chunk) : Prepared chunks [] := by
  intro before handle data after empty
  simp at empty

theorem prepared_append_one {chunks : List Chunk} {calls : List StoCall} {call : StoCall}
    (prepared : Prepared chunks calls)
    (ready : ∀ handle data, call = .write handle data → WriteReady chunks calls handle) :
    Prepared chunks (calls ++ [call]) := by
  intro before handle data after split
  rcases List.eq_nil_or_concat after with empty | ⟨front, last, concat⟩
  · rw [empty] at split
    rcases List.append_inj' split rfl with ⟨same, here⟩
    rw [← same]
    exact ready handle data (List.singleton_inj.mp here)
  · have shorter : calls = before ++ .write handle data :: front := by
      rw [concat, List.concat_eq_append, ← List.cons_append, ← List.append_assoc] at split
      exact (List.append_inj' split rfl).1
    exact prepared before handle data front shorter

theorem prepared_append_quiet {chunks : List Chunk} {calls more : List StoCall}
    (prepared : Prepared chunks calls) (quiet : writes more = []) :
    Prepared chunks (calls ++ more) := by
  induction more using List.reverseRecOn with
  | nil =>
      rw [List.append_nil]
      exact prepared
  | append_singleton more call ih =>
      rw [writes_append, List.append_eq_nil_iff] at quiet
      rw [← List.append_assoc]
      apply prepared_append_one (ih quiet.1)
      intro handle data write
      simp [write, writes] at quiet

theorem OpenedErased.append {calls : List StoCall} {partName : String}
    (ready : OpenedErased calls partName) (more : List StoCall) :
    OpenedErased (calls ++ more) partName := by
  rcases ready with ⟨front, back, len, split, opened, erased⟩
  apply Exists.intro front
  apply Exists.intro (back ++ more)
  apply Exists.intro len
  rw [split, List.append_assoc]
  exact ⟨rfl, opened, List.mem_append_left more erased⟩

theorem OpenedErased.opened {calls : List StoCall} {partName : String}
    (ready : OpenedErased calls partName) : .mtdOpenByName partName ∈ calls := by
  rcases ready with ⟨front, back, len, split, opened, _⟩
  rw [split]
  exact List.mem_append_left back opened

namespace Writter

/-- The element compared with is the one whose partition is open and erased. -/
def Current (elems : List Elem) (writter : Writter) : Prop :=
  ∀ elem ∈ elems, writter.elemOld = some elem.addr →
    writter.mtdHandle = some elem.partName ∧ OpenedErased writter.calls elem.partName

theorem prepare_same (env : WritterEnv) (chunk : Chunk) (writter : Writter)
    (same : writter.elemOld = some chunk.elem.addr) :
    prepare env chunk writter = (writter, chunk.data) := by
  simp [prepare, same]

/-- Preparing a partition only adds calls that are no writes. -/
theorem prepare_calls (env : WritterEnv) (chunk : Chunk) (writter : Writter) :
    ∃ more, (prepare env chunk writter).1.calls = writter.calls ++ more ∧ writes more = [] := by
  unfold prepare
  by_cases same : writter.elemOld = some chunk.elem.addr
  · exact ⟨[], by simp [same], rfl⟩
  · by_cases opened : env.opened <;> by_cases boot : isBoot chunk.elem.partName <;>
      by_cases room : chunk.data.length < scsHashLevel1Len + scsSigLen + bootParamTotalSize <;>
      by_cases allocated : env.allocated <;>
      by_cases quiet : writter.error = .none <;>
      simp [same, opened, boot, room, allocated, quiet, backupBootParam, erasePart, call, writes]

theorem openedErased_erasePart (env : WritterEnv) (elem : Elem) (writter : Writter)
    (handle : writter.mtdHandle = some elem.partName)
    (opened : .mtdOpenByName elem.partName ∈ writter.calls) :
    OpenedErased (erasePart env elem writter).calls elem.partName := by
  apply Exists.intro writter.calls
  simp only [erasePart, call, handle, List.append_assoc]
  exact ⟨_, _, rfl, opened, List.mem_cons_self⟩

/-- A changed element that raises no error is opened and erased, and remembered. -/
theorem prepare_changed (env : WritterEnv) (chunk : Chunk) (writter : Writter)
    (changed : writter.elemOld ≠ some chunk.elem.addr)
    (quiet : (prepare env chunk writter).1.error = .none) :
    (prepare env chunk writter).1.mtdHandle = some chunk.elem.partName ∧
      (prepare env chunk writter).1.elemOld = some chunk.elem.addr ∧
      OpenedErased (prepare env chunk writter).1.calls chunk.elem.partName := by
  have erased : ∃ middle : Writter, (prepare env chunk writter).1 =
      erasePart env chunk.elem middle ∧ middle.mtdHandle = some chunk.elem.partName ∧
      .mtdOpenByName chunk.elem.partName ∈ middle.calls := by
    by_cases opened : env.opened
    · by_cases boot : isBoot chunk.elem.partName <;>
        by_cases room : chunk.data.length < scsHashLevel1Len + scsSigLen + bootParamTotalSize <;>
        by_cases allocated : env.allocated <;>
        by_cases still : writter.error = .none <;>
        simp [prepare, changed, opened, boot, room, allocated, still, backupBootParam, call]
          at quiet ⊢ <;>
        exact ⟨_, rfl, by simp, by simp⟩
    · simp [prepare, changed, opened] at quiet
  rcases erased with ⟨middle, result, handle, opened⟩
  rw [result]
  exact ⟨handle, rfl, openedErased_erasePart env chunk.elem middle handle opened⟩

theorem settle_keeps (progressScale : Int) (percent : Nat) (late : UpgErr) (writter : Writter) :
    (settle progressScale percent late writter).elemOld = writter.elemOld ∧
      (settle progressScale percent late writter).mtdHandle = writter.mtdHandle := by
  unfold settle report raise
  by_cases same : late = .none <;> simp only [same, if_true, if_false] <;> split <;> simp [signal]

/-- Behind a preparation without an error the handle is the one of the chunk's
partition, opened and erased in this run. -/
theorem current_prepare {elems : List Elem} (distinct : (elems.map Elem.addr).Nodup)
    (env : WritterEnv) (chunk : Chunk) (writter : Writter) (handed : chunk.elem ∈ elems)
    (ready : Current elems writter ∨ writter.elemOld ≠ some chunk.elem.addr)
    (quiet : (prepare env chunk writter).1.error = .none) :
    Current elems (prepare env chunk writter).1 ∧
      (prepare env chunk writter).1.mtdHandle = some chunk.elem.partName ∧
      OpenedErased (prepare env chunk writter).1.calls chunk.elem.partName := by
  by_cases same : writter.elemOld = some chunk.elem.addr
  · have current : Current elems writter := by
      rcases ready with current | changed
      · exact current
      · exact absurd same changed
    rw [prepare_same env chunk writter same]
    exact ⟨current, current chunk.elem handed same⟩
  · rcases prepare_changed env chunk writter same quiet with ⟨handle, remembered, opened⟩
    constructor
    · intro elem member equal
      have address : elem.addr = chunk.elem.addr := by
        rw [remembered] at equal
        exact (Option.some.inj equal).symm
      have identical : elem = chunk.elem :=
        List.inj_on_of_nodup_map distinct member handed address
      rw [identical]
      exact ⟨handle, opened⟩
    · exact ⟨handle, opened⟩

@[simp] theorem raise_calls (writter : Writter) (error : UpgErr) :
    (writter.raise error).calls = writter.calls := by
  unfold raise
  split <;> rfl

theorem raise_quiet {writter : Writter} {error : UpgErr}
    (quiet : (writter.raise error).error = .none) : error = .none := by
  by_contra loud
  simp [raise, loud] at quiet

/-- More calls and the same element keep it current. -/
theorem Current.extend {elems : List Elem} {writter after : Writter}
    (current : Current elems writter) (elemOld : after.elemOld = writter.elemOld)
    (handle : after.mtdHandle = writter.mtdHandle) {more : List StoCall}
    (calls : after.calls = writter.calls ++ more) : Current elems after := by
  intro elem member equal
  rw [elemOld] at equal
  rcases current elem member equal with ⟨open_, ready⟩
  rw [handle, calls]
  exact ⟨open_, ready.append more⟩

end Writter

/-- The write behind a preparation belongs to the chunk the run has come to. -/
theorem writeReady_next {seen rest : List Chunk} {chunk : Chunk} {calls : List StoCall}
    (count : (writes calls).length = seen.length)
    (ready : OpenedErased calls chunk.elem.partName) :
    WriteReady (seen ++ chunk :: rest) calls (some chunk.elem.partName) := by
  constructor
  · exact ⟨chunk.elem.partName, rfl, ready.opened⟩
  · apply Exists.intro chunk
    rw [count]
    exact ⟨by simp, ready⟩

open Writter in
/-- How one turn of the loop ends: an error before the write, or the write and
then the end of the loop or the next turn. -/
theorem loop_cases (progressScale : Int) (total : Nat) (env : WritterEnv) (chunk : Chunk)
    (rest : List (WritterEnv × Chunk)) (writter : Writter) :
    ((env.raised ≠ .none ∨ (prepare env chunk writter).1.error ≠ .none) ∧
      ∃ more, writes more = [] ∧
        (upgradeWritterLoop progressScale total ((env, chunk) :: rest) writter).writter.calls =
          writter.calls ++ more) ∨
    (env.raised = .none ∧ (prepare env chunk writter).1.error = .none ∧
      ∃ after : Writter,
        after.calls = (write (prepare env chunk writter).2 (prepare env chunk writter).1).calls ∧
        after.elemOld = (prepare env chunk writter).1.elemOld ∧
        after.mtdHandle = (prepare env chunk writter).1.mtdHandle ∧
        ((∃ more, writes more = [] ∧
          (upgradeWritterLoop progressScale total ((env, chunk) :: rest) writter).writter.calls =
            after.calls ++ more) ∨
        upgradeWritterLoop progressScale total ((env, chunk) :: rest) writter =
          upgradeWritterLoop progressScale total rest after)) := by
  rw [upgradeWritterLoop]
  by_cases top : (writter.raise env.raised).error = .none
  case neg =>
      apply Or.inl
      constructor
      · by_contra silent
        rcases not_or.mp silent with ⟨calm, quiet⟩
        rw [raise, if_pos (not_not.mp calm)] at top
        exact top (prepare_error env chunk writter (not_not.mp quiet))
      · simp only [top, ne_eq, not_false_eq_true, if_true, Outcome.writter, finish, signal, call,
          raise_calls]
        exact ⟨_, rfl, rfl⟩
  have calm := raise_quiet top
  have unraised := raise_none writter env.raised top
  rw [unraised] at top ⊢
  by_cases quiet : (prepare env chunk writter).1.error = .none
  case neg =>
      apply Or.inl
      rcases prepare_calls env chunk writter with ⟨more, logged, silent⟩
      simp only [top, quiet, ne_eq, not_true_eq_false, not_false_eq_true, if_true, if_false,
        Outcome.writter, finish, signal, call, logged, List.append_assoc, or_true, true_and]
      exact ⟨_, by simp [writes_append, silent, writes], rfl⟩
  apply Or.inr
  simp only [top, quiet, ne_eq, not_true_eq_false, if_false]
  refine ⟨calm, trivial, ?_⟩
  have handle : (write (prepare env chunk writter).2 (prepare env chunk writter).1).mtdHandle =
      (prepare env chunk writter).1.mtdHandle := rfl
  have elemOld : (write (prepare env chunk writter).2 (prepare env chunk writter).1).elemOld =
      (prepare env chunk writter).1.elemOld := rfl
  generalize write (prepare env chunk writter).2 (prepare env chunk writter).1 = written
    at handle elemOld ⊢
  cases percentage : progress total written.totalwrite with
  | none => exact ⟨written, rfl, elemOld, handle, .inl ⟨[], rfl, by simp [Outcome.writter]⟩⟩
  | some percent =>
      have frame := settle_frame progressScale percent env.raisedLate written
      have keeps := settle_keeps progressScale percent env.raisedLate written
      apply Exists.intro (settle progressScale percent env.raisedLate written)
      refine ⟨frame.2.2.2, keeps.1.trans elemOld, keeps.2.trans handle, ?_⟩
      simp only
      split
      case isTrue ends => exact .inl ⟨_, rfl, rfl⟩
      case isFalse goesOn => exact .inr rfl

open Writter in
/-- The log of a run that starts on a new element, or with a current one, is
prepared. The induction is on the turns; `seen` are the chunks written before. -/
theorem loop_prepared {elems : List Elem} (distinct : (elems.map Elem.addr).Nodup)
    (progressScale : Int) (total : Nat) (turns : List (WritterEnv × Chunk)) (seen : List Chunk)
    (writter : Writter) (handed : ∀ turn ∈ turns, turn.2.elem ∈ elems)
    (prepared : Prepared (seen ++ turns.map Prod.snd) writter.calls)
    (count : (writes writter.calls).length = seen.length)
    (ready : Current elems writter ∨ FirstNew writter.elemOld turns) :
    Prepared (seen ++ turns.map Prod.snd)
      (upgradeWritterLoop progressScale total turns writter).writter.calls := by
  induction turns generalizing seen writter with
  | nil => exact prepared
  | cons turn rest ih =>
      rcases turn with ⟨env, chunk⟩
      rcases loop_cases progressScale total env chunk rest writter with
        ⟨_, more, silent, result⟩ | ⟨calm, quiet, after, calls, elemOld, handle, goesOn⟩
      · rw [result]
        exact prepared_append_quiet prepared silent
      have begins : Current elems writter ∨ writter.elemOld ≠ some chunk.elem.addr := by
        rcases ready with current | raised | changed
        · exact .inl current
        · exact absurd calm raised
        · exact .inr changed
      have mine : chunk.elem ∈ elems := handed (env, chunk) List.mem_cons_self
      rcases current_prepare distinct env chunk writter mine begins quiet with
        ⟨current, opened, erased⟩
      rcases prepare_calls env chunk writter with ⟨more, logged, silent⟩
      have counted : (writes (prepare env chunk writter).1.calls).length = seen.length := by
        rw [logged, writes_append, silent, List.append_nil, count]
      have written : Prepared (seen ++ chunk :: rest.map Prod.snd) after.calls := by
        rw [calls]
        apply prepared_append_one
        · rw [logged]
          exact prepared_append_quiet prepared silent
        · intro handle' data' made
          cases made
          rw [opened]
          exact writeReady_next counted erased
      rcases goesOn with ⟨close, noWrite, result⟩ | next
      · rw [result]
        exact prepared_append_quiet written noWrite
      · rw [next]
        have onward := ih (seen ++ [chunk]) after
        rw [List.append_assoc, List.singleton_append] at onward
        apply onward
        · intro turn member
          exact handed turn (List.mem_cons_of_mem _ member)
        · exact written
        · simp [calls, write, call, writes_append, writes, counted]
        · exact .inl (current.extend elemOld handle calls)

open Writter in
/-- A run never takes back a call. -/
theorem loop_calls (progressScale : Int) (total : Nat) (turns : List (WritterEnv × Chunk))
    (writter : Writter) :
    writter.calls <+: (upgradeWritterLoop progressScale total turns writter).writter.calls := by
  induction turns generalizing writter with
  | nil => exact List.prefix_refl _
  | cons turn rest ih =>
      rcases turn with ⟨env, chunk⟩
      rcases prepare_calls env chunk writter with ⟨opening, logged, _⟩
      rcases loop_cases progressScale total env chunk rest writter with
        ⟨_, more, _, result⟩ | ⟨_, _, after, calls, _, _, goesOn⟩
      · rw [result]
        exact List.prefix_append _ _
      have written : writter.calls <+: after.calls := by
        rw [calls]
        simp only [write, call, logged, List.append_assoc]
        exact List.prefix_append _ _
      rcases goesOn with ⟨close, _, result⟩ | next
      · rw [result]
        exact written.trans (List.prefix_append _ _)
      · rw [next]
        exact written.trans (ih after)

open Writter in
/-- A run that begins with the remembered address writes through the NULL handle
it starts with. -/
theorem loop_not_prepared (run : UpgradeRun) (elemOld : Option Nat)
    (mistaken : ¬ FirstNew elemOld run.turns) :
    ¬ Prepared run.chunks (run.outcome elemOld).writter.calls := by
  intro prepared
  rcases turns : run.turns with _ | ⟨⟨env, chunk⟩, rest⟩
  · rw [turns] at mistaken
    exact mistaken trivial
  · simp only [turns, FirstNew, not_or, ne_eq, not_not] at mistaken
    rcases mistaken with ⟨calm, same⟩
    have unopened := prepare_same env chunk (Writter.start elemOld) same
    have first : [.write none chunk.data] <+: (run.outcome elemOld).writter.calls := by
      rw [UpgradeRun.outcome, turns]
      rcases loop_cases run.progressScale run.total env chunk rest (Writter.start elemOld) with
        ⟨raised | loud, _⟩ | ⟨_, _, after, calls, _, _, goesOn⟩
      · exact absurd calm raised
      · rw [unopened] at loud
        exact absurd rfl loud
      · rw [unopened] at calls
        have written : after.calls = [.write none chunk.data] := calls
        rw [← written]
        rcases goesOn with ⟨more, _, result⟩ | next
        · rw [result]
          exact List.prefix_append _ _
        · rw [next]
          exact loop_calls run.progressScale run.total rest after
    rcases first with ⟨after, log⟩
    rcases prepared [] none chunk.data after log.symm with ⟨⟨partName, handle, _⟩, _⟩
    cases handle

theorem run_prepared (run : UpgradeRun) (elemOld : Option Nat)
    (new : FirstNew elemOld run.turns) :
    Prepared run.chunks (run.outcome elemOld).writter.calls := by
  apply loop_prepared run.distinct run.progressScale run.total run.turns [] (Writter.start elemOld)
    run.handed
  · exact prepared_nil _
  · rfl
  · exact .inr new

theorem process_next {before after : Process} {run : UpgradeRun}
    (moved : process.next before run = some after) :
    after = ⟨(run.outcome before.elemOld).writter.elemOld,
      before.done ++ [(run, run.outcome before.elemOld)]⟩ := by
  simp only [process] at moved
  split at moved
  · cases moved
  · exact (Option.some.inj moved).symm

/-- In a history of runs that all begin on a new element every write is to an
opened and erased partition; a run that does not is not. -/
theorem runs_prepared_of_first_new (before : Process) :
    ((process.restrict Meets).Reachable before → AllPrepared before) ∧
      ∀ run after, process.Reachable before → process.next before run = some after →
        ¬ Meets before run → ¬ AllPrepared after := by
  constructor
  · intro reachable
    refine Machine.Reachable.always ?_ ?_ before reachable
    · intro before start entry member
      rw [show before = ⟨none, []⟩ from start] at member
      cases member
    · intro before run after _ prepared moved entry member
      rcases Machine.restrict_next.mp moved with ⟨meets, next⟩
      rw [process_next next] at member
      rcases List.mem_append.mp member with old | new
      · exact prepared entry old
      · rw [List.mem_singleton.mp new]
        exact run_prepared run before.elemOld meets
  · intro run after _ moved mistaken prepared
    rw [process_next moved] at prepared
    exact loop_not_prepared run before.elemOld mistaken
      (prepared (run, run.outcome before.elemOld) (by simp))

def oneChunkRun (addr : Nat) (partName : String) : UpgradeRun where
  elems := [⟨addr, partName, 1, 2076⟩]
  progressScale := 1
  total := 1
  turns := [(calmEnv, ⟨⟨addr, partName, 1, 2076⟩, [7]⟩)]
  distinct := by simp
  handed := by simp

theorem runs_prepared_two_lists :
    ∃ after, (process.restrict Meets).run ⟨none, []⟩
        [oneChunkRun 8 "kernel", oneChunkRun 16 "rootfs"] = some after ∧
      after.elemOld = some 16 ∧ AllPrepared after := by
  have ran : ∃ after, (process.restrict Meets).run ⟨none, []⟩
      [oneChunkRun 8 "kernel", oneChunkRun 16 "rootfs"] = some after ∧
      after.elemOld = some 16 := ⟨_, rfl, rfl⟩
  rcases ran with ⟨after, ran, remembered⟩
  have begun : (process.restrict Meets).Initial ⟨none, []⟩ := rfl
  have reachable := Machine.reachable_of_run (.initial begun) ran
  exact ⟨after, ran, remembered, (runs_prepared_of_first_new after).1 reachable⟩

/-- The second list got the address of the first. -/
theorem runs_not_prepared_reused_address :
    ¬ ∀ after, process.Reachable after → AllPrepared after := by
  intro always
  have ran : ∃ after, process.run ⟨none, []⟩ [oneChunkRun 8 "kernel", oneChunkRun 8 "rootfs"] =
      some after ∧ ∃ first second, after.done = [first, (oneChunkRun 8 "rootfs", second)] ∧
        second.writter.calls = [.write none [7], .mtdClose none] := ⟨_, rfl, _, _, rfl, rfl⟩
  rcases ran with ⟨after, ran, first, second, entries, log⟩
  have begun : process.Initial ⟨none, []⟩ := rfl
  have prepared := always after (Machine.reachable_of_run (.initial begun) ran)
    (oneChunkRun 8 "rootfs", second) (by simp [entries])
  rcases prepared [] none [7] [.mtdClose none] log with ⟨⟨partName, handle, _⟩, _⟩
  cases handle

end Alisl.Upgrade
