import Alisl.Base.Machine
import Mathlib.Tactic

/-! The event module: the calls that open, close and add, and every thread ever started on
`alislevent_func`. -/

namespace Alisl.Event

open Alisl.Base

def mxEvnts : Nat := 10

/-- What a thread on `alislevent_func` does next. -/
inductive Pc where
  | first
  | test
  | poll
  | waiting (eplfd : Int)
  | retest (n i : Nat)
  | callback (n i : Nat)
  | out
  deriving DecidableEq, Repr

/-- How `epoll_wait` returns. -/
inductive Wait where
  | events (n : Nat)
  | timeout
  | interrupted
  | error
  deriving DecidableEq, Repr

/-- `m_alislevent`, the calls of `alislevent_add` that have registered their event and not
yet taken the mutex, and the threads in the order of their creation. `handle` says that
some `alislevent_open` has given the handle out. -/
structure Module where
  eplfd : Int
  openCnt : Nat
  running : Bool
  handle : Bool
  adding : Nat
  threads : List Pc
  deriving DecidableEq, Repr

inductive Label where
  | openEvent (created : Option Nat)
  | close
  | addCtl (registered : Bool)
  | addLock (created : Bool)
  | thread (index : Nat) (wait : Wait)
  deriving DecidableEq, Repr

/-- A closed descriptor only gives an error. -/
def Wait.possible (eplfd : Int) : Wait → Bool
  | .events n => decide (0 ≤ eplfd) && decide (0 < n) && decide (n ≤ mxEvnts)
  | .timeout => decide (0 ≤ eplfd)
  | .interrupted => decide (0 ≤ eplfd)
  | .error => true

namespace Module

def alisleventFunc (state : Module) (wait : Wait) : Pc → Option Pc
  | .first => some (if state.running then .poll else .out)
  | .test => some (if state.running then .poll else .out)
  | .poll => some (.waiting state.eplfd)
  | .waiting eplfd =>
      if wait.possible eplfd then
        match wait with
        | .events n => some (.retest n 0)
        | .timeout => some .test
        | .interrupted => some .test
        | .error => some .out
      else none
  | .retest n i => some (if state.running then .callback n i else .test)
  | .callback n i => some (if i + 1 < n then .retest n (i + 1) else .test)
  | .out => none

def alisleventOpen (state : Module) (created : Option Nat) : Module :=
  if state.openCnt < 1 then
    match created with
    | none => { state with eplfd := -1 }
    | some fd => { state with eplfd := fd, openCnt := 1, handle := true }
  else { state with openCnt := state.openCnt + 1, handle := true }

def alisleventClose (state : Module) : Module :=
  if 0 < state.openCnt then
    let openCnt := state.openCnt - 1
    if openCnt ≠ 0 then { state with openCnt }
    else { state with openCnt, running := false, eplfd := if 0 ≤ state.eplfd then -1 else state.eplfd }
  else state

/-- The part of `alislevent_add` under the mutex. -/
def alisleventAdd (state : Module) (created : Bool) : Module :=
  if state.running then state
  else if created then { state with running := true, threads := state.threads ++ [.first] }
  else state

def step (state : Module) : Label → Option Module
  | .openEvent created => some (state.alisleventOpen created)
  | .close => if state.handle then some state.alisleventClose else none
  | .addCtl registered =>
      if state.handle then
        if registered then
          if 0 ≤ state.eplfd then some { state with adding := state.adding + 1 } else none
        else some state
      else none
  | .addLock created =>
      if 0 < state.adding then
        some (({ state with adding := state.adding - 1 } : Module).alisleventAdd created)
      else none
  | .thread index wait =>
      (state.threads[index]?).bind (fun pc =>
        (state.alisleventFunc wait pc).map (fun next =>
          { state with threads := state.threads.set index next }))

def zero : Module := ⟨0, 0, false, false, 0, []⟩

end Module

def event : Machine Module Label where
  Initial state := state = .zero
  next := Module.step

/-- Past the first test of the flag and not out of the loop. -/
def Pc.looping : Pc → Bool
  | .first => false
  | .out => false
  | _ => true

def Pc.inside (pc : Pc) : Bool := decide (pc ≠ .out)

namespace Module

/-- One loop while the flag is set. -/
def OneLoop (state : Module) : Prop :=
  state.running = true → state.threads.countP Pc.looping ≤ 1 ∧ ∃ pc ∈ state.threads, pc ≠ .out

/-- A thread is started only when every earlier one is out of its loop, and while the flag is
set `epoll_wait` fails with EINTR only. -/
def calm (state : Module) : Label → Bool
  | .addLock created => state.running || !created || state.threads.all (fun pc => !pc.inside)
  | .thread index .error =>
      match state.threads[index]? with
      | some (.waiting _) => !state.running
      | _ => true
  | _ => true

/-- The only thread that is not out of its loop. -/
def Single (state : Module) : Prop :=
  state.running = true → state.threads.countP Pc.inside = 1

theorem Single.oneLoop {state : Module} (single : Single state) : OneLoop state := by
  intro running
  have one := single running
  constructor
  · have below : state.threads.countP Pc.looping ≤ state.threads.countP Pc.inside := by
      apply List.countP_mono_left
      intro pc _ looping
      cases pc <;> simp_all [Pc.looping, Pc.inside]
    omega
  · have some : 0 < state.threads.countP Pc.inside := by omega
    rcases List.countP_pos_iff.mp some with ⟨pc, member, inside⟩
    exact ⟨pc, member, of_decide_eq_true inside⟩

/-- While the flag is set a thread leaves its loop only through an error of `epoll_wait`. -/
theorem alisleventFunc_inside {state : Module} {wait : Wait} {pc next : Pc}
    (running : state.running = true) (moved : state.alisleventFunc wait pc = some next)
    (sound : ∀ eplfd, pc = .waiting eplfd → wait ≠ .error) :
    pc.inside = true ∧ next.inside = true := by
  cases pc with
  | waiting eplfd =>
      have other := sound eplfd rfl
      simp only [alisleventFunc] at moved
      split at moved
      case isTrue =>
        cases wait with
        | error => exact absurd rfl other
        | _ =>
            cases moved
            exact ⟨rfl, rfl⟩
      case isFalse => cases moved
  | out => cases moved
  | first =>
      simp only [alisleventFunc, running, if_true] at moved
      cases moved
      exact ⟨rfl, rfl⟩
  | test =>
      simp only [alisleventFunc, running, if_true] at moved
      cases moved
      exact ⟨rfl, rfl⟩
  | poll =>
      cases moved
      exact ⟨rfl, rfl⟩
  | retest n i =>
      simp only [alisleventFunc, running, if_true] at moved
      cases moved
      exact ⟨rfl, rfl⟩
  | callback n i =>
      simp only [alisleventFunc] at moved
      cases moved
      refine ⟨rfl, ?_⟩
      split <;> rfl

theorem Single.opens {state : Module} (single : Single state) (created : Option Nat) :
    Single (state.alisleventOpen created) := by
  unfold alisleventOpen
  split
  · cases created with
    | none => exact single
    | some fd => exact single
  · exact single

theorem Single.closes {state : Module} (single : Single state) : Single state.alisleventClose := by
  unfold alisleventClose
  dsimp only
  split
  · split
    · exact single
    · intro set
      cases set
  · exact single

theorem Single.adds {state : Module} (single : Single state) (created : Bool)
    (meets : state.calm (.addLock created) = true) :
    Single (({ state with adding := state.adding - 1 } : Module).alisleventAdd created) := by
  unfold alisleventAdd
  dsimp only
  split
  · exact single
  case isFalse stopped =>
    split
    case isTrue starts =>
      intro _
      have out : ∀ pc ∈ state.threads, pc.inside = false := by
        simpa [calm, stopped, starts] using meets
      have none : state.threads.countP Pc.inside = 0 := by
        rw [List.countP_eq_zero]
        intro pc member
        simp [out pc member]
      rw [List.countP_append, none]
      rfl
    case isFalse => exact single

theorem Single.runs {state : Module} (single : Single state) (index : Nat) (wait : Wait)
    (meets : state.calm (.thread index wait) = true) {pc next : Pc}
    (found : state.threads[index]? = some pc) (moved : state.alisleventFunc wait pc = some next) :
    Single { state with threads := state.threads.set index next } := by
  intro running
  have sound : ∀ eplfd, pc = .waiting eplfd → wait ≠ .error := by
    intro eplfd waiting error
    subst waiting error
    simp [calm, found, show state.running = true from running] at meets
  rcases alisleventFunc_inside running moved sound with ⟨before, after⟩
  rcases List.getElem?_eq_some_iff.mp found with ⟨bound, same⟩
  have one := single running
  have positive : 0 < state.threads.countP Pc.inside := by omega
  rw [List.countP_set bound, same, before, after]
  simp only [if_true]
  omega

end Module

def calmEvent : Machine Module Label :=
  event.restrict (fun state label => state.calm label = true)

namespace Module

/-- In calm runs there is one loop while the flag is set. -/
theorem one_event_loop (state : Module) (reachable : calmEvent.Reachable state) : OneLoop state := by
  have single : Single state := by
    refine Machine.Reachable.always ?_ ?_ state reachable
    · intro state start
      rw [show state = zero from start]
      intro set
      cases set
    · intro state label after _ single moved
      rcases Machine.restrict_next.mp moved with ⟨meets, moved⟩
      cases label with
      | openEvent created =>
          cases moved
          exact single.opens created
      | close =>
          simp only [event, step] at moved
          split at moved
          · cases moved
            exact single.closes
          · cases moved
      | addCtl registered =>
          simp only [event, step] at moved
          repeat' split at moved
          all_goals cases moved
          all_goals exact single
      | addLock created =>
          simp only [event, step] at moved
          split at moved
          · cases moved
            exact single.adds created meets
          · cases moved
      | thread index wait =>
          rcases Option.bind_eq_some_iff.mp moved with ⟨pc, found, moved⟩
          rcases Option.map_eq_some_iff.mp moved with ⟨next, ran, rfl⟩
          exact single.runs index wait meets found ran
  exact single.oneLoop

/-- The module is opened and the first event is added. -/
def firstAdd : List Label := [.openEvent (some 3), .addCtl true, .addLock true, .thread 0 .timeout,
  .thread 0 .timeout]

theorem one_event_loop_first : ∃ state, calmEvent.Reachable state ∧ state.running = true ∧
    state.threads.countP Pc.looping = 1 ∧ OneLoop state := by
  have ran : (calmEvent.run zero firstAdd).map
      (fun state => (state.running, state.threads.countP Pc.looping)) = some (true, 1) := by
    decide +kernel
  rcases Option.map_eq_some_iff.mp ran with ⟨state, reached, result⟩
  rw [Prod.mk.injEq] at result
  have reachable : calmEvent.Reachable state := Machine.reachable_of_run (.initial rfl) reached
  exact ⟨state, reachable, result.1, result.2, one_event_loop state reachable⟩

/-- The module is closed and opened again while the first thread waits for events, so its next
test finds the flag of the second thread. -/
theorem two_event_loops : ¬ ∀ state, event.Reachable state → OneLoop state := by
  intro always
  have ran : (event.run zero (firstAdd ++ [.close, .openEvent (some 3), .addCtl true, .addLock true,
      .thread 1 .timeout])).map
        (fun state => (state.running, state.threads.countP Pc.looping)) = some (true, 2) := by
    decide +kernel
  rcases Option.map_eq_some_iff.mp ran with ⟨state, reached, result⟩
  rw [Prod.mk.injEq] at result
  have reachable : event.Reachable state := Machine.reachable_of_run (.initial rfl) reached
  have one := (always state reachable result.1).1
  omega

end Module

end Alisl.Event
