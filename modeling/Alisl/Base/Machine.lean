import Mathlib.Logic.Basic

/-! Executable labelled machines.

A label resolves every choice a run leaves open: which thread moves, what the
environment answers. Threads that share state are one machine whose labels name
the thread, so an interleaving is just a list of labels. -/

namespace Alisl.Base

structure Machine (State Label : Type) where
  Initial : State → Prop
  next : State → Label → Option State

namespace Machine

variable {State Label : Type} (machine : Machine State Label)

def run : State → List Label → Option State
  | state, [] => some state
  | state, label :: labels => (machine.next state label).bind (fun after => run after labels)

inductive Reachable : State → Prop where
  | initial {state : State} (start : machine.Initial state) : Reachable state
  | step {state after : State} {label : Label} (before : Reachable state)
      (moved : machine.next state label = some after) : Reachable after

/-- The machine whose steps all meet a condition on the state before the step. -/
def restrict (Meets : State → Label → Prop) [∀ state label, Decidable (Meets state label)] :
    Machine State Label where
  Initial := machine.Initial
  next state label := if Meets state label then machine.next state label else none

variable {machine}

/-- What holds at the start and is kept by every step from a reachable state
holds in every reachable state. -/
theorem Reachable.always {Inv : State → Prop}
    (initially : ∀ state, machine.Initial state → Inv state)
    (kept : ∀ state label after, machine.Reachable state → Inv state →
      machine.next state label = some after → Inv after) :
    ∀ state, machine.Reachable state → Inv state := by
  intro state reachable
  induction reachable with
  | initial start => exact initially _ start
  | step before moved ih => exact kept _ _ _ before ih moved

theorem Reachable.move {state after : State} (before : machine.Reachable state) (label : Label)
    (moved : machine.next state label = some after) : machine.Reachable after :=
  before.step moved

theorem reachable_of_run {state after : State} {labels : List Label}
    (reachable : machine.Reachable state) (ran : machine.run state labels = some after) :
    machine.Reachable after := by
  induction labels generalizing state with
  | nil =>
      cases ran
      exact reachable
  | cons label labels ih =>
      obtain ⟨middle, moved, rest⟩ := Option.bind_eq_some_iff.mp ran
      exact ih (reachable.step moved) rest

theorem restrict_next {Meets : State → Label → Prop} [∀ state label, Decidable (Meets state label)]
    {state after : State} {label : Label} :
    (machine.restrict Meets).next state label = some after ↔
      Meets state label ∧ machine.next state label = some after := by
  by_cases meets : Meets state label <;> simp [restrict, meets]

/-- A run whose steps all meet the condition is a run. -/
theorem Reachable.of_restrict {Meets : State → Label → Prop}
    [∀ state label, Decidable (Meets state label)] {state : State}
    (reachable : (machine.restrict Meets).Reachable state) : machine.Reachable state := by
  induction reachable with
  | initial start => exact .initial start
  | step _ moved ih => exact ih.step (restrict_next.mp moved).2

end Machine

end Alisl.Base
