import Mathlib.Logic.Basic

/-! The `do`-`while` loop of C, and the `while` loop that tests first. -/

namespace Alisl.Base

/-- How a turn of the loop ends: at its end or with `continue`, or with `break`. -/
inductive Turn (State : Type) where
  | next (state : State)
  | leave (state : State)

structure DoWhile (State : Type) where
  body : State → Turn State
  again : State → Bool

namespace DoWhile

variable {State : Type} (loop : DoWhile State)

def run : Nat → State → Option State
  | 0, _ => none
  | fuel + 1, state =>
      match loop.body state with
      | .leave after => some after
      | .next after => if loop.again after then run fuel after else some after

/-- The loop that tests before its first turn. -/
def runWhile (fuel : Nat) (state : State) : Option State :=
  if loop.again state then loop.run fuel state else some state

/-- The states a run comes through, turn by turn. -/
inductive Visits (start : State) : State → Prop where
  | start : Visits start start
  | next {state after : State} (before : Visits start state) (turned : loop.body state = .next after) :
      Visits start after
  | leave {state after : State} (before : Visits start state)
      (turned : loop.body state = .leave after) : Visits start after

variable {loop}

theorem Visits.always (Inv : State → Prop) {start state : State} (visits : loop.Visits start state)
    (initially : Inv start) (next : ∀ state after, Inv state → loop.body state = .next after → Inv after)
    (leave : ∀ state after, Inv state → loop.body state = .leave after → Inv after) : Inv state := by
  induction visits with
  | start => exact initially
  | next _ turned ih => exact next _ _ ih turned
  | leave _ turned ih => exact leave _ _ ih turned

/-- What a run does, from what its turns do: the last turn, and a turn before a run. -/
theorem ends (Ends : State → State → Prop)
    (leave : ∀ state after, loop.body state = .leave after → Ends state after)
    (last : ∀ state after, loop.body state = .next after → loop.again after = false →
      Ends state after)
    (next : ∀ state middle after, loop.body state = .next middle → loop.again middle = true →
      Ends middle after → Ends state after)
    {fuel : Nat} {state after : State} (ran : loop.run fuel state = some after) :
    Ends state after := by
  induction fuel generalizing state with
  | zero => cases ran
  | succ fuel ih =>
      rw [run] at ran
      cases turned : loop.body state with
      | leave middle =>
          rw [turned] at ran
          cases ran
          exact leave _ _ turned
      | next middle =>
          simp only [turned] at ran
          cases goes : loop.again middle with
          | true =>
              rw [goes, if_pos rfl] at ran
              exact next _ _ _ turned goes (ih ran)
          | false =>
              rw [goes] at ran
              cases ran
              exact last _ _ turned goes

/-- A run ends if a measure goes down with every turn. -/
theorem terminates (Inv : State → Prop) (measure : State → Nat)
    (less : ∀ state middle, Inv state → loop.body state = .next middle → loop.again middle = true →
      Inv middle ∧ measure middle < measure state)
    {fuel : Nat} {state : State} (start : Inv state) (enough : measure state < fuel) :
    ∃ after, loop.run fuel state = some after := by
  induction fuel generalizing state with
  | zero => exact absurd enough (Nat.not_lt_zero _)
  | succ fuel ih =>
      rw [run]
      cases turned : loop.body state with
      | leave middle => exact ⟨middle, rfl⟩
      | next middle =>
          dsimp only
          cases goes : loop.again middle with
          | true =>
              rcases less state middle start turned goes with ⟨kept, fewer⟩
              rw [if_pos rfl]
              exact ih kept (Nat.lt_of_lt_of_le fewer (Nat.le_of_lt_succ enough))
          | false => exact ⟨middle, rfl⟩

theorem runWhile_last (fuel : Nat) {state : State} (done : loop.again state = false) :
    loop.runWhile fuel state = some state := by
  rw [runWhile, done]
  rfl

theorem runWhile_leave (fuel : Nat) {state after : State} (goes : loop.again state = true)
    (turned : loop.body state = .leave after) : loop.runWhile (fuel + 1) state = some after := by
  rw [runWhile, goes, if_pos rfl, run, turned]

theorem runWhile_next (fuel : Nat) {state after : State} (goes : loop.again state = true)
    (turned : loop.body state = .next after) :
    loop.runWhile (fuel + 1) state = loop.runWhile fuel after := by
  rw [runWhile, goes, if_pos rfl, run, turned, runWhile]

end DoWhile

end Alisl.Base
