import Mathlib.Data.List.Basic

/-! Programs that call a service and hand over items, as trees.

A service is what a program may rely on: from a place, a request may get certain
answers and leads to another place. A program fulfils a plan if it hands over
the items of the plan in order, whatever the answers, and gives up early only at
a place where the service has failed. -/

namespace Alisl.Base

inductive Client (Call : Type) (Answer : Call → Type) (Item : Type) where
  | stop (ok : Bool)
  | call (request : Call) (next : Answer request → Client Call Answer Item)
  | hand (item : Item) (next : Client Call Answer Item)

structure Service (Call : Type) (Answer : Call → Type) where
  Place : Type
  Failed : Place → Prop
  Asks : Place → Call → Prop
  Gives : Place → (request : Call) → Answer request → Place → Prop

variable {Call : Type} {Answer : Call → Type} {Item : Type}

namespace Client

/-- Every request is one the service takes, and the items come as planned. -/
def Fulfils (service : Service Call Answer) :
    Client Call Answer Item → service.Place → List Item → Prop
  | .stop ok, place, plan => (ok = true → plan = []) ∧ (ok = false → service.Failed place)
  | .call request next, place, plan =>
      service.Asks place request ∧ ∀ answer after, service.Gives place request answer after →
        (next answer).Fulfils service after plan
  | .hand item next, place, plan => ∃ rest, plan = item :: rest ∧ next.Fulfils service place rest

/-- What has been handed over is the beginning of the plan, and the program goes
on with the rest of it. -/
def OnPlan (service : Service Call Answer) (plan handed : List Item) (place : service.Place)
    (client : Client Call Answer Item) : Prop :=
  ∃ rest, plan = handed ++ rest ∧ client.Fulfils service place rest

variable {service : Service Call Answer} {plan handed : List Item} {place after : service.Place}

theorem Fulfils.onPlan {client : Client Call Answer Item}
    (fulfils : client.Fulfils service place plan) : client.OnPlan service plan [] place :=
  ⟨plan, rfl, fulfils⟩

theorem OnPlan.answered {request : Call} {next : Answer request → Client Call Answer Item}
    {answer : Answer request} (onPlan : (Client.call request next).OnPlan service plan handed place)
    (given : service.Gives place request answer after) :
    (next answer).OnPlan service plan handed after := by
  rcases onPlan with ⟨rest, split, _, fulfils⟩
  exact ⟨rest, split, fulfils answer after given⟩

theorem OnPlan.asks {request : Call} {next : Answer request → Client Call Answer Item}
    (onPlan : (Client.call request next).OnPlan service plan handed place) :
    service.Asks place request := by
  rcases onPlan with ⟨_, _, asks, _⟩
  exact asks

theorem OnPlan.next {item : Item} {next : Client Call Answer Item}
    (onPlan : (Client.hand item next).OnPlan service plan handed place) :
    next.OnPlan service plan (handed ++ [item]) place := by
  rcases onPlan with ⟨_, split, rest, first, fulfils⟩
  apply Exists.intro rest
  constructor
  · rw [split, first, List.append_assoc]
    rfl
  · exact fulfils

theorem OnPlan.inOrder {client : Client Call Answer Item}
    (onPlan : client.OnPlan service plan handed place) : handed <+: plan := by
  rcases onPlan with ⟨rest, split, _⟩
  exact ⟨rest, split.symm⟩

theorem OnPlan.complete
    (onPlan : (Client.stop true : Client Call Answer Item).OnPlan service plan handed place) :
    handed = plan := by
  rcases onPlan with ⟨rest, split, complete, _⟩
  rw [complete rfl, List.append_nil] at split
  exact split.symm

end Client

end Alisl.Base
