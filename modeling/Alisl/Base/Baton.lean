import Mathlib.Order.Nat

/-! One buffer passed between two threads by two semaphores.

Each thread takes the buffer by decrementing the semaphore it waits on and gives
it away by posting the other one. As long as at most one token exists, counting
semaphore values and holders alike, the threads exclude each other. -/

namespace Alisl.Base

structure Baton where
  holdsFirst : Bool
  holdsSecond : Bool
  toFirst : Nat
  toSecond : Nat
  deriving DecidableEq, Repr

namespace Baton

def tokens (baton : Baton) : Nat :=
  baton.holdsFirst.toNat + baton.holdsSecond.toNat + baton.toFirst + baton.toSecond

/-- Steps that keep the token: waiting on a semaphore or posting one. -/
inductive Pass : Baton → Baton → Prop where
  | stay (baton : Baton) : Pass baton baton
  | takeFirst (second : Bool) (toFirst toSecond : Nat) :
      Pass ⟨false, second, toFirst + 1, toSecond⟩ ⟨true, second, toFirst, toSecond⟩
  | takeSecond (first : Bool) (toFirst toSecond : Nat) :
      Pass ⟨first, false, toFirst, toSecond + 1⟩ ⟨first, true, toFirst, toSecond⟩
  | giveFirst (second : Bool) (toFirst toSecond : Nat) :
      Pass ⟨true, second, toFirst, toSecond⟩ ⟨false, second, toFirst, toSecond + 1⟩
  | giveSecond (first : Bool) (toFirst toSecond : Nat) :
      Pass ⟨first, true, toFirst, toSecond⟩ ⟨first, false, toFirst + 1, toSecond⟩

/-- A thread may also stop for good without posting. -/
inductive Move : Baton → Baton → Prop where
  | pass {before after : Baton} (pass : Pass before after) : Move before after
  | dropFirst (second : Bool) (toFirst toSecond : Nat) :
      Move ⟨true, second, toFirst, toSecond⟩ ⟨false, second, toFirst, toSecond⟩
  | dropSecond (first : Bool) (toFirst toSecond : Nat) :
      Move ⟨first, true, toFirst, toSecond⟩ ⟨first, false, toFirst, toSecond⟩

theorem Pass.tokens_eq {before after : Baton} (pass : Pass before after) :
    after.tokens = before.tokens := by
  cases pass <;> simp only [tokens, Bool.toNat_true, Bool.toNat_false] <;> omega

theorem Move.tokens_le {before after : Baton} (move : Move before after) :
    after.tokens ≤ before.tokens := by
  cases move with
  | pass pass => exact pass.tokens_eq.le
  | dropFirst => simp only [tokens, Bool.toNat_true, Bool.toNat_false]; omega
  | dropSecond => simp only [tokens, Bool.toNat_true, Bool.toNat_false]; omega

variable {baton : Baton}

theorem not_second_of_first (one : baton.tokens ≤ 1) (first : baton.holdsFirst = true) :
    baton.holdsSecond = false ∧ baton.toFirst = 0 ∧ baton.toSecond = 0 := by
  cases second : baton.holdsSecond with
  | false =>
      simp only [tokens, first, second, Bool.toNat_true, Bool.toNat_false] at one
      exact ⟨rfl, by omega, by omega⟩
  | true =>
      simp only [tokens, first, second, Bool.toNat_true] at one
      omega

theorem not_first_of_second (one : baton.tokens ≤ 1) (second : baton.holdsSecond = true) :
    baton.holdsFirst = false ∧ baton.toFirst = 0 ∧ baton.toSecond = 0 := by
  cases first : baton.holdsFirst with
  | false =>
      simp only [tokens, first, second, Bool.toNat_true, Bool.toNat_false] at one
      exact ⟨rfl, by omega, by omega⟩
  | true =>
      simp only [tokens, first, second, Bool.toNat_true] at one
      omega

end Baton

end Alisl.Base
