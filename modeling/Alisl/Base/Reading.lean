/-! Computations over a memory together with the addresses they read. -/

namespace Alisl.Base

variable {Cell Value Other : Type}

/-- What comes out for a memory, and which cells were looked at on the way. -/
def Reading (Cell Value : Type) := (Nat → Cell) → Value × List Nat

namespace Reading

def value (reading : Reading Cell Value) (memory : Nat → Cell) : Value := (reading memory).1

def reads (reading : Reading Cell Value) (memory : Nat → Cell) : List Nat := (reading memory).2

instance : Monad (Reading Cell) where
  pure value := fun _ => (value, [])
  bind first next := fun memory =>
    ((next (first.value memory)).value memory,
      first.reads memory ++ (next (first.value memory)).reads memory)

def cell (at_ : Nat) : Reading Cell Cell := fun memory => (memory at_, [at_])

/-- Every cell that is looked at lies below a limit. -/
def Below (reading : Reading Cell Value) (limit : Nat) (memory : Nat → Cell) : Prop :=
  ∀ at_ ∈ reading.reads memory, at_ < limit

variable (memory : Nat → Cell) (limit : Nat)

@[simp] theorem value_pure (result : Value) :
    (pure result : Reading Cell Value).value memory = result := rfl

theorem value_bind (first : Reading Cell Value) (next : Value → Reading Cell Other) :
    (first >>= next).value memory = (next (first.value memory)).value memory := rfl

/-- With the value in place of the first reading, also in what depends on it. -/
theorem value_bind_of {first : Reading Cell Value} {result : Value}
    (came : first.value memory = result) (next : Value → Reading Cell Other) :
    (first >>= next).value memory = (next result).value memory := by
  rw [value_bind, came]

@[simp] theorem value_cell (at_ : Nat) : (cell at_ : Reading Cell Cell).value memory = memory at_ :=
  rfl

@[simp] theorem below_pure (result : Value) :
    (pure result : Reading Cell Value).Below limit memory :=
  fun _ none => absurd none List.not_mem_nil

theorem below_bind (first : Reading Cell Value) (next : Value → Reading Cell Other) :
    (first >>= next).Below limit memory ↔
      first.Below limit memory ∧ (next (first.value memory)).Below limit memory := by
  have joined : (first >>= next).reads memory =
      first.reads memory ++ (next (first.value memory)).reads memory := rfl
  simp only [Below, joined, List.forall_mem_append]

theorem below_bind_of {first : Reading Cell Value} {result : Value}
    (came : first.value memory = result) (next : Value → Reading Cell Other) :
    (first >>= next).Below limit memory ↔
      first.Below limit memory ∧ (next result).Below limit memory := by
  rw [below_bind, came]

@[simp] theorem below_cell (at_ : Nat) :
    (cell at_ : Reading Cell Cell).Below limit memory ↔ at_ + 1 ≤ limit := by
  have only : (cell at_ : Reading Cell Cell).reads memory = [at_] := rfl
  simp only [Below, only, List.forall_mem_singleton]
  exact Iff.rfl

end Reading

end Alisl.Base
