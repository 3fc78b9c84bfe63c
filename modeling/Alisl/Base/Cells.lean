import Mathlib.Data.Finset.Card
import Mathlib.Data.List.Nodup
import Mathlib.Data.List.Range
import Mathlib.Tactic

/-! Allocated cells. A cell is named by a number; a freed one reads as nothing. -/

namespace Alisl.Base

abbrev Cells (Cell : Type) := List (Option Cell)

namespace Cells

variable {Cell : Type}

def read (cells : Cells Cell) (ptr : Nat) : Option Cell := cells[ptr]?.join

def update (cells : Cells Cell) (ptr : Nat) (change : Cell → Cell) : Cells Cell :=
  cells.modify ptr (Option.map change)

def free (cells : Cells Cell) (ptr : Nat) : Cells Cell := cells.set ptr none

/-- A place that may be given out: behind all cells or freed before. -/
def Unused (cells : Cells Cell) (ptr : Nat) : Prop := cells.read ptr = none ∧ ptr ≤ cells.length

def alloc (cells : Cells Cell) (ptr : Nat) (cell : Cell) : Cells Cell :=
  if ptr < cells.length then cells.set ptr (some cell) else cells ++ [some cell]

theorem read_lt {cells : Cells Cell} {ptr : Nat} {cell : Cell} (there : cells.read ptr = some cell) :
    ptr < cells.length := by
  by_contra beyond
  have none_ : cells[ptr]? = none := List.getElem?_eq_none (Nat.not_lt.mp beyond)
  rw [read, none_] at there
  cases there

theorem read_update (cells : Cells Cell) (ptr other : Nat) (change : Cell → Cell) :
    (cells.update ptr change).read other =
      if other = ptr then (cells.read other).map change else cells.read other := by
  rw [read, update, List.getElem?_modify]
  by_cases same : other = ptr
  · subst same
    rw [if_pos rfl, read]
    cases cells[other]? with
    | none => rfl
    | some cell => simp
  · rw [if_neg same, read]
    cases cells[other]? with
    | none => rfl
    | some cell => simp [Ne.symm same]

theorem read_free (cells : Cells Cell) (ptr other : Nat) :
    (cells.free ptr).read other = if other = ptr then none else cells.read other := by
  rw [read, free, List.getElem?_set]
  by_cases same : other = ptr
  · subst same
    rw [if_pos rfl, if_pos rfl]
    split <;> rfl
  · rw [if_neg (Ne.symm same), if_neg same, read]

theorem read_alloc {cells : Cells Cell} {ptr : Nat} (room : ptr ≤ cells.length) (other : Nat)
    (cell : Cell) :
    (cells.alloc ptr cell).read other = if other = ptr then some cell else cells.read other := by
  rw [alloc]
  by_cases inside : ptr < cells.length
  · rw [if_pos inside, read, List.getElem?_set]
    by_cases same : other = ptr
    · subst same
      rw [if_pos rfl, if_pos rfl, if_pos inside]
      rfl
    · rw [if_neg (Ne.symm same), if_neg same, read]
  · have last : ptr = cells.length := Nat.le_antisymm room (Nat.not_lt.mp inside)
    subst last
    rw [if_neg inside, read, List.getElem?_append]
    by_cases before : other < cells.length
    · rw [if_pos before, if_neg (Nat.ne_of_lt before), read]
    · rw [if_neg before]
      by_cases same : other = cells.length
      · rw [if_pos same, same, Nat.sub_self]
        rfl
      · have behind : 1 ≤ other - cells.length := by omega
        have none_ : cells[other]? = none := List.getElem?_eq_none (Nat.not_lt.mp before)
        rw [if_neg same, read, none_, List.getElem?_eq_none behind]

@[simp] theorem update_length (cells : Cells Cell) (ptr : Nat) (change : Cell → Cell) :
    (cells.update ptr change).length = cells.length := List.length_modify ..

@[simp] theorem free_length (cells : Cells Cell) (ptr : Nat) :
    (cells.free ptr).length = cells.length := List.length_set ..

/-- There are no more cells in use than were given out. -/
theorem length_le_of_read (cells : Cells Cell) {ptrs : List Nat} (distinct : ptrs.Nodup)
    (there : ∀ ptr ∈ ptrs, cells.read ptr ≠ none) : ptrs.length ≤ cells.length := by
  have inside : ptrs ⊆ List.range cells.length := by
    intro ptr member
    rcases Option.ne_none_iff_exists'.mp (there ptr member) with ⟨cell, found⟩
    exact List.mem_range.mpr (read_lt found)
  calc
    ptrs.length ≤ (List.range cells.length).length := (distinct.subperm inside).length_le
    _ = cells.length := List.length_range

end Cells

end Alisl.Base
