import Mathlib.Data.List.Infix

/-! Blocks that are taken in one after another and passed on piece by piece. -/

namespace Alisl.Base

variable {Item : Type}

/-- `rest` is what has been taken in and not yet passed on. -/
structure Conduit (Item : Type) where
  accepted : List (List Item)
  passed : List Item
  rest : List Item

namespace Conduit

def empty : Conduit Item := ⟨[], [], []⟩

def accept (conduit : Conduit Item) (block : List Item) : Conduit Item :=
  { conduit with accepted := conduit.accepted ++ [block], rest := block }

def pass (conduit : Conduit Item) (count : Nat) : Conduit Item :=
  { conduit with
    passed := conduit.passed ++ conduit.rest.take count
    rest := conduit.rest.drop count }

/-- A block is taken in only when nothing is left of the one before. -/
inductive Moves (conduit : Conduit Item) : Conduit Item → Prop where
  | stays : Moves conduit conduit
  | accepts (block : List Item) (drained : conduit.rest = []) : Moves conduit (conduit.accept block)
  | passes (count : Nat) : Moves conduit (conduit.pass count)

/-- Nothing is lost, doubled or out of order, and only the last block can be unfinished. -/
structure Whole (conduit : Conduit Item) : Prop where
  joined : conduit.passed ++ conduit.rest = conduit.accepted.flatten
  last : conduit.rest <:+ conduit.accepted.getLast?.getD []

theorem whole_empty : (empty : Conduit Item).Whole :=
  ⟨rfl, List.suffix_rfl⟩

variable {conduit after : Conduit Item}

theorem Whole.accept (whole : conduit.Whole) (drained : conduit.rest = []) (block : List Item) :
    (conduit.accept block).Whole := by
  have joined := whole.joined
  rw [drained, List.append_nil] at joined
  constructor
  case joined => rw [Conduit.accept, List.flatten_concat, joined]
  case last =>
      rw [Conduit.accept, List.getLast?_concat]
      exact List.suffix_rfl

theorem Whole.pass (whole : conduit.Whole) (count : Nat) : (conduit.pass count).Whole := by
  constructor
  case joined =>
      rw [Conduit.pass, List.append_assoc, List.take_append_drop]
      exact whole.joined
  case last => exact (List.drop_suffix count conduit.rest).trans whole.last

theorem Whole.moves (whole : conduit.Whole) (moves : conduit.Moves after) : after.Whole := by
  cases moves with
  | stays => exact whole
  | accepts block drained => exact whole.accept drained block
  | passes count => exact whole.pass count

end Conduit

end Alisl.Base
