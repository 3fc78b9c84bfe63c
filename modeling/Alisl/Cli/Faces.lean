import Alisl.Cli.Words

/-! What linking and unlinking leave alone in a command: its name, its mode and its length. -/

namespace Alisl.Cli

open Alisl.Base

def Command.face (node : Command) : CString × Nat × Nat := (node.command, node.mode, node.uniqueLen)

/-- A live command was live before, with the same face. -/
def Faced (before after : Cells Command) : Prop :=
  ∀ p node, after.read p = some node → ∃ old, before.read p = some old ∧ node.face = old.face

theorem Faced.refl (cells : Cells Command) : Faced cells cells :=
  fun _ node there => ⟨node, there, rfl⟩

theorem Faced.trans {before middle after : Cells Command} (first : Faced before middle)
    (second : Faced middle after) : Faced before after := by
  intro p node there
  rcases second p node there with ⟨between, read, same⟩
  rcases first p between read with ⟨old, was, equal⟩
  exact ⟨old, was, same.trans equal⟩

theorem faced_update (cells : Cells Command) (p : Ptr) {change : Command → Command}
    (keeps : ∀ node, (change node).face = node.face) : Faced cells (cells.update p change) := by
  intro q node there
  rw [Cells.read_update] at there
  split at there
  · rcases Option.map_eq_some_iff.mp there with ⟨old, read, changed⟩
    exact ⟨old, read, changed ▸ keeps old⟩
  · exact ⟨node, there, rfl⟩

theorem faced_setNext (cells : Cells Command) (p : Ptr) (next : Option Ptr) :
    Faced cells (cells.update p (setNext next)) := faced_update cells p fun _ => rfl

theorem faced_setChildren (cells : Cells Command) (p : Ptr) (children : Option Ptr) :
    Faced cells (cells.update p (setChildren children)) := faced_update cells p fun _ => rfl

theorem faced_free (cells : Cells Command) (p : Ptr) : Faced cells (cells.free p) := by
  intro q node there
  rw [Cells.read_free] at there
  split at there
  · cases there
  · exact ⟨node, there, rfl⟩

section Live

variable {before after : Cells Command}

theorem Faced.nameOf (faced : Faced before after) {p : Ptr} (live : after.read p ≠ none) :
    nameOf after p = nameOf before p := by
  rcases Option.ne_none_iff_exists'.mp live with ⟨node, there⟩
  rcases faced p node there with ⟨old, was, same⟩
  rw [Cli.nameOf, Cli.nameOf, there, was]
  exact congrArg (fun face => face.1.val) same

theorem Faced.modeOf (faced : Faced before after) {p : Ptr} (live : after.read p ≠ none) :
    modeOf after p = modeOf before p := by
  rcases Option.ne_none_iff_exists'.mp live with ⟨node, there⟩
  rcases faced p node there with ⟨old, was, same⟩
  rw [Cli.modeOf, Cli.modeOf, there, was]
  exact congrArg (fun face => face.2.1) same

theorem Faced.uniqueLenOf (faced : Faced before after) {p : Ptr} (live : after.read p ≠ none) :
    uniqueLenOf after p = uniqueLenOf before p := by
  rcases Option.ne_none_iff_exists'.mp live with ⟨node, there⟩
  rcases faced p node there with ⟨old, was, same⟩
  rw [Cli.uniqueLenOf, Cli.uniqueLenOf, there, was]
  exact congrArg (fun face => face.2.2) same

end Live

theorem linkCommand_faced {cli after : CliDef} {parent : Option Ptr} {c : Ptr}
    (linked : linkCommand cli parent c = some after) : Faced cli.cells after.cells := by
  cases parent with
  | none =>
      rw [linkCommand] at linked
      cases root : cli.commandsRoot with
      | none =>
          rw [root] at linked
          cases linked
          exact Faced.refl cli.cells
      | some first =>
          rw [root] at linked
          rcases Option.map_eq_some_iff.mp linked with ⟨last, _, rfl⟩
          exact faced_setNext cli.cells last (some c)
  | some owner =>
      rw [linkCommand] at linked
      rcases Option.bind_eq_some_iff.mp linked with ⟨node, _, hung⟩
      cases kids : node.children with
      | none =>
          rw [kids] at hung
          cases hung
          exact faced_setChildren cli.cells owner (some c)
      | some first =>
          rw [kids] at hung
          rcases Option.map_eq_some_iff.mp hung with ⟨last, _, rfl⟩
          exact faced_setNext cli.cells last (some c)

/-! ### Deleting -/

theorem moveCurrent_cells {cli after : CliDef} {node : Command}
    (moved : moveCurrent cli node = some after) : after.cells = cli.cells := by
  rw [moveCurrent] at moved
  cases owned : node.parent with
  | none =>
      rw [owned] at moved
      cases moved
      rfl
  | some owner =>
      rw [owned] at moved
      rcases Option.bind_eq_some_iff.mp moved with ⟨above, _, higher⟩
      cases upper : above.parent with
      | none =>
          rw [upper] at higher
          cases higher
          rfl
      | some top =>
          rw [upper] at higher
          rcases Option.bind_eq_some_iff.mp higher with ⟨highest, _, list⟩
          rcases Option.bind_eq_some_iff.mp list with ⟨first, _, named⟩
          rcases Option.map_eq_some_iff.mp named with ⟨leader, _, rfl⟩
          rfl

theorem unlinkHead_faced {cli after : CliDef} {start : Option Ptr} {t : Ptr} {node : Command}
    (unlinked : unlinkHead cli start t node = some after) : Faced cli.cells after.cells := by
  rcases Option.bind_eq_some_iff.mp unlinked with ⟨middle, cut, current⟩
  have first : Faced cli.cells middle.cells := by
    split at cut
    · cases cut
      exact Faced.refl cli.cells
    · rcases Option.bind_eq_some_iff.mp cut with ⟨owner, _, changed⟩
      rcases Option.map_eq_some_iff.mp changed with ⟨above, _, rfl⟩
      exact faced_setChildren cli.cells owner node.next
  split at current
  · rw [moveCurrent_cells current]
    exact first
  · cases current
    exact first

theorem unlinkLoop_faced {cmd : Ptr} {start at_ : Option Ptr} {fuel : Nat} {cli after : CliDef}
    (ran : unlinkLoop cmd start fuel at_ cli = some after) : Faced cli.cells after.cells := by
  induction fuel generalizing at_ cli with
  | zero =>
      cases at_ with
      | none =>
          cases ran
          exact Faced.refl _
      | some t => cases ran
  | succ fuel ih =>
      cases at_ with
      | none =>
          cases ran
          exact Faced.refl _
      | some t =>
          rcases Option.bind_eq_some_iff.mp ran with ⟨node, _, turn⟩
          rcases Option.bind_eq_some_iff.mp turn with ⟨middle, headed, rest⟩
          have first : Faced cli.cells middle.cells := by
            split at headed
            · exact unlinkHead_faced headed
            · cases headed
              exact Faced.refl cli.cells
          apply first.trans
          split at rest
          · rcases Option.bind_eq_some_iff.mp rest with ⟨gone, _, further⟩
            exact (faced_setNext middle.cells t gone.next).trans (ih further)
          · exact ih rest

/-- The recursion, commands and lists at once. -/
theorem delete_faced (fuel : Nat) :
    (∀ cli cmd after, deleteCommand fuel cli cmd = some after → Faced cli.cells after.cells) ∧
      ∀ cli c after, deleteChildren fuel cli c = some after → Faced cli.cells after.cells := by
  induction fuel with
  | zero =>
      constructor
      · intro cli cmd after ran
        cases ran
      · intro cli c after ran
        cases c with
        | none =>
            cases ran
            exact Faced.refl cli.cells
        | some c => cases ran
  | succ fuel ih =>
      constructor
      · intro cli cmd after ran
        rw [deleteCommand] at ran
        rcases Option.bind_eq_some_iff.mp ran with ⟨node, _, emptying⟩
        rcases Option.bind_eq_some_iff.mp emptying with ⟨middle, emptied, starting⟩
        rcases Option.bind_eq_some_iff.mp starting with ⟨start, _, unlinking⟩
        rcases Option.map_eq_some_iff.mp unlinking with ⟨last, unlinked, rfl⟩
        exact ((ih.2 cli _ middle emptied).trans (unlinkLoop_faced unlinked)).trans
          (faced_free last.cells cmd)
      · intro cli c after ran
        cases c with
        | none =>
            rw [deleteChildren] at ran
            cases ran
            exact Faced.refl cli.cells
        | some c =>
            rw [deleteChildren] at ran
            rcases Option.bind_eq_some_iff.mp ran with ⟨node, _, deleting⟩
            rcases Option.bind_eq_some_iff.mp deleting with ⟨middle, deleted, rest⟩
            exact (ih.1 cli c middle deleted).trans (ih.2 middle _ after rest)

theorem cliDeleteCommand_faced {cli after : CliDef} {cmd : Ptr}
    (deleted : cliDeleteCommand cli cmd = some after) : Faced cli.cells after.cells :=
  (delete_faced _).1 cli cmd after deleted

end Alisl.Cli
