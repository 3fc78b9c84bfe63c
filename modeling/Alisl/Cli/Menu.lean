import Alisl.Base.Machine
import Alisl.Cli.Delete

/-! Finding and running commands, and the calls of the command tree in any order. -/

namespace Alisl.Cli

open Alisl.Base
open Alisl.Base.Forest (Context)

/-- What the loop of `cli_find_command2` asks of a command. -/
def Takes (cells : Cells Command) (mode : Nat) (word : List Byte) (c : Ptr) : Bool :=
  (cells.read c).elim false (fun node =>
    decide (node.mode = mode) && strncasecmpZero node.command.val word node.uniqueLen &&
      strncasecmpZero node.command.val word word.length)

/-- The loop takes the first that fits. -/
theorem selectCommand_eq {cells : Cells Command} {context : Context Ptr} {part : Forest Ptr} (mode : Nat)
    (word : List Byte) (fuel : Nat) (shows : Shows cells (context.fill part))
    (distinct : (context.fill part).ptrs.Nodup) (enough : part.roots.length ≤ fuel) :
    selectCommand cells mode word fuel part.head? = some (part.roots.find? (Takes cells mode word)) := by
  induction part generalizing context fuel with
  | nil => cases fuel <;> rfl
  | node c below behind _ ih =>
      rcases shows.at_ distinct with ⟨node, there, next, _⟩
      cases fuel with
      | zero => exact absurd enough (Nat.not_succ_le_zero _)
      | succ fuel =>
          have moved : (context.comp (.after c below .hole)).fill behind =
              context.fill (.node c below behind) := Context.fill_comp ..
          rw [← moved] at shows distinct
          have rest := ih fuel shows distinct (Nat.le_of_succ_le_succ enough)
          rw [Forest.head?, selectCommand, there, Option.bind_some, next, rest, Forest.roots,
            List.find?_cons, Takes, there, Option.elim_some]
          by_cases right : node.mode = mode
          · rw [if_neg (not_not.mpr right), decide_eq_true right, Bool.true_and]
            cases strncasecmpZero node.command.val word node.uniqueLen
            · rfl
            · cases strncasecmpZero node.command.val word word.length <;> rfl
          · rw [if_pos right, decide_eq_false right, Bool.false_and]
            rfl

section Exit

variable {cli : CliDef} {forest : Forest Ptr}

/-- A node of the forest has a cell with its links. -/
theorem Represents.cell (represents : Represents cli forest) {q : Ptr} {found : NodeLinks Ptr}
    (there : forest.links none q = some found) :
    ∃ node, cli.cells.read q = some node ∧ node.next = found.next ∧ node.children = found.children ∧
      node.parent = found.parent := by
  have shown := represents.cells q
  rw [there] at shown
  rcases Option.map_eq_some_iff.mp shown with ⟨node, read, links⟩
  exact ⟨node, read, congrArg NodeLinks.next links, congrArg NodeLinks.children links,
    congrArg NodeLinks.parent links⟩

theorem Represents.links (represents : Represents cli forest) {q : Ptr} {node : Command}
    (there : cli.cells.read q = some node) : forest.links none q = some node.links := by
  rw [← represents.cells q, there]
  rfl

/-- The parent of a command is there, and has children. -/
theorem Represents.parent (represents : Represents cli forest) {q owner : Ptr} {node : Command}
    (there : cli.cells.read q = some node) (owned : node.parent = some owner) :
    ∃ above first, cli.cells.read owner = some above ∧ above.children = some first := by
  rcases Forest.links_parent represents.distinct (represents.links there) owned with
    none_ | ⟨found, first, up, child⟩
  · cases none_
  · rcases represents.cell up with ⟨above, read, _, kids, _⟩
    exact ⟨above, first, read, kids.trans child⟩

/-- A first child is the menu of its parent. -/
theorem Represents.entered (represents : Represents cli forest) {c first : Ptr} {node : Command}
    (there : cli.cells.read c = some node) (child : node.children = some first) :
    OnMenu { cli with commandsCurrent := node.children } forest := by
  have inner : first ∈ forest.inner := Forest.mem_inner_of_children (represents.links there) child
  constructor
  · rw [child]
    constructor
    · intro none_
      cases none_
    · intro none_
      rw [none_] at inner
      cases inner
  · intro q current
    have same : first = q := Option.some.inj (child.symm.trans current)
    exact .inr (same ▸ inner)

theorem Represents.atRoot (represents : Represents cli forest) :
    OnMenu { cli with commandsCurrent := cli.commandsRoot } forest := by
  constructor
  · rw [represents.root]
    cases forest with
    | nil => exact ⟨fun _ => rfl, fun _ => rfl⟩
    | node first _ _ =>
        constructor
        · intro none_
          cases none_
        · intro none_
          cases none_
  · intro q current
    exact .inl (represents.root.symm.trans current)

/-- The tree is as before, and the menu is in it. -/
structure Moved (before after : CliDef) (forest : Forest Ptr) : Prop where
  cells : after.cells = before.cells
  root : after.commandsRoot = before.commandsRoot
  menu : OnMenu after forest

theorem Moved.represents {after : CliDef} (moved : Moved cli after forest)
    (represents : Represents cli forest) : Represents after forest where
  cells := by
    rw [moved.cells]
    exact represents.cells
  root := by rw [moved.root, represents.root]
  distinct := represents.distinct

theorem Moved.trans {middle after : CliDef} (first : Moved cli middle forest)
    (second : Moved middle after forest) : Moved cli after forest where
  cells := second.cells.trans first.cells
  root := second.root.trans first.root
  menu := second.menu

/-- Leaving a menu of a tree that is not empty. -/
theorem cliExit_spec (represents : Represents cli forest) (menu : OnMenu cli forest)
    (some_ : cli.commandsCurrent ≠ none) :
    ∃ after rc, cliExit cli = some (after, rc) ∧ Moved cli after forest := by
  rcases Option.ne_none_iff_exists'.mp some_ with ⟨first, current⟩
  rcases Forest.links_isSome (menu.first first current).mem with ⟨found, there⟩
  rcases represents.cell there with ⟨node, read, _, _, _⟩
  rw [cliExit, current, Option.bind_some, read, Option.bind_some]
  cases owned : node.parent with
  | none => exact ⟨cli, cliQuit, rfl, rfl, rfl, menu⟩
  | some owner =>
      rcases represents.parent read owned with ⟨above, _, up, _⟩
      simp only [up, Option.bind_some]
      cases upper : above.parent with
      | none => exact ⟨_, cliOk, rfl, rfl, rfl, represents.atRoot⟩
      | some top =>
          rcases represents.parent up upper with ⟨highest, child, there, kids⟩
          have inner := represents.entered there kids
          rcases Forest.links_isSome (inner.first child kids).mem with ⟨links, shown⟩
          rcases represents.cell shown with ⟨leader, named, _⟩
          simp only [there, Option.bind_some, kids, named, Option.map_some]
          rw [kids] at inner
          exact ⟨_, cliOk, rfl, rfl, rfl, inner⟩

theorem runCommand_spec (represents : Represents cli forest) (menu : OnMenu cli forest)
    (answers : Ptr → Int) {c : Ptr} {node : Command} (there : cli.cells.read c = some node) :
    ∃ after rc, runCommand answers cli c node = some (after, rc) ∧ Moved cli after forest := by
  have some_ : cli.commandsCurrent ≠ none := by
    intro none_
    have links := represents.links there
    rw [menu.empty.mp none_] at links
    cases links
  have entered : ∃ inside : CliDef,
      (if node.children ≠ none then { cli with commandsCurrent := node.children } else cli) = inside ∧
        Moved cli inside forest ∧ inside.commandsCurrent ≠ none := by
    cases child : node.children with
    | none => exact ⟨cli, if_neg (not_not.mpr rfl), ⟨rfl, rfl, menu⟩, some_⟩
    | some first =>
        have inner := represents.entered there child
        rw [child] at inner
        exact ⟨_, if_pos (Option.some_ne_none first), ⟨rfl, rfl, inner⟩, Option.some_ne_none first⟩
  rcases entered with ⟨inside, same, moved, current⟩
  rw [runCommand, same]
  cases callback : node.callback with
  | cliExit =>
      rcases cliExit_spec (moved.represents represents) moved.menu current with ⟨after, rc, ran, left⟩
      exact ⟨after, rc, by rw [runCallback, callback, ran], moved.trans left⟩
  | user => exact ⟨inside, answers c, by rw [runCallback, callback], moved⟩
  | dummyCallback => exact ⟨inside, cliOk, by rw [runCallback, callback], moved⟩
  | cliHelp => exact ⟨inside, cliOk, by rw [runCallback, callback], moved⟩
  | cliHistory => exact ⟨inside, cliOk, by rw [runCallback, callback], moved⟩

/-- A line of words, run from some list of the tree. -/
theorem cliFindCommand2_spec (represents : Represents cli forest) (menu : OnMenu cli forest)
    (answers : Ptr → Int) (mode : Nat) (words : List CString) (spoken : ∀ word ∈ words, word.val ≠ [])
    {context : Context Ptr} {part : Forest Ptr} (place : forest = context.fill part) :
    ∃ after rc, cliFindCommand2 answers mode words cli part.head? = some (after, rc) ∧
      Moved cli after forest := by
  induction words generalizing context part with
  | nil => exact ⟨cli, cliError, rfl, rfl, rfl, menu⟩
  | cons word words ih =>
      have shows := represents.cells
      have distinct := represents.distinct
      rw [place] at shows distinct
      have selected := selectCommand_eq mode word.val cli.cells.length shows distinct
        (shows.fuel distinct)
      rw [cliFindCommand2, if_neg (spoken word List.mem_cons_self)]
      split
      · exact ⟨cli, cliOk, rfl, rfl, rfl, menu⟩
      rw [selected, Option.bind_some]
      cases found : part.roots.find? (Takes cli.cells mode word.val) with
      | none => exact ⟨cli, cliErrorArg, rfl, rfl, rfl, menu⟩
      | some c =>
          have member : c ∈ forest.ptrs := by
            rw [place]
            exact Context.mem_fill (Forest.mem_of_mem_roots (List.mem_of_find?_eq_some found))
          rcases Forest.exists_fill member with ⟨around, kids, next, here⟩
          have whole := represents.cells
          have nodup := represents.distinct
          rw [here] at whole nodup
          rcases whole.at_ nodup with ⟨node, there, _, child, _⟩
          dsimp only
          rw [there, Option.bind_some]
          split
          · exact runCommand_spec represents menu answers there
          · have deeper : forest = (around.comp (.under c .hole next)).fill kids := by
              rw [here, Context.fill_comp]
              rfl
            have rest (next : CString) (member : next ∈ words) : next.val ≠ [] :=
              spoken next (List.mem_cons_of_mem _ member)
            rcases ih rest deeper with ⟨middle, rc, ran, moved⟩
            rw [child, ran, Option.bind_some]
            split
            · rw [← moved.cells] at there
              rcases runCommand_spec (moved.represents represents) moved.menu answers there with
                ⟨after, rc, called, left⟩
              exact ⟨after, rc, called, moved.trans left⟩
            · exact ⟨middle, rc, rfl, moved⟩

/-- The list the menu is. -/
theorem OnMenu.part (menu : OnMenu cli forest) :
    ∃ (context : Context Ptr) (part : Forest Ptr), forest = context.fill part ∧
      cli.commandsCurrent = part.head? := by
  cases current : cli.commandsCurrent with
  | none => exact ⟨.hole, .nil, menu.empty.mp current, rfl⟩
  | some q =>
      rcases Forest.exists_fill (menu.first q current).mem with ⟨context, kids, next, place⟩
      exact ⟨context, .node q kids next, place, rfl⟩

/-- Running a line only moves the menu. -/
theorem cliRunCommand_spec (represents : Represents cli forest) (menu : OnMenu cli forest)
    (answers : Ptr → Int) (words : List CString) (spoken : ∀ word ∈ words, word.val ≠ []) :
    ∃ after rc, cliRunCommand answers cli words = some (after, rc) ∧ Moved cli after forest := by
  rcases menu.part with ⟨context, part, place, current⟩
  rcases cliFindCommand2_spec represents menu answers cliCmdModeSelf words spoken place with
    ⟨middle, rc, ran, moved⟩
  rw [cliRunCommand, current, ran, Option.bind_some]
  split
  · have again := moved.represents represents
    have whole : forest = Context.hole.fill forest := rfl
    rcases cliFindCommand2_spec again moved.menu answers cliCmdModeAll words spoken whole with
      ⟨after, rc, called, left⟩
    exact ⟨after, rc, by rw [again.root, called], moved.trans left⟩
  · exact ⟨middle, rc, rfl, moved⟩

end Exit

/-! ### The calls -/

inductive Call where
  | register (registration : Registration)
  | delete (cmd : Ptr)
  | run (answers : Ptr → Int) (words : List CString)

/-- Parents and commands are live, memory is not in use, and no word is empty. -/
def Call.Legal (cli : CliDef) : Call → Prop
  | register registration =>
      (∀ owner ∈ registration.parent, cli.cells.read owner ≠ none) ∧
        ∀ c ∈ registration.memory, cli.cells.Unused c
  | delete cmd => cli.cells.read cmd ≠ none
  | run _ words => ∀ word ∈ words, word.val ≠ []

instance (cells : Cells Command) (c : Ptr) : Decidable (cells.Unused c) :=
  inferInstanceAs (Decidable (_ ∧ _))

instance (cli : CliDef) (call : Call) : Decidable (call.Legal cli) :=
  match call with
  | .register registration =>
      inferInstanceAs (Decidable ((∀ owner ∈ registration.parent, cli.cells.read owner ≠ none) ∧
        ∀ c ∈ registration.memory, cli.cells.Unused c))
  | .delete cmd => inferInstanceAs (Decidable (cli.cells.read cmd ≠ none))
  | .run _ words => inferInstanceAs (Decidable (∀ word ∈ words, word.val ≠ []))

def Call.perform (cli : CliDef) : Call → Option CliDef
  | register registration => (cliRegisterCommand cli registration).map Prod.fst
  | delete cmd => cliDeleteCommand cli cmd
  | run answers words => (cliRunCommand answers cli words).map Prod.fst

/-- What a call does to the tree. -/
def Call.reshape (forest : Forest Ptr) : Call → Forest Ptr
  | register registration => registration.new.elim forest (forest.add registration.parent)
  | delete cmd => forest.remove cmd
  | run _ _ => forest

def machine : Machine CliDef Call where
  Initial cli := cli = .empty
  next cli call := if call.Legal cli then call.perform cli else none

theorem Call.perform_spec {cli : CliDef} {forest : Forest Ptr} (represents : Represents cli forest)
    (menu : OnMenu cli forest) (call : Call) (legal : call.Legal cli) :
    ∃ after, call.perform cli = some after ∧ Represents after (call.reshape forest) ∧
      OnMenu after (call.reshape forest) := by
  cases call with
  | register registration =>
      have live : ∀ owner ∈ registration.parent, owner ∈ forest.ptrs := by
        intro owner given
        exact represents.cells.read_iff.mp (legal.1 owner given)
      rcases cliRegisterCommand_spec represents menu registration live legal.2 with
        ⟨after, ran, tree, current⟩
      exact ⟨after, by rw [Call.perform, ran, Option.map_some], tree, current⟩
  | delete cmd =>
      exact cliDeleteCommand_spec represents menu (represents.cells.read_iff.mp legal)
  | run answers words =>
      rcases cliRunCommand_spec represents menu answers words legal with ⟨after, rc, ran, moved⟩
      exact ⟨after, by rw [Call.perform, ran, Option.map_some], moved.represents represents,
        moved.menu⟩

theorem CliDef.empty_represents : Represents .empty .nil where
  cells := by
    intro p
    rfl
  root := rfl
  distinct := List.nodup_nil

theorem CliDef.empty_onMenu : OnMenu .empty .nil where
  empty := ⟨fun _ => rfl, fun _ => rfl⟩
  first := by
    intro q current
    cases current

/-- The command and all below it are gone; the others keep their order and their parents. -/
structure Deleted (before after : CliDef) (forest : Forest Ptr) (cmd : Ptr) : Prop where
  ptrs : ∃ front back, forest.ptrs = front ++ (cmd :: (forest.kidsOf cmd).ptrs) ++ back ∧
    (forest.remove cmd).ptrs = front ++ back
  live : ∀ q, after.cells.read q ≠ none ↔ q ∈ (forest.remove cmd).ptrs
  parents : ∀ q ∈ (forest.remove cmd).ptrs,
    (after.cells.read q).map Command.parent = (before.cells.read q).map Command.parent

theorem Represents.deleted {before after : CliDef} {forest : Forest Ptr} {cmd : Ptr}
    (represents : Represents before forest) (removed : Represents after (forest.remove cmd))
    (member : cmd ∈ forest.ptrs) : Deleted before after forest cmd where
  ptrs := Forest.ptrs_remove represents.distinct member
  live q := removed.cells.read_iff
  parents := by
    intro q stays
    have parent (cells : Cells Command) : (cells.read q).map Command.parent =
        ((cells.read q).map Command.links).map NodeLinks.parent := by
      rw [Option.map_map]
      rfl
    rw [parent, parent, represents.cells q, removed.cells q]
    exact Forest.parent_remove represents.distinct member stays

theorem reachable_tree {cli : CliDef} (reachable : machine.Reachable cli) :
    ∃ forest, Represents cli forest ∧ OnMenu cli forest := by
  apply Machine.Reachable.always _ _ cli reachable
  · intro start initial
    rw [initial]
    exact ⟨.nil, CliDef.empty_represents, CliDef.empty_onMenu⟩
  · intro before call after _ tree moved
    rcases tree with ⟨forest, represents, menu⟩
    rw [machine] at moved
    dsimp only at moved
    split at moved
    · rename_i legal
      rcases call.perform_spec represents menu legal with ⟨result, ran, shaped, current⟩
      rw [ran] at moved
      cases moved
      exact ⟨_, shaped, current⟩
    · cases moved

/-- In every state the lists form a tree with its menu in it, and every call that is legal is
performed on that tree. -/
theorem command_tree_kept {cli : CliDef} (reachable : machine.Reachable cli) :
    ∃ forest, Represents cli forest ∧ OnMenu cli forest ∧
      (∀ call, call.Legal cli → ∃ after, machine.next cli call = some after ∧
        Represents after (call.reshape forest) ∧ OnMenu after (call.reshape forest)) ∧
      ∀ cmd after, machine.next cli (.delete cmd) = some after → Deleted cli after forest cmd := by
  rcases reachable_tree reachable with ⟨forest, represents, menu⟩
  have performed (call : Call) (legal : call.Legal cli) : ∃ after,
      machine.next cli call = some after ∧ Represents after (call.reshape forest) ∧
        OnMenu after (call.reshape forest) := by
    rcases call.perform_spec represents menu legal with ⟨after, ran, shaped, current⟩
    exact ⟨after, (if_pos legal).trans ran, shaped, current⟩
  refine ⟨forest, represents, menu, performed, ?_⟩
  intro cmd after moved
  by_cases legal : (Call.delete cmd).Legal cli
  · rcases performed (.delete cmd) legal with ⟨other, same, shaped, _⟩
    have equal : other = after := Option.some.inj (same.symm.trans moved)
    subst equal
    exact represents.deleted shaped (represents.cells.read_iff.mp legal)
  · have none_ : machine.next cli (.delete cmd) = none := if_neg legal
    rw [none_] at moved
    cases moved

/-- The user is in the menu of `m`, which holds `n`. -/
def inMenu : CliDef where
  cells := [some ⟨⟨[0x6d], by decide⟩, .dummyCallback, 1, 0, none, some 1, none⟩,
    some ⟨⟨[0x6e], by decide⟩, .dummyCallback, 1, 0, none, none, some 0⟩]
  commandsRoot := some 0
  commandsCurrent := some 1

theorem inMenu_reachable : machine.Reachable inMenu := by
  have ran : machine.run .empty [.register ⟨none, some ⟨[0x6d], by decide⟩, none, 0, some 0⟩,
      .register ⟨some 0, some ⟨[0x6e], by decide⟩, none, 0, some 1⟩,
      .run (fun _ => cliOk) [⟨[0x6d], by decide⟩]] = some inMenu := by
    decide +kernel
  exact Machine.reachable_of_run (.initial rfl) ran

theorem command_tree_kept_inMenu : ∃ forest after, Represents inMenu forest ∧
    machine.next inMenu (.delete 0) = some after ∧ Deleted inMenu after forest 0 := by
  rcases command_tree_kept inMenu_reachable with ⟨forest, represents, _, performed, removed⟩
  rcases performed (.delete 0) (by decide +kernel) with ⟨after, moved, _, _⟩
  exact ⟨forest, after, represents, moved, removed 0 after moved⟩

end Alisl.Cli
