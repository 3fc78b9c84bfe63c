import Alisl.Cli.Tree

/-! Finding a command by its name. The partial result of `cli_find_command_ext` is that of
the last sibling with children; earlier subtrees are searched for nothing. -/

namespace Alisl.Cli

open Alisl.Base
open Alisl.Base.Forest (Context)

/-- The list at the top, then the list below the last of its commands that has one, and so on. -/
def lastLine : Forest Ptr → List Ptr → List Ptr
  | .nil, below => below
  | .node p children next, below =>
      p :: lastLine next (if children.head? ≠ none then lastLine children [] else below)

theorem mem_of_lastLine {forest : Forest Ptr} {below : List Ptr} {q : Ptr}
    (member : q ∈ lastLine forest below) : q ∈ forest.ptrs ∨ q ∈ below := by
  induction forest generalizing below with
  | nil => exact .inr member
  | node p children next childrenIh nextIh =>
      rw [Forest.ptrs, List.mem_cons, List.mem_append]
      rcases List.mem_cons.mp member with same | later
      · exact .inl (.inl same)
      rcases nextIh later with behind | inside
      · exact .inl (.inr (.inr behind))
      · split at inside
        · rcases childrenIh inside with deeper | none_
          · exact .inl (.inr (.inl deeper))
          · cases none_
        · exact .inr inside

/-- The search takes the first of that name on the last line. -/
theorem findCommandLoop_eq {cells : Cells Command} {context : Context Ptr} {part : Forest Ptr}
    (command : List Byte) (fuel : Nat) (below : List Ptr) (shows : Shows cells (context.fill part))
    (distinct : (context.fill part).ptrs.Nodup) (enough : part.ptrs.length ≤ fuel) :
    findCommandLoop cells command fuel part.head?
        (below.find? (fun p => decide (nameOf cells p = command))) =
      some ((lastLine part below).find? (fun p => decide (nameOf cells p = command))) := by
  induction part generalizing context fuel below with
  | nil => cases fuel <;> rfl
  | node p children next childrenIh nextIh =>
      rcases shows.at_ distinct with ⟨node, there, later, kids, _⟩
      rw [Forest.ptrs, List.length_cons, List.length_append] at enough
      cases fuel with
      | zero => exact absurd enough (Nat.not_succ_le_zero _)
      | succ fuel =>
          have name : nameOf cells p = node.command.val := by rw [nameOf, there, Option.elim_some]
          have inside : (context.comp (.under p .hole next)).fill children =
              context.fill (.node p children next) := Context.fill_comp ..
          have behind : (context.comp (.after p children .hole)).fill next =
              context.fill (.node p children next) := Context.fill_comp ..
          have roomBelow : children.ptrs.length ≤ fuel := by omega
          have roomBehind : next.ptrs.length ≤ fuel := by omega
          have partial_ : (if node.children ≠ none then
                findCommandLoop cells command fuel node.children none
              else some (below.find? (fun p => decide (nameOf cells p = command)))) =
              some ((if children.head? ≠ none then lastLine children [] else below).find?
                (fun p => decide (nameOf cells p = command))) := by
            rw [kids]
            split
            · rw [← inside] at shows distinct
              exact childrenIh fuel [] shows distinct roomBelow
            · rfl
          rw [Forest.head?, findCommandLoop, there, Option.bind_some, lastLine, List.find?_cons, name]
          by_cases found : node.command.val = command
          · rw [if_pos found, decide_eq_true found]
          · rw [if_neg found, decide_eq_false found, partial_, Option.bind_some, later]
            rw [← behind] at shows distinct
            exact nextIh fuel _ shows distinct roomBehind

theorem cliFindCommand_eq {cli : CliDef} {forest : Forest Ptr} (represents : Represents cli forest)
    (command : List Byte) :
    cliFindCommand cli command =
      some ((lastLine forest []).find? (fun p => decide (nameOf cli.cells p = command))) := by
  rw [cliFindCommand, represents.root]
  have shows : Shows cli.cells (Context.hole.fill forest) := represents.cells
  exact findCommandLoop_eq command cli.cells.length [] shows represents.distinct
    (represents.cells.length_le represents.distinct)

/-- A command of that name is found when there is one, and nothing otherwise; so a command that
cannot be unregistered is not there. -/
structure FindsExactly (cli : CliDef) (forest : Forest Ptr) (name : CString) : Prop where
  present : ∀ p ∈ forest.ptrs, nameOf cli.cells p = name.val →
    ∃ c ∈ forest.ptrs, nameOf cli.cells c = name.val ∧ cliFindCommand cli name.val = some (some c)
  absent : (∀ p ∈ forest.ptrs, nameOf cli.cells p ≠ name.val) →
    cliFindCommand cli name.val = some none
  unregister : cli.commandsRoot ≠ none →
    ∀ after, cliUnregisterCommand cli (some name.val) = some (after, -1) →
      ∀ p ∈ forest.ptrs, nameOf cli.cells p ≠ name.val

/-- The name is on the last line of the tree, if it is in the tree. -/
def OnLastLine (cli : CliDef) (forest : Forest Ptr) (name : CString) : Prop :=
  ∀ p ∈ forest.ptrs, nameOf cli.cells p = name.val →
    ∃ q ∈ lastLine forest [], nameOf cli.cells q = name.val

section Found

variable {cli : CliDef} {forest : Forest Ptr} {name : CString}

theorem cliFindCommand_none_iff (represents : Represents cli forest) :
    cliFindCommand cli name.val = some none ↔
      ∀ q ∈ lastLine forest [], nameOf cli.cells q ≠ name.val := by
  rw [cliFindCommand_eq represents, Option.some_inj, List.find?_eq_none]
  constructor
  · intro none_ q member same
    exact none_ q member (decide_eq_true same)
  · intro none_ q member found
    exact none_ q member (of_decide_eq_true found)

theorem cliFindCommand_some (represents : Represents cli forest) {c : Ptr}
    (found : cliFindCommand cli name.val = some (some c)) :
    c ∈ forest.ptrs ∧ nameOf cli.cells c = name.val := by
  rw [cliFindCommand_eq represents, Option.some_inj] at found
  refine ⟨?_, by simpa using List.find?_some found⟩
  rcases mem_of_lastLine (List.mem_of_find?_eq_some found) with inside | none_
  · exact inside
  · cases none_

/-- Nothing is unregistered exactly when nothing is found. -/
theorem cliUnregisterCommand_failed {after : CliDef} (some_ : cli.commandsRoot ≠ none)
    (failed : cliUnregisterCommand cli (some name.val) = some (after, -1)) :
    cliFindCommand cli name.val = some none := by
  rw [cliUnregisterCommand] at failed
  simp only [if_neg some_] at failed
  rcases Option.bind_eq_some_iff.mp failed with ⟨found, search, rest⟩
  cases found with
  | none => exact search
  | some c =>
      rcases Option.map_eq_some_iff.mp rest with ⟨deleted, _, result⟩
      have rc : cliOk = -1 := congrArg Prod.snd result
      exact absurd rc (by decide)

/-- The search is right exactly for the names that are on the last line of the tree or nowhere. -/
theorem finds_exactly_iff (represents : Represents cli forest) :
    FindsExactly cli forest name ↔ OnLastLine cli forest name := by
  constructor
  · intro finds p member named
    rcases finds.present p member named with ⟨c, _, _, found⟩
    by_contra nowhere
    have none_ : cliFindCommand cli name.val = some none :=
      (cliFindCommand_none_iff represents).mpr (fun q line same => nowhere ⟨q, line, same⟩)
    rw [found] at none_
    cases none_
  · intro line
    have missed (none_ : cliFindCommand cli name.val = some none) :
        ∀ p ∈ forest.ptrs, nameOf cli.cells p ≠ name.val := by
      intro p member named
      rcases line p member named with ⟨q, there, same⟩
      exact (cliFindCommand_none_iff represents).mp none_ q there same
    constructor
    · intro p member named
      have total := cliFindCommand_eq represents name.val
      cases result : (lastLine forest []).find? (fun p => decide (nameOf cli.cells p = name.val)) with
      | none =>
          rw [result] at total
          exact absurd named (missed total p member)
      | some c =>
          rw [result] at total
          have found := cliFindCommand_some represents total
          exact ⟨c, found.1, found.2, total⟩
    · intro nowhere
      apply (cliFindCommand_none_iff represents).mpr
      intro q there
      rcases mem_of_lastLine there with inside | none_
      · exact nowhere q inside
      · cases none_
    · intro some_ after failed
      exact missed (cliUnregisterCommand_failed some_ failed)

end Found

/-- `a` with `x` below it, then `b` with `y` below it. -/
def twoMenus : CliDef where
  cells := [some ⟨⟨[0x61], by decide⟩, .dummyCallback, 1, 0, some 2, some 1, none⟩,
    some ⟨⟨[0x78], by decide⟩, .dummyCallback, 1, 0, none, none, some 0⟩,
    some ⟨⟨[0x62], by decide⟩, .dummyCallback, 1, 0, none, some 3, none⟩,
    some ⟨⟨[0x79], by decide⟩, .dummyCallback, 1, 0, none, none, some 2⟩]
  commandsRoot := some 0
  commandsCurrent := some 0

def twoMenusForest : Forest Ptr :=
  .node 0 (.node 1 .nil .nil) (.node 2 (.node 3 .nil .nil) .nil)

def nameX : CString := ⟨[0x78], by decide⟩

def nameY : CString := ⟨[0x79], by decide⟩

theorem twoMenus_represents : Represents twoMenus twoMenusForest where
  cells := shows_of_lt (by decide) (by decide)
  root := rfl
  distinct := by decide

/-- The command below `a` is not found. -/
theorem find_misses_subtree : Represents twoMenus twoMenusForest ∧
    ¬ FindsExactly twoMenus twoMenusForest nameX := by
  refine ⟨twoMenus_represents, ?_⟩
  intro finds
  rcases finds.present 1 (by decide) rfl with ⟨c, _, _, found⟩
  have nothing : cliFindCommand twoMenus nameX.val = some none := by decide +kernel
  rw [nothing] at found
  cases found

theorem finds_exactly_iff_last : FindsExactly twoMenus twoMenusForest nameY ↔
    OnLastLine twoMenus twoMenusForest nameY :=
  finds_exactly_iff twoMenus_represents

end Alisl.Cli
