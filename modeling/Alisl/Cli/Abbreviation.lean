import Alisl.Cli.Faces
import Alisl.Cli.Find

/-! Abbreviated commands over registrations and unregistrations in any order. Lengths are built
from the letters in their case, words are compared without it, and only a registration builds
the lengths again. -/

namespace Alisl.Cli

open Alisl.Base

/-! ### Registering -/

/-- The names once the new command is there. -/
def Registration.names (registration : Registration) (before : Ptr → List Byte) (p : Ptr) : List Byte :=
  if registration.new = some p then registration.command.elim [] Subtype.val else before p

def Registration.modes (registration : Registration) (before : Ptr → Nat) (p : Ptr) : Nat :=
  if registration.new = some p then registration.mode else before p

section Register

variable {cli : CliDef} {forest : Forest Ptr}

theorem cliRegisterCommand2_faces {middle : CliDef} {registration : Registration} {new : Option Ptr}
    (unused : ∀ c ∈ registration.memory, cli.cells.Unused c)
    (ran : cliRegisterCommand2 cli registration = some (middle, new)) {p : Ptr}
    (live : middle.cells.read p ≠ none) :
    nameOf middle.cells p = registration.names (nameOf cli.cells) p ∧
      modeOf middle.cells p = registration.modes (modeOf cli.cells) p := by
  rw [cliRegisterCommand2] at ran
  rw [Registration.names, Registration.modes, Registration.new]
  cases command : registration.command with
  | none =>
      rw [command] at ran
      cases ran
      exact ⟨rfl, rfl⟩
  | some name =>
      cases memory : registration.memory with
      | none =>
          rw [command, memory] at ran
          cases ran
          exact ⟨rfl, rfl⟩
      | some c =>
          rw [command, memory] at ran
          rcases Option.map_eq_some_iff.mp ran with ⟨linked, link, same⟩
          cases same
          have faced := linkCommand_faced link
          have read := Cells.read_alloc (unused c memory).2 p (registration.cell name)
          rw [faced.nameOf live, faced.modeOf live, nameOf, modeOf, read]
          by_cases self : p = c
          · subst self
            rw [if_pos rfl]
            exact ⟨(if_pos rfl).symm, (if_pos rfl).symm⟩
          · have other : ¬ (some name).bind (fun _ => some c) = some p :=
              fun same => self (Option.some.inj same).symm
            rw [if_neg self]
            exact ⟨(if_neg other).symm, (if_neg other).symm⟩

/-- A registration names the new command, keeps the others and builds all lengths. -/
theorem cliRegisterCommand_built (represents : Represents cli forest) (menu : OnMenu cli forest)
    (registration : Registration) (live : ∀ owner ∈ registration.parent, owner ∈ forest.ptrs)
    (unused : ∀ c ∈ registration.memory, cli.cells.Unused c) :
    ∃ after grown, cliRegisterCommand cli registration = some (after, registration.new) ∧
      grown = registration.new.elim forest (forest.add registration.parent) ∧
      Represents after grown ∧ OnMenu after grown ∧
      ∀ p ∈ grown.ptrs, nameOf after.cells p = registration.names (nameOf cli.cells) p ∧
        modeOf after.cells p = registration.modes (modeOf cli.cells) p ∧
        uniqueLenOf after.cells p = shortest (nameOf after.cells) (grown.siblings p) p := by
  rcases cliRegisterCommand2_spec represents menu registration live unused with
    ⟨middle, ran, tree, current⟩
  rcases cliBuildShortest_eq tree with ⟨cells, built, relabelled⟩
  refine ⟨{ middle with cells := cells }, _, ?_, rfl, tree.relabelled relabelled,
    ⟨current.empty, current.first⟩, ?_⟩
  · rw [cliRegisterCommand, ran, Option.bind_some, built, Option.map_some]
  · intro p member
    have alive := tree.cells.read_iff.mpr member
    rcases cliRegisterCommand2_faces unused ran alive with ⟨name, mode⟩
    rcases Option.ne_none_iff_exists'.mp alive with ⟨node, there⟩
    have read := relabelled.read p
    rw [newLens, if_pos member, Option.elim_some, there, Option.map_some] at read
    refine ⟨?_, ?_, ?_⟩
    · rw [relabelled.names, name]
    · rw [← mode, modeOf, modeOf, read, there]
      rfl
    · rw [relabelled.names, uniqueLenOf, read]
      rfl

/-! ### Unregistering -/

/-- The tree without the command that is found by the name. -/
def unregistered (cli : CliDef) (forest : Forest Ptr) (command : CString) : Forest Ptr :=
  ((lastLine forest []).find? (fun p => decide (nameOf cli.cells p = command.val))).elim forest
    forest.remove

theorem cliUnregisterCommand_spec (represents : Represents cli forest) (menu : OnMenu cli forest)
    (command : CString) :
    ∃ after rc, cliUnregisterCommand cli (some command.val) = some (after, rc) ∧
      Represents after (unregistered cli forest command) ∧
      OnMenu after (unregistered cli forest command) ∧ Faced cli.cells after.cells := by
  rw [cliUnregisterCommand, unregistered]
  by_cases root : cli.commandsRoot = none
  · have empty : forest = .nil := head?_eq_none.mp (represents.root.symm.trans root)
    subst empty
    exact ⟨cli, cliOk, if_pos root, represents, menu, Faced.refl cli.cells⟩
  · simp only [if_neg root, cliFindCommand_eq represents, Option.bind_some]
    cases found : (lastLine forest []).find? (fun p => decide (nameOf cli.cells p = command.val)) with
    | none => exact ⟨cli, -1, rfl, represents, menu, Faced.refl cli.cells⟩
    | some c =>
        have member : c ∈ forest.ptrs := by
          rcases mem_of_lastLine (List.mem_of_find?_eq_some found) with inside | none_
          · exact inside
          · cases none_
        rcases cliDeleteCommand_spec represents menu member with ⟨after, deleted, tree, current⟩
        refine ⟨after, cliOk, ?_, tree, current, cliDeleteCommand_faced deleted⟩
        dsimp only
        rw [deleted, Option.map_some]

end Register

/-! ### The calls -/

/-- The list that begins at a pointer. -/
def siblingList (cells : Cells Command) : Nat → Option Ptr → List Ptr
  | _, none => []
  | 0, some _ => []
  | fuel + 1, some p => p :: (cells.read p).elim [] (fun node => siblingList cells fuel node.next)

/-- The list a registration adds to. -/
def listUnder (cli : CliDef) (parent : Option Ptr) : List Ptr :=
  siblingList cli.cells cli.cells.length
    (parent.elim cli.commandsRoot (fun owner => (cli.cells.read owner).bind Command.children))

inductive NameCall where
  | register (registration : Registration)
  | unregister (command : CString)

/-- Parents are live, memory is not in use, and a new name is not that of a sibling. -/
def NameCall.Legal (cli : CliDef) : NameCall → Prop
  | register registration =>
      (∀ owner ∈ registration.parent, cli.cells.read owner ≠ none) ∧
        (∀ c ∈ registration.memory, cli.cells.Unused c) ∧
        (registration.new ≠ none → ∀ name ∈ registration.command,
          ∀ p ∈ listUnder cli registration.parent, fold (nameOf cli.cells p) ≠ fold name.val)
  | unregister _ => True

instance (cli : CliDef) (call : NameCall) : Decidable (call.Legal cli) :=
  match call with
  | .register registration =>
      inferInstanceAs (Decidable ((∀ owner ∈ registration.parent, cli.cells.read owner ≠ none) ∧
        (∀ c ∈ registration.memory, cli.cells.Unused c) ∧
        (registration.new ≠ none → ∀ name ∈ registration.command,
          ∀ p ∈ listUnder cli registration.parent, fold (nameOf cli.cells p) ≠ fold name.val)))
  | .unregister _ => inferInstanceAs (Decidable True)

def NameCall.perform (cli : CliDef) : NameCall → Option CliDef
  | register registration => (cliRegisterCommand cli registration).map Prod.fst
  | unregister command => (cliUnregisterCommand cli (some command.val)).map Prod.fst

def NameCall.reshape (cli : CliDef) (forest : Forest Ptr) : NameCall → Forest Ptr
  | register registration => registration.new.elim forest (forest.add registration.parent)
  | unregister command => unregistered cli forest command

/-- A registration fits by the names it leaves, an unregistration by the lengths that are stored. -/
def NameCall.Fits (cli : CliDef) (forest : Forest Ptr) : NameCall → Prop
  | register registration =>
      ∀ level ∈ ((register registration).reshape cli forest).lists,
        NamesFit (registration.names (nameOf cli.cells)) (registration.modes (modeOf cli.cells)) level
  | unregister command =>
      ∀ level ∈ ((unregister command).reshape cli forest).lists,
        (entries cli.cells).Fits Spoken level

def nameMachine : Machine CliDef NameCall where
  Initial cli := cli = .empty
  next cli call := if call.Legal cli then call.perform cli else none

section Calls

variable {cli : CliDef} {forest : Forest Ptr}

theorem siblingList_eq {cells : Cells Command} {context : Forest.Context Ptr} {part : Forest Ptr}
    (fuel : Nat) (shows : Shows cells (context.fill part)) (distinct : (context.fill part).ptrs.Nodup)
    (enough : part.roots.length ≤ fuel) : siblingList cells fuel part.head? = part.roots := by
  induction part generalizing context fuel with
  | nil => cases fuel <;> rfl
  | node p children next _ ih =>
      rcases shows.at_ distinct with ⟨node, there, later, _⟩
      cases fuel with
      | zero => exact absurd enough (Nat.not_succ_le_zero _)
      | succ fuel =>
          have moved : (context.comp (.after p children .hole)).fill next =
              context.fill (.node p children next) := Forest.Context.fill_comp ..
          rw [← moved] at shows distinct
          rw [Forest.head?, siblingList, there, Option.elim_some, later,
            ih fuel shows distinct (Nat.le_of_succ_le_succ enough), Forest.roots]

theorem listUnder_eq (represents : Represents cli forest) {parent : Option Ptr}
    (live : ∀ owner ∈ parent, owner ∈ forest.ptrs) :
    listUnder cli parent = (forest.listOf parent).roots := by
  have shows := represents.cells
  have distinct := represents.distinct
  rw [listUnder]
  cases parent with
  | none =>
      rw [Option.elim_none, represents.root]
      have whole : Shows cli.cells (Forest.Context.hole.fill forest) := shows
      exact siblingList_eq _ whole distinct (whole.fuel distinct)
  | some owner =>
      rcases Forest.exists_fill (live owner rfl) with ⟨context, kids, next, place⟩
      rw [place] at shows distinct
      rcases shows.at_ distinct with ⟨node, there, _, first, _⟩
      have inside : (context.comp (.under owner .hole next)).fill kids =
          context.fill (.node owner kids next) := Forest.Context.fill_comp ..
      have own : forest.listOf (some owner) = kids := by
        rw [place, Forest.listOf, Option.elim_some, Forest.Context.kidsOf_fill distinct]
      rw [← inside] at shows distinct
      rw [Option.elim_some, there, Option.bind_some, first, own]
      exact siblingList_eq _ shows distinct (shows.fuel distinct)

theorem Distinct.of_names {name others : Ptr → List Byte} (distinct : Distinct name forest)
    (same : ∀ p ∈ forest.ptrs, others p = name p) : Distinct others forest := by
  intro level listed c member d other equal
  rw [same c (Forest.mem_of_mem_lists listed member), same d (Forest.mem_of_mem_lists listed other)] at equal
  exact distinct level listed c member d other equal

theorem Distinct.remove {name : Ptr → List Byte} (distinct : Distinct name forest) (q : Ptr) :
    Distinct name (forest.remove q) := by
  intro level listed c member d other equal
  rcases Forest.lists_remove listed with ⟨old, before, part⟩
  exact distinct old before c (part.subset member) d (part.subset other) equal

/-- A new name that is not that of a sibling keeps the names different. -/
theorem Distinct.add {name others : Ptr → List Byte} (distinct : Distinct name forest)
    (nodup : forest.ptrs.Nodup) {parent : Option Ptr} {new : Ptr}
    (same : ∀ p ∈ forest.ptrs, others p = name p) (live : ∀ owner ∈ parent, owner ∈ forest.ptrs)
    (fresh : ∀ p ∈ (forest.listOf parent).roots, fold (others p) ≠ fold (others new)) :
    Distinct others (forest.add parent new) := by
  have before := distinct.of_names same
  have list := Forest.listOf_mem_lists live
  intro level listed c member d other equal
  rcases Forest.lists_add nodup listed with old | none_ | grown
  · exact before level old c member d other equal
  · rw [none_] at member
    cases member
  · rw [grown, List.mem_append, List.mem_singleton] at member other
    rcases member with first | rfl
    · rcases other with second | rfl
      · exact before _ list c first d second equal
      · exact absurd equal (fresh c first)
    · rcases other with second | rfl
      · exact absurd equal.symm (fresh d second)
      · rfl

/-- The tree, the menu and the names. -/
structure Kept (cli : CliDef) (forest : Forest Ptr) : Prop where
  represents : Represents cli forest
  menu : OnMenu cli forest
  distinct : Distinct (nameOf cli.cells) forest

theorem Kept.registered (kept : Kept cli forest) (registration : Registration)
    (live : ∀ owner ∈ registration.parent, owner ∈ forest.ptrs)
    (unused : ∀ c ∈ registration.memory, cli.cells.Unused c)
    (other : registration.new ≠ none → ∀ name ∈ registration.command,
      ∀ p ∈ listUnder cli registration.parent, fold (nameOf cli.cells p) ≠ fold name.val) :
    Distinct (registration.names (nameOf cli.cells))
      (registration.new.elim forest (forest.add registration.parent)) := by
  cases new : registration.new with
  | none =>
      apply kept.distinct.of_names
      intro p _
      rw [Registration.names, new, if_neg (Option.some_ne_none p).symm]
  | some c =>
      rcases Option.bind_eq_some_iff.mp new with ⟨name, command, memory⟩
      have absent : c ∉ forest.ptrs :=
        mt kept.represents.cells.read_iff.mpr (not_not.mpr (unused c memory).1)
      have same : ∀ p ∈ forest.ptrs, registration.names (nameOf cli.cells) p = nameOf cli.cells p := by
        intro p member
        have apart : ¬ some c = some p := fun same => absent (Option.some.inj same ▸ member)
        rw [Registration.names, new, if_neg apart]
      apply kept.distinct.add kept.represents.distinct same live
      intro p member
      have inside := Forest.mem_of_mem_lists (Forest.listOf_mem_lists live) member
      have named : registration.names (nameOf cli.cells) c = name.val := by
        rw [Registration.names, new, if_pos rfl, command, Option.elim_some]
      rw [← listUnder_eq kept.represents live] at member
      rw [same p inside, named]
      exact other (new ▸ Option.some_ne_none c) name command p member

/-- A call that is legal is performed, and leaves the words right exactly when it fits. -/
theorem NameCall.perform_spec (kept : Kept cli forest) (call : NameCall) (legal : call.Legal cli) :
    ∃ after, call.perform cli = some after ∧ Kept after (call.reshape cli forest) ∧
      (Resolves after (call.reshape cli forest) ↔ call.Fits cli forest) := by
  have represents := kept.represents
  cases call with
  | register registration =>
      rcases legal with ⟨live, unused, other⟩
      have owners : ∀ owner ∈ registration.parent, owner ∈ forest.ptrs := by
        intro owner given
        exact represents.cells.read_iff.mp (live owner given)
      rcases cliRegisterCommand_built represents kept.menu registration owners unused with
        ⟨after, grown, ran, shape, tree, current, built⟩
      have names : Distinct (nameOf after.cells) grown := by
        have registered : Distinct (registration.names (nameOf cli.cells)) grown := by
          rw [shape]
          exact kept.registered registration owners unused other
        exact registered.of_names (fun p member => (built p member).1)
      refine ⟨after, ?_, ?_, ?_⟩
      · rw [NameCall.perform, ran, Option.map_some]
      · rw [NameCall.reshape, ← shape]
        exact ⟨tree, current, names⟩
      · rw [NameCall.Fits, NameCall.reshape, ← shape, resolves_iff tree names]
        apply forall₂_congr
        intro level listed
        have inside {p : Ptr} (member : p ∈ level) : p ∈ grown.ptrs :=
          Forest.mem_of_mem_lists listed member
        rw [fits_iff_namesFit (by
          intro c member
          rw [(built c (inside member)).2.2, Forest.siblings_eq tree.distinct listed member])]
        constructor
        · intro fit
          exact fit.congr (fun p member => (built p (inside member)).1.symm)
            (fun p member => (built p (inside member)).2.1.symm)
        · intro fit
          exact fit.congr (fun p member => (built p (inside member)).1)
            (fun p member => (built p (inside member)).2.1)
  | unregister command =>
      rcases cliUnregisterCommand_spec represents kept.menu command with
        ⟨after, rc, ran, tree, current, faced⟩
      have live {p : Ptr} (member : p ∈ (unregistered cli forest command).ptrs) :
          after.cells.read p ≠ none := tree.cells.read_iff.mpr member
      have names : Distinct (nameOf after.cells) (unregistered cli forest command) := by
        have fewer : Distinct (nameOf cli.cells) (unregistered cli forest command) := by
          rw [unregistered]
          cases (lastLine forest []).find? (fun p => decide (nameOf cli.cells p = command.val)) with
          | none => exact kept.distinct
          | some c => exact kept.distinct.remove c
        exact fewer.of_names (fun p member => faced.nameOf (live member))
      refine ⟨after, ?_, ⟨tree, current, names⟩, ?_⟩
      · rw [NameCall.perform, ran, Option.map_some]
      · rw [NameCall.Fits, NameCall.reshape, resolves_iff tree names]
        apply forall₂_congr
        intro level listed
        have there {p : Ptr} (member : p ∈ level) : after.cells.read p ≠ none :=
          live (Forest.mem_of_mem_lists listed member)
        have name (p : Ptr) (member : p ∈ level) :
            (entries after.cells).name p = (entries cli.cells).name p :=
          congrArg fold (faced.nameOf (there member))
        have kind (p : Ptr) (member : p ∈ level) :
            (entries after.cells).kind p = (entries cli.cells).kind p := faced.modeOf (there member)
        have needs (p : Ptr) (member : p ∈ level) :
            (entries after.cells).needs p = (entries cli.cells).needs p :=
          faced.uniqueLenOf (there member)
        constructor
        · intro fit
          exact fit.congr (fun p member => (name p member).symm) (fun p member => (kind p member).symm)
            (fun p member => (needs p member).symm)
        · intro fit
          exact fit.congr name kind needs

end Calls

theorem nameMachine_next {before after : CliDef} {call : NameCall}
    (moved : nameMachine.next before call = some after) :
    call.Legal before ∧ call.perform before = some after := by
  by_cases legal : call.Legal before
  · exact ⟨legal, (if_pos legal).symm.trans moved⟩
  · have none_ : nameMachine.next before call = none := if_neg legal
    rw [none_] at moved
    cases moved

theorem reachable_kept {cli : CliDef} (reachable : nameMachine.Reachable cli) :
    ∃ forest, Kept cli forest := by
  apply Machine.Reachable.always _ _ cli reachable
  · rintro start rfl
    refine ⟨.nil, CliDef.empty_represents, CliDef.empty_onMenu, ?_⟩
    intro level listed c member
    rw [Forest.lists, Forest.innerLists, List.mem_singleton] at listed
    rw [listed] at member
    cases member
  · rintro before call after _ ⟨forest, kept⟩ moved
    rcases nameMachine_next moved with ⟨legal, performed⟩
    rcases call.perform_spec kept legal with ⟨result, ran, later, _⟩
    rw [performed] at ran
    cases ran
    exact ⟨_, later⟩

open Classical in
/-- In a state that is reached by calls that fit, each word selects what it means; and from a
reachable state a call leaves the words right exactly when it fits. -/
theorem abbreviations_resolve (cli : CliDef) :
    ((nameMachine.restrict fun before call =>
        ∀ forest, Represents before forest → call.Fits before forest).Reachable cli →
      ∃ forest, Represents cli forest ∧ Resolves cli forest) ∧
    (nameMachine.Reachable cli → ∃ forest, Represents cli forest ∧
      ∀ call, call.Legal cli → ∃ after, nameMachine.next cli call = some after ∧
        Represents after (call.reshape cli forest) ∧
        (Resolves after (call.reshape cli forest) ↔ call.Fits cli forest)) := by
  constructor
  · intro reachable
    cases reachable with
    | initial start =>
        rcases start with rfl
        refine ⟨.nil, CliDef.empty_represents, ?_⟩
        intro level listed mode word spoken c
        rw [Forest.lists, Forest.innerLists, List.mem_singleton] at listed
        subst listed
        constructor
        · intro selected
          cases selected
        · rintro ⟨none_, _⟩
          cases none_
    | step before moved =>
        rename_i earlier call
        rcases reachable_kept before.of_restrict with ⟨forest, kept⟩
        rcases Machine.restrict_next.mp moved with ⟨fits, stepped⟩
        rcases nameMachine_next stepped with ⟨legal, performed⟩
        rcases call.perform_spec kept legal with ⟨result, ran, later, exactly⟩
        rw [performed] at ran
        cases ran
        exact ⟨_, later.represents, exactly.mpr (fits forest kept.represents)⟩
  · intro reachable
    rcases reachable_kept reachable with ⟨forest, kept⟩
    refine ⟨forest, kept.represents, ?_⟩
    intro call legal
    rcases call.perform_spec kept legal with ⟨after, ran, later, exactly⟩
    exact ⟨after, (if_pos legal).trans ran, later.represents, exactly⟩

/-! ### Words that select the wrong command -/

def nameS : CString := ⟨[0x73], by decide⟩
def nameSa : CString := ⟨[0x73, 0x61], by decide⟩
def nameSt : CString := ⟨[0x73, 0x74], by decide⟩
def nameUpperSt : CString := ⟨[0x53, 0x74], by decide⟩

/-- `St` and `sa`: no letter is shared in its case. -/
def caseApart : CliDef where
  cells := [some ⟨nameUpperSt, .dummyCallback, 1, 0, some 1, none, none⟩,
    some ⟨nameSa, .dummyCallback, 1, 0, none, none, none⟩]
  commandsRoot := some 0
  commandsCurrent := some 0

/-- `sa` when `st` was unregistered. -/
def leftAlone : CliDef where
  cells := [some ⟨nameSa, .dummyCallback, 2, 0, none, none, none⟩, none]
  commandsRoot := some 0
  commandsCurrent := some 0

theorem nameS_spoken : nameS.Spoken := by
  constructor
  · decide
  · decide

/-- The word `s` runs `St` though it begins `sa` as well, and does not run `sa` though it begins
nothing else. -/
theorem abbreviations_wrong :
    (nameMachine.Reachable caseApart ∧ Represents caseApart (.node 0 .nil (.node 1 .nil .nil)) ∧
      ¬ Resolves caseApart (.node 0 .nil (.node 1 .nil .nil))) ∧
    nameMachine.Reachable leftAlone ∧ Represents leftAlone (.node 0 .nil .nil) ∧
      ¬ Resolves leftAlone (.node 0 .nil .nil) := by
  have both : nameMachine.run .empty [.register ⟨none, some nameUpperSt, none, 0, some 0⟩,
      .register ⟨none, some nameSa, none, 0, some 1⟩] = some caseApart := by decide +kernel
  have one : nameMachine.run .empty [.register ⟨none, some nameSa, none, 0, some 0⟩,
      .register ⟨none, some nameSt, none, 0, some 1⟩, .unregister nameSt] = some leftAlone := by
    decide +kernel
  refine ⟨⟨Machine.reachable_of_run (.initial rfl) both, ?_, ?_⟩,
    Machine.reachable_of_run (.initial rfl) one, ?_, ?_⟩
  · exact ⟨shows_of_lt (by decide) (by decide), rfl, by decide⟩
  · intro resolves
    have selected : selectCommand caseApart.cells 0 nameS.val caseApart.cells.length (some 0) =
        some (some 0) := by decide +kernel
    have meant := ((resolves [0, 1] List.mem_cons_self 0 nameS nameS_spoken 0).mp selected).2.2.2
    rcases meant with whole | only
    · exact absurd whole (by decide +kernel)
    · exact only 1 (by decide) (by decide) (by decide +kernel)
  · exact ⟨shows_of_lt (by decide) (by decide), rfl, by decide⟩
  · intro resolves
    have nothing : selectCommand leftAlone.cells 0 nameS.val leftAlone.cells.length (some 0) =
        some none := by decide +kernel
    have means : (entries leftAlone.cells).Means [0] (fold nameS.val) 0 := by
      refine ⟨by decide +kernel, .inr ?_⟩
      intro p member other
      exact absurd (List.mem_singleton.mp member) other
    have selected := (resolves [0] List.mem_cons_self 0 nameS nameS_spoken 0).mpr
      ⟨List.mem_singleton_self 0, rfl, means⟩
    have same := nothing.symm.trans selected
    cases same

def single : CliDef where
  cells := [some ⟨nameSa, .dummyCallback, 1, 0, none, none, none⟩]
  commandsRoot := some 0
  commandsCurrent := some 0

open Classical in
theorem abbreviations_resolve_single : ∃ forest, Represents single forest ∧ Resolves single forest := by
  apply (abbreviations_resolve single).1
  have moved : nameMachine.next .empty (.register ⟨none, some nameSa, none, 0, some 0⟩) = some single := by
    decide +kernel
  refine .step (.initial rfl) (Machine.restrict_next.mpr ⟨?_, moved⟩)
  intro forest represents
  have empty : forest = .nil := head?_eq_none.mp represents.root.symm
  subst empty
  intro level listed c member word _ _ _
  rintro ⟨p, inside, different, _⟩
  have small : ∀ own ∈ (Forest.node 0 .nil .nil).lists, ∀ q ∈ own, q = 0 := by decide
  exact absurd ((small level listed p inside).trans (small level listed c member).symm) different

end Alisl.Cli
