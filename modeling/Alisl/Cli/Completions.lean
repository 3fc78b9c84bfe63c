import Alisl.Cli.Abbreviation
import Alisl.Cli.ParseLine

/-! Completing a line: `cli_get_completions`, and what the completed line runs. -/

namespace Alisl.Cli

open Alisl.Base
open Alisl.Base.Forest (Context)

/-- A copied word as the string it is. -/
def cstring (word : List Byte) : CString := ⟨textOf word, textOf_noNul word⟩

/-- What the loops ask of a command for a word; the first asks for no mode, and for a word that is
NULL every name will do. -/
def beginsWith (mode : Option Nat) (node : Command) (word : Option CString) : Bool :=
  mode.all (fun mode => decide (node.mode = mode)) &&
    word.all (fun word => strncasecmpZero node.command.val word.val word.val.length)

/-- A loop of `cli_get_completions` with the words from `i` on. -/
def completionsLoop (cells : Cells Command) (mode : Option Nat) (maxCompletions : Nat) :
    Nat → Option Ptr → List (Option CString) → List CString → Option (List CString)
  | _, none, _, completions => some completions
  | 0, some _, _, _ => none
  | _ + 1, some _, [], completions => some completions
  | fuel + 1, some c, word :: words, completions =>
      if maxCompletions ≤ completions.length then some completions
      else
        (cells.read c).bind (fun node =>
          if beginsWith mode node word = false then
            completionsLoop cells mode maxCompletions fuel node.next (word :: words) completions
          else if words ≠ [] then
            word.bind (fun word =>
              if word.val.length < node.uniqueLen then
                completionsLoop cells mode maxCompletions fuel node.next (some word :: words) completions
              else completionsLoop cells mode maxCompletions fuel node.children words completions)
          else
            completionsLoop cells mode maxCompletions fuel node.next [word]
              (completions ++ [node.command]))

/-- The words of the line; a space at its end asks for any next word. -/
def wordSlots (command : List Byte) (words : List (List Byte)) : List (Option CString) :=
  words.map (fun word => some (cstring word)) ++
    if command = [] ∨ command.getLast? = some 0x20 then [none] else []

/-- The commands' names that complete a line; every copy of a word gets memory. -/
def cliGetCompletions (cli : CliDef) (command : List Byte) (maxCompletions : Nat) :
    Option (List CString) :=
  (cliParseLine (fun _ => true) 128 (command.dropWhile isSpace)).bind (fun words =>
    (completionsLoop cli.cells none maxCompletions cli.cells.length cli.commandsCurrent
        (wordSlots (command.dropWhile isSpace) words) []).bind (fun completions =>
      if cli.commandsCurrent ≠ cli.commandsRoot then
        completionsLoop cli.cells (some cliCmdModeAll) maxCompletions cli.cells.length
          cli.commandsRoot (wordSlots (command.dropWhile isSpace) words) completions
      else some completions))

/-! ### The loop over a tree -/

def askedOf (cells : Cells Command) (mode : Option Nat) (word : Option CString) (c : Ptr) : Bool :=
  (cells.read c).elim false (fun node => beginsWith mode node word)

/-- Whether the loop goes on below a command. -/
def entered (cells : Cells Command) (mode : Option Nat) (word : CString) (c : Ptr) : Bool :=
  askedOf cells mode (some word) c && decide (uniqueLenOf cells c ≤ word.val.length)

/-- The commands that are offered from a list on. -/
def offers (cells : Cells Command) (mode : Option Nat) : Forest Ptr → List (Option CString) → List Ptr
  | .nil, _ => []
  | .node _ _ _, [] => []
  | .node c _ next, [word] =>
      if askedOf cells mode word c then c :: offers cells mode next [word]
      else offers cells mode next [word]
  | .node c children next, word :: further :: words =>
      if word.any (fun word => entered cells mode word c) then
        offers cells mode children (further :: words)
      else offers cells mode next (word :: further :: words)

def commandOf (cells : Cells Command) (c : Ptr) : CString :=
  (cells.read c).elim ⟨[], List.not_mem_nil⟩ Command.command

theorem commandOf_val (cells : Cells Command) (c : Ptr) : (commandOf cells c).val = nameOf cells c := by
  rw [commandOf, nameOf]
  cases cells.read c with
  | none => rfl
  | some node => rfl

/-- Only the last word may be missing. -/
def Filled : List (Option CString) → Prop
  | [] => True
  | [_] => True
  | word :: further :: words => word ≠ none ∧ Filled (further :: words)

section Loop

variable {cells : Cells Command} {mode : Option Nat} {maxCompletions : Nat}

/-- The loop stops when no more may be offered. -/
theorem completionsLoop_full {fuel : Nat} {c : Option Ptr} {words : List (Option CString)}
    {completions : List CString} (full : maxCompletions ≤ completions.length) :
    completionsLoop cells mode maxCompletions (fuel + 1) c words completions = some completions := by
  cases c with
  | none => rfl
  | some c =>
      cases words with
      | nil => rfl
      | cons word words => rw [completionsLoop, if_pos full]

theorem completionsLoop_eq {context : Context Ptr} {part : Forest Ptr} (fuel : Nat)
    (shows : Shows cells (context.fill part)) (distinct : (context.fill part).ptrs.Nodup)
    (enough : part.ptrs.length ≤ fuel) (words : List (Option CString)) (filled : Filled words)
    (completions : List CString) (within : completions.length ≤ maxCompletions) :
    completionsLoop cells mode maxCompletions fuel part.head? words completions =
      some ((completions ++ (offers cells mode part words).map (commandOf cells)).take
        maxCompletions) := by
  induction part generalizing context fuel words completions with
  | nil =>
      rw [Forest.head?, offers, List.map_nil, List.append_nil, List.take_of_length_le within]
      cases fuel <;> rfl
  | node c children next childrenIh nextIh =>
      rcases shows.at_ distinct with ⟨node, there, later, first, _⟩
      rw [Forest.ptrs, List.length_cons, List.length_append] at enough
      obtain ⟨less, rfl⟩ := Nat.exists_eq_add_of_le' (Nat.le_trans (Nat.le_add_left 1 _) enough)
      have behind : (context.comp (.after c children .hole)).fill next =
          context.fill (.node c children next) := Context.fill_comp ..
      have below : (context.comp (.under c .hole next)).fill children =
          context.fill (.node c children next) := Context.fill_comp ..
      have nexts := nextIh less (behind ▸ shows) (behind ▸ distinct) (by omega)
      have kids := childrenIh less (below ▸ shows) (below ▸ distinct) (by omega)
      by_cases full : maxCompletions ≤ completions.length
      · have same : completions.length = maxCompletions := Nat.le_antisymm within full
        rw [completionsLoop_full full, ← same, List.take_left]
      have asked (word : Option CString) : askedOf cells mode word c = beginsWith mode node word := by
        rw [askedOf, there, Option.elim_some]
      have needs : uniqueLenOf cells c = node.uniqueLen := by
        rw [uniqueLenOf, there, Option.elim_some]
      cases words with
      | nil =>
          rw [Forest.head?, completionsLoop, offers, List.map_nil, List.append_nil,
            List.take_of_length_le within]
      | cons word words =>
          rw [Forest.head?, completionsLoop, if_neg full, there, Option.bind_some, later, first]
          cases words with
          | nil =>
              rw [offers, asked]
              cases begins : beginsWith mode node word with
              | false =>
                  rw [if_pos rfl, if_neg Bool.false_ne_true]
                  exact nexts _ filled completions within
              | true =>
                  have name : commandOf cells c = node.command := by
                    rw [commandOf, there, Option.elim_some]
                  rw [if_neg (by decide), if_neg (not_not.mpr rfl), if_pos rfl,
                    List.map_cons, name,
                    List.append_cons completions node.command (List.map _ _)]
                  apply nexts _ filled
                  rw [List.length_append, List.length_singleton]
                  omega
          | cons further words =>
              obtain ⟨word, rfl⟩ := Option.ne_none_iff_exists'.mp filled.1
              rw [offers, Option.any_some, entered, asked, needs, if_pos (List.cons_ne_nil _ _),
                Option.bind_some]
              cases begins : beginsWith mode node (some word) with
              | false =>
                  rw [if_pos rfl, Bool.false_and, if_neg Bool.false_ne_true]
                  exact nexts _ filled completions within
              | true =>
                  rw [if_neg (by decide), Bool.true_and]
                  by_cases few : word.val.length < node.uniqueLen
                  · rw [if_pos few, decide_eq_false (Nat.not_le.mpr few), if_neg Bool.false_ne_true]
                    exact nexts _ filled completions within
                  · rw [if_neg few, decide_eq_true (Nat.not_lt.mp few), if_pos rfl]
                    exact kids _ filled.2 completions within

end Loop

/-! ### Names that can be typed, and lengths that tell them apart -/

/-- A name without capital letters and question marks. -/
def Plain (name : List Byte) : Prop := name ≠ [] ∧ fold name = name ∧ 0x3f ∉ name

instance (name : List Byte) : Decidable (Plain name) := inferInstanceAs (Decidable (_ ∧ _ ∧ _))

/-- A registered name is plain and not that of a sibling. -/
def Call.Tidy (cli : CliDef) : Call → Prop
  | register registration =>
      ∀ name ∈ registration.command, Plain name.val ∧
        ∀ p ∈ listUnder cli registration.parent, fold (nameOf cli.cells p) ≠ fold name.val
  | delete _ => True
  | run _ _ => True

instance (cli : CliDef) (call : Call) : Decidable (call.Tidy cli) :=
  match call with
  | .register registration =>
      inferInstanceAs (Decidable (∀ name ∈ registration.command, Plain name.val ∧
        ∀ p ∈ listUnder cli registration.parent, fold (nameOf cli.cells p) ≠ fold name.val))
  | .delete _ => inferInstanceAs (Decidable True)
  | .run _ _ => inferInstanceAs (Decidable True)

def tidyMachine : Machine CliDef Call := machine.restrict (fun cli call => call.Tidy cli)

/-- Only deleting can leave a length longer than the names need. -/
structure Orderly (cli : CliDef) (forest : Forest Ptr) : Prop where
  kept : Kept cli forest
  plain : ∀ level ∈ forest.lists, ∀ c ∈ level, Plain (nameOf cli.cells c)
  lengths : ∀ level ∈ forest.lists, ∀ c ∈ level,
    shortest (nameOf cli.cells) level c ≤ uniqueLenOf cli.cells c

/-- Fewer siblings need no more letters. -/
theorem shortest_sublist {name : Ptr → List Byte} {level old : List Ptr} (part : level.Sublist old)
    (c : Ptr) : shortest name level c ≤ shortest name old c := by
  have own := (shortest_le_iff name old c _).mp (Nat.le_refl _)
  rw [shortest_le_iff]
  exact ⟨own.1, fun p member => own.2 p (part.subset member)⟩

theorem shortest_congr {name others : Ptr → List Byte} {level : List Ptr}
    (same : ∀ p ∈ level, others p = name p) {c : Ptr} (member : c ∈ level) :
    shortest others level c ≤ shortest name level c := by
  have own := (shortest_le_iff name level c _).mp (Nat.le_refl _)
  rw [shortest_le_iff, same c member]
  refine ⟨own.1, ?_⟩
  intro p inside
  rw [same p inside]
  exact own.2 p inside

theorem CliDef.empty_orderly : Orderly .empty .nil where
  kept := by
    refine ⟨CliDef.empty_represents, CliDef.empty_onMenu, ?_⟩
    intro level listed c member
    rw [Forest.lists, Forest.innerLists, List.mem_singleton] at listed
    rw [listed] at member
    cases member
  plain := by
    intro level listed c member
    rw [Forest.lists, Forest.innerLists, List.mem_singleton] at listed
    rw [listed] at member
    cases member
  lengths := by
    intro level listed c member
    rw [Forest.lists, Forest.innerLists, List.mem_singleton] at listed
    rw [listed] at member
    cases member

section Calls

variable {cli after : CliDef} {forest : Forest Ptr}

/-- A registration names plainly and builds all lengths again. -/
theorem Orderly.register (orderly : Orderly cli forest) (registration : Registration)
    (live : ∀ owner ∈ registration.parent, cli.cells.read owner ≠ none)
    (unused : ∀ c ∈ registration.memory, cli.cells.Unused c)
    (tidy : (Call.register registration).Tidy cli)
    (ran : (Call.register registration).perform cli = some after) :
    ∃ grown, Orderly after grown := by
  have represents := orderly.kept.represents
  have owners : ∀ owner ∈ registration.parent, owner ∈ forest.ptrs := by
    intro owner given
    exact represents.cells.read_iff.mp (live owner given)
  obtain ⟨result, grown, registered, shape, tree, current, built⟩ :=
    cliRegisterCommand_built represents orderly.kept.menu registration owners unused
  rw [Call.perform, registered, Option.map_some] at ran
  cases ran
  have inside {level : List Ptr} (listed : level ∈ grown.lists) {p : Ptr} (member : p ∈ level) :
      p ∈ grown.ptrs := Forest.mem_of_mem_lists listed member
  have names : Distinct (registration.names (nameOf cli.cells)) grown := by
    rw [shape]
    exact orderly.kept.registered registration owners unused
      (fun _ name command => (tidy name command).2)
  refine ⟨grown, ⟨tree, current, ?_⟩, ?_, ?_⟩
  · exact names.of_names (fun p member => (built p member).1)
  · intro level listed c member
    rw [(built c (inside listed member)).1, Registration.names]
    cases new : registration.new with
    | none =>
        rw [shape, new, Option.elim_none] at listed
        rw [if_neg (Option.some_ne_none c).symm]
        exact orderly.plain level listed c member
    | some fresh =>
        obtain ⟨name, command, _⟩ := Option.bind_eq_some_iff.mp new
        by_cases self : some fresh = some c
        · rw [if_pos self, command, Option.elim_some]
          exact (tidy name command).1
        · rw [if_neg self]
          rw [shape, new, Option.elim_some] at listed
          rcases Forest.lists_add represents.distinct listed with old | none_ | added
          · exact orderly.plain level old c member
          · rw [none_] at member
            cases member
          · rw [added, List.mem_append, List.mem_singleton] at member
            rcases member with old | same
            · exact orderly.plain _ (Forest.listOf_mem_lists owners) c old
            · exact absurd (congrArg some same.symm) self
  · intro level listed c member
    rw [(built c (inside listed member)).2.2, Forest.siblings_eq tree.distinct listed member]

theorem Orderly.delete (orderly : Orderly cli forest) {cmd : Ptr} (live : cli.cells.read cmd ≠ none)
    (ran : (Call.delete cmd).perform cli = some after) : Orderly after (forest.remove cmd) := by
  have represents := orderly.kept.represents
  obtain ⟨result, deleted, tree, current⟩ :=
    cliDeleteCommand_spec represents orderly.kept.menu (represents.cells.read_iff.mp live)
  have same : result = after := Option.some.inj (deleted.symm.trans ran)
  subst same
  have faced := cliDeleteCommand_faced deleted
  have there {level : List Ptr} (listed : level ∈ (forest.remove cmd).lists) {p : Ptr}
      (member : p ∈ level) : result.cells.read p ≠ none :=
    tree.cells.read_iff.mpr (Forest.mem_of_mem_lists listed member)
  refine ⟨⟨tree, current, ?_⟩, ?_, ?_⟩
  · apply (orderly.kept.distinct.remove cmd).of_names
    intro p member
    exact faced.nameOf (tree.cells.read_iff.mpr member)
  · intro level listed c member
    obtain ⟨old, before, part⟩ := Forest.lists_remove listed
    rw [faced.nameOf (there listed member)]
    exact orderly.plain old before c (part.subset member)
  · intro level listed c member
    obtain ⟨old, before, part⟩ := Forest.lists_remove listed
    rw [faced.uniqueLenOf (there listed member)]
    calc shortest (nameOf result.cells) level c
        ≤ shortest (nameOf cli.cells) level c :=
          shortest_congr (fun p inside => faced.nameOf (there listed inside)) member
      _ ≤ shortest (nameOf cli.cells) old c := shortest_sublist part c
      _ ≤ uniqueLenOf cli.cells c := orderly.lengths old before c (part.subset member)

theorem Orderly.run (orderly : Orderly cli forest) (answers : Ptr → Int) (words : List CString)
    (spoken : ∀ word ∈ words, word.val ≠ []) (ran : (Call.run answers words).perform cli = some after) :
    Orderly after forest := by
  obtain ⟨result, rc, called, moved⟩ :=
    cliRunCommand_spec orderly.kept.represents orderly.kept.menu answers words spoken
  rw [Call.perform, called, Option.map_some] at ran
  cases ran
  refine ⟨⟨moved.represents orderly.kept.represents, moved.menu, ?_⟩, ?_, ?_⟩
  · rw [moved.cells]
    exact orderly.kept.distinct
  · rw [moved.cells]
    exact orderly.plain
  · rw [moved.cells]
    exact orderly.lengths

end Calls

theorem reachable_orderly {cli : CliDef} (reachable : tidyMachine.Reachable cli) :
    ∃ forest, Orderly cli forest := by
  apply Machine.Reachable.always _ _ cli reachable
  · rintro start rfl
    exact ⟨.nil, CliDef.empty_orderly⟩
  · rintro before call after _ ⟨forest, orderly⟩ moved
    obtain ⟨tidy, stepped⟩ := Machine.restrict_next.mp moved
    by_cases legal : call.Legal before
    · have performed : call.perform before = some after := (if_pos legal).symm.trans stepped
      cases call with
      | register registration =>
          exact orderly.register registration legal.1 legal.2 tidy performed
      | delete cmd => exact ⟨_, orderly.delete legal performed⟩
      | run answers words => exact ⟨forest, orderly.run answers words legal performed⟩
    · have none_ : machine.next before call = none := if_neg legal
      rw [none_] at stepped
      cases stepped

/-! ### What is offered -/

/-- The command begins with the word, and is of the mode that is asked for. -/
def Begins (cells : Cells Command) (mode : Option Nat) (word : Option CString) (c : Ptr) : Prop :=
  (∀ kind ∈ mode, modeOf cells c = kind) ∧
    ∀ typed ∈ word, fold typed.val <+: fold (nameOf cells c)

/-- The words lead from the list under a command to a command: each but the last is an abbreviation
that is long enough for a command on the way, and the last begins the name. -/
inductive Led (cli : CliDef) (mode : Option Nat) : Option Ptr → List (Option CString) → Ptr → Prop where
  | last {parent : Option Ptr} {word : Option CString} {c : Ptr} (listed : c ∈ listUnder cli parent)
      (begins : Begins cli.cells mode word c) : Led cli mode parent [word] c
  | under {parent : Option Ptr} {word : CString} {words : List (Option CString)} {d c : Ptr}
      (listed : d ∈ listUnder cli parent) (begins : Begins cli.cells mode (some word) d)
      (long : uniqueLenOf cli.cells d ≤ word.val.length) (some_ : words ≠ [])
      (rest : Led cli mode (some d) words c) : Led cli mode parent (some word :: words) c

theorem askedOf_iff {cells : Cells Command} {c : Ptr} (live : cells.read c ≠ none) (mode : Option Nat)
    (word : Option CString) : askedOf cells mode word c = true ↔ Begins cells mode word c := by
  obtain ⟨node, there⟩ := Option.ne_none_iff_exists'.mp live
  have name : nameOf cells c = node.command.val := by rw [nameOf, there, Option.elim_some]
  have kind : modeOf cells c = node.mode := by rw [modeOf, there, Option.elim_some]
  rw [askedOf, there, Option.elim_some, beginsWith, Bool.and_eq_true, Begins, name, kind]
  apply and_congr
  · cases mode with
    | none => exact ⟨fun _ kind none_ => absurd none_ (Option.not_mem_none kind), fun _ => rfl⟩
    | some mode =>
        rw [Option.all_some, decide_eq_true_iff]
        constructor
        · intro same kind asked
          rw [same]
          exact Option.mem_some_iff.mp asked
        · intro all
          exact all mode rfl
  · cases word with
    | none => exact ⟨fun _ typed none_ => absurd none_ (Option.not_mem_none typed), fun _ => rfl⟩
    | some word =>
        have length : (fold word.val).length = word.val.length := List.length_map ..
        rw [Option.all_some, strncasecmpZero_iff, ← length, List.take_length]
        constructor
        · intro same typed asked
          rw [← Option.mem_some_iff.mp asked, List.prefix_iff_eq_take]
          exact same.symm
        · intro all
          exact (List.prefix_iff_eq_take.mp (all word rfl)).symm

theorem offers_last (cells : Cells Command) (mode : Option Nat) (part : Forest Ptr)
    (word : Option CString) :
    offers cells mode part [word] = part.roots.filter (askedOf cells mode word) := by
  induction part with
  | nil => rfl
  | node c children next _ ih =>
      rw [offers, ih, Forest.roots, List.filter_cons]

/-- The loop goes below the first command that is entered, and does not come back. -/
theorem offers_under (cells : Cells Command) (mode : Option Nat) {part : Forest Ptr}
    (distinct : part.ptrs.Nodup) (word : CString) {words : List (Option CString)} (some_ : words ≠ []) :
    offers cells mode part (some word :: words) =
      (part.roots.find? (entered cells mode word)).elim []
        (fun d => offers cells mode (part.kidsOf d) words) := by
  obtain ⟨further, words, rfl⟩ := List.exists_cons_of_ne_nil some_
  induction part with
  | nil => rfl
  | node c children next _ ih =>
      rw [offers, Option.any_some, Forest.roots, List.find?_cons, ih (Forest.nodup_next distinct)]
      cases enters : entered cells mode word c with
      | true => rw [if_pos rfl, Option.elim_some, Forest.kidsOf, if_pos rfl]
      | false =>
          rw [if_neg Bool.false_ne_true]
          cases found : next.roots.find? (entered cells mode word) with
          | none => rfl
          | some d =>
              have behind : d ∈ next.ptrs :=
                Forest.mem_of_mem_roots (List.mem_of_find?_eq_some found)
              have outside : d ∉ children.ptrs := fun inside => Forest.notMem_next distinct inside behind
              rw [Option.elim_some, Option.elim_some, Forest.kidsOf,
                if_neg (Forest.ne_of_mem_next distinct behind).symm, if_neg outside]

section Orderly

variable {cli : CliDef} {forest : Forest Ptr}

/-- A long abbreviation of a command begins no sibling. -/
theorem Orderly.only (orderly : Orderly cli forest) {level : List Ptr} (listed : level ∈ forest.lists)
    {c p : Ptr} (member : c ∈ level) (inside : p ∈ level) {word : List Byte}
    (begins : fold word <+: fold (nameOf cli.cells c))
    (long : uniqueLenOf cli.cells c ≤ word.length)
    (also : fold word <+: fold (nameOf cli.cells p)) : p = c := by
  have enough := Nat.le_trans (orderly.lengths level listed c member) long
  have apart := ((shortest_le_iff _ level c _).mp enough).2 p inside
  by_contra other
  apply apart other
  have length : (fold word).length = word.length := List.length_map ..
  rw [(orderly.plain level listed c member).2.1] at begins
  rw [(orderly.plain level listed p inside).2.1] at also
  refine ⟨length ▸ begins.length_le, ?_⟩
  rw [← length, ← List.prefix_iff_eq_take.mp begins]
  exact also

/-- The matching loop selects what is named, or abbreviated at length. -/
theorem Orderly.selects (orderly : Orderly cli forest) {level : List Ptr} (listed : level ∈ forest.lists)
    {c : Ptr} (member : c ∈ level) {word : List Byte} (some_ : word ≠ [])
    (begins : fold word <+: fold (nameOf cli.cells c))
    (long : uniqueLenOf cli.cells c ≤ word.length ∨ fold (nameOf cli.cells c) = fold word) :
    selectCommand cli.cells (modeOf cli.cells c) word cli.cells.length level.head? = some (some c) := by
  have length : (fold word).length = word.length := List.length_map ..
  have taken : (entries cli.cells).Takes (modeOf cli.cells c) (fold word) c :=
    ⟨rfl, begins, length ▸ long⟩
  rw [selectCommand_level orderly.kept.represents listed _ some_, Option.some_inj]
  cases found : level.find? (fun p =>
      decide ((entries cli.cells).Takes (modeOf cli.cells c) (fold word) p)) with
  | none => exact absurd (decide_eq_true taken) (List.find?_eq_none.mp found c member)
  | some d =>
      have inside := List.mem_of_find?_eq_some found
      obtain ⟨_, prefix_, needs⟩ := Abbreviated.takes_of_found found
      have same : d = c := by
        rcases long with enough | whole
        · exact orderly.only listed member inside begins enough prefix_
        · rcases needs with enough | named
          · exact (orderly.only listed inside member prefix_ (length ▸ enough) begins).symm
          · exact orderly.kept.distinct level listed d inside c member (named.trans whole.symm)
      rw [same]

theorem Orderly.listUnder_mem (orderly : Orderly cli forest) {parent : Option Ptr} {c : Ptr}
    (listed : c ∈ listUnder cli parent) :
    (∀ owner ∈ parent, owner ∈ forest.ptrs) ∧ listUnder cli parent = (forest.listOf parent).roots ∧
      listUnder cli parent ∈ forest.lists ∧ c ∈ forest.ptrs := by
  have live : ∀ owner ∈ parent, owner ∈ forest.ptrs := by
    rintro owner rfl
    apply orderly.kept.represents.cells.read_iff.mp
    intro none_
    rw [listUnder, Option.elim_some, none_, Option.bind_none] at listed
    cases cells : cli.cells.length with
    | zero =>
        rw [cells, siblingList] at listed
        cases listed
    | succ length =>
        rw [cells, siblingList] at listed
        cases listed
  have same := listUnder_eq orderly.kept.represents live
  have level : listUnder cli parent ∈ forest.lists := by
    rw [same]
    exact Forest.listOf_mem_lists live
  exact ⟨live, same, level, Forest.mem_of_mem_lists level listed⟩

theorem Orderly.live (orderly : Orderly cli forest) {parent : Option Ptr} {c : Ptr}
    (listed : c ∈ listUnder cli parent) : cli.cells.read c ≠ none :=
  orderly.kept.represents.cells.read_iff.mpr (orderly.listUnder_mem listed).2.2.2

/-- The list below a command of a list. -/
theorem kidsOf_listOf (distinct : forest.ptrs.Nodup) {parent : Option Ptr}
    (live : ∀ owner ∈ parent, owner ∈ forest.ptrs) {d : Ptr} (member : d ∈ (forest.listOf parent).roots) :
    (forest.listOf parent).kidsOf d = forest.listOf (some d) := by
  cases parent with
  | none => rfl
  | some owner =>
      obtain ⟨context, kids, next, place⟩ := Forest.exists_fill (live owner rfl)
      have own : forest.listOf (some owner) = kids := by
        rw [place] at distinct ⊢
        rw [Forest.listOf, Option.elim_some, Forest.Context.kidsOf_fill distinct]
      have inside : forest = (context.comp (.under owner .hole next)).fill kids := by
        rw [place, Forest.Context.fill_comp]
        rfl
      rw [own] at member ⊢
      rw [Forest.listOf, Option.elim_some, inside]
      rw [inside] at distinct
      exact (Forest.Context.kidsOf_part distinct (Forest.mem_of_mem_roots member)).symm

theorem listOf_nodup (distinct : forest.ptrs.Nodup) {parent : Option Ptr}
    (live : ∀ owner ∈ parent, owner ∈ forest.ptrs) : (forest.listOf parent).ptrs.Nodup := by
  cases parent with
  | none => exact distinct
  | some owner =>
      obtain ⟨context, kids, next, place⟩ := Forest.exists_fill (live owner rfl)
      rw [place] at distinct ⊢
      rw [Forest.listOf, Option.elim_some, Forest.Context.kidsOf_fill distinct]
      exact Forest.nodup_children (Forest.Context.nodup_part distinct)

/-- The offers of a list are the commands that the words lead to. -/
theorem Orderly.mem_offers (orderly : Orderly cli forest) (mode : Option Nat) {parent : Option Ptr}
    (live : ∀ owner ∈ parent, owner ∈ forest.ptrs) (words : List (Option CString))
    (filled : Filled words) (c : Ptr) :
    c ∈ offers cli.cells mode (forest.listOf parent) words ↔ Led cli mode parent words c := by
  have distinct := orderly.kept.represents.distinct
  have same := listUnder_eq orderly.kept.represents live
  induction words generalizing parent with
  | nil =>
      constructor
      · intro offered
        have none_ : offers cli.cells mode (forest.listOf parent) [] = [] := by
          cases forest.listOf parent <;> rfl
        rw [none_] at offered
        cases offered
      · intro led
        cases led
  | cons word words ih =>
      by_cases some_ : words = []
      · subst some_
        rw [offers_last, List.mem_filter, ← same]
        constructor
        · rintro ⟨listed, asked⟩
          exact .last listed ((askedOf_iff (orderly.live listed) mode word).mp asked)
        · intro led
          cases led with
          | last listed begins =>
              exact ⟨listed, (askedOf_iff (orderly.live listed) mode word).mpr begins⟩
          | under _ _ _ none_ => exact absurd rfl none_
      · obtain ⟨further, others, rfl⟩ := List.exists_cons_of_ne_nil some_
        obtain ⟨word, rfl⟩ := Option.ne_none_iff_exists'.mp filled.1
        have deeper {d : Ptr} (listed : d ∈ listUnder cli parent) :
            ∀ owner ∈ some d, owner ∈ forest.ptrs := by
          intro owner given
          rw [← Option.mem_some_iff.mp given]
          exact (orderly.listUnder_mem listed).2.2.2
        have enters_iff {d : Ptr} (listed : d ∈ listUnder cli parent) :
            entered cli.cells mode word d = true ↔
              Begins cli.cells mode (some word) d ∧ uniqueLenOf cli.cells d ≤ word.val.length := by
          rw [entered, Bool.and_eq_true, askedOf_iff (orderly.live listed), decide_eq_true_iff]
        rw [offers_under cli.cells mode (listOf_nodup distinct live) word some_, ← same]
        constructor
        · intro offered
          cases found : (listUnder cli parent).find? (entered cli.cells mode word) with
          | none =>
              rw [found] at offered
              cases offered
          | some d =>
              have listed := List.mem_of_find?_eq_some found
              obtain ⟨begins, long⟩ := (enters_iff listed).mp (List.find?_some found)
              rw [found, Option.elim_some, kidsOf_listOf distinct live (same ▸ listed)] at offered
              exact .under listed begins long some_
                ((ih (deeper listed) filled.2 (listUnder_eq orderly.kept.represents (deeper listed))).mp
                  offered)
        · intro led
          cases led with
          | @under _ _ _ d _ listed begins long _ rest =>
              have found : (listUnder cli parent).find? (entered cli.cells mode word) = some d := by
                cases first : (listUnder cli parent).find? (entered cli.cells mode word) with
                | none =>
                    exact absurd ((enters_iff listed).mpr ⟨begins, long⟩)
                      (List.find?_eq_none.mp first d listed)
                | some p =>
                    have inside := List.mem_of_find?_eq_some first
                    obtain ⟨also, _⟩ := (enters_iff inside).mp (List.find?_some first)
                    rw [orderly.only (orderly.listUnder_mem listed).2.2.1 listed inside
                      (begins.2 word rfl) long (also.2 word rfl)]
              rw [found, Option.elim_some, kidsOf_listOf distinct live (same ▸ listed)]
              exact (ih (deeper listed) filled.2
                (listUnder_eq orderly.kept.represents (deeper listed))).mpr rest

/-- The menu is the list under some command, or the list of all. -/
theorem Orderly.menu (orderly : Orderly cli forest) :
    ∃ menu : Option Ptr, (∀ owner ∈ menu, owner ∈ forest.ptrs) ∧
      cli.commandsCurrent = (forest.listOf menu).head? := by
  have inner {part : Forest Ptr} {q : Ptr} (first : q ∈ part.inner) (distinct : part.ptrs.Nodup) :
      ∃ owner ∈ part.ptrs, (part.kidsOf owner).head? = some q := by
    induction part with
    | nil => cases first
    | node c children next childrenIh nextIh =>
        rw [Forest.inner, List.mem_append, List.mem_append, Option.mem_toList] at first
        rcases first with (head | deeper) | behind
        · exact ⟨c, List.mem_cons_self, by rw [Forest.kidsOf, if_pos rfl, head]⟩
        · obtain ⟨owner, member, kids⟩ := childrenIh deeper (Forest.nodup_children distinct)
          refine ⟨owner, List.mem_cons_of_mem _ (List.mem_append_left _ member), ?_⟩
          rw [Forest.kidsOf, if_neg (Forest.ne_of_mem_children distinct member).symm, if_pos member,
            kids]
        · obtain ⟨owner, member, kids⟩ := nextIh behind (Forest.nodup_next distinct)
          have outside : owner ∉ children.ptrs :=
            fun inside => Forest.notMem_next distinct inside member
          refine ⟨owner, List.mem_cons_of_mem _ (List.mem_append_right _ member), ?_⟩
          rw [Forest.kidsOf, if_neg (Forest.ne_of_mem_next distinct member).symm, if_neg outside, kids]
  have atRoot : ∀ owner ∈ (none : Option Ptr), owner ∈ forest.ptrs := by
    intro owner none_
    cases none_
  cases current : cli.commandsCurrent with
  | none =>
      rw [orderly.kept.menu.empty.mp current]
      refine ⟨none, ?_, rfl⟩
      intro owner none_
      cases none_
  | some q =>
      rcases orderly.kept.menu.first q current with head | deeper
      · exact ⟨none, atRoot, head.symm⟩
      · obtain ⟨owner, member, kids⟩ := inner deeper orderly.kept.represents.distinct
        refine ⟨some owner, ?_, kids.symm⟩
        intro other given
        rw [← Option.mem_some_iff.mp given]
        exact member

/-- The start of a plain name asks for no help. -/
theorem Plain.notHelp {name word : List Byte} (plain : Plain name) (begins : fold word <+: fold name) :
    word.getLast? ≠ some 0x3f := by
  intro last
  have member : (0x3f : Byte) ∈ fold word :=
    List.mem_map.mpr ⟨0x3f, List.mem_of_getLast? last, by decide⟩
  rw [plain.2.1] at begins
  exact plain.2.2 (begins.subset member)

theorem listUnder_head {d : Ptr} {node : Command} (there : cli.cells.read d = some node) :
    (listUnder cli (some d)).head? = node.children := by
  rw [listUnder, Option.elim_some, there, Option.bind_some]
  have room := Cells.read_lt there
  obtain ⟨less, length⟩ := Nat.exists_eq_add_of_lt room
  rw [length]
  cases node.children with
  | none => rfl
  | some first => rfl

theorem Led.some_ {mode : Option Nat} {parent : Option Ptr} {words : List (Option CString)} {c : Ptr}
    (led : Led cli mode parent words c) : listUnder cli parent ≠ [] := by
  cases led with
  | last listed _ => exact List.ne_nil_of_mem listed
  | under listed _ _ _ _ => exact List.ne_nil_of_mem listed

/-- What a completed line runs: the command it was completed to, unless that one rejects its
arguments. -/
theorem Orderly.runs (orderly : Orderly cli forest) (answers : Ptr → Int) {mode : Nat}
    {parent : Option Ptr} {words : List CString} {last : Option CString} {c : Ptr}
    (led : Led cli (some mode) parent (words.map some ++ [last]) c) {node : Command}
    (there : cli.cells.read c = some node) {after : CliDef} {rc : Int}
    (ran : runCommand answers cli c node = some (after, rc)) (takes : rc ≠ cliErrorArg) :
    cliFindCommand2 answers mode (words ++ [node.command]) cli (listUnder cli parent).head? =
      some (after, rc) := by
  have name : nameOf cli.cells c = node.command.val := by rw [nameOf, there, Option.elim_some]
  induction words generalizing parent with
  | nil =>
      cases led with
      | last listed begins =>
          obtain ⟨_, _, level, _⟩ := orderly.listUnder_mem listed
          have plain := orderly.plain _ level c listed
          rw [name] at plain
          have selected := orderly.selects level listed plain.1 (by rw [name]) (.inr (by rw [name]))
          rw [begins.1 mode rfl] at selected
          rw [List.nil_append, cliFindCommand2, if_neg plain.1,
            if_neg (plain.notHelp List.prefix_rfl), selected, Option.bind_some]
          simp only [there, Option.bind_some, or_true, if_true, ran]
      | under _ _ _ none_ => exact absurd rfl none_
  | cons word words ih =>
      rw [List.map_cons, List.cons_append] at led
      have further : words.map some ++ [last] ≠ [] := List.concat_ne_nil last _
      generalize words.map some ++ [last] = slots at led ih further
      cases led with
      | last listed begins => exact absurd rfl further
      | @under _ _ _ d _ listed begins long _ rest =>
          obtain ⟨_, _, level, member⟩ := orderly.listUnder_mem listed
          have plain := orderly.plain _ level d listed
          have prefix_ := begins.2 word rfl
          have some_ : word.val ≠ [] := by
            have letters := ((shortest_le_iff _ _ d _).mp (orderly.lengths _ level d listed)).1
            apply List.ne_nil_of_length_pos
            exact Nat.lt_of_lt_of_le letters long
          have selected := orderly.selects level listed some_ prefix_ (.inl long)
          rw [begins.1 mode rfl] at selected
          obtain ⟨above, read⟩ := Option.ne_none_iff_exists'.mp (orderly.live listed)
          have children := listUnder_head read
          have kids : above.children ≠ none := by
            rw [← children, Ne, List.head?_eq_none_iff]
            exact rest.some_
          have more : ¬ (above.children = none ∨ words ++ [node.command] = []) :=
            not_or.mpr ⟨kids, List.concat_ne_nil _ _⟩
          rw [List.cons_append, cliFindCommand2, if_neg some_, if_neg (plain.notHelp prefix_), selected,
            Option.bind_some]
          simp only [read, Option.bind_some, if_neg more]
          rw [← children, ih rest, Option.bind_some, if_neg takes]

end Orderly

/-! ### Whole lines -/

theorem filled_wordSlots (command : List Byte) (words : List (List Byte)) :
    Filled (wordSlots command words) := by
  have tail (front : List (List Byte)) (back : List (Option CString)) (short : back.length ≤ 1) :
      Filled (front.map (fun word => some (cstring word)) ++ back) := by
    induction front with
    | nil =>
        cases back with
        | nil => trivial
        | cons last back =>
            cases back with
            | nil => trivial
            | cons further back => exact absurd short (by simp)
    | cons word front ih =>
        rw [List.map_cons, List.cons_append]
        cases rest : front.map (fun word => some (cstring word)) ++ back with
        | nil => trivial
        | cons further others =>
            rw [rest] at ih
            exact ⟨Option.some_ne_none _, ih⟩
  apply tail
  split
  · exact Nat.le_refl 1
  · exact Nat.zero_le 1

theorem take_take_append {Entry : Type} (n : Nat) (front back : List Entry) :
    (front.take n ++ back).take n = (front ++ back).take n := by
  rw [List.take_append, List.take_append, List.take_take, min_self, List.length_take]
  congr 2
  omega

/-- The offers of one list, taken up behind others. -/
theorem Orderly.completionsLoop_eq {cli : CliDef} {forest : Forest Ptr} (orderly : Orderly cli forest)
    (mode : Option Nat) (maxCompletions : Nat) {parent : Option Ptr}
    (live : ∀ owner ∈ parent, owner ∈ forest.ptrs) {words : List (Option CString)}
    (filled : Filled words) (front : List Ptr) :
    completionsLoop cli.cells mode maxCompletions cli.cells.length (forest.listOf parent).head? words
        ((front.map (commandOf cli.cells)).take maxCompletions) =
      some (((front ++ offers cli.cells mode (forest.listOf parent) words).map
        (commandOf cli.cells)).take maxCompletions) := by
  have represents := orderly.kept.represents
  obtain ⟨context, place⟩ : ∃ context : Context Ptr, forest = context.fill (forest.listOf parent) := by
    cases parent with
    | none => exact ⟨.hole, rfl⟩
    | some owner =>
        obtain ⟨context, kids, next, place⟩ := Forest.exists_fill (live owner rfl)
        have distinct := represents.distinct
        refine ⟨context.comp (.under owner .hole next), ?_⟩
        rw [place] at distinct
        rw [Context.fill_comp, Forest.listOf, Option.elim_some, place,
          Forest.Context.kidsOf_fill distinct]
        rfl
  have shows := represents.cells
  have distinct := represents.distinct
  have enough := shows.length_le distinct
  have smaller := context.length_le_fill (forest.listOf parent)
  rw [← place] at smaller
  rw [place] at shows distinct
  rw [Cli.completionsLoop_eq cli.cells.length shows distinct (Nat.le_trans smaller enough) words filled _
    (List.length_take_le _ _), take_take_append, List.map_append]

theorem inMenu_tidy : tidyMachine.Reachable inMenu := by
  have ran : tidyMachine.run .empty [.register ⟨none, some ⟨[0x6d], by decide⟩, none, 0, some 0⟩,
      .register ⟨some 0, some ⟨[0x6e], by decide⟩, none, 0, some 1⟩,
      .run (fun _ => cliOk) [⟨[0x6d], by decide⟩]] = some inMenu := by
    decide +kernel
  exact Machine.reachable_of_run (.initial rfl) ran

end Alisl.Cli
