import Alisl.Cli.Tree

/-! Deleting a command: the children first, then the command, a leaf by then, is
taken out of its list. -/

namespace Alisl.Cli

open Alisl.Base
open Alisl.Base.Forest (Context)

section Unlink

variable {cli : CliDef} {cells : Cells Command} {context : Context Ptr} {cmd t : Ptr}
  {children next : Forest Ptr}

/-- Nothing happens where the command is not. -/
theorem unlinkLoop_pass {before : Cells Command} {part : Forest Ptr} (start : Option Ptr) (fuel : Nat)
    (shows : Shows before (context.fill part)) (distinct : (context.fill part).ptrs.Nodup)
    (agree : ∀ q ∈ part.ptrs, cli.cells.read q = before.read q) (absent : cmd ∉ part.ptrs)
    (enough : part.roots.length ≤ fuel) : unlinkLoop cmd start fuel part.head? cli = some cli := by
  induction part generalizing context fuel with
  | nil => cases fuel <;> rfl
  | node t below behind _ ih =>
      rcases shows.at_ distinct with ⟨node, there, next, _⟩
      cases fuel with
      | zero => exact absurd enough (Nat.not_succ_le_zero _)
      | succ fuel =>
          have moved : (context.comp (.after t below .hole)).fill behind =
              context.fill (.node t below behind) := Context.fill_comp ..
          have here : t ∈ (Forest.node t below behind).ptrs := List.mem_cons_self
          have other : t ≠ cmd := fun same => absent (same ▸ here)
          have later : ∀ q ∈ behind.ptrs, q ∈ (Forest.node t below behind).ptrs :=
            fun q member => List.mem_cons_of_mem _ (List.mem_append_right _ member)
          have further : ¬ behind.head? = some cmd :=
            fun head => absent (later cmd (Forest.mem_of_head? head))
          rw [← moved] at shows distinct
          have rest := ih fuel shows distinct
            (fun q member => agree q (later q member)) (fun inside => absent (later cmd inside))
            (Nat.le_of_succ_le_succ enough)
          rw [Forest.head?, unlinkLoop, agree t here, there, Option.bind_some,
            if_neg (fun both => other both.1), Option.bind_some, next, if_neg further]
          exact rest

/-- A pointer of `t` passes over the leaf, and the leaf is freed. -/
theorem shows_freed {newChildren newNext : Forest Ptr} (change : Command → Command)
    (shows : Shows cells (context.fill (.node t children next)))
    (distinct : (context.fill (.node t children next)).ptrs.Nodup)
    (listed : ∀ q, q ∈ (Forest.node t children next).ptrs ↔
      q = cmd ∨ q ∈ (Forest.node t newChildren newNext).ptrs)
    (shorter : (Forest.node t newChildren newNext).ptrs.Sublist (Forest.node t children next).ptrs)
    (gone : cmd ∉ (Forest.node t newChildren newNext).ptrs)
    (self : ∀ node : Command, node.links = ⟨next.head?, children.head?, context.owner none⟩ →
      (change node).links = ⟨newNext.head?, newChildren.head?, context.owner none⟩)
    (below : ∀ q ∈ newChildren.ptrs,
      q ∈ children.ptrs ∧ children.links (some t) q = newChildren.links (some t) q)
    (behind : ∀ q ∈ newNext.ptrs,
      q ∈ next.ptrs ∧ next.links (context.owner none) q = newNext.links (context.owner none) q) :
    (context.fill (.node t newChildren newNext)).ptrs.Nodup ∧
      Shows ((cells.update t change).free cmd) (context.fill (.node t newChildren newNext)) := by
  have own := Context.nodup_part distinct
  have whole : (context.fill (.node t newChildren newNext)).ptrs.Nodup := by
    apply Context.nodup_fill distinct
    · exact List.Nodup.sublist shorter own
    · exact fun q member => .inl ((listed q).mpr (.inr member))
  have here : t ≠ cmd := fun same => gone (same ▸ List.mem_cons_self)
  have kept : ∀ q, q ≠ cmd → q ≠ t → ((cells.update t change).free cmd).read q = cells.read q := by
    intro q freed other
    rw [Cells.read_free, if_neg freed, Cells.read_update, if_neg other]
  have member : cmd ∈ (Forest.node t children next).ptrs := (listed cmd).mpr (.inl rfl)
  refine ⟨whole, ?_⟩
  apply shows.replaceNode whole
  · intro q absent _
    apply kept
    · exact fun same => absent (same ▸ member)
    · exact fun same => absent (same ▸ List.mem_cons_self)
  · rcases shows.at_ distinct with ⟨node, there, later, kids, parent⟩
    rw [Cells.read_free, if_neg here, Cells.read_update, if_pos rfl, there, Option.map_some,
      Option.map_some, self node (by rw [Command.links, later, kids, parent])]
  · intro q inside
    rcases below q inside with ⟨before, same⟩
    have freed : q ≠ cmd := fun same =>
      gone (List.mem_cons_of_mem _ (List.mem_append_left _ (same ▸ inside)))
    rw [kept q freed (Forest.ne_of_mem_children own before), shows.inChildren distinct before, same]
  · intro q inside
    rcases behind q inside with ⟨before, same⟩
    have freed : q ≠ cmd := fun same =>
      gone (List.mem_cons_of_mem _ (List.mem_append_right _ (same ▸ inside)))
    rw [kept q freed (Forest.ne_of_mem_next own before), shows.inNext distinct before, same]
  · intro q before absent
    have same : q = cmd := by
      rcases (listed q).mp before with same | inside
      · exact same
      · exact absurd inside absent
    subst same
    refine ⟨?_, Context.notMem_of_nodup distinct before absent⟩
    rw [Cells.read_free, if_pos rfl]

/-- The leaf stands behind `t`. -/
theorem shows_skipped (shows : Shows cells (context.fill (.node t children (.node cmd .nil next))))
    (distinct : (context.fill (.node t children (.node cmd .nil next))).ptrs.Nodup) :
    (context.fill (.node t children next)).ptrs.Nodup ∧
      Shows ((cells.update t (setNext next.head?)).free cmd)
        (context.fill (.node t children next)) := by
  have own := Context.nodup_part distinct
  have member : cmd ∈ (Forest.node cmd .nil next).ptrs := List.mem_cons_self
  apply shows_freed (setNext next.head?) shows distinct
  · intro q
    simp only [Forest.ptrs, List.nil_append, List.mem_cons, List.mem_append]
    tauto
  · apply List.Sublist.cons_cons
    apply List.Sublist.append (List.Sublist.refl _)
    exact List.sublist_cons_self cmd next.ptrs
  · intro inside
    rw [Forest.ptrs, List.mem_cons, List.mem_append] at inside
    rcases inside with same | below | behind
    · exact Forest.ne_of_mem_next own member same
    · exact Forest.notMem_next own below member
    · exact (List.nodup_cons.mp (Forest.nodup_next own)).1 (List.mem_append_right _ behind)
  · intro node links
    have kids : node.children = children.head? := congrArg NodeLinks.children links
    have parent : node.parent = context.owner none := congrArg NodeLinks.parent links
    rw [Command.links, setNext, kids, parent]
  · exact fun q inside => ⟨inside, rfl⟩
  · intro q inside
    exact ⟨List.mem_cons_of_mem _ inside, Forest.links_next (Forest.nodup_next own) _ inside⟩

/-- The leaf is the first child of `t`. -/
theorem shows_headless (shows : Shows cells (context.fill (.node t (.node cmd .nil children) next)))
    (distinct : (context.fill (.node t (.node cmd .nil children) next)).ptrs.Nodup) :
    (context.fill (.node t children next)).ptrs.Nodup ∧
      Shows ((cells.update t (setChildren children.head?)).free cmd)
        (context.fill (.node t children next)) := by
  have own := Context.nodup_part distinct
  have member : cmd ∈ (Forest.node cmd .nil children).ptrs := List.mem_cons_self
  apply shows_freed (setChildren children.head?) shows distinct
  · intro q
    simp only [Forest.ptrs, List.nil_append, List.mem_cons, List.mem_append]
    tauto
  · apply List.Sublist.cons_cons
    apply List.Sublist.append _ (List.Sublist.refl _)
    exact List.sublist_cons_self cmd children.ptrs
  · intro inside
    rw [Forest.ptrs, List.mem_cons, List.mem_append] at inside
    rcases inside with same | below | behind
    · exact Forest.ne_of_mem_children own member same
    · exact (List.nodup_cons.mp (Forest.nodup_children own)).1 (List.mem_append_right _ below)
    · exact Forest.notMem_next own member behind
  · intro node links
    have later : node.next = next.head? := congrArg NodeLinks.next links
    have parent : node.parent = context.owner none := congrArg NodeLinks.parent links
    rw [Command.links, setChildren, later, parent]
  · intro q inside
    exact ⟨List.mem_cons_of_mem _ inside, Forest.links_next (Forest.nodup_children own) _ inside⟩
  · exact fun q inside => ⟨inside, rfl⟩

/-- The leaf stands somewhere behind `t` in its list. -/
theorem unlinkLoop_behind (start : Option Ptr) (fuel : Nat)
    (shows : Shows cli.cells (context.fill (.node t children next)))
    (distinct : (context.fill (.node t children next)).ptrs.Nodup) (member : cmd ∈ next.roots)
    (leaf : next.kidsOf cmd = .nil) (enough : (Forest.node t children next).roots.length ≤ fuel) :
    ∃ cells, unlinkLoop cmd start fuel (some t) cli = some { cli with cells := cells } ∧
      (context.fill (.node t children (next.remove cmd))).ptrs.Nodup ∧
      Shows (cells.free cmd) (context.fill (.node t children (next.remove cmd))) := by
  have own := Context.nodup_part distinct
  have other : t ≠ cmd := (Forest.ne_of_mem_next own (Forest.mem_of_mem_roots member)).symm
  rcases shows.at_ distinct with ⟨node, there, later, -⟩
  induction next generalizing context t children node fuel with
  | nil => cases member
  | node r below behind _ ih =>
      have moved : ∀ part, (context.comp (.after t children .hole)).fill part =
          context.fill (.node t children part) := fun part => Context.fill_comp ..
      have apart := Forest.nodup_next own
      cases fuel with
      | zero => exact absurd enough (Nat.not_succ_le_zero _)
      | succ fuel =>
          rw [unlinkLoop, there, Option.bind_some, if_neg (fun both => other both.1), Option.bind_some,
            later]
          by_cases found : r = cmd
          · subst found
            have none_ : below = .nil := by
              rw [Forest.kidsOf, if_pos rfl] at leaf
              exact leaf
            subst none_
            have skipped := shows_skipped shows distinct
            rw [← moved] at shows distinct
            rcases shows.at_ distinct with ⟨gone, read, next_, _⟩
            have past : ((context.comp (.after t children .hole)).comp (.after r .nil .hole)).fill behind =
                (context.comp (.after t children .hole)).fill (.node r .nil behind) := Context.fill_comp ..
            rw [← past] at shows distinct
            have absent : r ∉ behind.ptrs := fun inside =>
              (List.nodup_cons.mp apart).1 (List.mem_append_right _ inside)
            have agree : ∀ q ∈ behind.ptrs,
                (cli.cells.update t (setNext behind.head?)).read q = cli.cells.read q := by
              intro q inside
              have behind_ : q ∈ (Forest.node r .nil behind).ptrs := List.mem_cons_of_mem _ inside
              rw [Cells.read_update, if_neg (Forest.ne_of_mem_next own behind_)]
            have rest : unlinkLoop r start fuel behind.head?
                { cli with cells := cli.cells.update t (setNext behind.head?) } =
                  some { cli with cells := cli.cells.update t (setNext behind.head?) } := by
              apply unlinkLoop_pass start fuel shows distinct agree absent
              rw [Forest.roots, Forest.roots, List.length_cons, List.length_cons] at enough
              omega
            have removed : (Forest.node r .nil behind).remove r = behind := by
              rw [Forest.remove, if_pos rfl]
            rw [removed]
            refine ⟨cli.cells.update t (setNext behind.head?), ?_, skipped⟩
            rw [Forest.head?, if_pos rfl, read, Option.bind_some, next_]
            exact rest
          · have inside : cmd ∈ behind.roots := by
              rcases List.mem_cons.mp member with same | inside
              · exact absurd same.symm found
              · exact inside
            have outside : cmd ∉ below.ptrs := fun down =>
              Forest.notMem_next apart down (Forest.mem_of_mem_roots inside)
            have kids : behind.kidsOf cmd = .nil := by
              rw [Forest.kidsOf, if_neg found, if_neg outside] at leaf
              exact leaf
            rw [← moved] at shows distinct
            rcases shows.at_ distinct with ⟨node_, read, next_, -⟩
            rcases ih fuel shows distinct inside kids
              (Nat.le_of_succ_le_succ enough) apart found node_ read next_ with ⟨cells, ran, result⟩
            have further : ¬ (Forest.node r below behind).head? = some cmd :=
              fun head => found (Option.some.inj head)
            have removed : (Forest.node r below behind).remove cmd =
                .node r below (behind.remove cmd) := by
              rw [Forest.remove, if_neg found, Forest.remove_of_notMem outside]
            rw [moved] at result
            rw [removed, if_neg further]
            exact ⟨cells, ran, result⟩

end Unlink

/-! ### The head of a list -/

theorem head?_eq_none {forest : Forest Ptr} : forest.head? = none ↔ forest = .nil := by
  cases forest with
  | nil => exact ⟨fun _ => rfl, fun _ => rfl⟩
  | node ptr children next =>
      exact ⟨fun none_ => absurd none_ (Option.some_ne_none ptr), fun none_ => by cases none_⟩

/-- The menu moves to a list that stays. -/
theorem moveCurrent_spec {cli : CliDef} {cmd : Ptr} {forest : Forest Ptr} {node : Command}
    (shows : Shows (cli.cells.free cmd) forest) (distinct : forest.ptrs.Nodup)
    (root : cli.commandsRoot = forest.head?) (parent : ∀ owner ∈ node.parent, owner ∈ forest.ptrs) :
    ∃ current, moveCurrent cli node = some { cli with commandsCurrent := current } ∧
      (current = none ↔ forest = .nil) ∧ ∀ q, current = some q → forest.First q := by
  have freed : ∀ q found, (cli.cells.free cmd).read q = some found → cli.cells.read q = some found := by
    intro q found there
    rw [Cells.read_free] at there
    split at there
    · cases there
    · exact there
  have home : (cli.commandsRoot = none ↔ forest = .nil) ∧
      ∀ q, cli.commandsRoot = some q → forest.First q := by
    rw [root]
    exact ⟨head?_eq_none, fun q head => .inl head⟩
  rw [moveCurrent]
  cases owned : node.parent with
  | none => exact ⟨cli.commandsRoot, rfl, home⟩
  | some owner =>
      have live := parent owner owned
      rcases Option.ne_none_iff_exists'.mp (shows.read_iff.mpr live) with ⟨above, there⟩
      have linksAbove : forest.links none owner = some above.links := by
        rw [← shows owner, there, Option.map_some]
      dsimp only
      rw [freed owner above there, Option.bind_some]
      cases upper : above.parent with
      | none => exact ⟨cli.commandsRoot, rfl, home⟩
      | some top =>
          rcases Forest.links_parent distinct linksAbove upper with direct | ⟨links, first, found, child⟩
          · cases direct
          · have cell := shows top
            rw [found] at cell
            rcases Option.map_eq_some_iff.mp cell with ⟨topNode, read, same⟩
            have kids : topNode.children = some first := by
              rw [← child, ← same]
              rfl
            have inner := Forest.mem_inner_of_children found child
            rcases Option.ne_none_iff_exists'.mp (shows.read_iff.mpr (Forest.mem_of_mem_inner inner)) with
              ⟨firstNode, readFirst⟩
            refine ⟨some first, ?_, ?_, ?_⟩
            · dsimp only
              rw [freed top topNode read, Option.bind_some, kids, Option.bind_some,
                freed first firstNode readFirst, Option.map_some]
            · constructor
              · intro none_
                cases none_
              · intro none_
                subst none_
                cases inner
            · intro q same_
              cases same_
              exact .inr inner

/-- A leaf at the head of its list is unlinked. -/
theorem unlinkHead_spec {cli middle : CliDef} {cmd : Ptr} {before forest : Forest Ptr} {node : Command}
    (menu : OnMenu cli before) (kept : ∀ q, q ≠ cmd → before.First q → forest.First q)
    (some_ : cli.commandsCurrent ≠ some cmd → (before = .nil ↔ forest = .nil))
    (unlinked : (if some cmd = cli.commandsRoot then some { cli with commandsRoot := node.next }
      else node.parent.bind (fun owner => (cli.cells.read owner).map (fun _ =>
        { cli with cells := cli.cells.update owner (setChildren node.next) }))) = some middle)
    (current : middle.commandsCurrent = cli.commandsCurrent)
    (shows : Shows (middle.cells.free cmd) forest) (distinct : forest.ptrs.Nodup)
    (root : middle.commandsRoot = forest.head?) (parent : ∀ owner ∈ node.parent, owner ∈ forest.ptrs) :
    ∃ after, unlinkHead cli (some cmd) cmd node = some after ∧ after.cells = middle.cells ∧
      after.commandsRoot = middle.commandsRoot ∧ OnMenu after forest := by
  rw [unlinkHead, unlinked, Option.bind_some]
  by_cases here : middle.commandsCurrent = some cmd
  · rcases moveCurrent_spec shows distinct root parent with ⟨next, moved, empty, first⟩
    rw [if_pos here]
    exact ⟨_, moved, rfl, rfl, empty, first⟩
  · rw [if_neg here]
    rw [current] at here
    refine ⟨middle, rfl, rfl, rfl, ?_, ?_⟩
    · rw [current, menu.empty]
      exact some_ here
    · intro q same
      rw [current] at same
      exact kept q (fun gone => here (gone ▸ same)) (menu.first q same)

/-- What is known of a leaf that is about to go. -/
structure Leaving (cli : CliDef) (forest : Forest Ptr) (cmd : Ptr) : Prop where
  represents : Represents cli forest
  menu : OnMenu cli forest
  member : cmd ∈ forest.ptrs
  leaf : forest.kidsOf cmd = .nil

/-- The leaf is gone from the loop's cells once it is freed. -/
def Unlinked (cli : CliDef) (forest : Forest Ptr) (cmd : Ptr) : Prop :=
  Represents { cli with cells := cli.cells.free cmd } (forest.remove cmd) ∧
    OnMenu { cli with cells := cli.cells.free cmd } (forest.remove cmd)

section Leaf

variable {cli : CliDef} {forest : Forest Ptr} {cmd : Ptr}

theorem Leaving.stays (leaving : Leaving cli forest cmd) :
    (∀ q, q ≠ cmd → forest.First q → (forest.remove cmd).First q) ∧
      (cli.commandsCurrent ≠ some cmd → (forest = .nil ↔ forest.remove cmd = .nil)) := by
  have distinct := leaving.represents.distinct
  constructor
  · exact fun q other first => first.remove distinct other leaving.leaf
  · intro elsewhere
    constructor
    · intro none_
      rw [none_]
      rfl
    · intro none_
      cases current : cli.commandsCurrent with
      | none => exact leaving.menu.empty.mp current
      | some q =>
          have last := Forest.eq_of_remove_eq_nil distinct (leaving.menu.first q current).mem
            leaving.leaf none_
          exact absurd (last ▸ current) elsewhere

/-- Not at the head of its list: only the cells change. -/
theorem Leaving.behind (leaving : Leaving cli forest cmd) (context : Context Ptr) {t : Ptr}
    {children next : Forest Ptr} (place : forest = context.fill (.node t children next))
    (inside : cmd ∈ next.roots) (start : Option Ptr) :
    ∃ after, unlinkLoop cmd start cli.cells.length (some t) cli = some after ∧
      Unlinked after forest cmd := by
  have represents := leaving.represents
  have shows := represents.cells
  have distinct := represents.distinct
  have root := represents.root
  have stays := leaving.stays
  have leaf := leaving.leaf
  have menu := leaving.menu
  subst place
  have own := Context.nodup_part distinct
  have later : cmd ∈ (Forest.node t children next).ptrs :=
    List.mem_cons_of_mem _ (List.mem_append_right _ (Forest.mem_of_mem_roots inside))
  have other : t ≠ cmd := (Forest.ne_of_mem_next own (Forest.mem_of_mem_roots inside)).symm
  have outside : cmd ∉ children.ptrs := fun below =>
    Forest.notMem_next own below (Forest.mem_of_mem_roots inside)
  have removed : (context.fill (.node t children next)).remove cmd =
      context.fill (.node t children (next.remove cmd)) := by
    rw [Context.remove_fill distinct later, Forest.remove, if_neg other, Forest.remove_of_notMem outside]
  have bare : next.kidsOf cmd = .nil := by
    rw [Context.kidsOf_part distinct later, Forest.kidsOf, if_neg other, if_neg outside] at leaf
    exact leaf
  rcases unlinkLoop_behind start cli.cells.length shows distinct inside bare
    (shows.fuel distinct) with ⟨cells, ran, nodup, left⟩
  refine ⟨_, ran, ?_, ?_⟩
  · rw [removed]
    exact ⟨left, root.trans (Context.head?_fill rfl), nodup⟩
  · have elsewhere : cli.commandsCurrent ≠ some cmd :=
      fun here => Context.not_first distinct inside (menu.first cmd here)
    constructor
    · exact menu.empty.trans (stays.2 elsewhere)
    · intro q current
      exact stays.1 q (fun same => elsewhere (same ▸ current)) (menu.first q current)

/-- At the head of its list: the root, or the parent, points to the next one. -/
theorem Leaving.head (leaving : Leaving cli forest cmd) (context : Context Ptr) {next : Forest Ptr}
    (middle : CliDef) (place : forest = context.fill (.node cmd .nil next))
    (unlinked : ∀ node : Command, node.next = next.head? → node.parent = context.owner none →
      (if some cmd = cli.commandsRoot then some { cli with commandsRoot := node.next }
      else node.parent.bind (fun owner => (cli.cells.read owner).map (fun _ =>
        { cli with cells := cli.cells.update owner (setChildren node.next) }))) = some middle)
    (current : middle.commandsCurrent = cli.commandsCurrent)
    (left : Shows (middle.cells.free cmd) (context.fill next))
    (kept : ∀ q ∈ next.ptrs, middle.cells.read q = cli.cells.read q)
    (root : middle.commandsRoot = (context.fill next).head?)
    (parent : ∀ owner ∈ context.owner none, owner ∈ (context.fill next).ptrs) :
    ∃ after, unlinkLoop cmd (some cmd) cli.cells.length (some cmd) cli = some after ∧
      Unlinked after forest cmd := by
  have represents := leaving.represents
  have shows := represents.cells
  have distinct := represents.distinct
  have stays := leaving.stays
  have menu := leaving.menu
  have nodup := Forest.nodup_remove distinct cmd
  have here : cmd ∈ (Forest.node cmd .nil next).ptrs := List.mem_cons_self
  have removed : forest.remove cmd = context.fill next := by
    rw [place, Context.remove_fill (place ▸ distinct) here, Forest.remove, if_pos rfl]
  rw [removed] at stays nodup
  rw [place] at shows distinct
  have own := Context.nodup_part distinct
  rcases shows.at_ distinct with ⟨node, there, later, _, owned⟩
  have enough := shows.fuel distinct
  rcases unlinkHead_spec menu stays.1 stays.2 (unlinked node later owned) current left nodup root
    (owned ▸ parent) with ⟨after, ran, cells, head, menu_⟩
  cases fuel : cli.cells.length with
  | zero =>
      rw [fuel] at enough
      exact absurd enough (Nat.not_succ_le_zero _)
  | succ turns =>
      have absent : cmd ∉ next.ptrs := (List.nodup_cons.mp own).1
      have further : ¬ node.next = some cmd := by
        rw [later]
        exact fun last => absent (Forest.mem_of_head? last)
      have moved : (context.comp (.after cmd .nil .hole)).fill next =
          context.fill (.node cmd .nil next) := Context.fill_comp ..
      rw [← moved] at shows distinct
      rw [← cells] at kept
      rw [fuel, Forest.roots, List.length_cons] at enough
      have rest := unlinkLoop_pass (some cmd) turns shows distinct kept absent
        (Nat.le_of_succ_le_succ enough)
      refine ⟨after, ?_, ?_⟩
      · rw [unlinkLoop, there, Option.bind_some, if_pos ⟨rfl, rfl⟩, ran, Option.bind_some,
          if_neg further, later]
        exact rest
      · rw [Unlinked, removed]
        constructor
        · exact ⟨cells ▸ left, head.trans root, nodup⟩
        · exact ⟨menu_.empty, menu_.first⟩

theorem Leaving.rootHead (leaving : Leaving cli forest cmd) {next : Forest Ptr}
    (place : forest = .node cmd .nil next) :
    ∃ after, unlinkLoop cmd (some cmd) cli.cells.length (some cmd) cli = some after ∧
      Unlinked after forest cmd := by
  have shows := leaving.represents.cells
  have distinct := leaving.represents.distinct
  have root : cli.commandsRoot = some cmd := leaving.represents.root.trans (place ▸ rfl)
  rw [place] at shows distinct
  have absent : cmd ∉ next.ptrs := (List.nodup_cons.mp distinct).1
  apply leaving.head .hole { cli with commandsRoot := next.head? } place
  · intro node later _
    rw [if_pos root.symm, later]
  · rfl
  · intro q
    rw [Cells.read_free]
    by_cases same : q = cmd
    · rw [if_pos same, same]
      exact ((Forest.links_none_iff next none cmd).mpr absent).symm
    · rw [if_neg same, shows q, Forest.links, if_neg same]
      exact Option.none_or
  · exact fun q inside => rfl
  · rfl
  · intro owner none_
    cases none_

theorem Leaving.childHead (leaving : Leaving cli forest cmd) {context : Context Ptr} {owner : Ptr}
    {next rest : Forest Ptr} (place : forest = context.fill (.node owner (.node cmd .nil next) rest)) :
    ∃ after, unlinkLoop cmd (some cmd) cli.cells.length (some cmd) cli = some after ∧
      Unlinked after forest cmd := by
  have shows := leaving.represents.cells
  have distinct := leaving.represents.distinct
  have root := leaving.represents.root
  have deeper : ∀ part, (context.comp (.under owner .hole rest)).fill part =
      context.fill (.node owner part rest) := fun part => Context.fill_comp ..
  have above : (context.comp (.under owner .hole rest)).owner none = some owner :=
    Context.owner_comp ..
  rw [place] at shows distinct root
  have headless := shows_headless shows distinct
  rcases shows.at_ distinct with ⟨node, there, _⟩
  have own := Context.nodup_part distinct
  apply leaving.head (context.comp (.under owner .hole rest))
    { cli with cells := cli.cells.update owner (setChildren next.head?) }
    (place.trans (deeper _).symm)
  · intro gone later parent
    have notRoot : ¬ some cmd = cli.commandsRoot := by
      intro top
      rw [root] at top
      rcases Forest.links_roots distinct none (Forest.mem_roots_of_head? top.symm) with
        ⟨links, found, orphan⟩
      have here : cmd ∈ (Forest.node cmd .nil next).ptrs := List.mem_cons_self
      rw [← deeper, Context.links_fill (by rw [deeper]; exact distinct) none here,
        Forest.links_node_self, above] at found
      rw [← Option.some.inj found] at orphan
      cases orphan
    rw [if_neg notRoot, parent, above, Option.bind_some, there, Option.map_some, later]
  · rfl
  · rw [deeper]
    exact headless.2
  · intro q inside
    have below : q ∈ (Forest.node cmd .nil next).ptrs := List.mem_cons_of_mem _ inside
    rw [Cells.read_update, if_neg (Forest.ne_of_mem_children own below)]
  · rw [deeper, root]
    exact Context.head?_fill rfl
  · intro q owned
    rw [above] at owned
    rw [deeper, ← Option.some.inj owned]
    exact Context.mem_fill List.mem_cons_self

/-- The walk from the head of its list takes a leaf out. -/
theorem Leaving.unlink (leaving : Leaving cli forest cmd) {parent : Option Ptr} {links : NodeLinks Ptr}
    (found : forest.links none cmd = some links) (owned : links.parent = parent) :
    ∃ after, (parent.elim (some cli.commandsRoot) (fun owner =>
        (cli.cells.read owner).map Command.children)).bind (fun start =>
          unlinkLoop cmd start cli.cells.length start cli) = some after ∧
      Unlinked after forest cmd := by
  have shows := leaving.represents.cells
  have distinct := leaving.represents.distinct
  have root := leaving.represents.root
  have leaf := leaving.leaf
  rcases Forest.exists_level leaving.member with inside | ⟨context, owner, level, rest, place, inside⟩
  · have orphan : parent = none := by
      rcases Forest.links_roots distinct none inside with ⟨other, there, none_⟩
      rw [found] at there
      rw [← owned, Option.some.inj there, none_]
    rw [orphan, Option.elim_none, Option.bind_some, root]
    cases level : forest with
    | nil =>
        rw [level] at inside
        cases inside
    | node t children next =>
        rw [Forest.head?]
        by_cases first : t = cmd
        · subst first
          have bare : children = .nil := by
            rw [level, Forest.kidsOf, if_pos rfl] at leaf
            exact leaf
          subst bare
          rw [← level]
          exact leaving.rootHead level
        · have later : cmd ∈ next.roots := by
            rw [level] at inside
            rcases List.mem_cons.mp inside with same | later
            · exact absurd same.symm first
            · exact later
          rw [← level]
          exact leaving.behind .hole level later (some t)
  · have deeper : ∀ part, (context.comp (.under owner .hole rest)).fill part =
        context.fill (.node owner part rest) := fun part => Context.fill_comp ..
    have member := Forest.mem_of_mem_roots inside
    have nodup : ((context.comp (.under owner .hole rest)).fill level).ptrs.Nodup := by
      rw [deeper, ← place]
      exact distinct
    have child : parent = some owner := by
      rw [place, ← deeper, Context.links_fill nodup none member, Context.owner_comp] at found
      rcases Forest.links_roots (Context.nodup_part nodup) (some owner) inside with ⟨other, there, up⟩
      have same : some links = some other := found.symm.trans there
      rw [← owned, Option.some.inj same, up]
    rw [place] at shows distinct
    rcases shows.at_ distinct with ⟨node, there, _, kids, _⟩
    rw [child, Option.elim_some, there, Option.map_some, Option.bind_some, kids]
    cases shape : level with
    | nil =>
        rw [shape] at inside
        cases inside
    | node t children next =>
        rw [Forest.head?]
        by_cases first : t = cmd
        · subst first
          have bare : children = .nil := by
            rw [place, ← deeper, Context.kidsOf_part nodup member, shape, Forest.kidsOf,
              if_pos rfl] at leaf
            exact leaf
          subst bare
          exact leaving.childHead (shape ▸ place)
        · have later : cmd ∈ next.roots := by
            rw [shape] at inside
            rcases List.mem_cons.mp inside with same | later
            · exact absurd same.symm first
            · exact later
          exact leaving.behind (context.comp (.under owner .hole rest))
            (by rw [deeper, ← shape]; exact place) later (some t)

end Leaf

/-! ### The recursion -/

/-- The loop over these children empties the list, wherever it hangs. -/
def EmptiesList (kids : Forest Ptr) : Prop :=
  ∀ (fuel : Nat) (cli : CliDef) (context : Context Ptr) (owner : Ptr) (next : Forest Ptr),
    Represents cli (context.fill (.node owner kids next)) →
    OnMenu cli (context.fill (.node owner kids next)) → 2 * kids.ptrs.length ≤ fuel →
    ∃ after, deleteChildren fuel cli kids.head? = some after ∧
      Represents after (context.fill (.node owner .nil next)) ∧
      OnMenu after (context.fill (.node owner .nil next))

theorem EmptiesList.deleteCommand {kids : Forest Ptr} (empties : EmptiesList kids) {fuel : Nat}
    {cli : CliDef} {context : Context Ptr} {cmd : Ptr} {next : Forest Ptr}
    (represents : Represents cli (context.fill (.node cmd kids next)))
    (menu : OnMenu cli (context.fill (.node cmd kids next))) (enough : 2 * kids.ptrs.length < fuel) :
    ∃ after, deleteCommand fuel cli cmd = some after ∧ Represents after (context.fill next) ∧
      OnMenu after (context.fill next) := by
  rcases represents.cells.at_ represents.distinct with ⟨node, there, _, first, parent⟩
  cases fuel with
  | zero => exact absurd enough (Nat.not_lt_zero _)
  | succ fuel =>
      rcases empties fuel cli context cmd next represents menu (Nat.le_of_lt_succ enough) with
        ⟨middle, emptied, represents, menu⟩
      have distinct := represents.distinct
      have here : cmd ∈ (Forest.node cmd .nil next).ptrs := List.mem_cons_self
      have leaving : Leaving middle (context.fill (.node cmd .nil next)) cmd :=
        ⟨represents, menu, Context.mem_fill here, Context.kidsOf_fill distinct⟩
      have links := Context.links_fill distinct none here
      rw [Forest.links_node_self] at links
      rcases leaving.unlink links rfl with ⟨after, ran, gone⟩
      have removed : (context.fill (.node cmd .nil next)).remove cmd = context.fill next := by
        rw [Context.remove_fill distinct here, Forest.remove, if_pos rfl]
      rw [Unlinked, removed] at gone
      refine ⟨{ after with cells := after.cells.free cmd }, ?_, gone⟩
      rw [Cli.deleteCommand, there, Option.bind_some, first, emptied, Option.bind_some, parent]
      have freed := congrArg (Option.map fun cli => { cli with cells := cli.cells.free cmd }) ran
      rw [Option.map_bind] at freed
      exact freed

theorem emptiesList (kids : Forest Ptr) : EmptiesList kids := by
  induction kids with
  | nil =>
      intro fuel cli context owner next represents menu _
      refine ⟨cli, ?_, represents, menu⟩
      cases fuel <;> rfl
  | node c below behind belowIh behindIh =>
      intro fuel cli context owner next represents menu enough
      rw [Forest.ptrs, List.length_cons, List.length_append] at enough
      have deeper : ∀ part, (context.comp (.under owner .hole next)).fill part =
          context.fill (.node owner part next) := fun part => Context.fill_comp ..
      rcases Shows.at_ (by rw [deeper]; exact represents.cells)
        (by rw [deeper]; exact represents.distinct) with ⟨node, there, later, _⟩
      cases fuel with
      | zero => exact absurd enough (by omega)
      | succ fuel =>
          have room : 2 * below.ptrs.length < fuel := by omega
          rw [← deeper] at represents menu
          rcases belowIh.deleteCommand represents menu room with ⟨middle, deleted, represents, menu⟩
          rw [deeper] at represents menu
          rcases behindIh fuel middle context owner next represents menu (by omega) with
            ⟨after, emptied, result⟩
          refine ⟨after, ?_, result⟩
          rw [Forest.head?, deleteChildren, there, Option.bind_some, deleted, Option.bind_some, later,
            emptied]

/-- The command and all below it go; the rest of the tree stays. -/
theorem cliDeleteCommand_spec {cli : CliDef} {forest : Forest Ptr} (represents : Represents cli forest)
    (menu : OnMenu cli forest) {cmd : Ptr} (member : cmd ∈ forest.ptrs) :
    ∃ after, cliDeleteCommand cli cmd = some after ∧ Represents after (forest.remove cmd) ∧
      OnMenu after (forest.remove cmd) := by
  rcases Forest.exists_fill member with ⟨context, kids, next, place⟩
  have distinct := represents.distinct
  have cells := represents.cells.length_le distinct
  have here : cmd ∈ (Forest.node cmd kids next).ptrs := List.mem_cons_self
  subst place
  have smaller := context.length_le_fill (.node cmd kids next)
  rw [Forest.ptrs, List.length_cons, List.length_append] at smaller
  rw [Context.remove_fill distinct here, Forest.remove, if_pos rfl]
  exact (emptiesList kids).deleteCommand represents menu (by omega)

end Alisl.Cli
