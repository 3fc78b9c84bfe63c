import Alisl.Cli.Command

/-! The cells of the command tree and the forest they stand for. -/

namespace Alisl.Cli

open Alisl.Base
open Alisl.Base.Forest (Context)

def Command.links (node : Command) : NodeLinks Ptr := ⟨node.next, node.children, node.parent⟩

/-- Each cell has the links of its node, and there are no others. -/
def Shows (cells : Cells Command) (forest : Forest Ptr) : Prop :=
  ∀ p, (cells.read p).map Command.links = forest.links none p

/-- The sibling lists form a finite tree, and the parents agree with them. -/
structure Represents (cli : CliDef) (forest : Forest Ptr) : Prop where
  cells : Shows cli.cells forest
  root : cli.commandsRoot = forest.head?
  distinct : forest.ptrs.Nodup

/-- The menu is the first command of a list that is there. -/
structure OnMenu (cli : CliDef) (forest : Forest Ptr) : Prop where
  empty : cli.commandsCurrent = none ↔ forest = .nil
  first : ∀ q, cli.commandsCurrent = some q → forest.First q

section Read

variable {cells : Cells Command} {context : Context Ptr} {p : Ptr} {children next : Forest Ptr}

/-- The cell of a node in its place. -/
theorem Shows.at_ (shows : Shows cells (context.fill (.node p children next)))
    (distinct : (context.fill (.node p children next)).ptrs.Nodup) :
    ∃ node, cells.read p = some node ∧ node.next = next.head? ∧ node.children = children.head? ∧
      node.parent = context.owner none := by
  have here : p ∈ (Forest.node p children next).ptrs := List.mem_cons_self
  have cell := shows p
  rw [Context.links_fill distinct none here, Forest.links_node_self] at cell
  rcases Option.map_eq_some_iff.mp cell with ⟨node, there, links⟩
  refine ⟨node, there, congrArg NodeLinks.next links, congrArg NodeLinks.children links,
    congrArg NodeLinks.parent links⟩

theorem Shows.read_iff {forest : Forest Ptr} (shows : Shows cells forest) :
    cells.read p ≠ none ↔ p ∈ forest.ptrs := by
  rw [← not_iff_not, not_not, ← Forest.links_none_iff forest none p, ← shows p, Option.map_eq_none_iff]

theorem shows_of_lt {forest : Forest Ptr} (inside : ∀ q ∈ forest.ptrs, q < cells.length)
    (each : ∀ q < cells.length, (cells.read q).map Command.links = forest.links none q) :
    Shows cells forest := by
  intro q
  by_cases small : q < cells.length
  · exact each q small
  · rw [(Forest.links_none_iff forest none q).mpr (fun member => small (inside q member)), Cells.read,
      List.getElem?_eq_none (Nat.not_lt.mp small)]
    rfl

/-- There are cells enough for every walk. -/
theorem Shows.length_le {forest : Forest Ptr} (shows : Shows cells forest)
    (distinct : forest.ptrs.Nodup) : forest.ptrs.length ≤ cells.length := by
  apply Cells.length_le_of_read cells distinct
  intro q member
  exact shows.read_iff.mpr member

theorem Shows.fuel {part : Forest Ptr} (shows : Shows cells (context.fill part))
    (distinct : (context.fill part).ptrs.Nodup) : part.roots.length ≤ cells.length := by
  calc
    part.roots.length ≤ part.ptrs.length := Forest.roots_length_le part
    _ ≤ (context.fill part).ptrs.length := context.length_le_fill part
    _ ≤ cells.length := shows.length_le distinct

/-- One part takes the place of another with the same head. -/
theorem Shows.replace {part other : Forest Ptr} {after : Cells Command}
    (shows : Shows cells (context.fill part)) (distinct : (context.fill other).ptrs.Nodup)
    (same : part.head? = other.head?)
    (outside : ∀ q, q ∉ part.ptrs → q ∉ other.ptrs → after.read q = cells.read q)
    (inside : ∀ q ∈ other.ptrs,
      (after.read q).map Command.links = other.links (context.owner none) q)
    (gone : ∀ q ∈ part.ptrs, q ∉ other.ptrs → after.read q = none ∧ q ∉ (context.fill other).ptrs) :
    Shows after (context.fill other) := by
  intro q
  by_cases member : q ∈ other.ptrs
  · rw [inside q member, Context.links_fill distinct none member]
  by_cases before : q ∈ part.ptrs
  · rcases gone q before member with ⟨freed, absent⟩
    rw [freed, (Forest.links_none_iff _ none q).mpr absent]
    rfl
  · rw [outside q before member, shows q, Context.links_outside same none before member]

/-- The same when both parts are one node with what hangs on it. -/
theorem Shows.replaceNode {newChildren newNext : Forest Ptr} {after : Cells Command}
    (shows : Shows cells (context.fill (.node p children next)))
    (distinct : (context.fill (.node p newChildren newNext)).ptrs.Nodup)
    (outside : ∀ q, q ∉ (Forest.node p children next).ptrs →
      q ∉ (Forest.node p newChildren newNext).ptrs → after.read q = cells.read q)
    (self : (after.read p).map Command.links =
      some ⟨newNext.head?, newChildren.head?, context.owner none⟩)
    (below : ∀ q ∈ newChildren.ptrs,
      (after.read q).map Command.links = newChildren.links (some p) q)
    (behind : ∀ q ∈ newNext.ptrs,
      (after.read q).map Command.links = newNext.links (context.owner none) q)
    (gone : ∀ q ∈ (Forest.node p children next).ptrs, q ∉ (Forest.node p newChildren newNext).ptrs →
      after.read q = none ∧ q ∉ (context.fill (.node p newChildren newNext)).ptrs) :
    Shows after (context.fill (.node p newChildren newNext)) := by
  have own := Context.nodup_part distinct
  apply shows.replace distinct rfl outside
  · intro q member
    rw [Forest.ptrs, List.mem_cons, List.mem_append] at member
    rcases member with same | inside | later
    · subst same
      rw [self, Forest.links_node_self]
    · rw [below q inside, Forest.links_children own _ inside]
    · rw [behind q later, Forest.links_next own _ later]
  · exact gone

theorem Shows.inChildren (shows : Shows cells (context.fill (.node p children next)))
    (distinct : (context.fill (.node p children next)).ptrs.Nodup) {q : Ptr}
    (member : q ∈ children.ptrs) :
    (cells.read q).map Command.links = children.links (some p) q := by
  have inside : q ∈ (Forest.node p children next).ptrs :=
    List.mem_cons_of_mem _ (List.mem_append_left _ member)
  rw [shows q, Context.links_fill distinct none inside,
    Forest.links_children (Context.nodup_part distinct) _ member]

theorem Shows.inNext (shows : Shows cells (context.fill (.node p children next)))
    (distinct : (context.fill (.node p children next)).ptrs.Nodup) {q : Ptr}
    (member : q ∈ next.ptrs) :
    (cells.read q).map Command.links = next.links (context.owner none) q := by
  have inside : q ∈ (Forest.node p children next).ptrs :=
    List.mem_cons_of_mem _ (List.mem_append_right _ member)
  rw [shows q, Context.links_fill distinct none inside,
    Forest.links_next (Context.nodup_part distinct) _ member]

end Read

/-! ### Registering -/

theorem lastSibling_eq {cells before : Cells Command} {context : Context Ptr} {p : Ptr}
    {children next : Forest Ptr} (fuel : Nat)
    (shows : Shows before (context.fill (.node p children next)))
    (distinct : (context.fill (.node p children next)).ptrs.Nodup)
    (agree : ∀ q ∈ (context.fill (.node p children next)).ptrs, cells.read q = before.read q)
    (enough : (Forest.node p children next).roots.length ≤ fuel) :
    lastSibling cells fuel p = (Forest.node p children next).roots.getLast? := by
  have here : p ∈ (Forest.node p children next).ptrs := List.mem_cons_self
  have own := agree p (Context.mem_fill here)
  induction next generalizing context p children fuel with
  | nil =>
      rcases shows.at_ distinct with ⟨node, there, next, _⟩
      cases fuel with
      | zero => exact absurd enough (Nat.not_succ_le_zero _)
      | succ fuel =>
          rw [lastSibling, own, there, Option.bind_some, next]
          rfl
  | node other below behind _ ih =>
      rcases shows.at_ distinct with ⟨node, there, next, _⟩
      cases fuel with
      | zero => exact absurd enough (Nat.not_succ_le_zero _)
      | succ fuel =>
          have moved : (context.comp (.after p children .hole)).fill (.node other below behind) =
              context.fill (.node p children (.node other below behind)) := Context.fill_comp ..
          have first : other ∈ (Forest.node other below behind).ptrs := List.mem_cons_self
          rw [← moved] at shows distinct agree
          have rest := ih fuel shows distinct agree (Nat.le_of_succ_le_succ enough) first
            (agree other (Context.mem_fill first))
          rw [lastSibling, own, there, Option.bind_some, next]
          exact rest

/-- A cell that nothing points to yet is there beside the forest. -/
structure Beside (cells before : Cells Command) (parent : Option Ptr) (c : Ptr) : Prop where
  new : (cells.read c).map Command.links = some ⟨none, none, parent⟩
  others : ∀ q, q ≠ c → cells.read q = before.read q

section Link

variable {cells before : Cells Command} {context : Context Ptr} {p c : Ptr} {children next : Forest Ptr}

/-- The new cell becomes the next of the last one. -/
theorem shows_behind (shows : Shows before (context.fill (.node p children .nil)))
    (distinct : (context.fill (.node p children .nil)).ptrs.Nodup)
    (fresh : c ∉ (context.fill (.node p children .nil)).ptrs)
    (beside : Beside cells before (context.owner none) c) :
    (context.fill (.node p children (.node c .nil .nil))).ptrs.Nodup ∧
      Shows (cells.update p (setNext (some c))) (context.fill (.node p children (.node c .nil .nil))) := by
  have own := Context.nodup_part distinct
  have other : ∀ q ∈ (Forest.node p children .nil).ptrs, q ≠ c := by
    intro q member same
    exact fresh (same ▸ Context.mem_fill member)
  have whole : (context.fill (.node p children (.node c .nil .nil))).ptrs.Nodup := by
    apply Context.nodup_fill distinct
    · show (p :: (children.ptrs ++ [c])).Nodup
      rw [← List.cons_append]
      apply List.Nodup.append
      · simpa [Forest.ptrs] using own
      · exact List.nodup_singleton c
      · intro q member last
        have inside : q ∈ (Forest.node p children .nil).ptrs := by
          simpa [Forest.ptrs] using member
        exact other q inside (List.mem_singleton.mp last)
    · intro q member
      rw [Forest.ptrs, List.mem_cons, List.mem_append] at member
      rcases member with same | inside | last
      · exact .inl (same ▸ List.mem_cons_self)
      · exact .inl (List.mem_cons_of_mem _ (List.mem_append_left _ inside))
      · rw [Forest.ptrs, Forest.ptrs, List.append_nil, List.mem_singleton] at last
        exact .inr (last ▸ fresh)
  refine ⟨whole, ?_⟩
  have here : p ∈ (Forest.node p children .nil).ptrs := List.mem_cons_self
  have kept : ∀ q, q ≠ p → q ≠ c → (cells.update p (setNext (some c))).read q = before.read q := by
    intro q self new
    rw [Cells.read_update, if_neg self, beside.others q new]
  apply shows.replaceNode whole
  · intro q absent absentNew
    apply kept
    · exact fun same => absent (same ▸ here)
    · intro same
      subst same
      apply absentNew
      simp [Forest.ptrs]
  · rcases shows.at_ distinct with ⟨node, there, next_, kids, parent⟩
    rw [Cells.read_update, if_pos rfl, beside.others p (other p here), there]
    show some (Command.links (setNext (some c) node)) = _
    rw [Command.links, setNext, kids, parent]
    rfl
  · intro q member
    have inside : q ∈ (Forest.node p children .nil).ptrs :=
      List.mem_cons_of_mem _ (List.mem_append_left _ member)
    rw [kept q (Forest.ne_of_mem_children own member) (other q inside)]
    exact shows.inChildren distinct member
  · intro q member
    rw [Forest.ptrs, Forest.ptrs, List.append_nil, List.mem_singleton] at member
    subst member
    rw [Cells.read_update, if_neg (other p here).symm, beside.new, Forest.links_node_self]
    rfl
  · intro q member absent
    exfalso
    apply absent
    rw [Forest.ptrs, List.mem_cons, List.mem_append] at member ⊢
    rcases member with same | inside | none_
    · exact .inl same
    · exact .inr (.inl inside)
    · cases none_

/-- The new cell becomes the first child. -/
theorem shows_first (shows : Shows before (context.fill (.node p .nil next)))
    (distinct : (context.fill (.node p .nil next)).ptrs.Nodup)
    (fresh : c ∉ (context.fill (.node p .nil next)).ptrs) (beside : Beside cells before (some p) c) :
    (context.fill (.node p (.node c .nil .nil) next)).ptrs.Nodup ∧
      Shows (cells.update p (setChildren (some c)))
        (context.fill (.node p (.node c .nil .nil) next)) := by
  have own := Context.nodup_part distinct
  have other : ∀ q ∈ (Forest.node p .nil next).ptrs, q ≠ c := by
    intro q member same
    exact fresh (same ▸ Context.mem_fill member)
  have here : p ∈ (Forest.node p .nil next).ptrs := List.mem_cons_self
  have listed : (Forest.node p (.node c .nil .nil) next).ptrs = p :: c :: next.ptrs := rfl
  have whole : (context.fill (.node p (.node c .nil .nil) next)).ptrs.Nodup := by
    apply Context.nodup_fill distinct
    · rw [listed]
      have absent : c ∉ next.ptrs := fun inside =>
        other c (List.mem_cons_of_mem _ (List.mem_append_right _ inside)) rfl
      rw [List.nodup_cons, List.mem_cons, not_or, List.nodup_cons]
      exact ⟨⟨other p here, (List.nodup_cons.mp own).1⟩, absent, Forest.nodup_next own⟩
    · intro q member
      rw [listed, List.mem_cons, List.mem_cons] at member
      rcases member with same | new | inside
      · exact .inl (same ▸ here)
      · exact .inr (new ▸ fresh)
      · exact .inl (List.mem_cons_of_mem _ (List.mem_append_right _ inside))
  refine ⟨whole, ?_⟩
  have kept : ∀ q, q ≠ p → q ≠ c → (cells.update p (setChildren (some c))).read q = before.read q := by
    intro q self new
    rw [Cells.read_update, if_neg self, beside.others q new]
  apply shows.replaceNode whole
  · intro q absent absentNew
    apply kept
    · exact fun same => absent (same ▸ here)
    · intro same
      subst same
      apply absentNew
      simp [Forest.ptrs]
  · rcases shows.at_ distinct with ⟨node, there, next_, kids, parent⟩
    rw [Cells.read_update, if_pos rfl, beside.others p (other p here), there]
    show some (Command.links (setChildren (some c) node)) = _
    rw [Command.links, setChildren, next_, parent]
    rfl
  · intro q member
    rw [Forest.ptrs, Forest.ptrs, List.append_nil, List.mem_singleton] at member
    subst member
    rw [Cells.read_update, if_neg (other p here).symm, beside.new, Forest.links_node_self]
    rfl
  · intro q member
    have inside : q ∈ (Forest.node p .nil next).ptrs :=
      List.mem_cons_of_mem _ (List.mem_append_right _ member)
    rw [kept q (Forest.ne_of_mem_next own member) (other q inside)]
    exact shows.inNext distinct member
  · intro q member absent
    exfalso
    apply absent
    rw [listed, List.mem_cons, List.mem_cons]
    rw [Forest.ptrs, Forest.ptrs, List.nil_append, List.mem_cons] at member
    rcases member with same | inside
    · exact .inl same
    · exact .inr (.inr inside)

end Link

/-- The forest grows by a leaf, and the heads of its lists stay. -/
theorem OnMenu.grow {cli after : CliDef} {context : Context Ptr} {p : Ptr}
    {children next newChildren newNext : Forest Ptr}
    (menu : OnMenu cli (context.fill (.node p children next)))
    (kids : ∀ q, children.head? = some q → newChildren.head? = some q)
    (below : ∀ q ∈ children.inner, q ∈ newChildren.inner)
    (behind : ∀ q ∈ next.inner, q ∈ newNext.inner)
    (same : after.commandsCurrent = cli.commandsCurrent) :
    OnMenu after (context.fill (.node p newChildren newNext)) := by
  have filled : ∀ part : Forest Ptr, part.head? ≠ none → context.fill part ≠ .nil := by
    intro part some_ none_
    cases context with
    | hole =>
        rw [Context.fill] at none_
        subst none_
        exact some_ rfl
    | under ptr rest next => cases none_
    | after ptr children rest => cases none_
  constructor
  · rw [same, menu.empty]
    have before := filled (.node p children next) (Option.some_ne_none p)
    have later := filled (.node p newChildren newNext) (Option.some_ne_none p)
    exact ⟨fun none_ => absurd none_ before, fun none_ => absurd none_ later⟩
  · intro q current
    rw [same] at current
    apply Context.first_fill context _ _ (menu.first q current)
    · exact fun head => head
    · intro inside
      rw [Forest.inner, List.mem_append, List.mem_append, Option.mem_toList] at inside ⊢
      rcases inside with (head | deeper) | later
      · exact .inl (.inl (kids q head))
      · exact .inl (.inr (below q deeper))
      · exact .inr (behind q later)

theorem alloc_beside {before : Cells Command} {c : Ptr} (unused : before.Unused c) {cell : Command}
    {parent : Option Ptr} (links : cell.links = ⟨none, none, parent⟩) :
    Beside (before.alloc c cell) before parent c := by
  constructor
  · rw [Cells.read_alloc unused.2, if_pos rfl, Option.map_some, links]
  · intro q other
    rw [Cells.read_alloc unused.2, if_neg other]

theorem Cells.length_le_alloc (before : Cells Command) (c : Ptr) (cell : Command) :
    before.length ≤ (before.alloc c cell).length := by
  rw [Cells.alloc]
  split
  · rw [List.length_set]
  · rw [List.length_append]
    exact Nat.le_add_right _ _

theorem linkCommand_behind {cli : CliDef} {parent : Option Ptr} {c first last : Ptr}
    (start : parent.elim (some cli.commandsRoot) (fun owner =>
      (cli.cells.read owner).map Command.children) = some (some first))
    (walked : lastSibling cli.cells cli.cells.length first = some last) :
    linkCommand cli parent c = some { cli with cells := cli.cells.update last (setNext (some c)) } := by
  cases parent with
  | none =>
      have root : cli.commandsRoot = some first := Option.some.inj start
      rw [linkCommand, root]
      dsimp only
      rw [walked, Option.map_some]
  | some owner =>
      rcases Option.map_eq_some_iff.mp start with ⟨node, there, kids⟩
      rw [linkCommand, there, Option.bind_some, kids]
      dsimp only
      rw [walked, Option.map_some]

section Linking

variable {cli : CliDef} {forest : Forest Ptr} {c : Ptr} {cell : Command}

/-- The new cell is hung behind the last of a list. -/
theorem linkCommand_last (represents : Represents cli forest) (menu : OnMenu cli forest)
    (unused : cli.cells.Unused c) {parent : Option Ptr} (links : cell.links = ⟨none, none, parent⟩)
    (context : Context Ptr) {a : Ptr} {below behind : Forest Ptr}
    (place : forest = context.fill (.node a below behind)) (owned : context.owner none = parent)
    (start : parent.elim (some cli.commandsRoot) (fun owner =>
      ((cli.cells.alloc c cell).read owner).map Command.children) = some (some a)) :
    ∃ after, linkCommand { cli with cells := cli.cells.alloc c cell } parent c = some after ∧
      Represents after (context.fill ((Forest.node a below behind).push c)) ∧
      OnMenu after (context.fill ((Forest.node a below behind).push c)) := by
  have beside := alloc_beside unused links
  have fresh : c ∉ forest.ptrs := mt represents.cells.read_iff.mpr (not_not.mpr unused.1)
  have shows := represents.cells
  have distinct := represents.distinct
  have root := represents.root
  have agree : ∀ q ∈ forest.ptrs, (cli.cells.alloc c cell).read q = cli.cells.read q :=
    fun q member => beside.others q (fun same => fresh (same ▸ member))
  rcases Forest.exists_last a below behind with ⟨inside, last, kids, found, tail, pushed, level⟩
  rw [place] at shows distinct fresh menu root agree
  have enough : (Forest.node a below behind).roots.length ≤ (cli.cells.alloc c cell).length :=
    Nat.le_trans (shows.fuel distinct) (Cells.length_le_alloc cli.cells c cell)
  have walked := lastSibling_eq _ shows distinct agree enough
  have deeper : ∀ part, (context.comp inside).fill part = context.fill (inside.fill part) :=
    fun part => Context.fill_comp ..
  rw [tail, ← deeper] at shows distinct fresh menu root
  have same : (context.comp inside).owner none = parent := by
    rw [Context.owner_comp, level, owned]
  have grown := shows_behind shows distinct fresh (same ▸ beside)
  refine ⟨_, linkCommand_behind start (walked.trans found), ?_, ?_⟩
  · rw [pushed, ← deeper]
    constructor
    · exact grown.2
    · rw [root]
      exact Context.head?_fill rfl
    · exact grown.1
  · rw [pushed, ← deeper]
    apply menu.grow
    · exact fun q head => head
    · exact fun q inside => inside
    · intro q none_
      cases none_
    · rfl

theorem linkCommand_spec (represents : Represents cli forest) (menu : OnMenu cli forest)
    (unused : cli.cells.Unused c) {parent : Option Ptr} (live : ∀ owner ∈ parent, owner ∈ forest.ptrs)
    (links : cell.links = ⟨none, none, parent⟩) :
    ∃ after, linkCommand { cli with cells := cli.cells.alloc c cell } parent c = some after ∧
      Represents after (forest.add parent c) ∧ OnMenu after (forest.add parent c) := by
  have beside := alloc_beside unused links
  have fresh : c ∉ forest.ptrs := mt represents.cells.read_iff.mpr (not_not.mpr unused.1)
  cases parent with
  | none =>
      cases forest with
      | nil =>
          refine ⟨_, by rw [linkCommand, represents.root]; rfl, ?_, ?_⟩
          · constructor
            · intro q
              by_cases same : q = c
              · subst same
                rw [beside.new]
                exact (Forest.links_node_self q .nil .nil none).symm
              · rw [beside.others q same, represents.cells q]
                symm
                apply (Forest.links_none_iff _ none q).mpr
                simpa [Forest.add, Forest.push, Forest.ptrs] using same
            · rfl
            · exact List.nodup_singleton c
          · constructor
            · exact ⟨fun none_ => absurd none_ (Option.some_ne_none c), fun none_ => by cases none_⟩
            · exact fun q current => .inl current
      | node a below behind =>
          exact linkCommand_last represents menu unused links .hole rfl rfl
            (congrArg some represents.root)
  | some owner =>
      have shows := represents.cells
      have distinct := represents.distinct
      have here := live owner rfl
      rcases Forest.exists_fill here with ⟨context, kids, next, place⟩
      have grow : forest.add (some owner) c = context.fill (.node owner (kids.push c) next) := by
        rw [place, Forest.add, Option.elim_some]
        exact Context.pushUnder_fill (place ▸ distinct) c
      rw [grow]
      have there : ∃ node, (cli.cells.alloc c cell).read owner = some node ∧
          node.children = kids.head? := by
        rw [place] at shows distinct
        rcases shows.at_ distinct with ⟨node, there, _, first, _⟩
        exact ⟨node, (beside.others owner (fun same => fresh (same ▸ here))).trans there, first⟩
      rcases there with ⟨node, there, first⟩
      cases kids with
      | nil =>
          have root := represents.root
          rw [place] at shows distinct fresh menu root
          have grown := shows_first shows distinct fresh beside
          refine ⟨_, by rw [linkCommand, there, Option.bind_some, first]; rfl, ?_, ?_⟩
          · constructor
            · exact grown.2
            · rw [root]
              exact Context.head?_fill rfl
            · exact grown.1
          · apply menu.grow
            · intro q none_
              cases none_
            · intro q none_
              cases none_
            · exact fun q inside => inside
            · rfl
      | node a below behind =>
          have deeper : ∀ part, (context.comp (.under owner .hole next)).fill part =
              context.fill (.node owner part next) := fun part => Context.fill_comp ..
          have linked := linkCommand_last represents menu unused links
            (context.comp (.under owner .hole next)) (place.trans (deeper _).symm)
            (Context.owner_comp ..)
            (by rw [Option.elim_some, there, Option.map_some, first]; rfl)
          rw [deeper] at linked
          exact linked

end Linking

/-! ### The unique lengths -/

def nameOf (cells : Cells Command) (p : Ptr) : List Byte :=
  (cells.read p).elim [] (fun node => node.command.val)

/-- What the inner loop finds among the siblings. -/
def shortest (name : Ptr → List Byte) (level : List Ptr) (c : Ptr) : Nat :=
  level.foldl (fun len p => if c = p then len
    else if len < matchLen (name c) (name p) then matchLen (name c) (name p) else len) 1

theorem longestMatch_eq {cells : Cells Command} {context : Context Ptr} {part : Forest Ptr} (c : Ptr)
    (fuel uniqueLen : Nat) (shows : Shows cells (context.fill part))
    (distinct : (context.fill part).ptrs.Nodup) (enough : part.roots.length ≤ fuel) :
    longestMatch cells c (nameOf cells c) fuel part.head? uniqueLen =
      some (part.roots.foldl (fun len p => if c = p then len
        else if len < matchLen (nameOf cells c) (nameOf cells p) then
          matchLen (nameOf cells c) (nameOf cells p) else len) uniqueLen) := by
  induction part generalizing context fuel uniqueLen with
  | nil =>
      cases fuel with
      | zero => rfl
      | succ fuel => rfl
  | node p below behind _ ih =>
      rcases shows.at_ distinct with ⟨node, there, next, _⟩
      cases fuel with
      | zero => exact absurd enough (Nat.not_succ_le_zero _)
      | succ fuel =>
          have name : nameOf cells p = node.command.val := by rw [nameOf, there, Option.elim_some]
          have moved : (context.comp (.after p below .hole)).fill behind =
              context.fill (.node p below behind) := Context.fill_comp ..
          rw [← moved] at shows distinct
          have rest (len : Nat) := ih fuel len shows distinct (Nat.le_of_succ_le_succ enough)
          rw [Forest.head?, longestMatch, there, Option.bind_some, next, Forest.roots, List.foldl_cons,
            ← name]
          split
          · exact rest _
          · exact rest _

/-- Setting lengths leaves links and names alone. -/
structure Relabelled (before after : Cells Command) (lens : Ptr → Option Nat) : Prop where
  length : after.length = before.length
  read : ∀ p, after.read p = (lens p).elim (before.read p) (fun len =>
    (before.read p).map (setUniqueLen len))

theorem Relabelled.links {before after : Cells Command} {lens : Ptr → Option Nat}
    (relabelled : Relabelled before after lens) (p : Ptr) :
    (after.read p).map Command.links = (before.read p).map Command.links := by
  rw [relabelled.read p]
  cases lens p with
  | none => rfl
  | some len =>
      rw [Option.elim_some, Option.map_map]
      rfl

theorem Relabelled.names {before after : Cells Command} {lens : Ptr → Option Nat}
    (relabelled : Relabelled before after lens) : nameOf after = nameOf before := by
  funext p
  rw [nameOf, nameOf, relabelled.read p]
  cases lens p with
  | none => rfl
  | some len =>
      rw [Option.elim_some]
      cases before.read p with
      | none => rfl
      | some node => rfl

theorem Relabelled.shows {before after : Cells Command} {lens : Ptr → Option Nat}
    (relabelled : Relabelled before after lens) {forest : Forest Ptr} (shows : Shows before forest) :
    Shows after forest := by
  intro p
  rw [relabelled.links p, shows p]

theorem Relabelled.trans {before middle after : Cells Command} {first second : Ptr → Option Nat}
    (left : Relabelled before middle first) (right : Relabelled middle after second) :
    Relabelled before after (fun p => (second p).or (first p)) := by
  constructor
  · rw [right.length, left.length]
  · intro p
    rw [right.read p, left.read p]
    cases second p with
    | none => rw [Option.elim_none, Option.none_or]
    | some len =>
        cases first p with
        | none => rfl
        | some earlier =>
            rw [Option.elim_some, Option.elim_some, Option.some_or, Option.elim_some, Option.map_map]
            rfl

theorem relabelled_update (cells : Cells Command) (c : Ptr) (len : Nat) :
    Relabelled cells (cells.update c (setUniqueLen len)) (fun p => if p = c then some len else none) := by
  constructor
  · exact Cells.update_length ..
  · intro p
    rw [Cells.read_update]
    split <;> rfl

/-- The lengths the loop sets below a part of a list. -/
def newLens (name : Ptr → List Byte) (part : Forest Ptr) (level : List Ptr) (p : Ptr) : Option Nat :=
  if p ∈ part.ptrs then some (shortest name (part.siblingsIn level p) p) else none

theorem buildShortestLoop_eq {cells : Cells Command} {context whole : Context Ptr}
    {part level : Forest Ptr} (fuel : Nat) (shows : Shows cells (context.fill part))
    (distinct : (context.fill part).ptrs.Nodup) (same : context.fill part = whole.fill level)
    (enough : part.ptrs.length ≤ fuel) :
    ∃ after, buildShortestLoop fuel level.head? part.head? cells = some after ∧
      Relabelled cells after (newLens (nameOf cells) part level.roots) := by
  induction part generalizing context whole level fuel cells with
  | nil =>
      refine ⟨cells, ?_, rfl, ?_⟩
      · cases fuel <;> rfl
      · intro p
        rfl
  | node c below behind belowIh behindIh =>
      rcases shows.at_ distinct with ⟨node, there, next, kids, _⟩
      cases fuel with
      | zero => exact absurd enough (Nat.not_succ_le_zero _)
      | succ fuel =>
          have name : nameOf cells c = node.command.val := by rw [nameOf, there, Option.elim_some]
          have walks := shows
          have nodup := distinct
          rw [same] at walks nodup
          have found : longestMatch cells c node.command.val cells.length level.head? 1 =
              some (shortest (nameOf cells) level.roots c) := by
            rw [← name]
            exact longestMatch_eq c cells.length 1 walks nodup (walks.fuel nodup)
          have whole_ : (Forest.node c below behind).ptrs.length =
              below.ptrs.length + behind.ptrs.length + 1 := by
            rw [Forest.ptrs, List.length_cons, List.length_append]
          have inside : (context.comp (.under c .hole behind)).fill below =
              context.fill (.node c below behind) := Context.fill_comp ..
          have later : (context.comp (.after c below .hole)).fill behind =
              context.fill (.node c below behind) := Context.fill_comp ..
          have set := relabelled_update cells c (shortest (nameOf cells) level.roots c)
          have step : buildShortestLoop (fuel + 1) level.head? (some c) cells =
              (if node.children ≠ none then buildShortestLoop fuel node.children node.children
                (cells.update c (setUniqueLen (shortest (nameOf cells) level.roots c)))
              else some (cells.update c (setUniqueLen (shortest (nameOf cells) level.roots c)))).bind
                (fun cells => buildShortestLoop fuel level.head? node.next cells) := by
            rw [buildShortestLoop, there, Option.bind_some, found, Option.bind_some]
          generalize cells.update c (setUniqueLen (shortest (nameOf cells) level.roots c)) = labelled
            at set step
          have deeper : ∃ after, (if node.children ≠ none then
                buildShortestLoop fuel node.children node.children labelled else some labelled) =
                  some after ∧ Relabelled labelled after (newLens (nameOf cells) below below.roots) := by
            have shown := set.shows shows
            have nodup := distinct
            rw [← inside] at shown nodup
            have room : below.ptrs.length ≤ fuel := by omega
            rcases belowIh fuel shown nodup rfl room with ⟨after, ran, relabelled⟩
            rw [set.names] at relabelled
            rw [kids]
            split
            · exact ⟨after, ran, relabelled⟩
            · rename_i none_
              cases below with
              | nil => exact ⟨labelled, rfl, rfl, fun p => rfl⟩
              | node first _ _ => exact absurd (Option.some_ne_none first) none_
          rcases deeper with ⟨middle, ran, lower⟩
          have both := set.trans lower
          have shown := both.shows shows
          have own := Context.nodup_part distinct
          have room : behind.ptrs.length ≤ fuel := by omega
          rw [← later] at shown distinct same
          rcases behindIh fuel shown distinct same room with ⟨after, rest, upper⟩
          rw [both.names] at upper
          refine ⟨after, ?_, ?_⟩
          · rw [Forest.head?, step, ran, Option.bind_some, next, rest]
          · refine ⟨(both.trans upper).length, ?_⟩
            intro p
            rw [(both.trans upper).read p]
            congr 1
            rw [newLens, newLens, newLens, Forest.siblingsIn]
            by_cases self : p = c
            · subst self
              have notBelow : p ∉ below.ptrs := fun member => Forest.ne_of_mem_children own member rfl
              have notBehind : p ∉ behind.ptrs := fun member => Forest.ne_of_mem_next own member rfl
              simp [notBelow, notBehind, Forest.ptrs]
            by_cases down : p ∈ below.ptrs
            · simp [self, down, Forest.notMem_next own down, Forest.ptrs]
            · simp [self, down, Forest.ptrs]

theorem Represents.relabelled {cli : CliDef} {forest : Forest Ptr} (represents : Represents cli forest)
    {cells : Cells Command} {lens : Ptr → Option Nat} (relabelled : Relabelled cli.cells cells lens) :
    Represents { cli with cells := cells } forest where
  cells := relabelled.shows represents.cells
  root := represents.root
  distinct := represents.distinct

/-- Building the lengths of the whole tree. -/
theorem cliBuildShortest_eq {cli : CliDef} {forest : Forest Ptr} (represents : Represents cli forest) :
    ∃ cells, cliBuildShortest cli cli.commandsRoot = some { cli with cells := cells } ∧
      Relabelled cli.cells cells (newLens (nameOf cli.cells) forest forest.roots) := by
  have whole : Context.hole.fill forest = Context.hole.fill forest := rfl
  have shows : Shows cli.cells (Context.hole.fill forest) := represents.cells
  rcases buildShortestLoop_eq cli.cells.length shows represents.distinct whole
    (represents.cells.length_le represents.distinct) with ⟨cells, ran, relabelled⟩
  refine ⟨cells, ?_, relabelled⟩
  rw [cliBuildShortest, represents.root, ran, Option.map_some]

section Register

variable {cli : CliDef} {forest : Forest Ptr}

theorem cliRegisterCommand2_spec (represents : Represents cli forest) (menu : OnMenu cli forest)
    (registration : Registration) (live : ∀ owner ∈ registration.parent, owner ∈ forest.ptrs)
    (unused : ∀ c ∈ registration.memory, cli.cells.Unused c) :
    ∃ middle, cliRegisterCommand2 cli registration = some (middle, registration.new) ∧
      Represents middle (registration.new.elim forest (forest.add registration.parent)) ∧
      OnMenu middle (registration.new.elim forest (forest.add registration.parent)) := by
  rw [cliRegisterCommand2, Registration.new]
  cases registration.command with
  | none => exact ⟨cli, rfl, represents, menu⟩
  | some name =>
      cases memory : registration.memory with
      | none => exact ⟨cli, rfl, represents, menu⟩
      | some c =>
          have bare : (registration.cell name).links = ⟨none, none, registration.parent⟩ := rfl
          rcases linkCommand_spec represents menu (unused c memory) live bare with
            ⟨after, linked, tree, current⟩
          refine ⟨after, ?_, tree, current⟩
          dsimp only
          rw [linked, Option.map_some]
          rfl

/-- A registration hangs a leaf into the tree when it has a name and memory. -/
theorem cliRegisterCommand_spec (represents : Represents cli forest) (menu : OnMenu cli forest)
    (registration : Registration) (live : ∀ owner ∈ registration.parent, owner ∈ forest.ptrs)
    (unused : ∀ c ∈ registration.memory, cli.cells.Unused c) :
    ∃ after, cliRegisterCommand cli registration = some (after, registration.new) ∧
      Represents after (registration.new.elim forest (forest.add registration.parent)) ∧
      OnMenu after (registration.new.elim forest (forest.add registration.parent)) := by
  rcases cliRegisterCommand2_spec represents menu registration live unused with
    ⟨middle, ran, tree, current⟩
  rcases cliBuildShortest_eq tree with ⟨cells, built, relabelled⟩
  refine ⟨{ middle with cells := cells }, ?_, tree.relabelled relabelled, ?_⟩
  · rw [cliRegisterCommand, ran, Option.bind_some, built, Option.map_some]
  · exact ⟨current.empty, current.first⟩

end Register

end Alisl.Cli
