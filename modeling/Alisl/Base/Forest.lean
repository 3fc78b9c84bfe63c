import Mathlib.Data.List.Nodup
import Mathlib.Tactic

/-! Trees kept as linked siblings: a node points to its first child and to the
next node of its own list. -/

namespace Alisl.Base

inductive Forest (Ptr : Type) where
  | nil
  | node (ptr : Ptr) (children next : Forest Ptr)

/-- The pointers a node holds. -/
@[ext] structure NodeLinks (Ptr : Type) where
  next : Option Ptr
  children : Option Ptr
  parent : Option Ptr
  deriving DecidableEq

namespace Forest

variable {Ptr : Type}

def head? : Forest Ptr → Option Ptr
  | nil => none
  | node ptr _ _ => some ptr

def ptrs : Forest Ptr → List Ptr
  | nil => []
  | node ptr children next => ptr :: (children.ptrs ++ next.ptrs)

/-- The first sibling list. -/
def roots : Forest Ptr → List Ptr
  | nil => []
  | node ptr _ next => ptr :: next.roots

/-- A leaf at the end of the first sibling list. -/
def push : Forest Ptr → Ptr → Forest Ptr
  | nil, new => node new nil nil
  | node ptr children next, new => node ptr children (next.push new)

/-- The heads of the sibling lists below the first. -/
def inner : Forest Ptr → List Ptr
  | nil => []
  | node _ children next => children.head?.toList ++ children.inner ++ next.inner

/-- The node is the first of some sibling list. -/
def First (forest : Forest Ptr) (q : Ptr) : Prop := forest.head? = some q ∨ q ∈ forest.inner

/-- A forest with a place left open. -/
inductive Context (Ptr : Type) where
  | hole
  | under (ptr : Ptr) (rest : Context Ptr) (next : Forest Ptr)
  | after (ptr : Ptr) (children : Forest Ptr) (rest : Context Ptr)

namespace Context

def fill : Context Ptr → Forest Ptr → Forest Ptr
  | hole, part => part
  | under ptr rest next, part => node ptr (rest.fill part) next
  | after ptr children rest, part => node ptr children (rest.fill part)

/-- The parent of the list the open place is in. -/
def owner : Context Ptr → Option Ptr → Option Ptr
  | hole, parent => parent
  | under ptr rest _, _ => rest.owner (some ptr)
  | after _ _ rest, parent => rest.owner parent

def comp : Context Ptr → Context Ptr → Context Ptr
  | hole, inside => inside
  | under ptr rest next, inside => under ptr (rest.comp inside) next
  | after ptr children rest, inside => after ptr children (rest.comp inside)

theorem fill_comp (outside inside : Context Ptr) (part : Forest Ptr) :
    (outside.comp inside).fill part = outside.fill (inside.fill part) := by
  induction outside with
  | hole => rfl
  | under ptr rest next ih => rw [comp, fill, fill, ih]
  | after ptr children rest ih => rw [comp, fill, fill, ih]

theorem owner_comp (outside inside : Context Ptr) (parent : Option Ptr) :
    (outside.comp inside).owner parent = inside.owner (outside.owner parent) := by
  induction outside generalizing parent with
  | hole => rfl
  | under ptr rest next ih => rw [comp, owner, owner, ih]
  | after ptr children rest ih => rw [comp, owner, owner, ih]

theorem mem_fill {context : Context Ptr} {part : Forest Ptr} {q : Ptr} (member : q ∈ part.ptrs) :
    q ∈ (context.fill part).ptrs := by
  induction context with
  | hole => exact member
  | under ptr rest next ih => exact List.mem_cons_of_mem _ (List.mem_append_left _ ih)
  | after ptr children rest ih => exact List.mem_cons_of_mem _ (List.mem_append_right _ ih)

end Context

section Node


variable {ptr q : Ptr} {children next : Forest Ptr}
  (distinct : (node ptr children next).ptrs.Nodup)

include distinct

theorem nodup_children : children.ptrs.Nodup :=
  (List.nodup_append.mp (List.nodup_cons.mp distinct).2).1

theorem nodup_next : next.ptrs.Nodup :=
  (List.nodup_append.mp (List.nodup_cons.mp distinct).2).2.1

theorem ne_of_mem_children (member : q ∈ children.ptrs) : q ≠ ptr := by
  intro same
  subst same
  exact (List.nodup_cons.mp distinct).1 (List.mem_append_left _ member)

theorem ne_of_mem_next (member : q ∈ next.ptrs) : q ≠ ptr := by
  intro same
  subst same
  exact (List.nodup_cons.mp distinct).1 (List.mem_append_right _ member)

theorem notMem_next (member : q ∈ children.ptrs) : q ∉ next.ptrs := by
  intro other
  exact (List.nodup_append.mp (List.nodup_cons.mp distinct).2).2.2 q member q other rfl

end Node

theorem Context.nodup_part {context : Context Ptr} {part : Forest Ptr}
    (distinct : (context.fill part).ptrs.Nodup) : part.ptrs.Nodup := by
  induction context with
  | hole => exact distinct
  | under ptr rest next ih => exact ih (nodup_children distinct)
  | after ptr children rest ih => exact ih (nodup_next distinct)

theorem Context.head?_fill {context : Context Ptr} {part other : Forest Ptr}
    (same : part.head? = other.head?) : (context.fill part).head? = (context.fill other).head? := by
  cases context with
  | hole => exact same
  | under ptr rest next => rfl
  | after ptr children rest => rfl

/-! ### Places -/

theorem exists_fill {forest : Forest Ptr} {q : Ptr} (member : q ∈ forest.ptrs) :
    ∃ (context : Context Ptr) (children next : Forest Ptr),
      forest = context.fill (node q children next) := by
  induction forest with
  | nil => cases member
  | node ptr children next childrenIh nextIh =>
      rw [ptrs, List.mem_cons, List.mem_append] at member
      rcases member with same | below | behind
      · subst same
        exact ⟨.hole, children, next, rfl⟩
      · rcases childrenIh below with ⟨context, kids, rest, place⟩
        exact ⟨.under ptr context next, kids, rest, by rw [Context.fill, ← place]⟩
      · rcases nextIh behind with ⟨context, kids, rest, place⟩
        exact ⟨.after ptr children context, kids, rest, by rw [Context.fill, ← place]⟩

/-- A node is in the first sibling list, or among the children of a node. -/
theorem exists_level {forest : Forest Ptr} {q : Ptr} (member : q ∈ forest.ptrs) :
    q ∈ forest.roots ∨ ∃ (context : Context Ptr) (owner : Ptr) (level next : Forest Ptr),
      forest = context.fill (node owner level next) ∧ q ∈ level.roots := by
  induction forest with
  | nil => cases member
  | node ptr children next childrenIh nextIh =>
      rw [ptrs, List.mem_cons, List.mem_append] at member
      rcases member with same | below | behind
      · subst same
        exact .inl List.mem_cons_self
      · right
        rcases childrenIh below with first | ⟨context, owner, level, rest, place, inside⟩
        · exact ⟨.hole, ptr, children, next, rfl, first⟩
        · exact ⟨.under ptr context next, owner, level, rest, by rw [Context.fill, ← place], inside⟩
      · rcases nextIh behind with first | ⟨context, owner, level, rest, place, inside⟩
        · exact .inl (List.mem_cons_of_mem _ first)
        · exact .inr ⟨.after ptr children context, owner, level, rest,
            by rw [Context.fill, ← place], inside⟩

/-- The nodes of a part stand together in the order of the whole. -/
theorem Context.ptrs_fill (context : Context Ptr) :
    ∃ front back, ∀ part : Forest Ptr, (context.fill part).ptrs = front ++ part.ptrs ++ back := by
  induction context with
  | hole =>
      refine ⟨[], [], ?_⟩
      intro part
      rw [fill, List.nil_append, List.append_nil]
  | under ptr rest next ih =>
      rcases ih with ⟨front, back, split⟩
      refine ⟨ptr :: front, back ++ next.ptrs, ?_⟩
      intro part
      simp only [fill, ptrs, split, List.cons_append, List.append_assoc]
  | after ptr children rest ih =>
      rcases ih with ⟨front, back, split⟩
      refine ⟨ptr :: (children.ptrs ++ front), back, ?_⟩
      intro part
      simp only [fill, ptrs, split, List.cons_append, List.append_assoc]

theorem Context.notMem_of_nodup {context : Context Ptr} {part : Forest Ptr} {q : Ptr}
    (distinct : (context.fill part).ptrs.Nodup) (member : q ∈ part.ptrs) {other : Forest Ptr}
    (absent : q ∉ other.ptrs) : q ∉ (context.fill other).ptrs := by
  rcases context.ptrs_fill with ⟨front, back, split⟩
  rw [split] at distinct ⊢
  have apart := List.nodup_append.mp distinct
  have front_ := (List.nodup_append.mp apart.1).2.2
  intro inside
  rw [List.mem_append, List.mem_append] at inside
  rcases inside with (before | within) | behind
  · exact front_ q before q member rfl
  · exact absent within
  · exact apart.2.2 q (List.mem_append_right _ member) q behind rfl

theorem Context.nodup_fill {context : Context Ptr} {part other : Forest Ptr}
    (distinct : (context.fill part).ptrs.Nodup) (own : other.ptrs.Nodup)
    (known : ∀ q ∈ other.ptrs, q ∈ part.ptrs ∨ q ∉ (context.fill part).ptrs) :
    (context.fill other).ptrs.Nodup := by
  rcases context.ptrs_fill with ⟨front, back, split⟩
  rw [split] at distinct known ⊢
  have apart := List.nodup_append.mp distinct
  have front_ := List.nodup_append.mp apart.1
  have clear : ∀ q ∈ other.ptrs, q ∉ front ∧ q ∉ back := by
    intro q member
    rcases known q member with inside | absent
    · exact ⟨fun before => front_.2.2 q before q inside rfl,
        fun behind => apart.2.2 q (List.mem_append_right _ inside) q behind rfl⟩
    · rw [List.mem_append, List.mem_append, not_or, not_or] at absent
      exact ⟨absent.1.1, absent.2⟩
  apply List.Nodup.append
  · apply List.Nodup.append front_.1 own
    intro q before inside
    exact (clear q inside).1 before
  · exact apart.2.1
  · intro q inside behind
    rcases List.mem_append.mp inside with before | member
    · exact apart.2.2 q (List.mem_append_left _ before) q behind rfl
    · exact (clear q member).2 behind

theorem mem_of_mem_roots {forest : Forest Ptr} {q : Ptr} (member : q ∈ forest.roots) :
    q ∈ forest.ptrs := by
  induction forest with
  | nil => cases member
  | node ptr children next _ ih =>
      rcases List.mem_cons.mp member with same | behind
      · exact same ▸ List.mem_cons_self
      · exact List.mem_cons_of_mem _ (List.mem_append_right _ (ih behind))

theorem roots_length_le (forest : Forest Ptr) : forest.roots.length ≤ forest.ptrs.length := by
  induction forest with
  | nil => exact Nat.le_refl _
  | node ptr children next _ ih =>
      rw [roots, ptrs, List.length_cons, List.length_cons, List.length_append]
      omega

/-- The open place is as large as what stands in it, at most. -/
theorem Context.length_le_fill (context : Context Ptr) (part : Forest Ptr) :
    part.ptrs.length ≤ (context.fill part).ptrs.length := by
  rcases context.ptrs_fill with ⟨front, back, split⟩
  rw [split, List.length_append, List.length_append]
  omega

/-- The last of a sibling list: a leaf pushed to the list comes behind it. -/
theorem exists_last (ptr : Ptr) (children next : Forest Ptr) :
    ∃ (context : Context Ptr) (last : Ptr) (kids : Forest Ptr),
      (node ptr children next).roots.getLast? = some last ∧
      node ptr children next = context.fill (node last kids nil) ∧
      (∀ new, (node ptr children next).push new = context.fill (node last kids (node new nil nil))) ∧
      ∀ parent, context.owner parent = parent := by
  induction next generalizing ptr children with
  | nil => exact ⟨.hole, ptr, children, rfl, rfl, fun _ => rfl, fun _ => rfl⟩
  | node other below behind _ ih =>
      rcases ih other below with ⟨context, last, kids, found, place, pushed, owned⟩
      refine ⟨.after ptr children context, last, kids, ?_, ?_, ?_, owned⟩
      · rw [roots, roots, List.getLast?_cons_cons, ← roots.eq_2 other below behind, found]
      · rw [Context.fill, ← place]
      · intro new
        rw [push, pushed, Context.fill]

/-- What is a head stays one when the open place keeps its heads. -/
theorem Context.first_fill (context : Context Ptr) {part other : Forest Ptr} {q : Ptr}
    (head : part.head? = some q → other.head? = some q) (inside : q ∈ part.inner → q ∈ other.inner)
    (first : (context.fill part).First q) : (context.fill other).First q := by
  have both : ((context.fill part).head? = some q → (context.fill other).head? = some q) ∧
      (q ∈ (context.fill part).inner → q ∈ (context.fill other).inner) := by
    clear first
    induction context with
    | hole => exact ⟨head, inside⟩
    | under ptr rest next ih =>
        refine ⟨fun first => first, ?_⟩
        intro below
        rw [fill, inner, List.mem_append, List.mem_append, Option.mem_toList] at below ⊢
        rcases below with (direct | deeper) | behind
        · exact .inl (.inl (ih.1 direct))
        · exact .inl (.inr (ih.2 deeper))
        · exact .inr behind
    | after ptr children rest ih =>
        refine ⟨fun first => first, ?_⟩
        intro below
        rw [fill, inner, List.mem_append] at below ⊢
        rcases below with before | behind
        · exact .inl before
        · exact .inr (ih.2 behind)
  rcases first with direct | below
  · exact .inl (both.1 direct)
  · exact .inr (both.2 below)

theorem mem_of_head? {forest : Forest Ptr} {q : Ptr} (head : forest.head? = some q) :
    q ∈ forest.ptrs := by
  cases forest with
  | nil => cases head
  | node ptr children next => exact Option.some.inj head ▸ List.mem_cons_self

theorem mem_roots_of_head? {forest : Forest Ptr} {q : Ptr} (head : forest.head? = some q) :
    q ∈ forest.roots := by
  cases forest with
  | nil => cases head
  | node ptr children next => exact Option.some.inj head ▸ List.mem_cons_self

theorem mem_of_mem_inner {forest : Forest Ptr} {q : Ptr} (member : q ∈ forest.inner) :
    q ∈ forest.ptrs := by
  induction forest with
  | nil => cases member
  | node ptr children next childrenIh nextIh =>
      rw [inner, List.mem_append, List.mem_append, Option.mem_toList] at member
      rw [ptrs, List.mem_cons, List.mem_append]
      rcases member with (head | below) | behind
      · exact .inr (.inl (mem_of_head? head))
      · exact .inr (.inl (childrenIh below))
      · exact .inr (.inr (nextIh behind))

theorem First.mem {forest : Forest Ptr} {q : Ptr} (first : forest.First q) : q ∈ forest.ptrs := by
  rcases first with head | inside
  · exact mem_of_head? head
  · exact mem_of_mem_inner inside

theorem notMem_inner_of_roots {forest : Forest Ptr} (distinct : forest.ptrs.Nodup) {q : Ptr}
    (member : q ∈ forest.roots) : q ∉ forest.inner := by
  induction forest with
  | nil => cases member
  | node ptr children next childrenIh nextIh =>
      have outside : q ∉ children.ptrs := by
        intro below
        rcases List.mem_cons.mp member with same | behind
        · exact ne_of_mem_children distinct below same
        · exact notMem_next distinct below (mem_of_mem_roots behind)
      intro inside
      rw [inner, List.mem_append, List.mem_append, Option.mem_toList] at inside
      rcases inside with (head | below) | behind
      · exact outside (mem_of_head? head)
      · exact outside (mem_of_mem_inner below)
      · rcases List.mem_cons.mp member with same | later
        · exact ne_of_mem_next distinct (mem_of_mem_inner behind) same
        · exact nextIh (nodup_next distinct) later behind

/-- What stands behind another is no head. -/
theorem Context.not_first {context : Context Ptr} {t q : Ptr} {children next : Forest Ptr}
    (distinct : (context.fill (node t children next)).ptrs.Nodup) (member : q ∈ next.roots) :
    ¬ (context.fill (node t children next)).First q := by
  have inside : q ∈ (node t children next).ptrs :=
    List.mem_cons_of_mem _ (List.mem_append_right _ (mem_of_mem_roots member))
  induction context with
  | hole =>
      intro first
      rcases first with head | below
      · exact ne_of_mem_next distinct (mem_of_mem_roots member) (Option.some.inj head).symm
      · exact notMem_inner_of_roots distinct (List.mem_cons_of_mem _ member) below
  | under ptr rest next_ ih =>
      have down : q ∈ (rest.fill (node t children next)).ptrs := mem_fill inside
      have other := ih (nodup_children distinct)
      intro first
      rcases first with head | below
      · exact ne_of_mem_children distinct down (Option.some.inj head).symm
      · rw [fill, inner, List.mem_append, List.mem_append, Option.mem_toList] at below
        rcases below with (head | deeper) | behind
        · exact other (.inl head)
        · exact other (.inr deeper)
        · exact notMem_next distinct down (mem_of_mem_inner behind)
  | after ptr children_ rest ih =>
      have later : q ∈ (rest.fill (node t children next)).ptrs := mem_fill inside
      have other := ih (nodup_next distinct)
      have outside : q ∉ children_.ptrs := fun below => notMem_next distinct below later
      intro first
      rcases first with head | below
      · exact ne_of_mem_next distinct later (Option.some.inj head).symm
      · rw [fill, inner, List.mem_append, List.mem_append, Option.mem_toList] at below
        rcases below with (head | deeper) | behind
        · exact outside (mem_of_head? head)
        · exact outside (mem_of_mem_inner deeper)
        · exact other (.inr behind)

variable [DecidableEq Ptr]

/-! ### NodeLinks -/

/-- The links of a node when the first sibling list has a given parent. -/
def links : Forest Ptr → Option Ptr → Ptr → Option (NodeLinks Ptr)
  | nil, _, _ => none
  | node ptr children next, parent, q =>
      if q = ptr then some ⟨next.head?, children.head?, parent⟩
      else (children.links (some ptr) q).or (next.links parent q)

/-- A node with all below it, taken out. -/
def remove : Forest Ptr → Ptr → Forest Ptr
  | nil, _ => nil
  | node ptr children next, q =>
      if ptr = q then next else node ptr (children.remove q) (next.remove q)

/-- The children of a node. -/
def kidsOf : Forest Ptr → Ptr → Forest Ptr
  | nil, _ => nil
  | node ptr children next, q =>
      if ptr = q then children
      else if q ∈ children.ptrs then children.kidsOf q else next.kidsOf q

/-- A leaf at the end of the children of a node. -/
def pushUnder : Forest Ptr → Ptr → Ptr → Forest Ptr
  | nil, _, _ => nil
  | node ptr children next, owner, new =>
      if ptr = owner then node ptr (children.push new) next
      else node ptr (children.pushUnder owner new) (next.pushUnder owner new)

theorem links_none_iff (forest : Forest Ptr) (parent : Option Ptr) (q : Ptr) :
    forest.links parent q = none ↔ q ∉ forest.ptrs := by
  induction forest generalizing parent with
  | nil => simp [links, ptrs]
  | node ptr children next childrenIh nextIh =>
      rw [links, ptrs, List.mem_cons, List.mem_append]
      by_cases same : q = ptr
      · simp [same]
      · rw [if_neg same, Option.or_eq_none_iff, childrenIh, nextIh]
        simp [same]

theorem links_isSome {forest : Forest Ptr} {parent : Option Ptr} {q : Ptr}
    (member : q ∈ forest.ptrs) : ∃ found, forest.links parent q = some found := by
  apply Option.ne_none_iff_exists'.mp
  intro none_
  exact (links_none_iff forest parent q).mp none_ member

theorem mem_of_links {forest : Forest Ptr} {parent : Option Ptr} {q : Ptr} {found : NodeLinks Ptr}
    (there : forest.links parent q = some found) : q ∈ forest.ptrs := by
  by_contra outside
  rw [(links_none_iff forest parent q).mpr outside] at there
  cases there

theorem links_node_self (ptr : Ptr) (children next : Forest Ptr) (parent : Option Ptr) :
    (node ptr children next).links parent ptr = some ⟨next.head?, children.head?, parent⟩ := by
  rw [links, if_pos rfl]

section Node

variable {ptr q : Ptr} {children next : Forest Ptr}
  (distinct : (node ptr children next).ptrs.Nodup)

include distinct

theorem links_children (parent : Option Ptr) (member : q ∈ children.ptrs) :
    (node ptr children next).links parent q = children.links (some ptr) q := by
  have shown : ∃ found, children.links (some ptr) q = some found := links_isSome member
  rcases shown with ⟨found, there⟩
  rw [links, if_neg (ne_of_mem_children distinct member), there, Option.some_or]

theorem links_next (parent : Option Ptr) (member : q ∈ next.ptrs) :
    (node ptr children next).links parent q = next.links parent q := by
  have outside : q ∉ children.ptrs := fun inside => notMem_next distinct inside member
  rw [links, if_neg (ne_of_mem_next distinct member), (links_none_iff children _ q).mpr outside,
    Option.none_or]

end Node

/-- Inside a part the links are those of the part. -/
theorem Context.links_fill {context : Context Ptr} {part : Forest Ptr}
    (distinct : (context.fill part).ptrs.Nodup) (parent : Option Ptr) {q : Ptr}
    (member : q ∈ part.ptrs) :
    (context.fill part).links parent q = part.links (context.owner parent) q := by
  induction context generalizing parent with
  | hole => rfl
  | under ptr rest next ih =>
      rw [fill, links_children distinct parent (mem_fill member), owner]
      exact ih (nodup_children distinct) _
  | after ptr children rest ih =>
      rw [fill, links_next distinct parent (mem_fill member), owner]
      exact ih (nodup_next distinct) _

/-- Outside a part the links only see its head. -/
theorem Context.links_outside {context : Context Ptr} {part other : Forest Ptr}
    (same : part.head? = other.head?) (parent : Option Ptr) {q : Ptr} (outside : q ∉ part.ptrs)
    (outsideOther : q ∉ other.ptrs) :
    (context.fill part).links parent q = (context.fill other).links parent q := by
  induction context generalizing parent with
  | hole =>
      rw [fill, fill, (links_none_iff part parent q).mpr outside,
        (links_none_iff other parent q).mpr outsideOther]
  | under ptr rest next ih => rw [fill, fill, links, links, ih, head?_fill same]
  | after ptr children rest ih => rw [fill, fill, links, links, ih, head?_fill same]

/-- Outside a part no parent sees it. -/
theorem Context.parent_outside {context : Context Ptr} {part other : Forest Ptr} (parent : Option Ptr)
    {q : Ptr} (outside : q ∉ part.ptrs) (outsideOther : q ∉ other.ptrs) :
    ((context.fill part).links parent q).map NodeLinks.parent =
      ((context.fill other).links parent q).map NodeLinks.parent := by
  induction context generalizing parent with
  | hole =>
      rw [fill, fill, (links_none_iff part parent q).mpr outside,
        (links_none_iff other parent q).mpr outsideOther]
  | under ptr rest next ih =>
      rw [fill, fill, links, links]
      split
      · rfl
      · rw [Option.map_or, Option.map_or, ih]
  | after ptr children rest ih =>
      rw [fill, fill, links, links]
      split
      · rfl
      · rw [Option.map_or, Option.map_or, ih]

/-- A pointer to a first child is the head of a list. -/
theorem mem_inner_of_children {forest : Forest Ptr} {parent : Option Ptr} {q first : Ptr}
    {found : NodeLinks Ptr} (there : forest.links parent q = some found)
    (child : found.children = some first) : first ∈ forest.inner := by
  induction forest generalizing parent with
  | nil => cases there
  | node ptr children next childrenIh nextIh =>
      rw [inner, List.append_assoc]
      rw [links] at there
      by_cases same : q = ptr
      · rw [if_pos same] at there
        cases there
        apply List.mem_append_left
        rw [Option.mem_toList]
        exact child
      · rw [if_neg same, Option.or_eq_some_iff] at there
        apply List.mem_append_right
        rcases there with below | behind
        · exact List.mem_append_left _ (childrenIh below)
        · exact List.mem_append_right _ (nextIh behind.2)

/-- A parent has children. -/
theorem links_parent {forest : Forest Ptr} (distinct : forest.ptrs.Nodup) {parent : Option Ptr}
    {q owner : Ptr} {found : NodeLinks Ptr} (there : forest.links parent q = some found)
    (owned : found.parent = some owner) :
    parent = some owner ∨
      ∃ above first, forest.links parent owner = some above ∧ above.children = some first := by
  induction forest generalizing parent with
  | nil => cases there
  | node ptr children next childrenIh nextIh =>
      rw [links] at there
      by_cases same : q = ptr
      · rw [if_pos same] at there
        cases there
        exact .inl owned
      rw [if_neg same, Option.or_eq_some_iff] at there
      rcases there with below | behind
      · right
        rcases childrenIh (nodup_children distinct) below with direct | ⟨above, first, found_, child⟩
        · cases direct
          have self := links_node_self owner children next parent
          cases children with
          | nil => cases below
          | node first _ _ => exact ⟨_, first, self, rfl⟩
        · exact ⟨above, first,
            (links_children distinct parent (mem_of_links found_)).trans found_, child⟩
      · rcases nextIh (nodup_next distinct) behind.2 with direct | ⟨above, first, found_, child⟩
        · exact .inl direct
        · exact .inr ⟨above, first,
            (links_next distinct parent (mem_of_links found_)).trans found_, child⟩

/-- The sibling list of a node, when the first list is part of a given one. -/
def siblingsIn : Forest Ptr → List Ptr → Ptr → List Ptr
  | nil, _, _ => []
  | node ptr children next, level, q =>
      if q = ptr then level
      else if q ∈ children.ptrs then children.siblingsIn children.roots q
      else next.siblingsIn level q

def siblings (forest : Forest Ptr) (q : Ptr) : List Ptr := forest.siblingsIn forest.roots q

/-- A leaf at the end of the list of a parent. -/
def add (forest : Forest Ptr) (parent : Option Ptr) (new : Ptr) : Forest Ptr :=
  parent.elim (forest.push new) (fun owner => forest.pushUnder owner new)

/-! ### Taking out -/

theorem remove_of_notMem {forest : Forest Ptr} {q : Ptr} (absent : q ∉ forest.ptrs) :
    forest.remove q = forest := by
  induction forest with
  | nil => rfl
  | node ptr children next childrenIh nextIh =>
      rw [ptrs, List.mem_cons, List.mem_append] at absent
      rcases not_or.mp absent with ⟨other, absent⟩
      rcases not_or.mp absent with ⟨below, behind⟩
      rw [remove, if_neg (Ne.symm other), childrenIh below, nextIh behind]

theorem Context.remove_fill {context : Context Ptr} {part : Forest Ptr} {q : Ptr}
    (distinct : (context.fill part).ptrs.Nodup) (member : q ∈ part.ptrs) :
    (context.fill part).remove q = context.fill (part.remove q) := by
  induction context with
  | hole => rfl
  | under ptr rest next ih =>
      have inside : q ∈ (rest.fill part).ptrs := mem_fill member
      rw [fill, remove, if_neg (ne_of_mem_children distinct inside).symm,
        ih (nodup_children distinct), remove_of_notMem (notMem_next distinct inside), fill]
  | after ptr children rest ih =>
      have inside : q ∈ (rest.fill part).ptrs := mem_fill member
      have outside : q ∉ children.ptrs := fun below => notMem_next distinct below inside
      rw [fill, remove, if_neg (ne_of_mem_next distinct inside).symm, ih (nodup_next distinct),
        remove_of_notMem outside, fill]

theorem Context.kidsOf_fill {context : Context Ptr} {q : Ptr} {children next : Forest Ptr}
    (distinct : (context.fill (node q children next)).ptrs.Nodup) :
    (context.fill (node q children next)).kidsOf q = children := by
  have here : q ∈ (node q children next).ptrs := List.mem_cons_self
  induction context with
  | hole => rw [fill, kidsOf, if_pos rfl]
  | under ptr rest next_ ih =>
      have inside : q ∈ (rest.fill (node q children next)).ptrs := mem_fill here
      rw [fill, kidsOf, if_neg (ne_of_mem_children distinct inside).symm, if_pos inside,
        ih (nodup_children distinct)]
  | after ptr children_ rest ih =>
      have inside : q ∈ (rest.fill (node q children next)).ptrs := mem_fill here
      have outside : q ∉ children_.ptrs := fun below => notMem_next distinct below inside
      rw [fill, kidsOf, if_neg (ne_of_mem_next distinct inside).symm, if_neg outside,
        ih (nodup_next distinct)]

theorem pushUnder_of_notMem {forest : Forest Ptr} {q : Ptr} (absent : q ∉ forest.ptrs) (new : Ptr) :
    forest.pushUnder q new = forest := by
  induction forest with
  | nil => rfl
  | node ptr children next childrenIh nextIh =>
      rw [ptrs, List.mem_cons, List.mem_append] at absent
      rcases not_or.mp absent with ⟨other, absent⟩
      rcases not_or.mp absent with ⟨below, behind⟩
      rw [pushUnder, if_neg (Ne.symm other), childrenIh below, nextIh behind]

theorem Context.pushUnder_fill {context : Context Ptr} {q : Ptr} {children next : Forest Ptr}
    (distinct : (context.fill (node q children next)).ptrs.Nodup) (new : Ptr) :
    (context.fill (node q children next)).pushUnder q new =
      context.fill (node q (children.push new) next) := by
  have here : q ∈ (node q children next).ptrs := List.mem_cons_self
  induction context with
  | hole => rw [fill, pushUnder, if_pos rfl, fill]
  | under ptr rest next_ ih =>
      have inside : q ∈ (rest.fill (node q children next)).ptrs := mem_fill here
      rw [fill, pushUnder, if_neg (ne_of_mem_children distinct inside).symm,
        ih (nodup_children distinct), pushUnder_of_notMem (notMem_next distinct inside), fill]
  | after ptr children_ rest ih =>
      have inside : q ∈ (rest.fill (node q children next)).ptrs := mem_fill here
      have outside : q ∉ children_.ptrs := fun below => notMem_next distinct below inside
      rw [fill, pushUnder, if_neg (ne_of_mem_next distinct inside).symm, ih (nodup_next distinct),
        pushUnder_of_notMem outside, fill]

theorem Context.kidsOf_part {context : Context Ptr} {part : Forest Ptr}
    (distinct : (context.fill part).ptrs.Nodup) {q : Ptr} (member : q ∈ part.ptrs) :
    (context.fill part).kidsOf q = part.kidsOf q := by
  rcases exists_fill member with ⟨inside, children, next, place⟩
  have own := Context.nodup_part distinct
  rw [place] at own
  rw [place, ← fill_comp] at distinct
  rw [place, ← fill_comp, kidsOf_fill distinct, kidsOf_fill own]

/-- What is taken out is the node and what is below it; the others keep their order. -/
theorem ptrs_remove {forest : Forest Ptr} (distinct : forest.ptrs.Nodup) {q : Ptr}
    (member : q ∈ forest.ptrs) :
    ∃ front back, forest.ptrs = front ++ (q :: (forest.kidsOf q).ptrs) ++ back ∧
      (forest.remove q).ptrs = front ++ back := by
  rcases exists_fill member with ⟨context, children, next, place⟩
  subst place
  rcases context.ptrs_fill with ⟨front, back, split⟩
  have here : q ∈ (node q children next).ptrs := List.mem_cons_self
  refine ⟨front, next.ptrs ++ back, ?_, ?_⟩
  · rw [Context.kidsOf_fill distinct, split, ptrs]
    simp only [List.append_assoc, List.cons_append]
  · rw [Context.remove_fill distinct here, remove, if_pos rfl, split, List.append_assoc]

theorem nodup_remove {forest : Forest Ptr} (distinct : forest.ptrs.Nodup) (q : Ptr) :
    (forest.remove q).ptrs.Nodup := by
  by_cases member : q ∈ forest.ptrs
  · rcases ptrs_remove distinct member with ⟨front, back, before, after⟩
    rw [before] at distinct
    rw [after]
    refine List.Nodup.sublist ?_ distinct
    exact List.Sublist.append (List.sublist_append_left _ _) (List.Sublist.refl _)
  · rw [remove_of_notMem member]
    exact distinct

/-- Those that stay keep their parents. -/
theorem parent_remove {forest : Forest Ptr} (distinct : forest.ptrs.Nodup) {cmd q : Ptr}
    (member : cmd ∈ forest.ptrs) (stays : q ∈ (forest.remove cmd).ptrs) :
    ((forest.remove cmd).links none q).map NodeLinks.parent =
      (forest.links none q).map NodeLinks.parent := by
  rcases exists_fill member with ⟨context, children, next, place⟩
  subst place
  have here : cmd ∈ (node cmd children next).ptrs := List.mem_cons_self
  have removed : (context.fill (node cmd children next)).remove cmd = context.fill next := by
    rw [Context.remove_fill distinct here, remove, if_pos rfl]
  rw [removed] at stays ⊢
  by_cases behind : q ∈ next.ptrs
  · have inside : q ∈ (node cmd children next).ptrs :=
      List.mem_cons_of_mem _ (List.mem_append_right _ behind)
    rw [Context.links_fill (removed ▸ nodup_remove distinct cmd) none behind,
      Context.links_fill distinct none inside, links_next (Context.nodup_part distinct) _ behind]
  · apply Context.parent_outside none behind
    intro inside
    exact Context.notMem_of_nodup distinct inside behind stays

/-- The other heads stay when a leaf is taken out. -/
theorem First.remove {forest : Forest Ptr} (distinct : forest.ptrs.Nodup) {q leaf : Ptr}
    (first : forest.First q) (other : q ≠ leaf) (bare : forest.kidsOf leaf = nil) :
    (forest.remove leaf).First q := by
  by_cases member : leaf ∈ forest.ptrs
  · rcases exists_fill member with ⟨context, children, next, place⟩
    subst place
    rw [Context.kidsOf_fill distinct] at bare
    subst bare
    have here : leaf ∈ (node leaf nil next).ptrs := List.mem_cons_self
    have gone : (node leaf nil next).remove leaf = next := by rw [Forest.remove, if_pos rfl]
    rw [Context.remove_fill distinct here, gone]
    apply Context.first_fill context _ _ first
    · intro head
      exact absurd (Option.some.inj head).symm other
    · exact fun inside => inside
  · rw [remove_of_notMem member]
    exact first

/-- Only the last node leaves nothing behind. -/
theorem eq_of_remove_eq_nil {forest : Forest Ptr} (distinct : forest.ptrs.Nodup) {q leaf : Ptr}
    (member : q ∈ forest.ptrs) (bare : forest.kidsOf leaf = nil) (none_ : forest.remove leaf = nil) :
    q = leaf := by
  by_cases inside : leaf ∈ forest.ptrs
  · rcases ptrs_remove distinct inside with ⟨front, back, before, after⟩
    rw [none_, ptrs] at after
    rcases List.append_eq_nil_iff.mp after.symm with ⟨noFront, noBack⟩
    rw [before, noFront, noBack, bare] at member
    exact List.mem_singleton.mp member
  · rw [remove_of_notMem inside] at none_
    rw [none_] at member
    cases member

theorem links_roots {forest : Forest Ptr} (distinct : forest.ptrs.Nodup) (parent : Option Ptr) {q : Ptr}
    (member : q ∈ forest.roots) : ∃ found, forest.links parent q = some found ∧ found.parent = parent := by
  induction forest with
  | nil => cases member
  | node ptr children next _ ih =>
      rcases List.mem_cons.mp member with same | behind
      · subst same
        exact ⟨_, links_node_self q children next parent, rfl⟩
      · rcases ih (nodup_next distinct) behind with ⟨found, there, owned⟩
        exact ⟨found, (links_next distinct parent (mem_of_mem_roots behind)).trans there, owned⟩

end Forest

end Alisl.Base
