import Alisl.Base.Forest

/-! The sibling lists of a forest, and what becomes of them when a leaf is hung into it or a
subtree is taken out. -/

namespace Alisl.Base.Forest

variable {Ptr : Type}

/-- The lists below the top one. -/
def innerLists : Forest Ptr → List (List Ptr)
  | nil => []
  | node _ children next => children.roots :: (children.innerLists ++ next.innerLists)

def lists (forest : Forest Ptr) : List (List Ptr) := forest.roots :: forest.innerLists

theorem head?_eq (forest : Forest Ptr) : forest.head? = forest.roots.head? := by
  cases forest <;> rfl

theorem exists_of_mem_innerLists {forest : Forest Ptr} {level : List Ptr}
    (listed : level ∈ forest.innerLists) :
    ∃ (context : Context Ptr) (part : Forest Ptr), forest = context.fill part ∧ part.roots = level := by
  induction forest with
  | nil => cases listed
  | node ptr children next childrenIh nextIh =>
      rw [innerLists, List.mem_cons, List.mem_append] at listed
      rcases listed with own | below | behind
      · exact ⟨.under ptr .hole next, children, rfl, own.symm⟩
      · rcases childrenIh below with ⟨context, part, place, roots⟩
        exact ⟨.under ptr context next, part, by rw [Context.fill, ← place], roots⟩
      · rcases nextIh behind with ⟨context, part, place, roots⟩
        exact ⟨.after ptr children context, part, by rw [Context.fill, ← place], roots⟩

/-- A list stands somewhere in the forest. -/
theorem exists_of_mem_lists {forest : Forest Ptr} {level : List Ptr} (listed : level ∈ forest.lists) :
    ∃ (context : Context Ptr) (part : Forest Ptr), forest = context.fill part ∧ part.roots = level := by
  rcases List.mem_cons.mp listed with top | inner
  · exact ⟨.hole, forest, rfl, top.symm⟩
  · exact exists_of_mem_innerLists inner

theorem mem_of_mem_lists {forest : Forest Ptr} {level : List Ptr} (listed : level ∈ forest.lists)
    {q : Ptr} (member : q ∈ level) : q ∈ forest.ptrs := by
  rcases exists_of_mem_lists listed with ⟨context, part, place, roots⟩
  rw [place]
  exact Context.mem_fill (mem_of_mem_roots (roots ▸ member))

theorem roots_push (forest : Forest Ptr) (new : Ptr) : (forest.push new).roots = forest.roots ++ [new] := by
  induction forest with
  | nil => rfl
  | node ptr children next _ ih => rw [push, roots, ih, roots, List.cons_append]

theorem innerLists_push {forest : Forest Ptr} {new : Ptr} {level : List Ptr}
    (listed : level ∈ (forest.push new).innerLists) : level ∈ forest.innerLists ∨ level = [] := by
  induction forest with
  | nil =>
      right
      simpa [push, innerLists, roots] using listed
  | node ptr children next _ ih =>
      rw [push, innerLists, List.mem_cons, List.mem_append] at listed
      rw [innerLists, List.mem_cons, List.mem_append]
      rcases listed with own | below | behind
      · exact .inl (.inl own)
      · exact .inl (.inr (.inl below))
      · rcases ih behind with before | none_
        · exact .inl (.inr (.inr before))
        · exact .inr none_

variable [DecidableEq Ptr]

theorem siblingsIn_roots {forest : Forest Ptr} (distinct : forest.ptrs.Nodup) (level : List Ptr) {q : Ptr}
    (member : q ∈ forest.roots) : forest.siblingsIn level q = level := by
  induction forest with
  | nil => cases member
  | node ptr children next _ ih =>
      rw [siblingsIn]
      rcases List.mem_cons.mp member with same | later
      · rw [if_pos same]
      · have behind := mem_of_mem_roots later
        have outside : q ∉ children.ptrs := fun inside => notMem_next distinct inside behind
        rw [if_neg (ne_of_mem_next distinct behind), if_neg outside]
        exact ih (nodup_next distinct) later

theorem siblingsIn_inner {forest : Forest Ptr} (distinct : forest.ptrs.Nodup) (level : List Ptr)
    {own : List Ptr} (listed : own ∈ forest.innerLists) {q : Ptr} (member : q ∈ own) :
    forest.siblingsIn level q = own := by
  induction forest generalizing level with
  | nil => cases listed
  | node ptr children next childrenIh nextIh =>
      rw [siblingsIn]
      rw [innerLists, List.mem_cons, List.mem_append] at listed
      rcases listed with top | below | behind
      · have inside := mem_of_mem_roots (top ▸ member)
        rw [if_neg (ne_of_mem_children distinct inside), if_pos inside,
          siblingsIn_roots (nodup_children distinct) _ (top ▸ member), top]
      · have inside := mem_of_mem_lists (List.mem_cons_of_mem _ below) member
        rw [if_neg (ne_of_mem_children distinct inside), if_pos inside]
        exact childrenIh (nodup_children distinct) _ below
      · have later := mem_of_mem_lists (List.mem_cons_of_mem _ behind) member
        have outside : q ∉ children.ptrs := fun inside => notMem_next distinct inside later
        rw [if_neg (ne_of_mem_next distinct later), if_neg outside]
        exact nextIh (nodup_next distinct) _ behind

theorem siblings_eq {forest : Forest Ptr} (distinct : forest.ptrs.Nodup) {level : List Ptr}
    (listed : level ∈ forest.lists) {q : Ptr} (member : q ∈ level) : forest.siblings q = level := by
  rcases List.mem_cons.mp listed with top | inner
  · subst top
    exact siblingsIn_roots distinct _ member
  · exact siblingsIn_inner distinct _ inner member

theorem roots_pushUnder (forest : Forest Ptr) (owner new : Ptr) :
    (forest.pushUnder owner new).roots = forest.roots := by
  induction forest with
  | nil => rfl
  | node ptr children next _ ih =>
      rw [pushUnder]
      split
      · rfl
      · rw [roots, ih, roots]

/-- The lists of a forest that grew: the old ones, the empty one of the leaf, and the one it is in. -/
theorem innerLists_pushUnder {forest : Forest Ptr} (distinct : forest.ptrs.Nodup) {owner new : Ptr}
    {level : List Ptr} (listed : level ∈ (forest.pushUnder owner new).innerLists) :
    level ∈ forest.innerLists ∨ level = [] ∨ level = (forest.kidsOf owner).roots ++ [new] := by
  induction forest with
  | nil => exact .inl listed
  | node ptr children next childrenIh nextIh =>
      rw [pushUnder] at listed
      rw [innerLists, kidsOf]
      by_cases self : ptr = owner
      · rw [if_pos self, innerLists, List.mem_cons, List.mem_append] at listed
        rw [if_pos self]
        rcases listed with own | below | behind
        · exact .inr (.inr (own.trans (roots_push ..)))
        · rcases innerLists_push below with before | none_
          · exact .inl (List.mem_cons_of_mem _ (List.mem_append_left _ before))
          · exact .inr (.inl none_)
        · exact .inl (List.mem_cons_of_mem _ (List.mem_append_right _ behind))
      rw [if_neg self, innerLists, roots_pushUnder, List.mem_cons, List.mem_append] at listed
      rw [if_neg self]
      by_cases inside : owner ∈ children.ptrs
      · rw [pushUnder_of_notMem (notMem_next distinct inside)] at listed
        rw [if_pos inside]
        rcases listed with own | below | behind
        · exact .inl (own ▸ List.mem_cons_self)
        · rcases childrenIh (nodup_children distinct) below with before | added
          · exact .inl (List.mem_cons_of_mem _ (List.mem_append_left _ before))
          · exact .inr added
        · exact .inl (List.mem_cons_of_mem _ (List.mem_append_right _ behind))
      · rw [pushUnder_of_notMem inside] at listed
        rw [if_neg inside]
        rcases listed with own | below | behind
        · exact .inl (own ▸ List.mem_cons_self)
        · exact .inl (List.mem_cons_of_mem _ (List.mem_append_left _ below))
        · rcases nextIh (nodup_next distinct) behind with before | added
          · exact .inl (List.mem_cons_of_mem _ (List.mem_append_right _ before))
          · exact .inr added

/-- The list a new leaf of this parent comes into. -/
def listOf (forest : Forest Ptr) (parent : Option Ptr) : Forest Ptr :=
  parent.elim forest forest.kidsOf

theorem kidsOf_mem_innerLists {forest : Forest Ptr} {owner : Ptr} (member : owner ∈ forest.ptrs) :
    (forest.kidsOf owner).roots ∈ forest.innerLists := by
  induction forest with
  | nil => cases member
  | node ptr children next childrenIh nextIh =>
      rw [kidsOf, innerLists]
      split
      · exact List.mem_cons_self
      · rename_i other
        split
        · rename_i inside
          exact List.mem_cons_of_mem _ (List.mem_append_left _ (childrenIh inside))
        · rename_i outside
          rw [ptrs, List.mem_cons, List.mem_append] at member
          rcases member with same | inside | behind
          · exact absurd same.symm other
          · exact absurd inside outside
          · exact List.mem_cons_of_mem _ (List.mem_append_right _ (nextIh behind))

theorem listOf_mem_lists {forest : Forest Ptr} {parent : Option Ptr}
    (live : ∀ owner ∈ parent, owner ∈ forest.ptrs) : (forest.listOf parent).roots ∈ forest.lists := by
  cases parent with
  | none => exact List.mem_cons_self
  | some owner => exact List.mem_cons_of_mem _ (kidsOf_mem_innerLists (live owner rfl))

theorem lists_add {forest : Forest Ptr} (distinct : forest.ptrs.Nodup) {parent : Option Ptr} {new : Ptr}
    {level : List Ptr} (listed : level ∈ (forest.add parent new).lists) :
    level ∈ forest.lists ∨ level = [] ∨ level = (forest.listOf parent).roots ++ [new] := by
  cases parent with
  | none =>
      rcases List.mem_cons.mp listed with top | inner
      · exact .inr (.inr (top.trans (roots_push forest new)))
      · rcases innerLists_push inner with before | none_
        · exact .inl (List.mem_cons_of_mem _ before)
        · exact .inr (.inl none_)
  | some owner =>
      rcases List.mem_cons.mp listed with top | inner
      · exact .inl (List.mem_cons.mpr (.inl (top.trans (roots_pushUnder ..))))
      · rcases innerLists_pushUnder distinct inner with before | added
        · exact .inl (List.mem_cons_of_mem _ before)
        · exact .inr added

theorem roots_remove (forest : Forest Ptr) (q : Ptr) : (forest.remove q).roots.Sublist forest.roots := by
  induction forest with
  | nil => exact List.Sublist.refl _
  | node ptr children next _ ih =>
      rw [remove]
      split
      · exact List.sublist_cons_self ptr next.roots
      · exact List.Sublist.cons_cons ptr ih

/-- A list that stays is part of one that was. -/
theorem innerLists_remove {forest : Forest Ptr} {q : Ptr} {level : List Ptr}
    (listed : level ∈ (forest.remove q).innerLists) : ∃ old ∈ forest.innerLists, level.Sublist old := by
  induction forest with
  | nil => cases listed
  | node ptr children next childrenIh nextIh =>
      rw [remove] at listed
      rw [innerLists]
      split at listed
      · exact ⟨level, List.mem_cons_of_mem _ (List.mem_append_right _ listed), List.Sublist.refl _⟩
      · rw [innerLists, List.mem_cons, List.mem_append] at listed
        rcases listed with own | below | behind
        · exact ⟨children.roots, List.mem_cons_self, own ▸ roots_remove children q⟩
        · rcases childrenIh below with ⟨old, before, part⟩
          exact ⟨old, List.mem_cons_of_mem _ (List.mem_append_left _ before), part⟩
        · rcases nextIh behind with ⟨old, before, part⟩
          exact ⟨old, List.mem_cons_of_mem _ (List.mem_append_right _ before), part⟩

theorem lists_remove {forest : Forest Ptr} {q : Ptr} {level : List Ptr}
    (listed : level ∈ (forest.remove q).lists) : ∃ old ∈ forest.lists, level.Sublist old := by
  rcases List.mem_cons.mp listed with top | inner
  · exact ⟨forest.roots, List.mem_cons_self, top ▸ roots_remove forest q⟩
  · rcases innerLists_remove inner with ⟨old, before, part⟩
    exact ⟨old, List.mem_cons_of_mem _ before, part⟩

end Alisl.Base.Forest
