import Mathlib.Data.List.Infix
import Mathlib.Tactic

/-! A buffer of a fixed length: comparing and moving items inside it. What reaches
outside the buffer gives `none`. -/

namespace Alisl.Base

variable {Item : Type}

/-- Item by item, as `&&` does; the first difference ends it. -/
def matchesAt [DecidableEq Item] (buf : List Item) : Nat → List Item → Option Bool
  | _, [] => some true
  | pos, item :: pattern =>
      buf[pos]?.bind (fun found =>
        if found = item then matchesAt buf (pos + 1) pattern else some false)

/-- Items stored from a position on. -/
def storeAt (buf : List Item) (dest : Nat) (items : List Item) : Option (List Item) :=
  if dest + items.length ≤ buf.length then
    some (buf.take dest ++ items ++ buf.drop (dest + items.length))
  else none

/-- `memmove` from one position to another. -/
def moveWithin (buf : List Item) (dest source length : Nat) : Option (List Item) :=
  if dest + length ≤ buf.length ∧ source + length ≤ buf.length then
    some (buf.take dest ++ (buf.drop source).take length ++ buf.drop (dest + length))
  else none

theorem matchesAt_append [DecidableEq Item] (front items back pattern : List Item)
    (long : pattern.length ≤ items.length) :
    matchesAt (front ++ items ++ back) front.length pattern = some (decide (pattern <+: items)) := by
  induction pattern generalizing front items with
  | nil => simp [matchesAt]
  | cons item pattern ih =>
      cases items with
      | nil => simp at long
      | cons first items =>
          have found : (front ++ first :: items ++ back)[front.length]? = some first := by simp
          rw [matchesAt, found, Option.bind_some]
          by_cases same : first = item
          · have rest := ih (front ++ [first]) items (by simpa using long)
            rw [List.length_append, List.length_singleton, ← List.append_cons] at rest
            subst same
            simp only [if_true, rest, List.cons_prefix_cons, true_and]
          · simp [same, List.cons_prefix_cons, Ne.symm same]

theorem storeAt_append {front old back items : List Item} {dest : Nat} (at_ : dest = front.length)
    (same : items.length = old.length) :
    storeAt (front ++ old ++ back) dest items = some (front ++ items ++ back) := by
  have room : front.length + items.length ≤ (front ++ old ++ back).length := by
    simp only [List.length_append]
    omega
  subst at_
  rw [storeAt, if_pos room, List.append_assoc front old back, List.take_left, same,
    ← List.append_assoc front old back, ← List.length_append, List.drop_left]

theorem storeAt_none {buf items : List Item} {dest : Nat} (beyond : buf.length < dest + items.length) :
    storeAt buf dest items = none :=
  if_neg (Nat.not_le.mpr beyond)

theorem storeAt_length {buf items after : List Item} {dest : Nat}
    (stored : storeAt buf dest items = some after) : after.length = buf.length := by
  rw [storeAt] at stored
  split at stored
  · cases stored
    simp only [List.length_append, List.length_take, List.length_drop]
    omega
  · cases stored

theorem storeAt_inside {buf items after : List Item} {dest : Nat}
    (stored : storeAt buf dest items = some after) : dest + items.length ≤ buf.length := by
  by_contra beyond
  rw [storeAt_none (Nat.not_le.mp beyond)] at stored
  cases stored

theorem storeAt_some {buf items : List Item} {dest : Nat} (inside : dest + items.length ≤ buf.length) :
    ∃ after, storeAt buf dest items = some after ∧ after.length = buf.length :=
  ⟨_, if_pos inside, storeAt_length (if_pos inside)⟩

theorem moveWithin_zero (buf : List Item) (dest source : Nat) (destInside : dest ≤ buf.length)
    (sourceInside : source ≤ buf.length) : moveWithin buf dest source 0 = some buf := by
  rw [moveWithin, if_pos ⟨destInside, sourceInside⟩, List.take_zero, List.append_nil,
    Nat.add_zero, List.take_append_drop]

theorem moveWithin_beyond (buf : List Item) (dest source length : Nat)
    (beyond : buf.length < source + length) : moveWithin buf dest source length = none :=
  if_neg (fun inside => absurd inside.2 (Nat.not_le.mpr beyond))

/-- Moving the items behind a gap to its front leaves the last ones of them where they were. -/
theorem moveWithin_gap (front gap moved last back : List Item) (length : last.length = gap.length) :
    moveWithin (front ++ gap ++ (moved ++ last) ++ back) front.length (front.length + gap.length)
        (moved ++ last).length =
      some (front ++ (moved ++ last) ++ (last ++ back)) := by
  have inside : front.length + (moved ++ last).length ≤
        (front ++ gap ++ (moved ++ last) ++ back).length ∧
      front.length + gap.length + (moved ++ last).length ≤
        (front ++ gap ++ (moved ++ last) ++ back).length := by
    simp only [List.length_append]
    omega
  have taken : (front ++ gap ++ (moved ++ last) ++ back).take front.length = front := by
    simp only [List.append_assoc]
    exact List.take_left
  have source : ((front ++ gap ++ (moved ++ last) ++ back).drop
      (front.length + gap.length)).take (moved ++ last).length = moved ++ last := by
    rw [← List.length_append, List.append_assoc, List.drop_left, List.take_left]
  have kept : (front ++ gap ++ (moved ++ last) ++ back).drop
      (front.length + (moved ++ last).length) = last ++ back := by
    have split : front ++ gap ++ (moved ++ last) ++ back =
        (front ++ gap ++ moved) ++ (last ++ back) := by
      simp only [List.append_assoc]
    have size : front.length + (moved ++ last).length = (front ++ gap ++ moved).length := by
      simp only [List.length_append]
      omega
    rw [split, size, List.drop_left]
  rw [moveWithin, if_pos inside, taken, source, kept]

end Alisl.Base
