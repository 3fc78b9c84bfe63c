import Mathlib.Data.List.Nodup

/-! Lists without repetition, in the order of their first appearance. -/

namespace Alisl.Base

variable {α : Type} [DecidableEq α]

/-- `xs` after `acc`, each value where it appears first. -/
def orderedUnion (acc xs : List α) : List α := acc ++ (xs.removeAll acc).eraseDups

theorem mem_removeAll {x : α} {xs acc : List α} : x ∈ xs.removeAll acc ↔ x ∈ xs ∧ x ∉ acc := by
  simp [List.removeAll]

theorem nodup_eraseDups (xs : List α) : xs.eraseDups.Nodup := by
  match xs with
  | [] => simp
  | y :: ys =>
      have shorter : (ys.filter (fun other => !other == y)).length < ys.length + 1 :=
        Nat.lt_succ_of_le (List.length_filter_le _ _)
      rw [List.eraseDups_cons, List.nodup_cons, List.mem_eraseDups]
      exact ⟨by simp, nodup_eraseDups _⟩
termination_by xs.length

@[simp] theorem orderedUnion_nil (acc : List α) : orderedUnion acc [] = acc := by
  simp [orderedUnion]

@[simp] theorem nil_orderedUnion (xs : List α) : orderedUnion [] xs = xs.eraseDups := by
  simp [orderedUnion]

theorem mem_orderedUnion {x : α} {acc xs : List α} :
    x ∈ orderedUnion acc xs ↔ x ∈ acc ∨ x ∈ xs := by
  by_cases held : x ∈ acc <;> simp [orderedUnion, mem_removeAll, held]

theorem nodup_orderedUnion {acc : List α} (distinct : acc.Nodup) (xs : List α) :
    (orderedUnion acc xs).Nodup := by
  refine distinct.append (nodup_eraseDups _) ?_
  intro x held new
  exact (mem_removeAll.mp (List.mem_eraseDups.mp new)).2 held

theorem orderedUnion_cons_mem {x : α} {acc : List α} (held : x ∈ acc) (xs : List α) :
    orderedUnion acc (x :: xs) = orderedUnion acc xs := by
  simp [orderedUnion, List.cons_removeAll, held]

theorem orderedUnion_cons_notMem {x : α} {acc : List α} (new : x ∉ acc) (xs : List α) :
    orderedUnion acc (x :: xs) = orderedUnion (acc ++ [x]) xs := by
  have rest : (xs.removeAll acc).filter (fun other => !other == x) = xs.removeAll (acc ++ [x]) := by
    simp only [List.removeAll, List.filter_filter]
    congr 1
    funext other
    by_cases same : other = x <;> simp [same]
  simp [orderedUnion, List.cons_removeAll, new, List.eraseDups_cons, rest]

/-- Nothing is new. -/
theorem orderedUnion_subset {acc xs : List α} (held : xs ⊆ acc) : orderedUnion acc xs = acc := by
  induction xs with
  | nil => simp
  | cons x xs ih =>
      rw [orderedUnion_cons_mem (held List.mem_cons_self)]
      exact ih (fun _ member => held (List.mem_cons_of_mem _ member))

theorem removeAll_cons_mem {x : α} {acc : List α} (distinct : acc.Nodup) (xs : List α) :
    acc.removeAll (x :: xs) = (acc.erase x).removeAll xs := by
  simp only [List.removeAll, distinct.erase_eq_filter, List.filter_filter]
  congr 1
  funext other
  by_cases same : other = x <;> simp [same]

end Alisl.Base
