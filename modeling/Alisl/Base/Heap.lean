import Mathlib.Data.List.Perm.Basic
import Mathlib.Tactic

/-! A heap of blocks that are allocated and freed, and who owns them. A block that is freed twice is a
fault. -/

namespace Alisl.Base

structure Heap where
  next : Nat
  live : List Nat

namespace Heap

def empty : Heap := ⟨0, []⟩

/-- The heap with the block `heap.next`. -/
def alloc (heap : Heap) : Heap := ⟨heap.next + 1, heap.next :: heap.live⟩

def free (heap : Heap) (block : Nat) : Option Heap :=
  if block ∈ heap.live then some { heap with live := heap.live.erase block } else none

def freeAll : Heap → List Nat → Option Heap
  | heap, [] => some heap
  | heap, block :: blocks => (heap.free block).bind (fun heap => freeAll heap blocks)

/-- The blocks that are allocated, in any order. -/
structure Owned (heap : Heap) (blocks : List Nat) : Prop where
  all : heap.live.Perm blocks
  below : ∀ block ∈ blocks, block < heap.next

theorem owned_empty : Owned empty [] := ⟨.nil, List.forall_mem_nil _⟩

variable {heap : Heap} {blocks : List Nat}

theorem Owned.perm (owned : Owned heap blocks) {others : List Nat} (same : blocks.Perm others) :
    Owned heap others :=
  ⟨owned.all.trans same, fun block member => owned.below block (same.mem_iff.mpr member)⟩

theorem Owned.alloc (owned : Owned heap blocks) : Owned heap.alloc (heap.next :: blocks) := by
  refine ⟨owned.all.cons _, ?_⟩
  rw [List.forall_mem_cons]
  exact ⟨Nat.lt_succ_self _, fun block member => Nat.lt_succ_of_lt (owned.below block member)⟩

theorem Owned.free {block : Nat} (owned : Owned heap (block :: blocks)) :
    ∃ after, heap.free block = some after ∧ Owned after blocks ∧ after.next = heap.next := by
  have live : block ∈ heap.live := owned.all.mem_iff.mpr List.mem_cons_self
  refine ⟨_, if_pos live, ⟨?_, ?_⟩, rfl⟩
  · have erased := owned.all.erase block
    rwa [List.erase_cons_head] at erased
  · exact fun other member => owned.below other (List.mem_cons_of_mem _ member)

theorem Owned.freeAll {front : List Nat} (owned : Owned heap (front ++ blocks)) :
    ∃ after, heap.freeAll front = some after ∧ Owned after blocks ∧ after.next = heap.next := by
  induction front generalizing heap with
  | nil => exact ⟨heap, rfl, owned, rfl⟩
  | cons block front ih =>
      obtain ⟨middle, freed, rest, same⟩ := owned.free
      obtain ⟨after, all, left_, next⟩ := ih rest
      refine ⟨after, ?_, left_, next.trans same⟩
      rw [Heap.freeAll, freed, Option.bind_some, all]

/-- Freeing a block that nobody owns. -/
theorem Owned.free_fault {block : Nat} (owned : Owned heap blocks) (other : block ∉ blocks) :
    heap.free block = none :=
  if_neg (fun live => other (owned.all.mem_iff.mp live))

end Heap

end Alisl.Base
