import Mathlib.Data.Nat.Bitwise
import Mathlib.Tactic

/-! A set of small numbers as bits of 32-bit words. -/

namespace Alisl.Base

/-- Word `i` holds the numbers from `32 * i` on. -/
abbrev Bitmap := Nat → BitVec 32

namespace Bitmap

def test (bitmap : Bitmap) (bit : Nat) : Bool := (bitmap (bit / 32)).getLsbD (bit % 32)

/-- `map[bit / 32] |= 1 << (bit % 32)`. -/
def set (bitmap : Bitmap) (bit : Nat) : Bitmap :=
  Function.update bitmap (bit / 32) (bitmap (bit / 32) ||| (1#32 <<< (bit % 32)))

/-- `map[bit / 32] &= ~(1 << (bit % 32))`. -/
def clear (bitmap : Bitmap) (bit : Nat) : Bitmap :=
  Function.update bitmap (bit / 32) (bitmap (bit / 32) &&& ~~~(1#32 <<< (bit % 32)))

/-- All words set. -/
def ones : Bitmap := fun _ => 0xffffffff#32

/-- The numbers below `count` cleared one after the other. -/
def clearBelow (bitmap : Bitmap) : Nat → Bitmap
  | 0 => bitmap
  | count + 1 => (clearBelow bitmap count).clear count

/-- The first `words` words are all ones. -/
def full (bitmap : Bitmap) (words : Nat) : Bool :=
  (List.range words).all (fun i => bitmap i == 0xffffffff#32)

theorem getLsbD_one_shift {width : Nat} (bit other : Nat) (inside : other < width) :
    (BitVec.ofNat width 1 <<< bit).getLsbD other = decide (other = bit) := by
  rw [← BitVec.twoPow_eq, BitVec.getLsbD_twoPow]
  by_cases same : bit = other
  · simp [same, inside]
  · simp [same, Ne.symm same]

theorem test_set (bitmap : Bitmap) (bit other : Nat) :
    (bitmap.set bit).test other = (bitmap.test other || decide (other = bit)) := by
  have inside : other % 32 < 32 := Nat.mod_lt _ (by omega)
  unfold set test
  by_cases word : other / 32 = bit / 32
  · rw [word, Function.update_self, BitVec.getLsbD_or, getLsbD_one_shift _ _ inside]
    have same : other % 32 = bit % 32 ↔ other = bit := by omega
    simp [same]
  · rw [Function.update_of_ne word]
    have apart : other ≠ bit := fun same => word (by rw [same])
    simp [apart]

theorem test_clear (bitmap : Bitmap) (bit other : Nat) :
    (bitmap.clear bit).test other = (bitmap.test other && decide (other ≠ bit)) := by
  have inside : other % 32 < 32 := Nat.mod_lt _ (by omega)
  unfold clear test
  by_cases word : other / 32 = bit / 32
  · rw [word, Function.update_self, BitVec.getLsbD_and, BitVec.getLsbD_not,
      getLsbD_one_shift _ _ inside]
    have same : other % 32 = bit % 32 ↔ other = bit := by omega
    simp [same, inside]
  · rw [Function.update_of_ne word]
    have apart : other ≠ bit := fun same => word (by rw [same])
    simp [apart]

theorem test_clearBelow (bitmap : Bitmap) (count other : Nat) :
    (bitmap.clearBelow count).test other = (bitmap.test other && decide (count ≤ other)) := by
  induction count with
  | zero => simp [clearBelow]
  | succ count ih =>
      rw [clearBelow, test_clear, ih, Bool.and_assoc]
      congr 1
      rw [← Bool.decide_and]
      congr 1
      apply propext
      omega

theorem test_ones (bit : Nat) : ones.test bit = true := by
  have inside : bit % 32 < 32 := Nat.mod_lt _ (by omega)
  have all : (0xffffffff#32) = BitVec.allOnes 32 := by decide
  simp only [test, ones, all, BitVec.getLsbD_allOnes, inside, decide_true]

/-- A word is all ones exactly when each of its bits is set. -/
theorem word_full (word : BitVec 32) :
    word = 0xffffffff#32 ↔ ∀ i < 32, word.getLsbD i = true := by
  have all : (0xffffffff#32) = BitVec.allOnes 32 := by decide
  rw [all]
  constructor
  · intro same i inside
    rw [same, BitVec.getLsbD_allOnes]
    simpa using inside
  · intro bits
    apply BitVec.eq_of_getLsbD_eq
    intro i inside
    rw [bits i inside, BitVec.getLsbD_allOnes]
    simpa using inside

theorem full_iff (bitmap : Bitmap) (words : Nat) :
    bitmap.full words = true ↔ ∀ bit < 32 * words, bitmap.test bit = true := by
  unfold full test
  rw [List.all_eq_true]
  constructor
  · intro all bit inside
    have word := all (bit / 32) (List.mem_range.mpr (by omega))
    rw [beq_iff_eq, word_full] at word
    exact word (bit % 32) (Nat.mod_lt _ (by omega))
  · intro all i member
    rw [beq_iff_eq, word_full]
    intro j inside
    have bit := all (32 * i + j) (by have := List.mem_range.mp member; omega)
    have quotient : (32 * i + j) / 32 = i := by omega
    have remainder : (32 * i + j) % 32 = j := by omega
    rw [quotient, remainder] at bit
    exact bit

end Bitmap

end Alisl.Base
