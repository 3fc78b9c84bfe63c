import Mathlib.Data.Nat.Count
import Alisl.Base.Bitmap

/-! A set of numbers as bits of words, and how many they are. -/

namespace Alisl.Base

/-- Word `i` holds the numbers from `width * i` on. -/
abbrev BitArray (width : Nat) := Nat → BitVec width

namespace BitArray

variable {width : Nat}

def get (array : BitArray width) (idx : Nat) : Bool := (array (idx / width)).getLsbD (idx % width)

/-- `array[idx / width] |= (1 << (idx % width))`. -/
def set (array : BitArray width) (idx : Nat) : BitArray width :=
  Function.update array (idx / width) (array (idx / width) ||| (BitVec.ofNat width 1 <<< (idx % width)))

theorem get_set (pos : 0 < width) (array : BitArray width) (idx other : Nat) :
    (array.set idx).get other = (array.get other || decide (other = idx)) := by
  have inside : other % width < width := Nat.mod_lt _ pos
  unfold set get
  by_cases word : other / width = idx / width
  · rw [word, Function.update_self, BitVec.getLsbD_or, Bitmap.getLsbD_one_shift _ _ inside]
    have same : other % width = idx % width ↔ other = idx := by
      constructor
      · intro rest
        rw [← Nat.div_add_mod other width, ← Nat.div_add_mod idx width, word, rest]
      · intro eq
        rw [eq]
    simp [same]
  · rw [Function.update_of_ne word]
    have apart : other ≠ idx := fun same => word (by rw [same])
    simp [apart]

end BitArray

/-! Counting. -/

section Count

variable {P Q : Nat → Prop} [DecidablePred P] [DecidablePred Q]

theorem count_insert {i n : Nat} (fresh : ¬ P i) (inside : i < n) (same : ∀ k, Q k ↔ P k ∨ k = i) :
    Nat.count Q n = Nat.count P n + 1 := by
  have before : Nat.count Q i = Nat.count P i := by
    apply Nat.le_antisymm
    · apply Nat.count_mono_left
      intro k less held
      rcases (same k).mp held with old | rfl
      · exact old
      · exact absurd less (Nat.lt_irrefl k)
    · exact Nat.count_mono_left (fun k _ held => (same k).mpr (.inl held))
  induction n, inside using Nat.le_induction with
  | base =>
      rw [Nat.count_succ, Nat.count_succ, before, if_neg fresh, if_pos ((same i).mpr (.inr rfl))]
  | succ n less ih =>
      have alike : Q n ↔ P n := by
        rw [same]
        have apart : n ≠ i := Nat.ne_of_gt less
        simp [apart]
      rw [Nat.count_succ, Nat.count_succ, ih]
      simp only [alike]
      omega

theorem count_beyond {n m : Nat} (less : n ≤ m) (none_ : ∀ k, n ≤ k → ¬ P k) :
    Nat.count P m = Nat.count P n := by
  induction m, less using Nat.le_induction with
  | base => rfl
  | succ m less ih => rw [Nat.count_succ_eq_count_iff.mpr (none_ m less), ih]

theorem count_not_add_count (n : Nat) : Nat.count (fun k => ¬ P k) n + Nat.count P n = n := by
  induction n with
  | zero => simp
  | succ n ih =>
      rw [Nat.count_succ, Nat.count_succ]
      by_cases held : P n
      · simp [held]
        omega
      · simp [held]
        omega

theorem count_congr {n : Nat} (same : ∀ k, k < n → (P k ↔ Q k)) : Nat.count P n = Nat.count Q n := by
  apply Nat.le_antisymm
  · exact Nat.count_mono_left (fun k less => (same k less).mp)
  · exact Nat.count_mono_left (fun k less => (same k less).mpr)

end Count

end Alisl.Base
