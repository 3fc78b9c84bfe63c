import Alisl.Base.Bitmap

/-! A word of flag bits that threads test, set and clear, each time under its lock. -/

namespace Alisl.Base

structure Flag where
  flg : BitVec 32
  deriving DecidableEq, Repr

namespace Flag

def bit (k : Nat) : BitVec 32 := 1#32 <<< k

/-- The pattern with the bits of a list. -/
def pattern (bits : List Nat) : BitVec 32 := bits.foldr (fun k ptn => bit k ||| ptn) 0

def testAny (flag : Flag) (ptn : BitVec 32) : Bool := flag.flg &&& ptn != 0

def set (flag : Flag) (ptn : BitVec 32) : Flag := ⟨flag.flg ||| ptn⟩

def clear (flag : Flag) (ptn : BitVec 32) : Flag := ⟨flag.flg &&& ~~~ptn⟩

def has (flag : Flag) (k : Nat) : Bool := flag.flg.getLsbD k

variable (flag : Flag) (ptn : BitVec 32) (k : Nat)

@[simp] theorem has_set : (flag.set ptn).has k = (flag.has k || ptn.getLsbD k) := by
  simp [has, set]

@[simp] theorem has_clear : (flag.clear ptn).has k = (flag.has k && !ptn.getLsbD k) := by
  by_cases inside : k < 32
  · simp [has, clear, inside]
  · have outside : flag.flg.getLsbD k = false := BitVec.getLsbD_of_ge _ _ (by omega)
    simp [has, clear, outside]

theorem getLsbD_bit (other : Nat) (inside : other < 32) :
    (bit k).getLsbD other = decide (other = k) :=
  Bitmap.getLsbD_one_shift k other inside

theorem eq_of_getLsbD_bit {k other : Nat} (set : (bit k).getLsbD other = true) : other = k := by
  have inside : other < 32 := by
    by_contra large
    rw [BitVec.getLsbD_of_ge _ _ (by omega)] at set
    cases set
  rw [getLsbD_bit k other inside] at set
  exact of_decide_eq_true set

theorem getLsbD_pattern (bits : List Nat) (inside : k < 32) :
    (pattern bits).getLsbD k = decide (k ∈ bits) := by
  induction bits with
  | nil => simp [pattern]
  | cons head tail ih =>
      have split : pattern (head :: tail) = bit head ||| pattern tail := rfl
      rw [split, BitVec.getLsbD_or, ih, getLsbD_bit head k inside, ← Bool.decide_or]
      simp

theorem testAny_eq_true : flag.testAny ptn = true ↔ ∃ k, flag.has k = true ∧ ptn.getLsbD k = true := by
  rw [testAny, bne_iff_ne]
  constructor
  case mp =>
    intro nonzero
    by_contra none
    apply nonzero
    apply BitVec.eq_of_getLsbD_eq
    intro i _
    have zero : (0 : BitVec 32).getLsbD i = false := BitVec.getLsbD_zero
    rw [BitVec.getLsbD_and, zero]
    by_contra both
    rw [Bool.not_eq_false, Bool.and_eq_true] at both
    exact none ⟨i, both⟩
  case mpr =>
    intro shared zero
    rcases shared with ⟨k, inFlag, inPtn⟩
    have both : (flag.flg &&& ptn).getLsbD k = true := by
      rw [BitVec.getLsbD_and, Bool.and_eq_true]
      exact ⟨inFlag, inPtn⟩
    rw [zero] at both
    simp at both

/-- A test for several bits is a test for one of them. -/
theorem testAny_pattern (bits : List Nat) (inside : ∀ k ∈ bits, k < 32) :
    flag.testAny (pattern bits) = bits.any flag.has := by
  apply Bool.eq_iff_iff.mpr
  rw [testAny_eq_true, List.any_eq_true]
  constructor
  case mp =>
    intro shared
    rcases shared with ⟨k, inFlag, inPtn⟩
    have small : k < 32 := by
      by_contra large
      rw [BitVec.getLsbD_of_ge _ _ (by omega)] at inPtn
      cases inPtn
    rw [getLsbD_pattern k bits small] at inPtn
    exact ⟨k, of_decide_eq_true inPtn, inFlag⟩
  case mpr =>
    intro shared
    rcases shared with ⟨k, member, inFlag⟩
    refine ⟨k, inFlag, ?_⟩
    rw [getLsbD_pattern k bits (inside k member)]
    exact decide_eq_true member

end Flag

end Alisl.Base
