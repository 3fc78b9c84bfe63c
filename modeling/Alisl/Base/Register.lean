import Mathlib.Tactic

/-! A shift register with feedback, as a cyclic redundancy check runs it: a burst of errors no longer
than the register always shows. -/

namespace Alisl.Base

structure Register (w : Nat) where
  poly : BitVec w

/-- The first bits of a list as the top bits of a word. -/
def lead {w : Nat} : List Bool → BitVec w
  | [] => 0#w
  | bit :: bits => (if bit then BitVec.intMin w else 0#w) ^^^ (lead bits >>> 1)

namespace Register

variable {w : Nat} (register : Register w)

/-- One shift: the highest bit decides. -/
def shift (word : BitVec w) : BitVec w :=
  if word.msb then (word <<< 1) ^^^ register.poly else word <<< 1

/-- The bits go in one by one at the top. -/
def feed (word : BitVec w) : List Bool → BitVec w
  | [] => word
  | bit :: bits => feed (register.shift (word ^^^ lead [bit])) bits

end Register

section

variable {w : Nat}

theorem getMsbD_lead (bits : List Bool) (i : Nat) :
    (lead bits : BitVec w).getMsbD i = (decide (i < w) && bits.getD i false) := by
  induction bits generalizing i with
  | nil => simp [lead]
  | cons bit bits ih =>
      rw [lead, BitVec.getMsbD_xor, BitVec.getMsbD_ushiftRight, ih]
      cases i with
      | zero => cases bit <;> simp [BitVec.getMsbD_intMin]
      | succ i =>
          by_cases inside : i + 1 < w
          · have inner : i < w := Nat.lt_of_succ_lt inside
            cases bit <;> simp [BitVec.getMsbD_intMin, inner]
          · cases bit <;> simp [BitVec.getMsbD_intMin, inside]

/-- The first bit apart. -/
theorem lead_cons (bit : Bool) (bits : List Bool) :
    (lead (bit :: bits) : BitVec w) = lead [bit] ^^^ lead (false :: bits) := by
  apply BitVec.eq_of_getMsbD_eq
  intro i inside
  rw [BitVec.getMsbD_xor, getMsbD_lead, getMsbD_lead, getMsbD_lead]
  cases i with
  | zero => simp
  | succ i => simp

theorem lead_injective {left right : List Bool} (same : left.length = right.length)
    (short : left.length ≤ w) (equal : (lead left : BitVec w) = lead right) : left = right := by
  apply List.ext_getElem same
  intro i inside inside'
  have bit := congrArg (fun word : BitVec w => word.getMsbD i) equal
  have less : i < w := by omega
  simpa [getMsbD_lead, less, inside, inside'] using bit

end

namespace Register

variable {w : Nat} (register : Register w)

theorem shift_xor (left right : BitVec w) :
    register.shift (left ^^^ right) = register.shift left ^^^ register.shift right := by
  unfold shift
  rw [BitVec.msb_xor, BitVec.shiftLeft_xor_distrib]
  cases left.msb with
  | false =>
      cases right.msb with
      | false => rfl
      | true => exact BitVec.xor_assoc _ _ _
  | true =>
      cases right.msb with
      | false =>
          calc
            (left <<< 1 ^^^ right <<< 1) ^^^ register.poly =
                left <<< 1 ^^^ (register.poly ^^^ right <<< 1) := by
              rw [BitVec.xor_assoc, BitVec.xor_comm register.poly]
            _ = (left <<< 1 ^^^ register.poly) ^^^ right <<< 1 := (BitVec.xor_assoc _ _ _).symm
      | true =>
          calc
            left <<< 1 ^^^ right <<< 1 =
                left <<< 1 ^^^ (register.poly ^^^ register.poly) ^^^ right <<< 1 := by
              rw [BitVec.xor_self, BitVec.xor_zero]
            _ = (left <<< 1 ^^^ register.poly) ^^^ (right <<< 1 ^^^ register.poly) := by
              rw [← BitVec.xor_assoc, BitVec.xor_assoc _ register.poly, BitVec.xor_comm register.poly]

theorem shifts_xor (count : Nat) (left right : BitVec w) :
    register.shift^[count] (left ^^^ right) =
      register.shift^[count] left ^^^ register.shift^[count] right := by
  induction count generalizing left right with
  | zero => rfl
  | succ count ih =>
      rw [Function.iterate_succ_apply, Function.iterate_succ_apply, Function.iterate_succ_apply,
        shift_xor, ih]

/-- A word with a clear top bit only moves up. -/
theorem shift_lead (bits : List Bool) (short : bits.length < w) :
    register.shift (lead (false :: bits)) = lead bits := by
  have clear : (lead (false :: bits) : BitVec w).msb = false := by
    rw [BitVec.msb, getMsbD_lead]
    simp
  rw [shift, clear, if_neg Bool.false_ne_true]
  apply BitVec.eq_of_getMsbD_eq
  intro i inside
  rw [BitVec.getMsbD_shiftLeft, getMsbD_lead, getMsbD_lead, decide_eq_true inside, List.getD_cons_succ]
  by_cases next : i + 1 < w
  · rw [decide_eq_true next]
  · have last : bits.length ≤ i := by omega
    rw [List.getD_eq_getElem?_getD, List.getElem?_eq_none last, Option.getD_none, Bool.and_false,
      Bool.and_false]

/-- Few bits only lie on top of the word. -/
theorem feed_eq (word : BitVec w) (bits : List Bool) (short : bits.length ≤ w) :
    register.feed word bits = register.shift^[bits.length] (word ^^^ lead bits) := by
  induction bits generalizing word with
  | nil => rw [feed, lead, BitVec.xor_zero, List.length_nil, Function.iterate_zero_apply]
  | cons bit bits ih =>
      rw [List.length_cons] at short
      calc
        register.feed word (bit :: bits) =
            register.shift^[bits.length] (register.shift (word ^^^ lead [bit]) ^^^ lead bits) :=
          ih _ (Nat.le_of_succ_le short)
        _ = register.shift^[bits.length] (register.shift (word ^^^ lead (bit :: bits))) := by
          rw [lead_cons bit bits, ← BitVec.xor_assoc, register.shift_xor _ (lead (false :: bits)),
            register.shift_lead bits short]
        _ = register.shift^[(bit :: bits).length] (word ^^^ lead (bit :: bits)) := by
          rw [List.length_cons, Function.iterate_succ_apply]

theorem feed_append (word : BitVec w) (front back : List Bool) :
    register.feed word (front ++ back) = register.feed (register.feed word front) back := by
  induction front generalizing word with
  | nil => rfl
  | cons bit front ih => exact ih _

/-! An odd polynomial loses nothing. -/

variable {register}

theorem shift_injective (odd : register.poly.getLsbD 0 = true) :
    Function.Injective register.shift := by
  intro left right same
  have zero : register.shift (left ^^^ right) = 0#w := by
    rw [shift_xor, same, BitVec.xor_self]
  have clear : (left ^^^ right).msb = false := by
    by_contra set
    rw [Bool.not_eq_false] at set
    rw [shift, if_pos set] at zero
    have low := congrArg (fun word : BitVec w => word.getLsbD 0) zero
    simp [odd] at low
  rw [shift, clear, if_neg Bool.false_ne_true] at zero
  have gone : left ^^^ right = 0#w := by
    apply BitVec.eq_of_getMsbD_eq
    intro i inside
    cases i with
    | zero =>
        rw [BitVec.msb] at clear
        rw [clear, BitVec.getMsbD_zero]
    | succ i =>
        have bit := congrArg (fun word : BitVec w => word.getMsbD i) zero
        rw [BitVec.getMsbD_zero]
        simpa only [BitVec.getMsbD_shiftLeft, BitVec.getMsbD_zero] using bit
  calc
    left = (left ^^^ right) ^^^ right := by rw [BitVec.xor_assoc, BitVec.xor_self, BitVec.xor_zero]
    _ = right := by rw [gone, BitVec.zero_xor]

theorem feed_injective (odd : register.poly.getLsbD 0 = true) (bits : List Bool) :
    Function.Injective (fun word => register.feed word bits) := by
  induction bits with
  | nil => exact Function.injective_id
  | cons bit bits ih =>
      intro left right same
      have shifted : register.shift (left ^^^ lead [bit]) = register.shift (right ^^^ lead [bit]) :=
        ih same
      exact (BitVec.xor_left_inj _).mp (shift_injective odd shifted)

/-- Two inputs that differ in a burst no longer than the register leave different words. -/
theorem burst (odd : register.poly.getLsbD 0 = true) (word : BitVec w)
    {front left right back : List Bool} (same : left.length = right.length)
    (short : left.length ≤ w) (differ : left ≠ right) :
    register.feed word (front ++ left ++ back) ≠ register.feed word (front ++ right ++ back) := by
  intro equal
  rw [feed_append, feed_append, feed_append, feed_append] at equal
  have inner := feed_injective odd back equal
  rw [register.feed_eq _ left short, register.feed_eq _ right (by omega), ← same] at inner
  have tops := (shift_injective odd).iterate _ inner
  exact differ (lead_injective same short ((BitVec.xor_right_inj _).mp tops))

end Register

end Alisl.Base
