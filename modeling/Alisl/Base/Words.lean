import Alisl.Base.Bytes

/-! Little-endian words of 32 bits in a buffer. -/

namespace Alisl.Base

def wordBytes (value : Nat) : List Byte :=
  [byteOf value, byteOf (value / 256), byteOf (value / 65536), byteOf (value / 16777216)]

def getWord (buffer : List Byte) (at_ : Nat) : Nat :=
  (buffer.getD at_ 0).toNat + (buffer.getD (at_ + 1) 0).toNat * 256 +
    (buffer.getD (at_ + 2) 0).toNat * 65536 + (buffer.getD (at_ + 3) 0).toNat * 16777216

def setWord (buffer : List Byte) (at_ value : Nat) : List Byte :=
  buffer.take at_ ++ wordBytes value ++ buffer.drop (at_ + 4)

/-- A word as an `int`. -/
def intOfWord (value : Nat) : Int := (BitVec.ofNat 32 value).toInt

variable {buffer : List Byte} {at_ value : Nat}

theorem getWord_lt (buffer : List Byte) (at_ : Nat) : getWord buffer at_ < 2 ^ 32 := by
  have first := (buffer.getD at_ 0).toNat_lt
  have second := (buffer.getD (at_ + 1) 0).toNat_lt
  have third := (buffer.getD (at_ + 2) 0).toNat_lt
  have fourth := (buffer.getD (at_ + 3) 0).toNat_lt
  unfold getWord
  omega

theorem setWord_length (inside : at_ + 4 ≤ buffer.length) (value : Nat) :
    (setWord buffer at_ value).length = buffer.length := by
  have four : (wordBytes value).length = 4 := rfl
  rw [setWord, List.length_append, List.length_append, four, List.length_take, List.length_drop]
  omega

theorem getD_setWord_apart (inside : at_ + 4 ≤ buffer.length) {place : Nat}
    (apart : place < at_ ∨ at_ + 4 ≤ place) :
    (setWord buffer at_ value).getD place 0 = buffer.getD place 0 := by
  have front : (buffer.take at_).length = at_ := by
    rw [List.length_take]
    omega
  have four : (wordBytes value).length = 4 := rfl
  rw [setWord, List.append_assoc]
  obtain before | behind := apart
  · rw [List.getD_append _ _ _ _ (by omega), List.getD_eq_getElem?_getD, List.getElem?_take,
      if_pos before, List.getD_eq_getElem?_getD]
  · have same : at_ + 4 + (place - at_ - 4) = place := by omega
    rw [List.getD_append_right _ _ _ _ (by omega), List.getD_append_right _ _ _ _ (by omega), front,
      four, List.getD_eq_getElem?_getD, List.getElem?_drop, same, List.getD_eq_getElem?_getD]

theorem getD_setWord_inside (inside : at_ + 4 ≤ buffer.length) (value : Nat) {i : Nat} (less : i < 4) :
    (setWord buffer at_ value).getD (at_ + i) 0 = (wordBytes value).getD i 0 := by
  have front : (buffer.take at_).length = at_ := by
    rw [List.length_take]
    omega
  rw [setWord, List.append_assoc, List.getD_append_right _ _ _ _ (by omega), front,
    Nat.add_sub_cancel_left, List.getD_append _ _ _ _ less]

theorem getWord_setWord (inside : at_ + 4 ≤ buffer.length) :
    getWord (setWord buffer at_ value) at_ = value % 2 ^ 32 := by
  have first := getD_setWord_inside inside value (i := 0) (by decide)
  have second := getD_setWord_inside inside value (i := 1) (by decide)
  have third := getD_setWord_inside inside value (i := 2) (by decide)
  have fourth := getD_setWord_inside inside value (i := 3) (by decide)
  rw [Nat.add_zero] at first
  rw [getWord, first, second, third, fourth]
  simp only [wordBytes, List.getD_cons_zero, List.getD_cons_succ, byteOf_toNat]
  omega

/-! ### Several words -/

/-- Words stored one after the other, each with its place. -/
def setWords (buffer : List Byte) (writes : List (Nat × Nat)) : List Byte :=
  writes.foldl (fun buffer write => setWord buffer write.1 write.2) buffer

theorem setWords_length {writes : List (Nat × Nat)}
    (inside : ∀ write ∈ writes, write.1 + 4 ≤ buffer.length) :
    (setWords buffer writes).length = buffer.length := by
  induction writes generalizing buffer with
  | nil => rfl
  | cons write writes ih =>
      have same := setWord_length (inside write List.mem_cons_self) write.2
      calc
        (setWords (setWord buffer write.1 write.2) writes).length
          = (setWord buffer write.1 write.2).length := by
            apply ih
            intro other member
            rw [same]
            exact inside other (List.mem_cons_of_mem _ member)
        _ = buffer.length := same

theorem getD_setWords_apart {writes : List (Nat × Nat)} {place : Nat}
    (inside : ∀ write ∈ writes, write.1 + 4 ≤ buffer.length)
    (apart : ∀ write ∈ writes, place < write.1 ∨ write.1 + 4 ≤ place) :
    (setWords buffer writes).getD place 0 = buffer.getD place 0 := by
  induction writes generalizing buffer with
  | nil => rfl
  | cons write writes ih =>
      have same := setWord_length (inside write List.mem_cons_self) write.2
      calc
        (setWords (setWord buffer write.1 write.2) writes).getD place 0
          = (setWord buffer write.1 write.2).getD place 0 := by
            apply ih
            · intro other member
              rw [same]
              exact inside other (List.mem_cons_of_mem _ member)
            · exact fun other member => apart other (List.mem_cons_of_mem _ member)
        _ = buffer.getD place 0 :=
            getD_setWord_apart (inside write List.mem_cons_self) (apart write List.mem_cons_self)

theorem getWord_setWords_apart {writes : List (Nat × Nat)}
    (inside : ∀ write ∈ writes, write.1 + 4 ≤ buffer.length)
    (apart : ∀ write ∈ writes, at_ + 4 ≤ write.1 ∨ write.1 + 4 ≤ at_) :
    getWord (setWords buffer writes) at_ = getWord buffer at_ := by
  have byte (i : Nat) (less : i < 4) :
      (setWords buffer writes).getD (at_ + i) 0 = buffer.getD (at_ + i) 0 := by
    apply getD_setWords_apart inside
    intro write member
    have away := apart write member
    omega
  have first := byte 0 (by decide)
  rw [Nat.add_zero] at first
  rw [getWord, first, byte 1 (by decide), byte 2 (by decide), byte 3 (by decide), getWord]

/-- The last word stored at a place is the one found there. -/
theorem getWord_setWords {writes back : List (Nat × Nat)}
    (inside : ∀ write ∈ writes, write.1 + 4 ≤ buffer.length) (front : List (Nat × Nat))
    (parts : writes = front ++ (at_, value) :: back)
    (apart : ∀ write ∈ back, at_ + 4 ≤ write.1 ∨ write.1 + 4 ≤ at_) :
    getWord (setWords buffer writes) at_ = value % 2 ^ 32 := by
  subst parts
  have before : (setWords buffer front).length = buffer.length :=
    setWords_length (fun write member => inside write (List.mem_append_left _ member))
  have here := inside (at_, value) (List.mem_append_right _ List.mem_cons_self)
  have room : at_ + 4 ≤ (setWords buffer front).length := before ▸ here
  have same := setWord_length room value
  calc
    getWord (setWords buffer (front ++ (at_, value) :: back)) at_
      = getWord (setWords (setWord (setWords buffer front) at_ value) back) at_ := by
        rw [setWords, List.foldl_append]
        rfl
    _ = getWord (setWord (setWords buffer front) at_ value) at_ := by
        apply getWord_setWords_apart _ apart
        intro write member
        rw [same, before]
        exact inside write (List.mem_append_right _ (List.mem_cons_of_mem _ member))
    _ = value % 2 ^ 32 := getWord_setWord room

/-! ### Words as numbers with a sign -/

theorem intOfWord_bmod (value : Nat) : intOfWord value = (value : Int).bmod (2 ^ 32) := by
  rw [intOfWord, BitVec.toInt_ofNat']

theorem intOfWord_of_lt {value : Nat} (small : value < 2 ^ 31) : intOfWord value = value := by
  rw [intOfWord_bmod]
  exact Int.bmod_eq_of_le (by omega) (by omega)

/-- An `int` shifted to the right, stored as a word and shifted back is rounded down. -/
theorem intOfWord_shift {value : Int} {unit : Nat} (pos : 0 < unit) (divides : unit ∣ 2 ^ 31)
    (low : -2 ^ 31 ≤ value) (high : value < 2 ^ 31) :
    intOfWord ((value / unit % 2 ^ 32).toNat * unit) = value - value % unit := by
  have unit_pos : (0 : Int) < unit := Int.natCast_pos.mpr pos
  have down : value - value % unit = value / unit * unit := by
    have parts := Int.mul_ediv_add_emod value unit
    linarith
  have word : (((value / unit % 2 ^ 32).toNat * unit : Nat) : Int) = value / unit % 2 ^ 32 * unit := by
    rw [Nat.cast_mul, Int.toNat_of_nonneg (Int.emod_nonneg _ (by decide))]
  have least : (-2 ^ 31 : Int) ≤ value / unit * unit := by
    obtain ⟨count, whole⟩ := divides
    have cast : (2 ^ 31 : Int) = unit * count := by exact_mod_cast whole
    have quotient : (-count : Int) ≤ value / unit := by
      rw [Int.le_ediv_iff_mul_le unit_pos]
      linarith
    nlinarith
  have most : value / unit * unit < 2 ^ 31 := by
    have rest := Int.emod_nonneg value unit_pos.ne'
    linarith
  calc
    intOfWord ((value / unit % 2 ^ 32).toNat * unit)
      = (value / unit % (2 ^ 32 : Nat) * unit).bmod (2 ^ 32) := by
        rw [intOfWord_bmod, word]
        norm_num
    _ = (value / unit * unit).bmod (2 ^ 32) := Int.emod_mul_bmod _ _
    _ = value / unit * unit := Int.bmod_eq_of_le (by omega) (by omega)
    _ = value - value % unit := down.symm

end Alisl.Base
