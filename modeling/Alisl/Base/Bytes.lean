import Mathlib.Data.List.Basic
import Mathlib.Data.Nat.Bitwise
import Mathlib.Tactic

/-! Bytes in memory: big-endian fields, placed byte strings and block copies. -/

namespace Alisl.Base

abbrev Byte := UInt8

abbrev Memory := Nat → Byte

def byteOf (value : Nat) : Byte := UInt8.ofNat value

def putBe16 (value : Nat) : List Byte := [byteOf (value / 256), byteOf value]

def putBe24 (value : Nat) : List Byte :=
  [byteOf (value / 65536), byteOf (value / 256), byteOf value]

def putBe32 (value : Nat) : List Byte :=
  [byteOf (value / 16777216), byteOf (value / 65536), byteOf (value / 256), byteOf value]

def getBe16 (memory : Memory) (at_ : Nat) : Nat :=
  (memory at_).toNat * 256 + (memory (at_ + 1)).toNat

def getBe24 (memory : Memory) (at_ : Nat) : Nat :=
  (memory at_).toNat * 65536 + (memory (at_ + 1)).toNat * 256 + (memory (at_ + 2)).toNat

def getBe32 (memory : Memory) (at_ : Nat) : Nat :=
  (memory at_).toNat * 16777216 + (memory (at_ + 1)).toNat * 65536 +
    (memory (at_ + 2)).toNat * 256 + (memory (at_ + 3)).toNat

/-- Subtraction of 32-bit unsigned longs. -/
def ulongSub (left right : Nat) : Nat :=
  if right ≤ left then left - right else left + 4294967296 - right

/-- The byte string stands in memory from an address on. -/
def Holds (memory : Memory) : Nat → List Byte → Prop
  | _, [] => True
  | at_, byte :: bytes => memory at_ = byte ∧ Holds memory (at_ + 1) bytes

/-- The bytes of memory between two addresses. -/
def slice (memory : Memory) (at_ len : Nat) : List Byte :=
  (List.range len).map (fun i => memory (at_ + i))

def store (memory : Memory) (at_ : Nat) (bytes : List Byte) : Memory :=
  fun address =>
    if at_ ≤ address then bytes.getD (address - at_) (memory address) else memory address

@[simp] theorem byteOf_toNat (value : Nat) : (byteOf value).toNat = value % 256 := by
  simp [byteOf]

@[simp] theorem slice_length (memory : Memory) (at_ len : Nat) :
    (slice memory at_ len).length = len := by
  simp [slice]

theorem slice_getElem? (memory : Memory) (at_ len i : Nat) (inside : i < len) :
    (slice memory at_ len)[i]? = some (memory (at_ + i)) := by
  simp [slice, inside]

theorem slice_add (memory : Memory) (at_ front back : Nat) :
    slice memory at_ (front + back) = slice memory at_ front ++ slice memory (at_ + front) back := by
  simp [slice, List.range_add, Nat.add_assoc]

theorem slice_eq_of_agree (left right : Memory) (at_ len : Nat)
    (agree : ∀ address, at_ ≤ address → address < at_ + len → left address = right address) :
    slice left at_ len = slice right at_ len := by
  apply List.map_congr_left
  intro i member
  have inside := List.mem_range.mp member
  exact agree _ (by omega) (by omega)

theorem store_before (memory : Memory) (at_ address : Nat) (bytes : List Byte)
    (before : address < at_) : store memory at_ bytes address = memory address := by
  simp [store, Nat.not_le.mpr before]

theorem store_after (memory : Memory) (at_ address : Nat) (bytes : List Byte)
    (after : at_ + bytes.length ≤ address) : store memory at_ bytes address = memory address := by
  have outside : bytes.length ≤ address - at_ := by omega
  simp [store, outside]

theorem store_inside (memory : Memory) (at_ i : Nat) (bytes : List Byte)
    (inside : i < bytes.length) : store memory at_ bytes (at_ + i) = bytes[i] := by
  simp [store, inside]

@[simp] theorem slice_store (memory : Memory) (at_ : Nat) (bytes : List Byte) :
    slice (store memory at_ bytes) at_ bytes.length = bytes := by
  apply List.ext_getElem (slice_length _ _ _)
  intro i _ inside
  simp [slice, store_inside memory at_ i bytes inside]

theorem slice_store_of_length (memory : Memory) (at_ len : Nat) (bytes : List Byte)
    (length : bytes.length = len) : slice (store memory at_ bytes) at_ len = bytes := by
  subst length
  exact slice_store memory at_ bytes

theorem slice_store_apart (memory : Memory) (at_ len address : Nat) (bytes : List Byte)
    (apart : at_ + len ≤ address ∨ address + bytes.length ≤ at_) :
    slice (store memory address bytes) at_ len = slice memory at_ len := by
  apply slice_eq_of_agree
  intro place low high
  rcases apart with before | after
  · exact store_before _ _ _ _ (by omega)
  · exact store_after _ _ _ _ (by omega)

theorem holds_append (memory : Memory) (at_ : Nat) (front back : List Byte) :
    Holds memory at_ (front ++ back) ↔
      Holds memory at_ front ∧ Holds memory (at_ + front.length) back := by
  induction front generalizing at_ with
  | nil => simp [Holds]
  | cons byte front ih =>
      simp only [List.cons_append, Holds, List.length_cons, ih, and_assoc]
      rw [Nat.add_assoc, Nat.add_comm 1]

theorem holds_iff_slice (memory : Memory) (at_ : Nat) (bytes : List Byte) :
    Holds memory at_ bytes ↔ slice memory at_ bytes.length = bytes := by
  induction bytes generalizing at_ with
  | nil => simp [Holds, slice]
  | cons byte bytes ih =>
      rw [Holds, ih, List.length_cons, Nat.add_comm bytes.length, slice_add]
      simp [slice]

theorem holds_store (memory : Memory) (at_ : Nat) (bytes : List Byte) :
    Holds (store memory at_ bytes) at_ bytes :=
  (holds_iff_slice _ _ _).mpr (slice_store memory at_ bytes)

variable {memory : Memory} {at_ value : Nat}

theorem Holds.getBe16 (holds : Holds memory at_ (putBe16 value)) :
    getBe16 memory at_ = value % 65536 := by
  obtain ⟨first, second, _⟩ := holds
  simp only [Alisl.Base.getBe16, first, second, byteOf_toNat]
  omega

theorem Holds.getBe24 (holds : Holds memory at_ (putBe24 value)) :
    getBe24 memory at_ = value % 16777216 := by
  obtain ⟨first, second, third, _⟩ := holds
  simp only [Alisl.Base.getBe24, first, second, third, byteOf_toNat]
  omega

theorem Holds.getBe32 (holds : Holds memory at_ (putBe32 value)) :
    getBe32 memory at_ = value % 4294967296 := by
  obtain ⟨first, second, third, fourth, _⟩ := holds
  simp only [Alisl.Base.getBe32, first, second, third, fourth, byteOf_toNat]
  omega

@[simp] theorem putBe16_length (value : Nat) : (putBe16 value).length = 2 := rfl

@[simp] theorem putBe24_length (value : Nat) : (putBe24 value).length = 3 := rfl

@[simp] theorem putBe32_length (value : Nat) : (putBe32 value).length = 4 := rfl

end Alisl.Base
