import Alisl.Base.Bytes

/-! A circular buffer: the window of `len` bytes behind a position, read around
the end of the buffer. -/

namespace Alisl.Base

def window (memory : Memory) (size at_ len : Nat) : List Byte :=
  (List.range len).map (fun i => memory ((at_ + i) % size))

@[simp] theorem window_length (memory : Memory) (size at_ len : Nat) :
    (window memory size at_ len).length = len := by
  simp [window]

theorem window_add (memory : Memory) (size at_ front back : Nat) :
    window memory size at_ (front + back) =
      window memory size at_ front ++ window memory size (at_ + front) back := by
  simp [window, List.range_add, Nat.add_assoc]

/-- A window only depends on its position modulo the size. -/
theorem window_congr (memory : Memory) (size at_ other len : Nat)
    (same : at_ % size = other % size) : window memory size at_ len = window memory size other len := by
  apply List.map_congr_left
  intro i _
  rw [Nat.add_mod, same, ← Nat.add_mod]

theorem window_add_size (memory : Memory) (size at_ len : Nat) :
    window memory size (at_ + size) len = window memory size at_ len :=
  window_congr _ _ _ _ _ (Nat.add_mod_right at_ size)

theorem window_eq_of_agree (left right : Memory) (size at_ len : Nat)
    (agree : ∀ i, i < len → left ((at_ + i) % size) = right ((at_ + i) % size)) :
    window left size at_ len = window right size at_ len := by
  apply List.map_congr_left
  intro i member
  exact agree i (List.mem_range.mp member)

/-- A window that ends inside the buffer is one block. -/
theorem window_fits (memory : Memory) (size at_ len : Nat) (fits : at_ + len ≤ size) :
    window memory size at_ len = slice memory at_ len := by
  apply List.map_congr_left
  intro i member
  have inside := List.mem_range.mp member
  rw [Nat.mod_eq_of_lt (by omega)]

theorem window_at_size (memory : Memory) (size len : Nat) :
    window memory size size len = window memory size 0 len :=
  window_congr _ _ _ _ _ (by rw [Nat.mod_self, Nat.zero_mod])

/-- A window that passes the end is the block before the end and the block from
the start on. -/
theorem window_wraps (memory : Memory) (size at_ len : Nat) (inside : at_ ≤ size)
    (wraps : size ≤ at_ + len) (short : len ≤ size) :
    window memory size at_ len =
      slice memory at_ (size - at_) ++ slice memory 0 (len - (size - at_)) := by
  have length : len = (size - at_) + (len - (size - at_)) := by omega
  have ends : at_ + (size - at_) = size := by omega
  calc window memory size at_ len
      = window memory size at_ ((size - at_) + (len - (size - at_))) := by rw [← length]
    _ = window memory size at_ (size - at_) ++ window memory size size (len - (size - at_)) := by
        rw [window_add, ends]
    _ = slice memory at_ (size - at_) ++ slice memory 0 (len - (size - at_)) := by
        rw [window_fits _ _ _ _ (by omega), window_at_size, window_fits _ _ _ _ (by omega)]

/-- Where a position a little behind another one lies. -/
theorem wrapped_eq (size at_ : Nat) (near : at_ < size + size) :
    at_ % size = if at_ < size then at_ else at_ - size := by
  split
  case isTrue inside => exact Nat.mod_eq_of_lt inside
  case isFalse outside =>
      rw [Nat.mod_eq_sub_mod (by omega), Nat.mod_eq_of_lt (by omega)]

/-- A store that touches no position of the window leaves it alone. -/
theorem window_store_apart (memory : Memory) (size at_ len address : Nat) (bytes : List Byte)
    (inside : at_ ≤ size) (short : len ≤ size)
    (apart : ∀ i, i < len → at_ + i < size → at_ + i < address ∨ address + bytes.length ≤ at_ + i)
    (wrapped : ∀ i, i < len → size ≤ at_ + i →
      at_ + i < address + size ∨ address + bytes.length + size ≤ at_ + i) :
    window (store memory address bytes) size at_ len = window memory size at_ len := by
  apply window_eq_of_agree
  intro i less
  rw [wrapped_eq size (at_ + i) (by omega)]
  split
  case isTrue low =>
      rcases apart i less low with before | after
      · exact store_before _ _ _ _ before
      · exact store_after _ _ _ _ after
  case isFalse high =>
      rcases wrapped i less (by omega) with before | after
      · exact store_before _ _ _ _ (by omega)
      · exact store_after _ _ _ _ (by omega)

end Alisl.Base
