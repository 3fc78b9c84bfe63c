import Mathlib.Data.Nat.Nth
import Mathlib.Data.Nat.Count

/-! A medium of blocks of one size, some of which are good.

The good blocks in a row make up a file. An address has a position in the file, also when it lies in a
bad block: the one it gets by moving on, block by block, to the next good block. -/

namespace Alisl.Base.Blocks

section

variable (unit : Nat) (Good : Nat → Prop) [DecidablePred Good]

def logical (address : Nat) : Nat := Nat.count Good (address / unit) * unit + address % unit

noncomputable def physical (position : Nat) : Nat :=
  Nat.nth Good (position / unit) * unit + position % unit

/-- What fits into the good ones of the first `blocks` blocks. -/
def capacity (blocks : Nat) : Nat := Nat.count Good blocks * unit

/-- The good blocks one after the other. -/
def file {Cell : Type} (content : Nat → Cell) (blocks : Nat) : List Cell :=
  ((List.range blocks).filter (fun block => Good block)).flatMap (fun block =>
    (List.range unit).map (fun r => content (block * unit + r)))

end

variable {unit : Nat} {Good : Nat → Prop} [DecidablePred Good]

/-! Addresses. -/

theorem join_div_mod {block r : Nat} (small : r < unit) :
    (block * unit + r) / unit = block ∧ (block * unit + r) % unit = r := by
  have pos : 0 < unit := Nat.zero_lt_of_lt small
  constructor
  · rw [Nat.add_comm, Nat.add_mul_div_right _ _ pos, Nat.div_eq_of_lt small, Nat.zero_add]
  · rw [Nat.add_comm, Nat.add_mul_mod_self_right, Nat.mod_eq_of_lt small]

theorem div_add_of_lt {address k : Nat} (inside : address % unit + k < unit) :
    (address + k) / unit = address / unit ∧ (address + k) % unit = address % unit + k := by
  have parts := Nat.div_add_mod address unit
  have whole : address + k = (address % unit + k) + unit * (address / unit) := by omega
  have pos : 0 < unit := by omega
  constructor
  · rw [whole, Nat.add_mul_div_left _ _ pos, Nat.div_eq_of_lt inside, Nat.zero_add]
  · rw [whole, Nat.add_mul_mod_self_left, Nat.mod_eq_of_lt inside]

theorem div_add_of_eq {address k : Nat} (pos : 0 < unit) (reach : address % unit + k = unit) :
    (address + k) / unit = address / unit + 1 ∧ (address + k) % unit = 0 := by
  have parts := Nat.div_add_mod address unit
  have whole : address + k = (address / unit + 1) * unit := by
    rw [Nat.succ_mul, Nat.mul_comm]
    omega
  rw [whole]
  exact ⟨Nat.mul_div_cancel _ pos, Nat.mul_mod_left ..⟩

theorem logical_skip (pos : 0 < unit) {address : Nat} (bad : ¬ Good (address / unit)) :
    logical unit Good (address + unit) = logical unit Good address := by
  rw [logical, logical, Nat.add_div_right _ pos,
    Nat.count_succ_eq_count_iff.mpr bad, Nat.add_mod_right]

/-- In a good block the position moves with the address, up to the end of the block. -/
theorem logical_add (pos : 0 < unit) {address k : Nat} (good : Good (address / unit))
    (inside : address % unit + k ≤ unit) :
    logical unit Good (address + k) = logical unit Good address + k := by
  rcases Nat.lt_or_eq_of_le inside with less | reach
  · rcases div_add_of_lt less with ⟨block, rest⟩
    rw [logical, logical, block, rest, Nat.add_assoc]
  · rcases div_add_of_eq pos reach with ⟨block, rest⟩
    rw [logical, logical, block, rest, Nat.count_succ_eq_succ_count_iff.mpr good, Nat.succ_mul]
    omega

theorem physical_logical (pos : 0 < unit) {address : Nat} (good : Good (address / unit)) :
    physical unit Good (logical unit Good address) = address := by
  rcases join_div_mod (Nat.mod_lt address pos) with ⟨block, rest⟩
  rw [physical, logical, block, rest, Nat.nth_count good]
  exact Nat.div_add_mod' address unit

theorem physical_logical_add (pos : 0 < unit) {address k : Nat} (good : Good (address / unit))
    (inside : address % unit + k < unit) :
    physical unit Good (logical unit Good address + k) = address + k := by
  rw [← logical_add pos good (Nat.le_of_lt inside)]
  apply physical_logical pos
  rw [(div_add_of_lt inside).1]
  exact good

/-- The rest of a good block fits. -/
theorem logical_room {address blocks k : Nat} (good : Good (address / unit))
    (inside : address % unit + k ≤ unit) (below : address / unit < blocks) :
    logical unit Good address + k ≤ capacity unit Good blocks := by
  have more : Nat.count Good (address / unit) + 1 ≤ Nat.count Good blocks :=
    Nat.count_strict_mono good below
  calc
    logical unit Good address + k = Nat.count Good (address / unit) * unit + (address % unit + k) :=
      Nat.add_assoc ..
    _ ≤ (Nat.count Good (address / unit) + 1) * unit := by
      rw [Nat.succ_mul]
      omega
    _ ≤ capacity unit Good blocks := Nat.mul_le_mul_right unit more

/-- An address behind the last block has a position behind the file. -/
theorem capacity_le_logical (pos : 0 < unit) {address blocks : Nat}
    (beyond : blocks * unit ≤ address) :
    capacity unit Good blocks ≤ logical unit Good address := by
  have block : blocks ≤ address / unit := (Nat.le_div_iff_mul_le pos).mpr beyond
  calc
    capacity unit Good blocks ≤ Nat.count Good (address / unit) * unit :=
      Nat.mul_le_mul_right unit (Nat.count_monotone Good block)
    _ ≤ logical unit Good address := Nat.le_add_right ..

theorem nth_card {i blocks : Nat} (less : i < Nat.count Good blocks) :
    ∀ finite : (Set.ofPred Good).Finite, i < finite.toFinset.card := by
  intro finite
  exact Nat.lt_of_lt_of_le less (Nat.count_le_card finite blocks)

/-- A position of the file lies in a good block. -/
theorem physical_spec (pos : 0 < unit) {position blocks : Nat}
    (inside : position < capacity unit Good blocks) :
    physical unit Good position < blocks * unit ∧ Good (physical unit Good position / unit) ∧
      logical unit Good (physical unit Good position) = position := by
  have less : position / unit < Nat.count Good blocks := (Nat.div_lt_iff_lt_mul pos).mpr inside
  have small : position % unit < unit := Nat.mod_lt _ pos
  have block : physical unit Good position / unit = Nat.nth Good (position / unit) :=
    (join_div_mod small).1
  have rest : physical unit Good position % unit = position % unit := (join_div_mod small).2
  refine ⟨?_, ?_, ?_⟩
  · rw [← Nat.div_lt_iff_lt_mul pos, block]
    exact Nat.nth_lt_of_lt_count less
  · rw [block]
    exact Nat.nth_mem _ (nth_card less)
  · rw [logical, block, rest, Nat.count_nth (nth_card less)]
    exact Nat.div_add_mod' position unit

/-! The file. -/

/-- What comes later in the file does not lie in a part of a block that comes before. -/
theorem physical_beyond (pos : 0 < unit) {address k position blocks : Nat}
    (good : Good (address / unit)) (inside : address % unit + k ≤ unit)
    (later : logical unit Good address + k ≤ position)
    (below : position < capacity unit Good blocks) :
    ¬ (address ≤ physical unit Good position ∧ physical unit Good position < address + k) := by
  intro both
  obtain ⟨i, hit⟩ := Nat.exists_eq_add_of_le both.1
  have less : i < k := by omega
  have same : logical unit Good address + i = position := by
    calc
      logical unit Good address + i = logical unit Good (address + i) :=
        (logical_add pos good (by omega)).symm
      _ = logical unit Good (physical unit Good position) := by rw [hit]
      _ = position := (physical_spec pos below).2.2
  omega

section File

variable {Cell : Type} (content : Nat → Cell)

theorem file_succ (blocks : Nat) :
    file unit Good content (blocks + 1) = file unit Good content blocks ++
      if Good blocks then (List.range unit).map (fun r => content (blocks * unit + r)) else [] := by
  rw [file, file, List.range_succ, List.filter_append, List.flatMap_append]
  congr 1
  by_cases good : Good blocks
  · simp [good]
  · simp [good]

theorem length_file (blocks : Nat) :
    (file unit Good content blocks).length = capacity unit Good blocks := by
  induction blocks with
  | zero => simp [file, capacity]
  | succ blocks ih =>
      rw [file_succ, List.length_append, ih, capacity, capacity, Nat.count_succ, Nat.add_mul]
      congr 1
      split
      · simp
      · simp

theorem getElem?_file (pos : 0 < unit) {position blocks : Nat}
    (inside : position < capacity unit Good blocks) :
    (file unit Good content blocks)[position]? = some (content (physical unit Good position)) := by
  induction blocks with
  | zero => simp [capacity] at inside
  | succ blocks ih =>
      rw [file_succ]
      by_cases earlier : position < capacity unit Good blocks
      · rw [List.getElem?_append_left (by rwa [length_file])]
        exact ih earlier
      · -- the position lies in the last block, which then is good
        have good : Good blocks := by
          by_contra bad
          rw [capacity, Nat.count_succ_eq_count_iff.mpr bad] at inside
          exact earlier inside
        rw [Nat.not_lt] at earlier
        rcases Nat.exists_eq_add_of_le earlier with ⟨r, rfl⟩
        have small : r < unit := by
          have room : capacity unit Good (blocks + 1) = capacity unit Good blocks + unit := by
            rw [capacity, Nat.count_succ_eq_succ_count_iff.mpr good, Nat.succ_mul]
            rfl
          rw [room] at inside
          exact Nat.lt_of_add_lt_add_left inside
        have start : logical unit Good (blocks * unit) = capacity unit Good blocks := by
          rw [logical, Nat.mul_div_cancel _ pos, Nat.mul_mod_left, Nat.add_zero]
          rfl
        have address : physical unit Good (capacity unit Good blocks + r) = blocks * unit + r := by
          rw [← start]
          apply physical_logical_add pos
          · rwa [Nat.mul_div_cancel _ pos]
          · rwa [Nat.mul_mod_left, Nat.zero_add]
        rw [List.getElem?_append_right (by rw [length_file]; exact Nat.le_add_right ..), length_file,
          Nat.add_sub_cancel_left, if_pos good, address]
        simp [small]

/-- A list with the right cells at all positions is the file. -/
theorem eq_file (pos : 0 < unit) {blocks : Nat} {cells : List Cell}
    (length : cells.length = capacity unit Good blocks)
    (each : ∀ position, position < capacity unit Good blocks →
      cells[position]? = some (content (physical unit Good position))) :
    cells = file unit Good content blocks := by
  apply List.ext_getElem?
  intro position
  by_cases inside : position < capacity unit Good blocks
  · rw [each position inside, getElem?_file content pos inside]
  · rw [List.getElem?_eq_none (by omega), List.getElem?_eq_none (by rw [length_file]; omega)]

end File

end Alisl.Base.Blocks
