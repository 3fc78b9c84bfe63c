import Mathlib.Data.List.Basic
import Mathlib.Tactic

/-! Cutting a list into pieces of a size, the last one possibly shorter. -/

namespace Alisl.Base

variable {Item : Type}

def cutFuel (size : Nat) : Nat → List Item → List (List Item)
  | 0, _ => []
  | _ + 1, [] => []
  | fuel + 1, items => items.take size :: cutFuel size fuel (items.drop size)

def cut (size : Nat) (items : List Item) : List (List Item) := cutFuel size items.length items

@[simp] theorem cut_nil (size : Nat) : cut size ([] : List Item) = [] := rfl

/-- A drop is at least one item shorter. -/
theorem length_drop_le (size : Nat) (pos : 0 < size) (item : Item) (items : List Item) :
    ((item :: items).drop size).length ≤ items.length := by
  rw [List.length_drop, List.length_cons]
  omega

theorem cutFuel_succ (size : Nat) (pos : 0 < size) (fuel : Nat) (items : List Item)
    (enough : items.length ≤ fuel) : cutFuel size (fuel + 1) items = cutFuel size fuel items := by
  induction fuel generalizing items with
  | zero =>
      have empty : items = [] := List.eq_nil_of_length_eq_zero (by omega)
      rw [empty]
      rfl
  | succ fuel ih =>
      cases items with
      | nil => rfl
      | cons item items =>
          rw [List.length_cons] at enough
          have shorter := length_drop_le size pos item items
          simp only [cutFuel]
          rw [← ih _ (by omega)]

theorem cutFuel_enough (size : Nat) (pos : 0 < size) (fuel : Nat) (items : List Item)
    (enough : items.length ≤ fuel) : cutFuel size fuel items = cut size items := by
  induction fuel, enough using Nat.le_induction with
  | base => rfl
  | succ fuel enough ih => rw [cutFuel_succ size pos fuel items enough, ih]

theorem cut_eq (size : Nat) (pos : 0 < size) (items : List Item) (some : items ≠ []) :
    cut size items = items.take size :: cut size (items.drop size) := by
  cases items with
  | nil => exact absurd rfl some
  | cons item items =>
      rw [← cutFuel_enough size pos items.length _ (length_drop_le size pos item items)]
      rfl

/-- Induction along the cuts. -/
theorem cut_induction {motive : List Item → Prop} (size : Nat) (pos : 0 < size)
    (nil : motive [])
    (step : ∀ items, items ≠ [] → motive (items.drop size) → motive items) :
    ∀ items, motive items := by
  intro items
  induction length : items.length using Nat.strong_induction_on generalizing items with
  | _ len ih =>
      cases items with
      | nil => exact nil
      | cons item items =>
          have shorter := length_drop_le size pos item items
          rw [List.length_cons] at length
          exact step _ (List.cons_ne_nil _ _) (ih _ (by omega) _ rfl)

theorem cut_flatten (size : Nat) (pos : 0 < size) (items : List Item) :
    (cut size items).flatten = items := by
  induction items using cut_induction size pos with
  | nil => rfl
  | step items some ih =>
      rw [cut_eq size pos items some, List.flatten_cons, ih, List.take_append_drop]

theorem cut_short (size : Nat) (items : List Item) (some : items ≠ [])
    (short : items.length ≤ size) : cut size items = [items] := by
  have pos : 0 < size := (List.length_pos_of_ne_nil some).trans_le short
  rw [cut_eq size pos items some, List.take_of_length_le short, List.drop_eq_nil_of_le short,
    cut_nil]

theorem cut_length (size : Nat) (pos : 0 < size) (items : List Item) :
    (cut size items).length = (items.length + size - 1) / size := by
  induction items using cut_induction size pos with
  | nil =>
      rw [cut_nil, List.length_nil, List.length_nil, Nat.div_eq_of_lt (by omega)]
  | step items some ih =>
      have positive := List.length_pos_of_ne_nil some
      rw [cut_eq size pos items some, List.length_cons, ih, List.length_drop]
      rcases Nat.lt_or_ge items.length size with small | large
      · have first : (items.length - size + size - 1) / size = 0 := Nat.div_eq_of_lt (by omega)
        have second : (items.length + size - 1) / size = 1 := by
          rw [Nat.div_eq_iff pos]
          omega
        rw [first, second]
      · have more : items.length + size - 1 = (items.length - size + size - 1) + size := by omega
        rw [more, Nat.add_div_right _ pos]

theorem cut_getElem? (size : Nat) (pos : 0 < size) (i : Nat) (items : List Item)
    (inside : i * size < items.length) :
    (cut size items)[i]? = some ((items.drop (i * size)).take size) := by
  induction i generalizing items with
  | zero =>
      have some : items ≠ [] := List.ne_nil_of_length_pos (by omega)
      rw [cut_eq size pos items some]
      simp
  | succ i ih =>
      have some : items ≠ [] := List.ne_nil_of_length_pos (by omega)
      rw [Nat.succ_mul] at inside ⊢
      rw [cut_eq size pos items some, List.getElem?_cons_succ, ih _ (by rw [List.length_drop]; omega),
        List.drop_drop, Nat.add_comm size]

/-- Rounding up leaves a multiple as it is. -/
theorem roundUp_eq (length unit : Nat) (positive : 0 < unit) :
    (length + unit - 1) / unit = if length % unit = 0 then length / unit else length / unit + 1 := by
  have parts := Nat.div_add_mod' length unit
  have rest := Nat.mod_lt length positive
  split
  case isTrue whole =>
    apply Nat.div_eq_of_lt_le
    · omega
    · rw [Nat.succ_mul]
      omega
  case isFalse part =>
    apply Nat.div_eq_of_lt_le
    · rw [Nat.succ_mul]
      omega
    · rw [Nat.succ_mul, Nat.succ_mul]
      omega

theorem cut_eq_map (size : Nat) (pos : 0 < size) (items : List Item) :
    cut size items = (List.range ((items.length + size - 1) / size)).map
      (fun i => (items.drop (i * size)).take size) := by
  have length := cut_length size pos items
  apply List.ext_getElem?
  intro i
  rcases Nat.lt_or_ge i ((items.length + size - 1) / size) with inside | outside
  · have start : i * size < items.length := by
      have whole := Nat.mul_le_of_le_div size (i + 1) _ inside
      rw [Nat.succ_mul] at whole
      omega
    rw [cut_getElem? size pos i items start, List.getElem?_map, List.getElem?_range inside]
    rfl
  · rw [List.getElem?_eq_none (by omega), List.getElem?_eq_none (by simpa using outside)]

/-- A piece that exists starts inside the list. -/
theorem cut_start (size : Nat) (pos : 0 < size) (i : Nat) (items : List Item)
    (inside : i < (cut size items).length) : i * size < items.length := by
  rw [cut_length size pos] at inside
  by_contra outside
  have small : (items.length + size - 1) / size < i + 1 := by
    rw [Nat.div_lt_iff_lt_mul pos, Nat.succ_mul]
    omega
  omega

theorem cut_length_le (size : Nat) (pos : 0 < size) (items : List Item) :
    (cut size items).length ≤ items.length := by
  by_contra more
  have start := cut_start size pos items.length items (by omega)
  have least : items.length ≤ items.length * size := Nat.le_mul_of_pos_right items.length pos
  omega

theorem length_le_of_mem_cut (size : Nat) (pos : 0 < size) (items piece : List Item)
    (member : piece ∈ cut size items) : piece.length ≤ min size items.length := by
  obtain ⟨i, found⟩ := List.mem_iff_getElem?.mp member
  have inside := (List.getElem?_eq_some_iff.mp found).1
  rw [cut_getElem? size pos i items (cut_start size pos i items inside)] at found
  rw [← Option.some.inj found, List.length_take, List.length_drop]
  omega

theorem cut_map {Other : Type} (size : Nat) (pos : 0 < size) (f : Item → Other)
    (items : List Item) : cut size (items.map f) = (cut size items).map (List.map f) := by
  induction items using cut_induction size pos with
  | nil => rfl
  | step items some ih =>
      have mapped : items.map f ≠ [] := by simpa using some
      rw [cut_eq size pos _ mapped, cut_eq size pos items some, List.map_cons, ← ih, List.map_take,
        List.map_drop]

theorem cut_take (size : Nat) (pos : 0 < size) (count : Nat) (items : List Item) :
    (cut size items).take count = cut size (items.take (count * size)) := by
  induction count generalizing items with
  | zero => simp
  | succ count ih =>
      by_cases some : items = []
      · simp [some]
      · have front : items.take ((count + 1) * size) ≠ [] := by
          intro empty
          have length := congrArg List.length empty
          have positive := List.length_pos_of_ne_nil some
          rw [List.length_take, List.length_nil, Nat.succ_mul] at length
          omega
        rw [cut_eq size pos items some, cut_eq size pos _ front, List.take_succ_cons, ih,
          List.take_take, List.drop_take, Nat.succ_mul, Nat.add_sub_cancel,
          Nat.min_eq_left (Nat.le_add_left size _)]

theorem cut_drop (size : Nat) (pos : 0 < size) (count : Nat) (items : List Item) :
    (cut size items).drop count = cut size (items.drop (count * size)) := by
  induction count generalizing items with
  | zero => simp
  | succ count ih =>
      by_cases some : items = []
      · simp [some]
      · rw [cut_eq size pos items some, List.drop_succ_cons, ih, List.drop_drop, Nat.succ_mul,
          Nat.add_comm size]

/-- Grouping the pieces is cutting into larger pieces. -/
theorem cut_cut (count size : Nat) (countPos : 0 < count) (pos : 0 < size) (items : List Item) :
    (cut count (cut size items)).map List.flatten = cut (count * size) items := by
  induction items using cut_induction (count * size) (Nat.mul_pos countPos pos) with
  | nil => rfl
  | step items some ih =>
      have pieces : cut size items ≠ [] := by
        rw [cut_eq size pos items some]
        exact List.cons_ne_nil _ _
      rw [cut_eq count countPos _ pieces, cut_eq (count * size) (Nat.mul_pos countPos pos) items some,
        List.map_cons, cut_take size pos, cut_flatten size pos, cut_drop size pos, ih]

/-- All pieces have the size, but for a last one that may be shorter. -/
def Uniform (size : Nat) : List (List Item) → Prop
  | [] => True
  | [last] => 0 < last.length ∧ last.length ≤ size
  | piece :: rest => piece.length = size ∧ Uniform size rest

theorem cut_uniform (size : Nat) (pos : 0 < size) (items : List Item) :
    Uniform size (cut size items) := by
  induction items using cut_induction size pos with
  | nil => exact trivial
  | step items some ih =>
      have positive := List.length_pos_of_ne_nil some
      rw [cut_eq size pos items some]
      cases rest : cut size (items.drop size) with
      | nil =>
          refine ⟨?_, ?_⟩
          · rw [List.length_take]
            omega
          · exact List.length_take_le _ _
      | cons next pieces =>
          rw [rest] at ih
          refine ⟨?_, ih⟩
          have more : items.drop size ≠ [] := by
            intro empty
            rw [empty] at rest
            cases rest
          have long := List.length_pos_of_ne_nil more
          rw [List.length_drop] at long
          rw [List.length_take]
          omega

/-- The pieces of a whole number of them are all full. -/
theorem length_of_mem_cut (size : Nat) (pos : 0 < size) (items : List Item)
    (whole : size ∣ items.length) : ∀ piece ∈ cut size items, piece.length = size := by
  induction items using cut_induction size pos with
  | nil =>
      intro piece member
      simp at member
  | step items some ih =>
      intro piece member
      have long := Nat.le_of_dvd (List.length_pos_of_ne_nil some) whole
      rw [cut_eq size pos items some, List.mem_cons] at member
      rcases member with rfl | later
      · rw [List.length_take, Nat.min_eq_left long]
      · apply ih _ piece later
        rw [List.length_drop]
        exact Nat.dvd_sub whole (Nat.dvd_refl size)

theorem uniform_of_length {size : Nat} (pieces : List (List Item))
    (lengths : ∀ piece ∈ pieces, piece.length = size) (pos : 0 < size) : Uniform size pieces := by
  induction pieces with
  | nil => exact trivial
  | cons piece rest ih =>
      have here := lengths piece List.mem_cons_self
      have later := ih (fun other member => lengths other (List.mem_cons_of_mem _ member))
      cases rest with
      | nil => exact ⟨by omega, by omega⟩
      | cons next rest => exact ⟨here, later⟩

theorem Uniform.map {Other : Type} {size grown : Nat} {f : List Item → List Other}
    {pieces : List (List Item)} (uniform : Uniform size pieces)
    (growth : ∀ piece, (f piece).length = piece.length + grown) :
    Uniform (size + grown) (pieces.map f) := by
  induction pieces with
  | nil => exact trivial
  | cons piece rest ih =>
      cases rest with
      | nil =>
          obtain ⟨some, short⟩ := uniform
          refine ⟨?_, ?_⟩
          · rw [growth]
            omega
          · rw [growth]
            omega
      | cons next rest =>
          obtain ⟨exact_, later⟩ := uniform
          refine ⟨?_, ih later⟩
          rw [growth, exact_]

/-- Cutting finds the pieces a list was put together from. -/
theorem cut_flatten_uniform (size : Nat) (pos : 0 < size) (pieces : List (List Item))
    (uniform : Uniform size pieces) : cut size pieces.flatten = pieces := by
  induction pieces with
  | nil => rfl
  | cons piece rest ih =>
      cases rest with
      | nil =>
          obtain ⟨some, short⟩ := uniform
          rw [List.flatten_cons, List.flatten_nil, List.append_nil]
          exact cut_short size piece (List.ne_nil_of_length_pos some) short
      | cons next rest =>
          obtain ⟨length, later⟩ := uniform
          have some : (piece :: next :: rest).flatten ≠ [] := by
            apply List.ne_nil_of_length_pos
            rw [List.flatten_cons, List.length_append]
            omega
          rw [cut_eq size pos _ some, List.flatten_cons, List.take_left' length,
            List.drop_left' length, ih later]

end Alisl.Base
