import Alisl.Base.Bytes

/-! A byte string put together in memory from parts that arrive in any order and
any number of times. -/

namespace Alisl.Base

/-- A byte string and where the part of each slot lies in it. -/
structure Parts (Slot : Type) where
  whole : List Byte
  start : Slot → Nat
  len : Slot → Nat

variable {Slot : Type}

namespace Parts

def part (parts : Parts Slot) (slot : Slot) : List Byte :=
  (parts.whole.drop (parts.start slot)).take (parts.len slot)

/-- The part of a slot has the byte at an index. -/
def Has (parts : Parts Slot) (slot : Slot) (i : Nat) : Prop :=
  parts.start slot ≤ i ∧ i < parts.start slot + parts.len slot

/-- The parts of these slots make up the whole. -/
def Cover (parts : Parts Slot) (slots : Set Slot) : Prop :=
  ∀ i < parts.whole.length, ∃ slot ∈ slots, parts.Has slot i

end Parts

/-- The byte of `whole` at an index stands in its place. -/
def InPlace (memory : Memory) (base : Nat) (whole : List Byte) (i : Nat) : Prop :=
  whole[i]? = some (memory (base + i))

theorem slice_eq_of_inPlace (memory : Memory) (base : Nat) (whole : List Byte)
    (placed : ∀ i < whole.length, InPlace memory base whole i) :
    slice memory base whole.length = whole := by
  apply List.ext_getElem?
  intro i
  rcases Nat.lt_or_ge i whole.length with inside | outside
  · rw [slice_getElem? memory base _ i inside, placed i inside]
  · rw [List.getElem?_eq_none (by simpa using outside), List.getElem?_eq_none outside]

/-- A part of the whole, stored where it belongs, puts its bytes in place and
moves none out of it. -/
theorem inPlace_store (memory : Memory) (base : Nat) (parts : Parts Slot) (slot : Slot) (i : Nat)
    (inside : i < parts.whole.length) (placed : parts.Has slot i ∨ InPlace memory base parts.whole i) :
    InPlace (store memory (base + parts.start slot) (parts.part slot)) base parts.whole i := by
  by_cases has : parts.Has slot i
  · obtain ⟨low, high⟩ := has
    have there : i - parts.start slot < (parts.part slot).length := by
      simp only [Parts.part, List.length_take, List.length_drop]
      omega
    have address : base + i = base + parts.start slot + (i - parts.start slot) := by omega
    have index : parts.start slot + (i - parts.start slot) = i := by omega
    rw [InPlace, address, store_inside _ _ _ _ there]
    simp only [Parts.part, List.getElem_take, List.getElem_drop, index]
    exact List.getElem?_eq_getElem inside
  · have before : InPlace memory base parts.whole i := placed.resolve_left has
    unfold Parts.Has at has
    rw [InPlace, before, Option.some.injEq]
    rcases Nat.lt_or_ge i (parts.start slot) with low | high
    · exact (store_before _ _ _ _ (by omega)).symm
    · apply Eq.symm
      apply store_after
      simp only [Parts.part, List.length_take, List.length_drop]
      omega

/-- The slots whose part has arrived, and the memory the whole is put together in. -/
structure Assembly (Slot : Type) where
  received : Set Slot
  memory : Memory

/-- The part of a slot arrives: it is stored unless it is there. -/
inductive Deliver (parts : Parts Slot) (base : Nat) (slot : Slot) : Assembly Slot → Assembly Slot → Prop
  | fresh (assembly : Assembly Slot) (missing : slot ∉ assembly.received) :
      Deliver parts base slot assembly
        ⟨insert slot assembly.received,
          store assembly.memory (base + parts.start slot) (parts.part slot)⟩
  | again (assembly : Assembly Slot) (known : slot ∈ assembly.received) :
      Deliver parts base slot assembly assembly

inductive Deliveries (parts : Parts Slot) (base : Nat) :
    List Slot → Assembly Slot → Assembly Slot → Prop
  | nil (assembly : Assembly Slot) : Deliveries parts base [] assembly assembly
  | cons (slot : Slot) (slots : List Slot) (before between after : Assembly Slot)
      (first : Deliver parts base slot before between)
      (rest : Deliveries parts base slots between after) :
      Deliveries parts base (slot :: slots) before after

/-- The parts that have arrived are in place. -/
def Assembly.Sound (parts : Parts Slot) (base : Nat) (assembly : Assembly Slot) : Prop :=
  ∀ slot ∈ assembly.received, ∀ i < parts.whole.length, parts.Has slot i →
    InPlace assembly.memory base parts.whole i

variable {parts : Parts Slot} {base : Nat} {slot : Slot} {slots : List Slot}
  {before after : Assembly Slot}

theorem Deliver.received_eq (step : Deliver parts base slot before after) :
    after.received = insert slot before.received := by
  cases step with
  | fresh missing => rfl
  | again known => exact (Set.insert_eq_of_mem known).symm

theorem Deliver.sound (step : Deliver parts base slot before after)
    (sound : before.Sound parts base) : after.Sound parts base := by
  cases step with
  | again known => exact sound
  | fresh missing =>
      intro other arrived i inside has
      apply inPlace_store _ _ _ _ _ inside
      rcases arrived with same | earlier
      · exact .inl (same ▸ has)
      · exact .inr (sound other earlier i inside has)

theorem Deliveries.received_eq (run : Deliveries parts base slots before after) :
    after.received = before.received ∪ {slot | slot ∈ slots} := by
  induction run with
  | nil assembly => simp
  | cons slot slots before between after first rest ih =>
      rw [ih, first.received_eq]
      ext other
      simp only [Set.mem_union, Set.mem_insert_iff, Set.mem_ofPred_eq, List.mem_cons]
      tauto

theorem Deliveries.sound (run : Deliveries parts base slots before after)
    (sound : before.Sound parts base) : after.Sound parts base := by
  induction run with
  | nil assembly => exact sound
  | cons slot slots before between after first rest ih => exact ih (first.sound sound)

/-- Once the parts that have arrived make up the whole, it stands in memory. -/
theorem Assembly.Sound.complete {assembly : Assembly Slot} (sound : assembly.Sound parts base)
    (cover : parts.Cover assembly.received) :
    slice assembly.memory base parts.whole.length = parts.whole := by
  apply slice_eq_of_inPlace
  intro i inside
  obtain ⟨slot, arrived, has⟩ := cover i inside
  exact sound slot arrived i inside has

end Alisl.Base
