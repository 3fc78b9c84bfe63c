import Alisl.Dmx.Dispatch

/-! What a section filter lets through: positive bits agree everywhere, negative bits
differ somewhere. -/

namespace Alisl.Dmx

open Alisl.Base

def bitAt (bytes : List Byte) (i bit : Nat) : Bool := (bytes.getD i 0).toBitVec.getLsbD bit

def IsPositive (mask mode : List Byte) (i bit : Nat) : Prop :=
  bitAt mask i bit = true ∧ bitAt mode i bit = true

def IsNegative (mask mode : List Byte) (i bit : Nat) : Prop :=
  bitAt mask i bit = true ∧ bitAt mode i bit = false

/-- The filter arrays of `alisldmx_set_filter` on their first `size` bytes. -/
structure Matches (size : Nat) (value mask mode data : List Byte) : Prop where
  positive : ∀ i < size, ∀ bit < 8, IsPositive mask mode i bit →
    bitAt data i bit = bitAt value i bit
  negative : (∀ i < size, ∀ bit < 8, ¬ IsNegative mask mode i bit) ∨
    ∃ i < size, ∃ bit < 8, IsNegative mask mode i bit ∧ bitAt data i bit ≠ bitAt value i bit

theorem byte_ext (left right : Byte) :
    left = right ↔ ∀ bit < 8, left.toBitVec.getLsbD bit = right.toBitVec.getLsbD bit := by
  constructor
  · intro same bit _
    rw [same]
  · intro bits
    have same : left.toBitVec = right.toBitVec :=
      BitVec.eq_of_getLsbD_eq bits
    exact UInt8.toBitVec_inj.mp same

/-- Two values agree under a mask where the mask has a one. -/
theorem masked_eq_iff (mask left right : Byte) :
    mask &&& left = mask &&& right ↔ ∀ bit < 8, mask.toBitVec.getLsbD bit = true →
      left.toBitVec.getLsbD bit = right.toBitVec.getLsbD bit := by
  rw [byte_ext]
  constructor
  · intro same bit inside masked
    have here := same bit inside
    simp only [UInt8.toBitVec_and, BitVec.getLsbD_and, masked, Bool.true_and] at here
    exact here
  · intro agree bit inside
    simp only [UInt8.toBitVec_and, BitVec.getLsbD_and]
    cases masked : mask.toBitVec.getLsbD bit with
    | false => simp
    | true => simp [agree bit inside masked]

theorem masked_ne_iff (mask left right : Byte) :
    mask &&& left ≠ mask &&& right ↔ ∃ bit < 8, mask.toBitVec.getLsbD bit = true ∧
      left.toBitVec.getLsbD bit ≠ right.toBitVec.getLsbD bit := by
  rw [ne_eq, masked_eq_iff]
  push Not
  rfl

theorem byte_ne_zero_iff (byte : Byte) :
    byte ≠ 0 ↔ ∃ bit < 8, byte.toBitVec.getLsbD bit = true := by
  rw [ne_eq, byte_ext]
  push Not
  simp

section Turns

variable (filter : Filter) (data : List Byte)

def positiveBits (i : Nat) : Byte := filter.filterMode.getD i 0 &&& filter.filterMask.getD i 0

def negativeBits (i : Nat) : Byte := ~~~(filter.filterMode.getD i 0) &&& filter.filterMask.getD i 0

theorem positive_bit (i bit : Nat) :
    (positiveBits filter i).toBitVec.getLsbD bit = true ↔
      IsPositive filter.filterMask filter.filterMode i bit := by
  simp [positiveBits, IsPositive, bitAt, and_comm]

theorem negative_bit (i bit : Nat) (inside : bit < 8) :
    (negativeBits filter i).toBitVec.getLsbD bit = true ↔
      IsNegative filter.filterMask filter.filterMode i bit := by
  simp [negativeBits, IsNegative, bitAt, inside, and_comm]

/-- The comparisons of one turn, as the loop body makes them. -/
def Missed (i : Nat) : Prop :=
  positiveBits filter i &&& data.getD i 0 ≠ positiveBits filter i &&& filter.filterValue.getD i 0

def Negated (i : Nat) : Prop := negativeBits filter i ≠ 0

def Differs (i : Nat) : Prop :=
  negativeBits filter i &&& data.getD i 0 ≠ negativeBits filter i &&& filter.filterValue.getD i 0

instance (i : Nat) : Decidable (Missed filter data i) := inferInstanceAs (Decidable (_ ≠ _))

instance (i : Nat) : Decidable (Negated filter i) := inferInstanceAs (Decidable (_ ≠ _))

instance (i : Nat) : Decidable (Differs filter data i) := inferInstanceAs (Decidable (_ ≠ _))

theorem hitTurn_eq (result : HitResult) (i : Nat) :
    hitTurn filter data result i =
      { res1 := if Missed filter data i then false else result.res1
        res2 := if Differs filter data i then true
          else if Negated filter i ∧ result.first then false else result.res2
        first := if Negated filter i ∧ result.first then false else result.first } :=
  rfl

theorem missed_iff (i : Nat) :
    Missed filter data i ↔ ∃ bit < 8, IsPositive filter.filterMask filter.filterMode i bit ∧
      bitAt data i bit ≠ bitAt filter.filterValue i bit := by
  unfold Missed
  rw [masked_ne_iff]
  simp only [positive_bit]
  rfl

theorem negated_iff (i : Nat) :
    Negated filter i ↔ ∃ bit < 8, IsNegative filter.filterMask filter.filterMode i bit := by
  unfold Negated
  rw [byte_ne_zero_iff]
  exact exists_congr (fun bit => and_congr_right (negative_bit filter i bit))

theorem differs_iff (i : Nat) :
    Differs filter data i ↔ ∃ bit < 8, IsNegative filter.filterMask filter.filterMode i bit ∧
      bitAt data i bit ≠ bitAt filter.filterValue i bit := by
  unfold Differs
  rw [masked_ne_iff]
  refine exists_congr (fun bit => and_congr_right (fun inside => ?_))
  rw [negative_bit filter i bit inside]
  rfl

theorem Differs.negated {i : Nat} (differs : Differs filter data i) : Negated filter i := by
  rcases (differs_iff filter data i).mp differs with ⟨bit, inside, is, _⟩
  exact (negated_iff filter i).mpr ⟨bit, inside, is⟩

/-- What the three flags say after the turns below `count`. -/
structure Turned (count : Nat) (result : HitResult) : Prop where
  res1 : result.res1 = true ↔ ∀ i < count, ¬ Missed filter data i
  first : result.first = true ↔ ∀ i < count, ¬ Negated filter i
  res2 : result.res2 = true ↔ result.first = true ∨ ∃ i < count, Differs filter data i

theorem turned_zero : Turned filter data 0 ⟨true, true, true⟩ where
  res1 := by simp
  first := by simp
  res2 := by simp

theorem Turned.turn {count : Nat} {result : HitResult} (turned : Turned filter data count result) :
    Turned filter data (count + 1) (hitTurn filter data result count) := by
  have res1 := turned.res1
  have first := turned.first
  have res2 := turned.res2
  rw [hitTurn_eq]
  constructor
  · rw [Nat.forall_lt_succ_right, ← res1]
    by_cases missed : Missed filter data count <;> simp [missed]
  · rw [Nat.forall_lt_succ_right, ← first]
    by_cases negated : Negated filter count
    · cases opened : result.first <;> simp [negated]
    · simp [negated]
  · rw [Nat.exists_lt_succ_right]
    by_cases differs : Differs filter data count
    · simp [differs]
    · by_cases negated : Negated filter count
      · cases opened : result.first
        · simpa [differs, opened] using res2
        -- the first negative bits close the flags, and no byte before can differ
        · have none : ¬ ∃ i < count, Differs filter data i := by
            intro found
            rcases found with ⟨i, before, here⟩
            exact first.mp opened i before (here.negated filter data)
          simpa [differs, negated] using none
      · simpa [differs, negated] using res2

theorem turned_fold (count : Nat) :
    Turned filter data count ((List.range count).foldl (hitTurn filter data) ⟨true, true, true⟩) := by
  induction count with
  | zero => exact turned_zero filter data
  | succ count ih =>
    rw [List.range_succ, List.foldl_append]
    exact ih.turn filter data

theorem matches_iff :
    Matches filter.size filter.filterValue filter.filterMask filter.filterMode data ↔
      (∀ i < filter.size, ¬ Missed filter data i) ∧
        ((∀ i < filter.size, ¬ Negated filter i) ∨ ∃ i < filter.size, Differs filter data i) := by
  have missed : ∀ i, ¬ Missed filter data i ↔ ∀ bit < 8,
      IsPositive filter.filterMask filter.filterMode i bit →
        bitAt data i bit = bitAt filter.filterValue i bit := by
    intro i
    rw [missed_iff]
    push Not
    rfl
  have negated : ∀ i, ¬ Negated filter i ↔ ∀ bit < 8,
      ¬ IsNegative filter.filterMask filter.filterMode i bit := by
    intro i
    rw [negated_iff]
    push Not
    rfl
  simp only [missed, negated, differs_iff]
  constructor
  · intro all
    exact ⟨all.positive, all.negative⟩
  · intro all
    exact ⟨all.1, all.2⟩

end Turns

theorem sectionHit_matches (filter : Filter) (data : List Byte) :
    sectionHit filter data = true ↔ filter.status = .enable ∧
      Matches filter.size filter.filterValue filter.filterMask filter.filterMode data := by
  have turned := turned_fold filter data filter.size
  have res1 := turned.res1
  have first := turned.first
  have res2 := turned.res2
  rw [matches_iff, ← res1, ← first, ← res2]
  unfold sectionHit
  by_cases enabled : filter.status = .enable
  · simp [enabled]
  · simp [enabled]

/-- Positive and negative matching, whatever the bytes: all positive bits agree, and some
negative bit differs unless there is none. -/
theorem sectionHit_iff (filter : Filter) (data : List Byte) :
    sectionHit filter data = true ↔ filter.status = .enable ∧
      (∀ i < filter.size, ∀ bit < 8, IsPositive filter.filterMask filter.filterMode i bit →
        bitAt data i bit = bitAt filter.filterValue i bit) ∧
      ((∀ i < filter.size, ∀ bit < 8, ¬ IsNegative filter.filterMask filter.filterMode i bit) ∨
        ∃ i < filter.size, ∃ bit < 8, IsNegative filter.filterMask filter.filterMode i bit ∧
          bitAt data i bit ≠ bitAt filter.filterValue i bit) := by
  rw [sectionHit_matches]
  refine and_congr_right (fun _ => ⟨fun matched => ?_, fun parts => ?_⟩)
  · exact ⟨matched.positive, matched.negative⟩
  · exact ⟨parts.1, parts.2⟩

theorem Matches.congr {size : Nat} {value value' mask mask' mode mode' data : List Byte}
    (matched : Matches size value mask mode data)
    (sameValue : ∀ i < size, value'.getD i 0 = value.getD i 0)
    (sameMask : ∀ i < size, mask'.getD i 0 = mask.getD i 0)
    (sameMode : ∀ i < size, mode'.getD i 0 = mode.getD i 0) :
    Matches size value' mask' mode' data where
  positive := by
    intro i inside bit small is
    simp only [IsPositive, bitAt, sameMask i inside, sameMode i inside] at is
    simpa only [bitAt, sameValue i inside] using matched.positive i inside bit small is
  negative := by
    rcases matched.negative with none | some
    · left
      intro i inside bit small
      simpa only [IsNegative, bitAt, sameMask i inside, sameMode i inside]
        using none i inside bit small
    · right
      rcases some with ⟨i, inside, bit, small, is, apart⟩
      refine ⟨i, inside, bit, small, ?_, ?_⟩
      · simpa only [IsNegative, bitAt, sameMask i inside, sameMode i inside] using is
      · simpa only [bitAt, sameValue i inside] using apart

theorem copyBytes_getD (size i : Nat) (source old : List Byte) (enough : size ≤ source.length)
    (inside : i < size) :
    (Device.copyBytes size (some source) old).getD i 0 = source.getD i 0 := by
  have short : i < (source.take size).length := by
    rw [List.length_take]
    omega
  simp only [Device.copyBytes, List.getD_eq_getElem?_getD]
  rw [List.getElem?_append_left short, List.getElem?_take_of_lt inside]

/-- What `alisldmx_set_filter` is given is what the filter hits by. -/
theorem setFilterBytes_hits (dev after : Device) (filterid size i : Nat)
    (value mask mode : List Byte) (continuous : Bool) (data : List Byte)
    (found : dev.findFilter filterid = some i)
    (called : dev.setFilterBytes filterid size (some value) (some mask) (some mode) continuous =
      (.ok, after))
    (values : size ≤ value.length) (masks : size ≤ mask.length) (modes : size ≤ mode.length) :
    sectionHit (after.filter i) data = true ↔
      (dev.filter i).status = .enable ∧ Matches size value mask mode data := by
  unfold Device.setFilterBytes at called
  split at called
  · cases called
  · simp only [Device.configureFilter, found, Prod.mk.injEq, true_and] at called
    rw [← called, sectionHit_matches]
    simp only [Device.setFilter, Function.update_self]
    refine and_congr_right (fun _ => ⟨fun matched => ?_, fun matched => ?_⟩)
    · exact matched.congr
        (fun j inside => (copyBytes_getD size j value _ values inside).symm)
        (fun j inside => (copyBytes_getD size j mask _ masks inside).symm)
        (fun j inside => (copyBytes_getD size j mode _ modes inside).symm)
    · exact matched.congr
        (fun j inside => copyBytes_getD size j value _ values inside)
        (fun j inside => copyBytes_getD size j mask _ masks inside)
        (fun j inside => copyBytes_getD size j mode _ modes inside)

/-- The second example of `alisldmx_set_filter`: versions other than 1. -/
example :
    let filter : Filter := { Filter.zero with
      status := .enable
      size := 7
      filterValue := [0x42, 0x00, 0x02, 0x02, 0x00, 0x00, 0x00]
      filterMask := [0xFF, 0xFF, 0xFF, 0x3E, 0x00, 0x00, 0x00]
      filterMode := [0xFF, 0xFF, 0xFF, 0xC1, 0x00, 0x00, 0x00] }
    sectionHit filter [0x42, 0x00, 0x02, 0xC3] = false ∧
      sectionHit filter [0x42, 0x00, 0x02, 0xC5] = true := by
  decide

end Alisl.Dmx
