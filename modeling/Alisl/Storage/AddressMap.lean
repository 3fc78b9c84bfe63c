import Alisl.Storage.LogicalFile

/-! The address conversions over the whole range of a `loff_t`, and where they are a pair of
rank and selection. -/

namespace Alisl.Storage.Nand

open Alisl.Base

variable {geometry : Geometry}

namespace Dev

/-- A quotient of `loff_t`, taken into an `unsigned long`. -/
def toUlong (value : Int) : Nat := (value % 2 ^ 32).toNat

def alislstoGetPhyAddr (dev : Dev geometry) (offsetLogic : Int) : Option Int :=
  if (geometry.size : Int) < offsetLogic then none
  else if dev.badCnt = 0 then some offsetLogic
  else
    let blockLogic := toUlong (offsetLogic.tdiv geometry.eraseSize)
    let found := seekGood dev.badMap blockLogic geometry.blocks 0 0
    if found.2 = geometry.blocks then none
    else some (found.1 * geometry.eraseSize + offsetLogic.tmod geometry.eraseSize)

def alislstoGetLogicAddr (dev : Dev geometry) (offsetPhy : Int) : Option Int :=
  if (geometry.size : Int) < offsetPhy then none
  else if dev.badCnt = 0 then some offsetPhy
  else
    let blockPhy := toUlong (offsetPhy.tdiv geometry.eraseSize)
    let blockIdx : Nat := (List.range blockPhy).foldl (fun blockIdx cnt =>
      if dev.badMap.get cnt then blockIdx else blockIdx + 1) 0
    some (blockIdx * geometry.eraseSize + offsetPhy.tmod geometry.eraseSize)

def goodBlocks (dev : Dev geometry) : Nat := Nat.count dev.flash.Good geometry.blocks

/-- The address of a logical offset: the same place in the good block with that number. -/
def Selects (dev : Dev geometry) (offsetLogic address : Int) : Prop :=
  ∃ block < geometry.blocks, dev.flash.Good block ∧
    (Nat.count dev.flash.Good block : Int) = offsetLogic / geometry.eraseSize ∧
      address = block * geometry.eraseSize + offsetLogic % geometry.eraseSize

/-- What the conversion of one offset is for. -/
structure Converts (dev : Dev geometry) (offsetLogic : Int) : Prop where
  succeeds : (dev.alislstoGetPhyAddr offsetLogic).isSome ↔
    0 ≤ offsetLogic ∧ offsetLogic / geometry.eraseSize < dev.goodBlocks
  selects : ∀ address, dev.alislstoGetPhyAddr offsetLogic = some address →
    dev.Selects offsetLogic address
  inverted : ∀ address, dev.alislstoGetPhyAddr offsetLogic = some address →
    dev.alislstoGetLogicAddr address = some offsetLogic

end Dev

theorem toUlong_div {offset : Nat} (inside : offset ≤ geometry.size) :
    Dev.toUlong ((offset : Int).tdiv geometry.eraseSize) = offset / geometry.eraseSize := by
  have small : offset / geometry.eraseSize < 2 ^ 32 := by
    calc
      offset / geometry.eraseSize ≤ offset := Nat.div_le_self _ _
      _ ≤ geometry.size := inside
      _ < 2 ^ 32 := geometry.fits
  have quotient : (offset : Int).tdiv geometry.eraseSize = (offset / geometry.eraseSize : Nat) :=
    (Int.ofNat_tdiv offset geometry.eraseSize).symm
  rw [quotient, Dev.toUlong]
  generalize offset / geometry.eraseSize = block at small
  omega

theorem alislstoGetPhyAddr_natCast (dev : Dev geometry) (offset : Nat) :
    dev.alislstoGetPhyAddr offset = (dev.getPhyAddr offset).map Nat.cast := by
  unfold Dev.alislstoGetPhyAddr Dev.getPhyAddr
  by_cases beyond : geometry.size < offset
  · rw [if_pos beyond, if_pos (by exact_mod_cast beyond)]
    rfl
  · rw [if_neg beyond, if_neg (by exact_mod_cast beyond)]
    split
    case isTrue => rfl
    case isFalse =>
      dsimp only
      rw [toUlong_div (Nat.not_lt.mp beyond)]
      split
      case isTrue => rfl
      case isFalse =>
        rw [Option.map_some]
        push_cast
        rw [Int.tmod_eq_emod_of_nonneg (Int.natCast_nonneg offset)]

theorem alislstoGetLogicAddr_natCast (dev : Dev geometry) (offset : Nat) :
    dev.alislstoGetLogicAddr offset =
      (dev.getLogicAddr offset).map Nat.cast := by
  unfold Dev.alislstoGetLogicAddr Dev.getLogicAddr
  by_cases beyond : geometry.size < offset
  · rw [if_pos beyond, if_pos (by exact_mod_cast beyond)]
    rfl
  · rw [if_neg beyond, if_neg (by exact_mod_cast beyond)]
    split
    case isTrue => rfl
    case isFalse =>
      dsimp only
      rw [toUlong_div (Nat.not_lt.mp beyond), Option.map_some]
      push_cast
      rw [Int.tmod_eq_emod_of_nonneg (Int.natCast_nonneg offset)]

/-- With too few good blocks the scan comes to the end of the map. -/
theorem seekGood_beyond {dev : Dev geometry} (records : BadRecords dev) {target : Nat}
    (beyond : dev.goodBlocks ≤ target) (left cnt : Nat) (rest : cnt + left = geometry.blocks) :
    Dev.seekGood dev.badMap target left cnt (Nat.count dev.flash.Good cnt) =
      (geometry.blocks, dev.goodBlocks) := by
  induction left generalizing cnt with
  | zero =>
      rw [Nat.add_zero] at rest
      rw [Dev.seekGood, rest]
      rfl
  | succ left ih =>
      have there : cnt < geometry.blocks := by omega
      rw [Dev.seekGood, records.get_eq there]
      cases bad : dev.flash.bad cnt with
      | true =>
          have same : Nat.count dev.flash.Good (cnt + 1) = Nat.count dev.flash.Good cnt :=
            Nat.count_succ_eq_count_iff.mpr (Flash.not_good bad)
          rw [if_pos rfl, ← same]
          exact ih (cnt + 1) (by omega)
      | false =>
          have good : dev.flash.Good cnt := bad
          have next : Nat.count dev.flash.Good (cnt + 1) = Nat.count dev.flash.Good cnt + 1 :=
            Nat.count_succ_eq_succ_count_iff.mpr good
          have less : Nat.count dev.flash.Good cnt < dev.goodBlocks :=
            Nat.count_strict_mono good there
          simp only [Bool.false_eq_true, if_false]
          rw [if_neg (by omega), ← next]
          exact ih (cnt + 1) (by omega)

theorem goodBlocks_lt {dev : Dev geometry} (records : BadRecords dev) (some_ : 0 < dev.badCnt) :
    dev.goodBlocks < geometry.blocks := by
  have counted := records.counted
  rw [count_bits records.agrees] at counted
  have parts := count_good dev.flash geometry.blocks
  rw [Dev.goodBlocks]
  omega

theorem seekGood_lt {dev : Dev geometry} (records : BadRecords dev) (some_ : 0 < dev.badCnt)
    (target : Nat) : (Dev.seekGood dev.badMap target geometry.blocks 0 0).2 < geometry.blocks := by
  have less := goodBlocks_lt records some_
  have zero : Nat.count dev.flash.Good 0 = 0 := Nat.count_zero _
  by_cases inside : target < dev.goodBlocks
  · have found := seekGood_spec records inside geometry.blocks 0 (Nat.zero_add _) (by omega)
    rw [zero] at found
    rw [found]
    exact Nat.lt_trans inside less
  · have found := seekGood_beyond records (Nat.not_lt.mp inside) geometry.blocks 0 (Nat.zero_add _)
    rw [zero] at found
    rw [found]
    exact less

/-- With a bad block no offset inside the device is refused. -/
theorem alislstoGetPhyAddr_isSome {dev : Dev geometry} (records : BadRecords dev)
    (some_ : 0 < dev.badCnt) {offset : Int} (inside : offset ≤ geometry.size) :
    (dev.alislstoGetPhyAddr offset).isSome := by
  have found := seekGood_lt records some_ (Dev.toUlong (offset.tdiv geometry.eraseSize))
  unfold Dev.alislstoGetPhyAddr
  rw [if_neg (Int.not_lt.mpr inside), if_neg (Nat.ne_of_gt some_)]
  dsimp only
  rw [if_neg (Nat.ne_of_lt found)]
  rfl

/-- An offset of the logical size. -/
theorem converts_inside {dev : Dev geometry} (records : BadRecords dev) {offset : Nat}
    (inside : offset < dev.capacity) : dev.Converts offset := by
  have pos := geometry.erase_pos
  have phy := alislstoGetPhyAddr_natCast dev offset
  rw [records.getPhyAddr inside, Option.map_some] at phy
  rcases Blocks.physical_spec pos inside with ⟨below, good, back⟩
  have block : offset / geometry.eraseSize < dev.goodBlocks := (Nat.div_lt_iff_lt_mul pos).mpr inside
  have logic : dev.alislstoGetLogicAddr (dev.address offset : Int) = some (offset : Int) := by
    have below' : dev.address offset ≤ geometry.size := Nat.le_of_lt below
    rw [alislstoGetLogicAddr_natCast, records.getLogicAddr below', Option.map_some]
    exact congrArg (fun position : Nat => some (position : Int)) back
  constructor
  case succeeds =>
      rw [phy]
      simp only [Option.isSome_some, true_iff]
      exact ⟨Int.natCast_nonneg _, by exact_mod_cast block⟩
  case selects =>
      intro address found
      rw [phy] at found
      cases found
      have small : offset % geometry.eraseSize < geometry.eraseSize := Nat.mod_lt _ pos
      refine ⟨Nat.nth dev.flash.Good (offset / geometry.eraseSize), ?_, ?_, ?_, ?_⟩
      · exact Nat.nth_lt_of_lt_count block
      · exact Nat.nth_mem _ (Blocks.nth_card block)
      · rw [Nat.count_nth (Blocks.nth_card block)]
        norm_cast
      · rw [Dev.address, Blocks.physical]
        push_cast
        rfl
  case inverted =>
      intro address found
      rw [phy] at found
      cases found
      exact logic

theorem converts_beyond (dev : Dev geometry) {offset : Int} (beyond : geometry.size < offset) :
    dev.Converts offset := by
  have pos := geometry.erase_pos
  have none_ : dev.alislstoGetPhyAddr offset = none := by
    rw [Dev.alislstoGetPhyAddr, if_pos beyond]
  have blocks : (geometry.blocks : Int) ≤ offset / geometry.eraseSize := by
    rw [Int.le_ediv_iff_mul_le (by exact_mod_cast pos)]
    have size : (geometry.size : Int) = geometry.blocks * geometry.eraseSize := by
      rw [Geometry.size]
      push_cast
      rfl
    omega
  have good : dev.goodBlocks ≤ geometry.blocks := Nat.count_le _
  constructor
  case succeeds =>
      rw [none_]
      simp only [Option.isSome_none, Bool.false_eq_true, false_iff, not_and]
      omega
  case selects =>
      intro address found
      rw [none_] at found
      cases found
  case inverted =>
      intro address found
      rw [none_] at found
      cases found

theorem div_lt_goodBlocks (dev : Dev geometry) (offset : Nat) :
    (offset : Int) / geometry.eraseSize < dev.goodBlocks ↔ offset < dev.capacity := by
  rw [Dev.capacity, Blocks.capacity, ← Nat.div_lt_iff_lt_mul geometry.erase_pos]
  norm_cast

theorem converts_iff {dev : Dev geometry} (records : BadRecords dev) (some_ : 0 < dev.badCnt)
    (offset : Int) : dev.Converts offset ↔ 0 ≤ offset ∧
      (offset / geometry.eraseSize < dev.goodBlocks ∨ geometry.size < offset) := by
  constructor
  · intro converts
    by_cases beyond : (geometry.size : Int) < offset
    · exact ⟨by omega, .inr beyond⟩
    · have found := alislstoGetPhyAddr_isSome records some_ (Int.not_lt.mp beyond)
      rcases converts.succeeds.mp found with ⟨nonneg, less⟩
      exact ⟨nonneg, .inl less⟩
  · intro met
    rcases met with ⟨nonneg, less | beyond⟩
    · obtain ⟨offset, rfl⟩ := Int.eq_ofNat_of_zero_le nonneg
      exact converts_inside records ((div_lt_goodBlocks dev offset).mp less)
    · exact converts_beyond dev beyond

theorem phy_of_logic {dev : Dev geometry} (records : BadRecords dev) {address : Nat}
    (inside : address < geometry.size) (good : dev.flash.Good (address / geometry.eraseSize)) :
    (dev.alislstoGetLogicAddr address).bind dev.alislstoGetPhyAddr = some (address : Int) := by
  have room : dev.position address + 1 ≤ dev.capacity :=
    Blocks.logical_room good (Nat.mod_lt _ geometry.erase_pos) (block_lt inside)
  have back : dev.address (dev.position address) = address :=
    Blocks.physical_logical geometry.erase_pos good
  rw [alislstoGetLogicAddr_natCast, records.getLogicAddr (Nat.le_of_lt inside), Option.map_some,
    Option.bind_some, alislstoGetPhyAddr_natCast, records.getPhyAddr room, Option.map_some, back]

/-- An offset between the logical size and the size is not refused when a block is bad; all others
are converted and back. -/
theorem address_conversion {geometry : Geometry} (dev : Dev geometry) (records : BadRecords dev)
    (some_ : 0 < dev.badCnt) :
    (∀ offset : Int, dev.Converts offset ↔ 0 ≤ offset ∧
      (offset / geometry.eraseSize < dev.goodBlocks ∨ geometry.size < offset)) ∧
    ∀ address : Nat, address < geometry.size → dev.flash.Good (address / geometry.eraseSize) →
      (dev.alislstoGetLogicAddr address).bind dev.alislstoGetPhyAddr = some (address : Int) :=
  ⟨converts_iff records some_, fun _ inside good => phy_of_logic records inside good⟩

/-- The geometry of the comment before `alislsto_get_phy_addr`. -/
def documented : Geometry where
  eraseSize := 0x200000
  blocks := 4
  erase_pos := Nat.succ_pos 0x1fffff
  fits := by decide

def blockTwoBad : Flash := ⟨fun _ => 0xff, fun block => block == 2, []⟩

theorem address_conversion_documented :
    (∀ offset : Int, (Dev.opened documented blockTwoBad .block).Converts offset ↔ 0 ≤ offset ∧
      (offset / documented.eraseSize < (Dev.opened documented blockTwoBad .block).goodBlocks ∨
        documented.size < offset)) ∧
    ∀ address : Nat, address < documented.size →
      (Dev.opened documented blockTwoBad .block).flash.Good (address / documented.eraseSize) →
      ((Dev.opened documented blockTwoBad .block).alislstoGetLogicAddr address).bind
        (Dev.opened documented blockTwoBad .block).alislstoGetPhyAddr = some (address : Int) :=
  address_conversion (Dev.opened documented blockTwoBad .block) (records_opened _ _) (by decide)

/-- Case 5 of that comment: the address is the size of the flash, not an error. -/
theorem case_five_not_refused :
    (Dev.opened documented blockTwoBad .block).alislstoGetPhyAddr 0x600000 = some 0x800000 ∧
      ¬ (Dev.opened documented blockTwoBad .block).Converts 0x600000 := by
  have found : (Dev.opened documented blockTwoBad .block).alislstoGetPhyAddr 0x600000 =
      some 0x800000 := by
    decide +kernel
  refine ⟨found, fun converts => ?_⟩
  have some_ : ((Dev.opened documented blockTwoBad .block).alislstoGetPhyAddr 0x600000).isSome := by
    rw [found]
    rfl
  have less := (converts.succeeds.mp some_).2
  revert less
  decide +kernel

end Alisl.Storage.Nand
