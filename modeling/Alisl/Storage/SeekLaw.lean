import Alisl.Storage.AddressMap

/-! The clamping law of the two seeks, and the offsets at which the mixed signed and unsigned
comparisons keep to it. -/

namespace Alisl.Storage.Nand

open Alisl.Base

/-- Where a seek is meant to lead. -/
def clamped (size pos : Nat) (offset : Int) : Whence → Option Int
  | .seekSet => some (if offset < 0 then pos else if size ≤ offset then size - 1 else offset)
  | .seekCur => some (max 0 (min (pos + offset) (size - 1)))
  | .seekEnd => some (if 0 < offset then pos else max 0 (size - 1 + offset))
  | .other => none

/-- The offsets that no conversion changes: a negative one is compared as an unsigned number, and a
sum goes through an `int`. -/
def Converted (size pos : Nat) (offset : Int) : Whence → Prop
  | .seekSet =>
      if 0 ≤ offset then 0 < size
      else pos < 2 ^ 31 ∧ (2 ^ 32 + offset < size ∨ (pos : Int) = size - 1)
  | .seekCur =>
      let sum : Int := pos + offset
      if sum < 2 ^ 31 then 0 < size ∨ sum < 0
      else if sum.bmod (2 ^ 32) < 0 then size ≤ 1
      else 0 < size ∧ size - 1 ≤ sum.bmod (2 ^ 32)
  | .seekEnd =>
      let sum : Int := size - 1 + offset
      if offset ≤ 0 then -2 ^ 31 ≤ sum ∧ sum < 2 ^ 31
      else pos < 2 ^ 31 ∧ (sum < 2 ^ 31 ∨ 2 ^ 32 ≤ sum ∨ pos = 0)
  | .other => False

/-- The result and the position a seek returns. -/
def Lands (target : Option Int) (result : Int) (position : Option Nat) : Prop :=
  ∃ address : Nat, position = some address ∧ target = some (address : Int) ∧ result = address

theorem toInt_cases (value : BitVec 32) :
    value.toInt = value.toNat ∧ value.toNat < 2 ^ 31 ∨
      value.toInt = value.toNat - 2 ^ 32 ∧ 2 ^ 31 ≤ value.toNat ∧ value.toNat < 2 ^ 32 := by
  have bound := value.isLt
  rw [BitVec.toInt_eq_toNat_cond]
  split
  · omega
  · omega

theorem toInt_ofNat_eq_iff (value : Nat) :
    (BitVec.ofNat 32 value).toInt = value ↔ value < 2 ^ 31 := by
  have cases := toInt_cases (BitVec.ofNat 32 value)
  rw [BitVec.toNat_ofNat] at cases
  omega

theorem lastAddr_cases {size : Nat} (bound : size < 2 ^ 32) :
    size = 0 ∧ lastAddr size = 2 ^ 32 - 1 ∨ 0 < size ∧ lastAddr size = size - 1 := by
  rw [lastAddr]
  omega

theorem lands_iff (target : Int) (address : Nat) :
    Lands (some target) (BitVec.ofNat 32 address).toInt (some address) ↔
      target = address ∧ address < 2 ^ 31 := by
  rw [← toInt_ofNat_eq_iff]
  constructor
  · intro lands
    rcases lands with ⟨found, here, leads, result⟩
    cases here
    exact ⟨Option.some.inj leads, result⟩
  · intro both
    exact ⟨address, rfl, congrArg some both.1, both.2⟩

/-! Each way of seeking follows the law where nothing is changed by a conversion, and only there. -/

theorem seekSet_iff {size pos : Nat} (bound : size < 2 ^ 32) (offset : BitVec 32) {address : Nat}
    (moved : seekAddr size pos offset .seekSet = some address) :
    Lands (clamped size pos offset.toInt .seekSet) (BitVec.ofNat 32 address).toInt (some address) ↔
      Converted size pos offset.toInt .seekSet := by
  have last := lastAddr_cases bound
  have sign := toInt_cases offset
  rw [clamped, lands_iff, Converted]
  cases moved
  by_cases negative : offset.toInt < 0
  · rw [if_pos negative, if_neg (Int.not_le.mpr negative), if_neg (Int.not_le.mpr negative)]
    split
    · omega
    · omega
  · rw [if_neg negative, if_pos (Int.not_lt.mp negative), if_pos (Int.not_lt.mp negative)]
    by_cases beyond : size ≤ offset.toNat
    · rw [if_pos (by omega), if_pos beyond]
      omega
    · rw [if_neg (by omega), if_neg beyond]
      omega

theorem seekCur_iff {size pos : Nat} (bound : size < 2 ^ 32) (offset : BitVec 32) {address : Nat}
    (moved : seekAddr size pos offset .seekCur = some address) :
    Lands (clamped size pos offset.toInt .seekCur) (BitVec.ofNat 32 address).toInt (some address) ↔
      Converted size pos offset.toInt .seekCur := by
  have last := lastAddr_cases bound
  have sign := toInt_cases offset
  have wrapped : (BitVec.ofInt 32 (pos + offset.toInt)).toInt =
      ((pos : Int) + offset.toInt).bmod (2 ^ 32) := BitVec.toInt_ofInt _
  have sign' := toInt_cases (BitVec.ofInt 32 (pos + offset.toInt))
  rw [clamped, lands_iff, Converted]
  cases moved
  simp only [wrapped] at sign' ⊢
  generalize (BitVec.ofInt 32 (pos + offset.toInt)).toNat = value at sign' ⊢
  generalize sums : (pos : Int) + offset.toInt = sum at sign' ⊢
  have range : (sum < 2 ^ 31 → sum.bmod (2 ^ 32) = sum) ∧
      (2 ^ 31 ≤ sum → 0 ≤ sum.bmod (2 ^ 32) → 2 ^ 32 ≤ sum) := by
    rw [Int.bmod]
    omega
  generalize sum.bmod (2 ^ 32) = rest at sign' range ⊢
  by_cases narrow : sum < 2 ^ 31
  · rw [if_pos narrow]
    have same := range.1 narrow
    split <;> [skip; split] <;> omega
  · rw [if_neg narrow]
    have wide := range.2 (Int.not_lt.mp narrow)
    split <;> [skip; split] <;> omega

theorem seekEnd_iff {size pos : Nat} (bound : size < 2 ^ 32) (offset : BitVec 32) {address : Nat}
    (moved : seekAddr size pos offset .seekEnd = some address) :
    Lands (clamped size pos offset.toInt .seekEnd) (BitVec.ofNat 32 address).toInt (some address) ↔
      Converted size pos offset.toInt .seekEnd := by
  have sign := toInt_cases offset
  have wrapped : (BitVec.ofInt 32 (size - 1 + offset.toInt)).toInt =
      ((size : Int) - 1 + offset.toInt).bmod (2 ^ 32) := BitVec.toInt_ofInt _
  have sign' := toInt_cases (BitVec.ofInt 32 (size - 1 + offset.toInt))
  rw [clamped, lands_iff, Converted]
  rw [seekAddr, end_addr] at moved
  cases moved
  simp only [wrapped] at sign' ⊢
  generalize (BitVec.ofInt 32 (size - 1 + offset.toInt)).toNat = value at sign' ⊢
  generalize sums : (size : Int) - 1 + offset.toInt = sum at sign' ⊢
  have range : (-2 ^ 31 ≤ sum → sum < 2 ^ 31 → sum.bmod (2 ^ 32) = sum) ∧
      (sum < -2 ^ 31 → 0 ≤ sum.bmod (2 ^ 32) ∧ 0 < sum.bmod (2 ^ 32)) ∧
      (2 ^ 31 ≤ sum → (sum.bmod (2 ^ 32) < 0 ↔ sum < 2 ^ 32)) := by
    rw [Int.bmod]
    omega
  generalize sum.bmod (2 ^ 32) = rest at sign' range ⊢
  by_cases forward : 0 < offset.toInt
  · rw [if_pos forward, if_neg (Int.not_le.mpr forward), if_neg (Int.not_le.mpr forward)]
    split
    · omega
    · omega
  · rw [if_neg forward, if_pos (Int.not_lt.mp forward), if_pos (Int.not_lt.mp forward)]
    split
    · omega
    · omega

theorem seekAddr_iff {size pos : Nat} (bound : size < 2 ^ 32) (offset : BitVec 32) (whence : Whence)
    {address : Nat} (moved : seekAddr size pos offset whence = some address) :
    Lands (clamped size pos offset.toInt whence) (BitVec.ofNat 32 address).toInt (some address) ↔
      Converted size pos offset.toInt whence := by
  cases whence with
  | seekSet => exact seekSet_iff bound offset moved
  | seekCur => exact seekCur_iff bound offset moved
  | seekEnd => exact seekEnd_iff bound offset moved
  | other => cases moved

section

variable {geometry : Geometry}

theorem alislstoLseek_iff (dev : Dev geometry) (offset : BitVec 32) (whence : Whence) :
    Lands (clamped geometry.size dev.offset offset.toInt whence)
        (dev.alislstoLseek offset whence).1 (some (dev.alislstoLseek offset whence).2.offset) ↔
      Converted geometry.size dev.offset offset.toInt whence := by
  cases moved : seekAddr geometry.size dev.offset offset whence with
  | some address =>
      rw [Dev.alislstoLseek, moved]
      exact seekAddr_iff geometry.fits offset whence moved
  | none =>
      cases whence with
      | other =>
          simp only [clamped, Converted, iff_false]
          intro lands
          rcases lands with ⟨_, _, leads, _⟩
          cases leads
      | seekSet => cases moved
      | seekCur => cases moved
      | seekEnd => cases moved

/-! The logical seek. Behind the logical size no address leads back. -/

theorem getPhyAddr_beyond {dev : Dev geometry} (records : BadRecords dev) (some_ : 0 < dev.badCnt)
    {address : Nat} (beyond : dev.capacity ≤ address) (inside : address ≤ geometry.size) :
    dev.getPhyAddr address = some (geometry.size + address % geometry.eraseSize) := by
  have pos := geometry.erase_pos
  have blocks : dev.goodBlocks ≤ address / geometry.eraseSize :=
    (Nat.le_div_iff_mul_le pos).mpr beyond
  have found := seekGood_beyond records blocks geometry.blocks 0 (Nat.zero_add _)
  rw [Nat.count_zero] at found
  rw [Dev.getPhyAddr, if_neg (Nat.not_lt.mpr inside), if_neg (Nat.ne_of_gt some_)]
  dsimp only
  rw [found, if_neg (Nat.ne_of_lt (goodBlocks_lt records some_))]
  rfl

theorem position_size (dev : Dev geometry) : dev.position geometry.size = dev.capacity := by
  rw [Dev.position, Blocks.logical, Geometry.size, Nat.mul_div_cancel _ geometry.erase_pos,
    Nat.mul_mod_left, Nat.add_zero]
  rfl

theorem phy_logic_iff {dev : Dev geometry} (records : BadRecords dev) (address : Nat) :
    (dev.getPhyAddr address).bind dev.getLogicAddr = some address ↔ address ≤ dev.capacity := by
  have pos := geometry.erase_pos
  have most := capacity_le dev
  by_cases large : geometry.size < address
  · have none_ : dev.getPhyAddr address = none := by
      rw [Dev.getPhyAddr, if_pos large]
    rw [none_]
    simp only [Option.bind_none, reduceCtorEq, false_iff]
    omega
  rw [Nat.not_lt] at large
  by_cases inside : address < dev.capacity
  · have below : dev.address address ≤ geometry.size :=
      Nat.le_of_lt (Blocks.physical_spec pos inside).1
    have back : dev.position (dev.address address) = address :=
      (Blocks.physical_spec pos inside).2.2
    rw [records.getPhyAddr inside, Option.bind_some, records.getLogicAddr below, back]
    simp only [true_iff]
    exact Nat.le_of_lt inside
  rw [Nat.not_lt] at inside
  by_cases none_ : dev.badCnt = 0
  · have sized := records.sized
    rw [none_, Nat.zero_mul, Nat.add_zero, ← records.capacity] at sized
    have same : dev.getPhyAddr address = some address := by
      rw [Dev.getPhyAddr, if_neg (Nat.not_lt.mpr large), if_pos none_]
    rw [same, Option.bind_some, records.getLogicAddr large, records.position_eq none_ large]
    simp only [true_iff]
    omega
  rw [getPhyAddr_beyond records (Nat.pos_of_ne_zero none_) inside large, Option.bind_some]
  by_cases whole : address % geometry.eraseSize = 0
  · rw [whole, Nat.add_zero, records.getLogicAddr (Nat.le_refl _), position_size,
      Option.some_inj]
    omega
  · have refused : dev.getLogicAddr (geometry.size + address % geometry.eraseSize) = none := by
      rw [Dev.getLogicAddr, if_pos (by omega)]
    have apart : address ≠ dev.capacity := by
      intro same
      apply whole
      rw [same]
      exact Nat.mul_mod_left ..
    rw [refused]
    simp only [reduceCtorEq, false_iff]
    omega

/-- The seeks that are to leave the position unchanged. -/
def Stays (offset : Int) : Whence → Prop
  | .seekSet => offset < 0
  | .seekEnd => 0 < offset
  | _ => False

theorem clamped_stays {size pos address : Nat} {offset : Int} {whence : Whence}
    (stays : Stays offset whence) (leads : clamped size pos offset whence = some (address : Int)) :
    address = pos := by
  cases whence with
  | seekSet =>
      rw [Stays] at stays
      rw [clamped, if_pos stays, Option.some_inj] at leads
      omega
  | seekEnd =>
      rw [Stays] at stays
      rw [clamped, if_pos stays, Option.some_inj] at leads
      omega
  | seekCur => cases stays
  | other => cases stays

theorem clamped_le {size pos address : Nat} {offset : Int} {whence : Whence}
    (moves : ¬ Stays offset whence) (leads : clamped size pos offset whence = some (address : Int)) :
    address ≤ size := by
  cases whence with
  | seekSet =>
      rw [Stays] at moves
      rw [clamped, if_neg moves, Option.some_inj] at leads
      split at leads
      · omega
      · omega
  | seekEnd =>
      rw [Stays] at moves
      rw [clamped, if_neg moves, Option.some_inj] at leads
      omega
  | seekCur =>
      rw [clamped, Option.some_inj] at leads
      omega
  | other => cases leads

theorem seekAddr_lt {size pos address : Nat} {offset : BitVec 32} {whence : Whence}
    (small : pos < 2 ^ 32) (moved : seekAddr size pos offset whence = some address) :
    address < 2 ^ 32 := by
  have last : lastAddr size < 2 ^ 32 := Nat.mod_lt _ (by decide)
  have bound := offset.isLt
  cases whence with
  | seekSet =>
      rw [seekAddr, Option.some_inj] at moved
      split at moved
      · omega
      · split at moved
        · omega
        · omega
  | seekCur =>
      have value := (BitVec.ofInt 32 (pos + offset.toInt)).isLt
      simp only [seekAddr, Option.some_inj] at moved
      split at moved
      · omega
      · split at moved
        · omega
        · omega
  | seekEnd =>
      have value := (BitVec.ofNat 32 size + offset - 1).isLt
      simp only [seekAddr, Option.some_inj] at moved
      split at moved
      · omega
      · split at moved
        · omega
        · omega
  | other => cases moved

theorem position_le (dev : Dev geometry) (address : Nat) : dev.position address ≤ address := by
  calc
    dev.position address ≤
        address / geometry.eraseSize * geometry.eraseSize + address % geometry.eraseSize :=
      Nat.add_le_add_right (Nat.mul_le_mul_right _ (Nat.count_le _)) _
    _ = address := Nat.div_add_mod' ..

theorem alislstoLseekLogic_some {dev : Dev geometry} (records : BadRecords dev)
    (inside : dev.offset ≤ geometry.size) {offset : BitVec 32} {whence : Whence} {address : Nat}
    (moved : seekAddr dev.logicSize (dev.position dev.offset) offset whence = some address) :
    dev.alislstoLseekLogic offset whence = (dev.getPhyAddr address).elim (-1, dev) (fun addrPhy =>
      ((BitVec.ofNat 32 address).toInt, { dev with offset := addrPhy })) := by
  rw [Dev.alislstoLseekLogic, records.getLogicAddr inside]
  simp only [moved]
  cases dev.getPhyAddr address with
  | none => rfl
  | some addrPhy => rfl

/-- The seek over the logical size: it also fails where the handle stands behind the flash, and where
it is to stay inside a bad block behind the last good one. -/
theorem alislstoLseekLogic_iff {dev : Dev geometry} (records : BadRecords dev) (offset : BitVec 32)
    (whence : Whence) :
    Lands (clamped dev.logicSize (dev.position dev.offset) offset.toInt whence)
        (dev.alislstoLseekLogic offset whence).1
        (dev.getLogicAddr (dev.alislstoLseekLogic offset whence).2.offset) ↔
      dev.offset ≤ geometry.size ∧
        Converted dev.logicSize (dev.position dev.offset) offset.toInt whence ∧
        (Stays offset.toInt whence → dev.position dev.offset ≤ dev.logicSize) := by
  have fits := geometry.fits
  have sized := records.sized
  have bound : dev.logicSize < 2 ^ 32 := by
    rw [Geometry.size] at sized
    omega
  have position := position_le dev dev.offset
  by_cases inside : dev.offset ≤ geometry.size
  case neg =>
    have refused : dev.getLogicAddr dev.offset = none := by
      rw [Dev.getLogicAddr, if_pos (Nat.not_le.mp inside)]
    constructor
    · intro lands
      rcases lands with ⟨_, here, _, _⟩
      rw [Dev.alislstoLseekLogic, refused] at here
      simp only [refused, reduceCtorEq] at here
    · intro met
      exact absurd met.1 inside
  cases moved : seekAddr dev.logicSize (dev.position dev.offset) offset whence with
  | none =>
      cases whence with
      | other =>
          constructor
          · intro lands
            rcases lands with ⟨_, _, leads, _⟩
            cases leads
          · intro met
            exact met.2.1.elim
      | seekSet => cases moved
      | seekCur => cases moved
      | seekEnd => cases moved
  | some address =>
      have small : address < 2 ^ 32 := by
        rw [Geometry.size] at inside
        exact seekAddr_lt (by omega) moved
      have law := seekAddr_iff bound offset whence moved
      have round := phy_logic_iff records address
      rw [records.capacity] at round
      rw [alislstoLseekLogic_some records inside moved, ← law]
      constructor
      · intro lands
        rcases lands with ⟨found, here, leads, result⟩
        cases phy : dev.getPhyAddr address with
        | none =>
            rw [phy, Option.elim_none] at result
            simp only at result
            omega
        | some addrPhy =>
            rw [phy, Option.elim_some] at here result
            rw [phy] at round
            have same : found = address := by
              have sign := toInt_cases (BitVec.ofNat 32 address)
              rw [BitVec.toNat_ofNat, Nat.mod_eq_of_lt small] at sign
              simp only at result
              omega
            subst same
            refine ⟨inside, ⟨found, rfl, leads, result⟩, ?_⟩
            intro stays
            rw [← clamped_stays stays leads]
            exact round.mp here
      · intro met
        rcases met with ⟨_, ⟨found, here, leads, result⟩, stays⟩
        cases here
        have less : address ≤ dev.logicSize := by
          by_cases keeps : Stays offset.toInt whence
          · rw [clamped_stays keeps leads]
            exact stays keeps
          · exact clamped_le keeps leads
        rcases Option.bind_eq_some_iff.mp (round.mpr less) with ⟨addrPhy, phy, back⟩
        rw [phy]
        exact ⟨address, back, leads, result⟩

/-- When each of the two seeks keeps to the clamping law. -/
theorem seeks_clamp {geometry : Geometry} (dev : Dev geometry) (records : BadRecords dev)
    (offset : BitVec 32) (whence : Whence) :
    (Lands (clamped geometry.size dev.offset offset.toInt whence)
        (dev.alislstoLseek offset whence).1 (some (dev.alislstoLseek offset whence).2.offset) ↔
      Converted geometry.size dev.offset offset.toInt whence) ∧
    (Lands (clamped dev.logicSize (dev.position dev.offset) offset.toInt whence)
        (dev.alislstoLseekLogic offset whence).1
        (dev.getLogicAddr (dev.alislstoLseekLogic offset whence).2.offset) ↔
      dev.offset ≤ geometry.size ∧
        Converted dev.logicSize (dev.position dev.offset) offset.toInt whence ∧
        (Stays offset.toInt whence → dev.position dev.offset ≤ dev.logicSize)) :=
  ⟨alislstoLseek_iff dev offset whence, alislstoLseekLogic_iff records offset whence⟩

theorem seeks_clamp_back :
    (Lands (clamped documented.size 0 (-1) .seekCur)
        ((Dev.opened documented blockTwoBad .block).alislstoLseek (-1) .seekCur).1
        (some ((Dev.opened documented blockTwoBad .block).alislstoLseek (-1) .seekCur).2.offset) ↔
      Converted documented.size 0 (-1) .seekCur) ∧
    (Lands (clamped 0x600000 0 (-1) .seekCur)
        ((Dev.opened documented blockTwoBad .block).alislstoLseekLogic (-1) .seekCur).1
        ((Dev.opened documented blockTwoBad .block).getLogicAddr
          ((Dev.opened documented blockTwoBad .block).alislstoLseekLogic (-1) .seekCur).2.offset) ↔
      0 ≤ documented.size ∧ Converted 0x600000 0 (-1) .seekCur ∧
        (Stays (-1) .seekCur → 0 ≤ 0x600000)) :=
  seeks_clamp (Dev.opened documented blockTwoBad .block) (records_opened _ _) (-1) .seekCur

/-- `SEEK_SET` to -1 moves both seeks to the last byte. -/
theorem seekSet_negative_moves :
    ¬ Lands (clamped documented.size 0 (-1) .seekSet)
        ((Dev.opened documented blockTwoBad .block).alislstoLseek (-1) .seekSet).1
        (some ((Dev.opened documented blockTwoBad .block).alislstoLseek (-1) .seekSet).2.offset) ∧
      ((Dev.opened documented blockTwoBad .block).alislstoLseek (-1) .seekSet).2.offset = 0x7fffff ∧
      ((Dev.opened documented blockTwoBad .block).alislstoLseekLogic (-1) .seekSet).1 = 0x5fffff := by
  have moved : ((Dev.opened documented blockTwoBad .block).alislstoLseek (-1) .seekSet).2.offset =
      0x7fffff := by
    decide +kernel
  refine ⟨?_, moved, by decide +kernel⟩
  intro lands
  rcases lands with ⟨address, here, leads, _⟩
  rw [moved] at here
  cases here
  revert leads
  decide

end

end Alisl.Storage.Nand
