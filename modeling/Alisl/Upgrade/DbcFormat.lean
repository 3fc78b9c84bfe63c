import Alisl.Upgrade.Dbc

/-! What the lengths of a table message say, apart from what the parsers do with it. -/

namespace Alisl.Upgrade

open Alisl.Base

/-- A list of descriptors in so many bytes: the address of the first that is longer
than what is left, or is malformed in itself. -/
def descriptorCut (malformed : Nat → Nat → Bool) (memory : Memory) : Nat → Nat → Nat → Option Nat
  | _, 0, _ => none
  | 0, _ + 1, data => some data
  | fuel + 1, left + 1, data =>
      let descriptorLen := (memory (data + 1)).toNat
      if left + 1 < descriptorLen + 2 ∨ malformed (memory data).toNat descriptorLen = true then some data
      else descriptorCut malformed memory fuel (left + 1 - (descriptorLen + 2))
        (data + 2 + descriptorLen)

/-- A link descriptor has room for the position and the id of the next module. -/
def shortLink (descriptorTag descriptorLen : Nat) : Bool :=
  decide (descriptorTag = 0x04) && decide (descriptorLen < 3)

/-- Where the group descriptors that end at a length are cut off. -/
def groupCut (memory : Memory) (data : Nat) : Option Nat :=
  descriptorCut (fun _ _ => false) memory (getBe16 memory data) (getBe16 memory data) (data + 2)

/-- Where the descriptors of a module are cut off. -/
def moduleCut (memory : Memory) (data : Nat) : Option Nat :=
  descriptorCut shortLink memory (memory data).toNat (memory data).toNat (data + 1)

theorem descriptorCut_ge (malformed : Nat → Nat → Bool) (memory : Memory) (fuel left data cut : Nat)
    (found : descriptorCut malformed memory fuel left data = some cut) : data ≤ cut := by
  induction fuel generalizing left data with
  | zero =>
      cases left with
      | zero => cases found
      | succ left => exact Nat.le_of_eq (Option.some.inj found)
  | succ fuel ih =>
      cases left with
      | zero => cases found
      | succ left =>
          rw [descriptorCut] at found
          split at found
          · exact Nat.le_of_eq (Option.some.inj found)
          · have behind := ih _ _ found
            omega

theorem dsiGroupInfo_eq (memory : Memory) (fuel left data : Nat) (enough : left ≤ fuel) :
    dsiGroupInfo memory fuel left data =
      (descriptorCut (fun _ _ => false) memory fuel left data).elim (some (data + left))
        (fun _ => none) := by
  induction fuel generalizing left data with
  | zero =>
      rw [Nat.le_zero.mp enough]
      rfl
  | succ fuel ih =>
      cases left with
      | zero => rfl
      | succ left =>
          rw [dsiGroupInfo, descriptorCut]
          by_cases cut : left + 1 < (memory (data + 1)).toNat + 2
          · simp only [cut, if_true, true_or, Option.elim_some]
          · have next := ih (left + 1 - ((memory (data + 1)).toNat + 2))
              (data + 2 + (memory (data + 1)).toNat) (by omega)
            have end_ : data + 2 + (memory (data + 1)).toNat +
                (left + 1 - ((memory (data + 1)).toNat + 2)) = data + (left + 1) := by omega
            rw [end_] at next
            simp only [cut, if_false, false_or, Bool.false_eq_true, next]

theorem diiDescriptors_eq (memory : Memory) (fuel left data : Nat) (entry : DCModuleInfo)
    (enough : left ≤ fuel) :
    (diiDescriptors memory fuel left data entry).1 =
        (descriptorCut shortLink memory fuel left data).isNone ∧
      ((descriptorCut shortLink memory fuel left data) = none →
        (diiDescriptors memory fuel left data entry).2.1 = data + left) := by
  induction fuel generalizing left data entry with
  | zero =>
      rw [Nat.le_zero.mp enough]
      exact ⟨rfl, fun _ => rfl⟩
  | succ fuel ih =>
      cases left with
      | zero => exact ⟨rfl, fun _ => rfl⟩
      | succ left =>
          rw [diiDescriptors, descriptorCut]
          dsimp only
          have link : shortLink (memory data).toNat (memory (data + 1)).toNat = true ↔
              (memory data).toNat = 0x04 ∧ (memory (data + 1)).toNat < 3 := by
            rw [shortLink, Bool.and_eq_true, decide_eq_true_iff, decide_eq_true_iff]
          by_cases cut : left + 1 < (memory (data + 1)).toNat + 2
          · rw [if_pos cut, if_pos (.inl cut)]
            exact ⟨rfl, fun none => absurd none (Option.some_ne_none _)⟩
          · by_cases short : (memory data).toNat = 0x04 ∧ (memory (data + 1)).toNat < 3
            · rw [if_neg cut, if_pos short, if_pos (.inr (link.mpr short))]
              exact ⟨rfl, fun none => absurd none (Option.some_ne_none _)⟩
            · have fits : ¬ (left + 1 < (memory (data + 1)).toNat + 2 ∨
                  shortLink (memory data).toNat (memory (data + 1)).toNat = true) :=
                not_or.mpr ⟨cut, mt link.mp short⟩
              rw [if_neg cut, if_neg short, if_neg fits]
              have next := ih (left + 1 - ((memory (data + 1)).toNat + 2))
                (data + 2 + (memory (data + 1)).toNat)
                (if (memory data).toNat = 0x04 then
                  linkModule (memory (data + 2)).toNat (getBe16 memory (data + 3)) entry else entry)
                (by omega)
              have end_ : data + 2 + (memory (data + 1)).toNat +
                  (left + 1 - ((memory (data + 1)).toNat + 2)) = data + (left + 1) := by omega
              rw [end_] at next
              exact next

theorem diiDescriptors_whole (memory : Memory) (data : Nat) (entry : DCModuleInfo)
    (whole : moduleCut memory data = none) :
    (diiDescriptors memory (memory data).toNat (memory data).toNat (data + 1) entry).1 = true ∧
      (diiDescriptors memory (memory data).toNat (memory data).toNat (data + 1) entry).2.1 =
        data + 1 + (memory data).toNat := by
  have ends := diiDescriptors_eq memory _ _ (data + 1) entry (Nat.le_refl (memory data).toNat)
  rw [moduleCut] at whole
  rw [whole] at ends
  exact ⟨ends.1, ends.2 rfl⟩

theorem diiDescriptors_cut (memory : Memory) (data cut : Nat) (entry : DCModuleInfo)
    (found : moduleCut memory data = some cut) :
    (diiDescriptors memory (memory data).toNat (memory data).toNat (data + 1) entry).1 = false := by
  have ends := diiDescriptors_eq memory _ _ (data + 1) entry (Nat.le_refl (memory data).toNat)
  rw [moduleCut] at found
  rw [found] at ends
  exact ends.1

/-! DSI. -/

/-- Behind the compatibility descriptors, whatever they are. -/
theorem dsiDescriptors_end (checkVersion : Bool) (memory : Memory) (param : DsiParam)
    (count data compatibilityLen : Nat) (fit : DsiFit) :
    (dsiDescriptors checkVersion memory param count data compatibilityLen fit).1 +
      (dsiDescriptors checkVersion memory param count data compatibilityLen fit).2.1 =
        data + compatibilityLen := by
  induction count generalizing data compatibilityLen fit with
  | zero => rfl
  | succ count ih =>
      rw [dsiDescriptors]
      split
      · rfl
      · rw [ih]
        omega

theorem dsiCompatibility_end (checkVersion : Bool) (memory : Memory) (param : DsiParam)
    (data newSwVersion : Nat) :
    (dsiCompatibility checkVersion memory param data newSwVersion).1 =
      data + 2 + getBe16 memory data := by
  rw [dsiCompatibility]
  dsimp only
  split
  · rfl
  · rw [dsiDescriptors_end]
    omega

/-- The address of the length of the group descriptors. -/
def groupInfoAt (memory : Memory) (data : Nat) : Nat := data + 10 + getBe16 memory (data + 8)

theorem dsiGroup_next (checkVersion : Bool) (memory : Memory) (param : DsiParam)
    (data newSwVersion : Nat) :
    (dsiGroup checkVersion memory param data newSwVersion).1 = none ↔
      groupCut memory (groupInfoAt memory data) ≠ none := by
  have at_ : (dsiCompatibility checkVersion memory param (data + 8) newSwVersion).1 =
      groupInfoAt memory data := by
    rw [dsiCompatibility_end, groupInfoAt]
  rw [dsiGroup]
  dsimp only
  rw [at_, dsiGroupInfo_eq _ _ _ _ (Nat.le_refl _), ← groupCut, Option.map_eq_none_iff]
  cases groupCut memory (groupInfoAt memory data) with
  | none => simp
  | some cut => simp

theorem V4.alislDsiMessage_eq (memory : Memory) (param : DsiParam) (data : Nat) (state : DsiStore) :
    V4.alislDsiMessage memory data param state =
      if (dsiGroups memory data).1 = 0 then .fail state
      else (dsiGroup true memory param (dsiGroups memory data).2 state.newSwVersion).1.elim
        (.fail ⟨(dsiGroup true memory param (dsiGroups memory data).2 state.newSwVersion).2.2.newSwVersion,
          (dsiGroup true memory param (dsiGroups memory data).2 state.newSwVersion).2.1⟩)
        (fun _ => .success
          ⟨(dsiGroup true memory param (dsiGroups memory data).2 state.newSwVersion).2.2.newSwVersion,
            (dsiGroup true memory param (dsiGroups memory data).2 state.newSwVersion).2.1⟩) := by
  simp only [V4.alislDsiMessage]
  split
  · rfl
  · generalize dsiGroup true memory param _ _ = group
    rcases group with ⟨_ | _, _⟩ <;> rfl

/-- The compatibility descriptors that are not longer than what is left. -/
def compatibilityDescriptors (memory : Memory) : Nat → Nat → Nat → List Nat
  | 0, _, _ => []
  | count + 1, data, left =>
      let descriptorLen := (memory (data + 1)).toNat
      if left < descriptorLen + 2 then []
      else data :: compatibilityDescriptors memory count (data + 2 + descriptorLen)
        (left - (descriptorLen + 2))

/-- Those of a group, from the length of its GroupCompatibility on. -/
def groupDescriptors (memory : Memory) (data : Nat) : List Nat :=
  if getBe16 memory data < 2 then []
  else compatibilityDescriptors memory (getBe16 memory (data + 2)) (data + 4) (getBe16 memory data - 2)

/-! DII. -/

/-- The number of blocks of a module can be computed, and the map has a bit for each. -/
def CountsBlocks (blocksize moduleSize : Nat) : Prop :=
  blocksize ≠ 0 ∧ blockNumOf moduleSize blocksize ≤ 32 * bitMapNum

instance (blocksize moduleSize : Nat) : Decidable (CountsBlocks blocksize moduleSize) :=
  inferInstanceAs (Decidable (_ ∧ _))

def diiBlocksize (memory : Memory) (data : Nat) : Nat :=
  getBe16 memory ((readMessageHeader memory data).next + 4)

/-- The address of the number of modules. -/
def diiCountAt (memory : Memory) (data : Nat) : Nat :=
  (readMessageHeader memory data).next + 6 + 10 + 2 +
    getBe16 memory ((readMessageHeader memory data).next + 6 + 10)

def diiCount (memory : Memory) (data : Nat) : Nat := getBe16 memory (diiCountAt memory data)

/-- The table once the number of modules and the block size are written. -/
def ModuleTable.announced (memory : Memory) (data : Nat) (table : ModuleTable) : ModuleTable :=
  { table with
    moduleNum := diiCount memory data % 256
    blocksize := diiBlocksize memory data }

section Message

variable (versionLen : Nat) (memory : Memory) (data groupId dataAddr : Nat) (table : ModuleTable)

theorem diiMessage_other (other : getBe32 memory (data + 4) ≠ groupId) :
    diiMessage versionLen memory data groupId dataAddr table = .fail table := by
  rw [diiMessage]
  exact if_pos other

theorem diiMessage_eq (own : getBe32 memory (data + 4) = groupId) :
    diiMessage versionLen memory data groupId dataAddr table =
      if dcModuleMax < diiCount memory data then .fail (table.announced memory data)
      else diiModules versionLen memory dataAddr (diiCount memory data) 0 (diiCountAt memory data + 2)
        (table.announced memory data) := by
  rw [diiMessage]
  exact if_neg (not_not.mpr own)

end Message

end Alisl.Upgrade
