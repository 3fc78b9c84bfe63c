import Alisl.Upgrade.DbcFormat
import Alisl.Upgrade.RoundTrip.Dsi

/-! The module records of a DII as version 4 walks them, and the block counts of
the table that comes out. -/

namespace Alisl.Upgrade

open Alisl.Base

/-- The addresses of the records up to the first whose descriptors are cut off. -/
def diiRecords (memory : Memory) : Nat → Nat → List Nat
  | 0, _ => []
  | count + 1, data => data :: (moduleCut memory (data + 6)).elim
      (diiRecords memory count (data + 7 + (memory (data + 6)).toNat)) (fun _ => [])

def recordSize (memory : Memory) (record : Nat) : Nat := getBe32 memory (record + 2)

/-- What a record makes of the entry at an index. -/
def decodedEntry (memory : Memory) (dataAddr : Nat) (table : ModuleTable) (index record : Nat) :
    DCModuleInfo :=
  let previous := table.modules (index - 1)
  let pointer := if index = 0 then dataAddr
    else previous.moduleBufPointer + previous.moduleBufSize
  let moduleInfoLen := (memory (record + 6)).toNat
  (diiDescriptors memory moduleInfoLen moduleInfoLen (record + 7)
    (freshModule (table.modules index) (getBe16 memory record) (recordSize memory record) pointer
      (blockNumOf (recordSize memory record) table.blocksize))).2.2

section Step

variable (memory : Memory) (dataAddr count index data : Nat) (table : ModuleTable)

theorem diiModules_uncounted
    (uncounted : ¬ CountsBlocks table.blocksize (recordSize memory data)) :
    diiModules 0 memory dataAddr (count + 1) index data table = .fault := by
  rw [diiModules]
  by_cases none_ : table.blocksize = 0
  · exact if_pos none_
  · have many : 32 * bitMapNum < blockNumOf (getBe32 memory (data + 2)) table.blocksize := by
      by_contra few
      exact uncounted ⟨none_, Nat.not_lt.mp few⟩
    exact (if_neg none_).trans (if_pos many)

theorem diiModules_counted (counted : CountsBlocks table.blocksize (recordSize memory data)) :
    diiModules 0 memory dataAddr (count + 1) index data table =
      (moduleCut memory (data + 6)).elim
        (diiModules 0 memory dataAddr count (index + 1) (data + 7 + (memory (data + 6)).toNat)
          (table.put index (decodedEntry memory dataAddr table index data)))
        (fun _ => .fail (table.put index (decodedEntry memory dataAddr table index data))) := by
  have few : ¬ 32 * bitMapNum < blockNumOf (recordSize memory data) table.blocksize :=
    Nat.not_lt.mpr counted.2
  have ends (entry : DCModuleInfo) := diiDescriptors_whole memory (data + 6) entry
  have cuts (cut : Nat) (entry : DCModuleInfo) := diiDescriptors_cut memory (data + 6) cut entry
  rw [diiModules, decodedEntry]
  rw [recordSize] at few ⊢
  dsimp only
  rw [if_neg counted.1, if_neg few, Nat.add_zero]
  generalize freshModule (table.modules index) _ _ _ _ = entry
  specialize ends entry
  cases cut : moduleCut memory (data + 6) with
  | none =>
      obtain ⟨whole, next⟩ := ends cut
      generalize diiDescriptors memory _ _ _ entry = run at whole next ⊢
      rcases run with ⟨_, behind, decoded⟩
      simp only at whole next
      rw [whole, next]
      rfl
  | some cut_ =>
      have stops := cuts cut_ entry cut
      generalize diiDescriptors memory _ _ _ entry = run at stops ⊢
      rcases run with ⟨_, behind, decoded⟩
      simp only at stops
      rw [stops]
      rfl

end Step

/-- The bookkeeping of an entry is not up to its descriptors. -/
theorem diiDescriptors_keeps (memory : Memory) (fuel left data : Nat) (entry : DCModuleInfo) :
    (diiDescriptors memory fuel left data entry).2.2.moduleBufSize = entry.moduleBufSize ∧
      (diiDescriptors memory fuel left data entry).2.2.blockNum = entry.blockNum := by
  induction fuel generalizing left data entry with
  | zero => cases left <;> exact ⟨rfl, rfl⟩
  | succ fuel ih =>
      cases left with
      | zero => exact ⟨rfl, rfl⟩
      | succ left =>
          rw [diiDescriptors]
          dsimp only
          split
          · exact ⟨rfl, rfl⟩
          · split
            · exact ⟨rfl, rfl⟩
            · have linked : (linkModule (memory (data + 2)).toNat (getBe16 memory (data + 3))
                  entry).moduleBufSize = entry.moduleBufSize ∧
                  (linkModule (memory (data + 2)).toNat (getBe16 memory (data + 3)) entry).blockNum =
                    entry.blockNum := by
                unfold linkModule
                split_ifs <;> exact ⟨rfl, rfl⟩
              obtain ⟨size, blocks⟩ := ih (left + 1 - ((memory (data + 1)).toNat + 2))
                (data + 2 + (memory (data + 1)).toNat)
                (if (memory data).toNat = 0x04 then
                  linkModule (memory (data + 2)).toNat (getBe16 memory (data + 3)) entry else entry)
              rw [size, blocks]
              split
              · exact linked
              · exact ⟨rfl, rfl⟩

theorem decodedEntry_keeps (memory : Memory) (dataAddr : Nat) (table : ModuleTable)
    (index record : Nat) :
    (decodedEntry memory dataAddr table index record).moduleBufSize = recordSize memory record ∧
      (decodedEntry memory dataAddr table index record).blockNum =
        blockNumOf (recordSize memory record) table.blocksize :=
  diiDescriptors_keeps memory _ _ _ _

/-- How the walk over the records ends. -/
inductive WalkEnd (memory : Memory) (table : ModuleTable) (count index data : Nat) :
    DbcOutcome ModuleTable → Prop where
  /-- Some module has more blocks than can be marked. -/
  | fault (record : Nat) (member : record ∈ diiRecords memory count data)
      (uncounted : ¬ CountsBlocks table.blocksize (recordSize memory record)) :
      WalkEnd memory table count index data .fault
  | fail (after : ModuleTable) (record : Nat) (member : record ∈ diiRecords memory count data)
      (cut : moduleCut memory (record + 6) ≠ none) (before : ∀ i < index, after.modules i = table.modules i)
      (counted : ∀ record ∈ diiRecords memory count data,
        CountsBlocks table.blocksize (recordSize memory record))
      (blocksize : after.blocksize = table.blocksize) (number : after.moduleNum = table.moduleNum) :
      WalkEnd memory table count index data (.fail after)
  | success (after : ModuleTable) (whole : ∀ record ∈ diiRecords memory count data,
        moduleCut memory (record + 6) = none)
      (counted : ∀ record ∈ diiRecords memory count data,
        CountsBlocks table.blocksize (recordSize memory record))
      (before : ∀ i < index, after.modules i = table.modules i)
      (blocksize : after.blocksize = table.blocksize) (number : after.moduleNum = table.moduleNum)
      (entries : ∀ i record, (diiRecords memory count data)[i]? = some record →
        (after.modules (index + i)).moduleBufSize = recordSize memory record ∧
          (after.modules (index + i)).blockNum =
            blockNumOf (recordSize memory record) table.blocksize) :
      WalkEnd memory table count index data (.success after)

theorem diiModules_end (memory : Memory) (dataAddr count index data : Nat) (table : ModuleTable) :
    WalkEnd memory table count index data
      (diiModules 0 memory dataAddr count index data table) := by
  induction count generalizing index data table with
  | zero =>
      refine .success table ?_ ?_ (fun _ _ => rfl) rfl rfl ?_
      · exact fun record none => absurd none List.not_mem_nil
      · exact fun record none => absurd none List.not_mem_nil
      · intro i record none
        cases none
  | succ count ih =>
      by_cases counted : CountsBlocks table.blocksize (recordSize memory data)
      · rw [diiModules_counted memory dataAddr count index data table counted]
        have kept (i : Nat) (earlier : i < index) (entry : DCModuleInfo) :
            (table.put index entry).modules i = table.modules i :=
          Function.update_of_ne (Nat.ne_of_lt earlier) _ _
        cases cut : moduleCut memory (data + 6) with
        | some cut_ =>
            have only : diiRecords memory (count + 1) data = [data] := by
              rw [diiRecords, cut, Option.elim_some]
            refine .fail _ data (only ▸ List.mem_cons_self) (by rw [cut]; exact Option.some_ne_none _)
              (fun i earlier => kept i earlier _) ?_ rfl rfl
            rw [only]
            intro record member
            rwa [List.mem_singleton.mp member]
        | none =>
            have records : diiRecords memory (count + 1) data =
                data :: diiRecords memory count (data + 7 + (memory (data + 6)).toNat) := by
              rw [diiRecords, cut, Option.elim_none]
            have rest := ih (index + 1) (data + 7 + (memory (data + 6)).toNat)
              (table.put index (decodedEntry memory dataAddr table index data))
            rw [Option.elim_none]
            have blocksize : (table.put index (decodedEntry memory dataAddr table index data)).blocksize =
                table.blocksize := rfl
            generalize diiModules 0 memory dataAddr count (index + 1) _ _ = outcome at rest ⊢
            cases rest with
            | fault record member uncounted =>
                exact .fault record (records ▸ List.mem_cons_of_mem _ member) uncounted
            | fail after record member cut_ before counts blocks number =>
                refine .fail after record (records ▸ List.mem_cons_of_mem _ member) cut_ ?_ ?_
                  (blocks.trans blocksize) number
                · intro i earlier
                  rw [before i (Nat.lt_succ_of_lt earlier), kept i earlier]
                · rw [records]
                  exact List.forall_mem_cons.mpr ⟨counted, counts⟩
            | success after whole counts before blocks number entries =>
                refine .success after ?_ ?_ ?_ (blocks.trans blocksize) number ?_
                · rw [records]
                  exact List.forall_mem_cons.mpr ⟨cut, whole⟩
                · rw [records]
                  exact List.forall_mem_cons.mpr ⟨counted, counts⟩
                · intro i earlier
                  rw [before i (Nat.lt_succ_of_lt earlier), kept i earlier]
                · rw [records]
                  intro i record there
                  cases i with
                  | zero =>
                      rw [List.getElem?_cons_zero, Option.some.injEq] at there
                      have own : (table.put index
                          (decodedEntry memory dataAddr table index data)).modules index =
                          decodedEntry memory dataAddr table index data := Function.update_self ..
                      rw [Nat.add_zero, before index (Nat.lt_succ_self _), own, ← there]
                      exact decodedEntry_keeps memory dataAddr table index data
                  | succ i =>
                      rw [List.getElem?_cons_succ] at there
                      have next := entries i record there
                      rwa [Nat.add_assoc, Nat.add_comm 1] at next
      · rw [diiModules_uncounted memory dataAddr count index data table counted]
        exact .fault data (by rw [diiRecords]; exact List.mem_cons_self) counted

/-! The block counts. -/

/-- The division was defined, and every block has a bit of its own in the map. -/
def BlocksCounted : DbcOutcome ModuleTable → Prop
  | .fault => False
  | .fail _ => True
  | .success table => table.blocksize ≠ 0 ∧ ∀ index < table.moduleNum,
      (table.modules index).blockNum =
        ((table.modules index).moduleBufSize + table.blocksize - 1) / table.blocksize ∧
      (table.modules index).blockNum ≤ 32 * bitMapNum

theorem diiRecords_length (memory : Memory) (count data : Nat)
    (whole : ∀ record ∈ diiRecords memory count data, moduleCut memory (record + 6) = none) :
    (diiRecords memory count data).length = count := by
  induction count generalizing data with
  | zero => rfl
  | succ count ih =>
      rw [diiRecords] at whole ⊢
      obtain ⟨first, rest⟩ := List.forall_mem_cons.mp whole
      rw [first, Option.elim_none] at rest ⊢
      rw [List.length_cons, ih _ rest]

/-- The count is right, and small enough, when the module is. -/
theorem blockNumOf_small_iff (moduleSize blocksize : Nat) (some : blocksize ≠ 0) :
    (blockNumOf moduleSize blocksize = (moduleSize + blocksize - 1) / blocksize ∧
      blockNumOf moduleSize blocksize ≤ 32 * bitMapNum) ↔
      moduleSize ≤ 32 * bitMapNum * blocksize := by
  have positive := Nat.pos_of_ne_zero some
  have count : blockNumOf moduleSize blocksize =
      (moduleSize + blocksize - 1) / blocksize % 65536 := by
    rw [blockNumOf, roundUp_eq moduleSize blocksize positive, ite_not]
  have few : (moduleSize + blocksize - 1) / blocksize ≤ 32 * bitMapNum ↔
      moduleSize ≤ 32 * bitMapNum * blocksize := by
    rw [Nat.div_le_iff_le_mul_add_pred positive, Nat.mul_comm blocksize]
    omega
  have map : 32 * bitMapNum = 1024 := rfl
  rw [count, ← few, map]
  generalize (moduleSize + blocksize - 1) / blocksize = blocks
  omega

theorem diiModules_blocksCounted_iff (memory : Memory) (dataAddr count data : Nat)
    (table : ModuleTable) (number : table.moduleNum = count) :
    BlocksCounted (diiModules 0 memory dataAddr count 0 data table) ↔
      table.blocksize ≠ 0 ∧
        (∀ record ∈ diiRecords memory count data,
          CountsBlocks table.blocksize (recordSize memory record)) ∧
        ((∀ record ∈ diiRecords memory count data, moduleCut memory (record + 6) = none) →
          ∀ record ∈ diiRecords memory count data,
            recordSize memory record ≤ 32 * bitMapNum * table.blocksize) := by
  have ends := diiModules_end memory dataAddr count 0 data table
  generalize diiModules 0 memory dataAddr count 0 data table = outcome at ends
  cases ends with
  | fault record member uncounted =>
      refine iff_of_false id (fun condition => ?_)
      exact uncounted (condition.2.1 record member)
  | fail after record member cut before counted _ _ =>
      refine iff_of_true True.intro ⟨(counted record member).1, counted, fun whole => ?_⟩
      exact absurd (whole record member) cut
  | success after whole counted before blocksize same entries =>
      have length := diiRecords_length memory count data whole
      simp only [BlocksCounted, blocksize, same, number]
      constructor
      · rintro ⟨some, exactly⟩
        refine ⟨some, counted, fun _ record member => ?_⟩
        rcases List.mem_iff_getElem?.mp member with ⟨i, there⟩
        have inside := (List.getElem?_eq_some_iff.mp there).1
        obtain ⟨size, blocks⟩ := entries i record there
        rw [Nat.zero_add] at size blocks
        have here := exactly i (by omega)
        rw [size, blocks] at here
        exact (blockNumOf_small_iff _ _ some).mp here
      · rintro ⟨some, _, small⟩
        refine ⟨some, fun index inside => ?_⟩
        have there := List.getElem?_eq_getElem (Nat.lt_of_lt_of_eq inside length.symm)
        obtain ⟨size, blocks⟩ := entries index _ there
        rw [Nat.zero_add] at size blocks
        rw [size, blocks]
        exact (blockNumOf_small_iff _ _ some).mpr
          (small whole _ (List.mem_iff_getElem?.mpr ⟨index, there⟩))

/-- A DII that is taken has its blocks counted exactly when its block size is not
0 and no module it comes to has more than 1024 blocks, before the count is cut to
sixteen bits if the whole message is taken. -/
theorem diiMessage_blocksCounted_iff (memory : Memory) (data groupId dataAddr : Nat)
    (table : ModuleTable) :
    BlocksCounted (V4.alislDiiMessage memory data groupId dataAddr table) ↔
      getBe32 memory (data + 4) ≠ groupId ∨ dcModuleMax < diiCount memory data ∨
        (diiBlocksize memory data ≠ 0 ∧
          (∀ record ∈ diiRecords memory (diiCount memory data) (diiCountAt memory data + 2),
            CountsBlocks (diiBlocksize memory data) (recordSize memory record)) ∧
          ((∀ record ∈ diiRecords memory (diiCount memory data) (diiCountAt memory data + 2),
              moduleCut memory (record + 6) = none) →
            ∀ record ∈ diiRecords memory (diiCount memory data) (diiCountAt memory data + 2),
              recordSize memory record ≤ 32 * bitMapNum * diiBlocksize memory data)) := by
  rw [V4.alislDiiMessage]
  by_cases other : getBe32 memory (data + 4) ≠ groupId
  · rw [diiMessage_other 0 memory data groupId dataAddr table other]
    exact iff_of_true True.intro (.inl other)
  · rw [or_iff_right other, diiMessage_eq 0 memory data groupId dataAddr table (not_not.mp other)]
    by_cases many : dcModuleMax < diiCount memory data
    · rw [if_pos many]
      exact iff_of_true True.intro (.inl many)
    · rw [if_neg many, or_iff_right many]
      have number : (table.announced memory data).moduleNum = diiCount memory data := by
        have few : diiCount memory data ≤ 128 := Nat.not_lt.mp many
        exact Nat.mod_eq_of_lt (by omega)
      exact diiModules_blocksCounted_iff memory dataAddr _ _ (table.announced memory data) number

/-- A module of 65536 blocks of one byte. -/
def manyBlocksDii : Memory := fun address =>
  if address = 17 ∨ address = 31 ∨ address = 35 then 1 else 0

/-- Its count is 0, and the DII is taken. -/
theorem many_blocks_uncounted :
    ¬ BlocksCounted (V4.alislDiiMessage manyBlocksDii 0 0 0 clearedTable) := by
  have number : (clearedTable.announced manyBlocksDii 0).moduleNum = diiCount manyBlocksDii 0 := by
    decide
  rw [V4.alislDiiMessage, diiMessage_eq 0 manyBlocksDii 0 0 0 clearedTable (by decide),
    if_neg (by decide), diiModules_blocksCounted_iff _ _ _ _ _ number]
  intro condition
  have small := condition.2.2 (by decide) 32 (by decide)
  exact absurd small (by decide)

end Alisl.Upgrade
