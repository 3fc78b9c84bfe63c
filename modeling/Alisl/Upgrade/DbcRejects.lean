import Alisl.Upgrade.DiiRecords

/-! What a table message that is refused leaves behind. Both parsers write while
they read: the DSI its group before the group descriptors, the DII the number of
modules and the block size before the number is checked, and each entry before its
descriptors. -/

namespace Alisl.Upgrade

open Alisl.Base

/-- No group, a group that is taken, or one that is already there. -/
def DsiKeeps (memory : Memory) (data : Nat) (store : DsiStore) : Prop :=
  (dsiGroups memory data).1 = 0 ∨
    groupCut memory (groupInfoAt memory (dsiGroups memory data).2) = none ∨
    store.group = ⟨getBe32 memory (dsiGroups memory data).2,
      getBe32 memory ((dsiGroups memory data).2 + 4)⟩

/-- The records run into a division or a map that is too small, none is cut off,
or the entries are already there. -/
def RecordsKeep (memory : Memory) (dataAddr count index data : Nat) (table : ModuleTable) : Prop :=
  (∃ record ∈ diiRecords memory count data,
      ¬ CountsBlocks table.blocksize (recordSize memory record)) ∨
    (∀ record ∈ diiRecords memory count data, moduleCut memory (record + 6) = none) ∨
    ∀ i record, (diiRecords memory count data)[i]? = some record →
      decodedEntry memory dataAddr table (index + i) record = table.modules (index + i)

/-- Another transaction, a table that is taken, or what is written is already there. -/
def DiiKeeps (memory : Memory) (data groupId dataAddr : Nat) (table : ModuleTable) : Prop :=
  getBe32 memory (data + 4) ≠ groupId ∨
    (diiCount memory data ≤ dcModuleMax ∧
      ((∃ record ∈ diiRecords memory (diiCount memory data) (diiCountAt memory data + 2),
        ¬ CountsBlocks (diiBlocksize memory data) (recordSize memory record)) ∨
      ∀ record ∈ diiRecords memory (diiCount memory data) (diiCountAt memory data + 2),
        moduleCut memory (record + 6) = none)) ∨
    (table.moduleNum = diiCount memory data % 256 ∧ table.blocksize = diiBlocksize memory data ∧
      (diiCount memory data ≤ dcModuleMax →
        ∀ i record,
          (diiRecords memory (diiCount memory data) (diiCountAt memory data + 2))[i]? = some record →
            decodedEntry memory dataAddr table i record = table.modules i))

theorem alislDsiMessage_keeps_iff (memory : Memory) (data : Nat) (param : DsiParam)
    (store : DsiStore) :
    (∀ after, V4.alislDsiMessage memory data param store = .fail after → after.group = store.group) ↔
      DsiKeeps memory data store := by
  rw [V4.alislDsiMessage_eq, DsiKeeps]
  by_cases none_ : (dsiGroups memory data).1 = 0
  · rw [if_pos none_]
    refine iff_of_true (fun after same => ?_) (.inl none_)
    injection same with same
    rw [← same]
  · rw [if_neg none_, or_iff_right none_]
    have next := dsiGroup_next true memory param (dsiGroups memory data).2 store.newSwVersion
    have group : (dsiGroup true memory param (dsiGroups memory data).2 store.newSwVersion).2.1 =
        ⟨getBe32 memory (dsiGroups memory data).2, getBe32 memory ((dsiGroups memory data).2 + 4)⟩ :=
      rfl
    cases ends : (dsiGroup true memory param (dsiGroups memory data).2 store.newSwVersion).1 with
    | some behind =>
        rw [ends] at next
        have whole := not_not.mp (mt next.mpr (Option.some_ne_none _))
        rw [Option.elim_some]
        refine iff_of_true (fun after same => ?_) (.inl whole)
        cases same
    | none =>
        rw [Option.elim_none, or_iff_right (next.mp ends), ← group]
        constructor
        · intro all
          exact (all _ rfl).symm
        · intro already after same
          injection same with same
          rw [← same, already]

/-- Where every refusal changes something, only a message that is not refused changes nothing. -/
theorem unchanged_iff_never {State : Type} {outcome : DbcOutcome State} {state : State}
    (changes : ∀ after, outcome = .fail after → after ≠ state) :
    (∀ after, outcome = .fail after → after = state) ↔ ∀ after, outcome ≠ .fail after := by
  refine forall_congr' (fun after => ?_)
  constructor
  · intro unchanged fails
    exact changes after fails (unchanged fails)
  · intro never fails
    exact absurd fails never

section Records

variable (memory : Memory) (dataAddr : Nat)

theorem ModuleTable.put_eq_self_iff (table : ModuleTable) (index : Nat) (entry : DCModuleInfo) :
    table.put index entry = table ↔ entry = table.modules index := by
  constructor
  · intro same
    have own : (table.put index entry).modules index = entry := Function.update_self ..
    rw [← own, same]
  · intro already
    rw [ModuleTable.put, already, Function.update_eq_self]

/-- The walk fails when every count is defined and some descriptors are cut off. -/
theorem diiModules_fails_iff (count index data : Nat) (table : ModuleTable) :
    (∀ after, diiModules 0 memory dataAddr count index data table ≠ .fail after) ↔
      (∃ record ∈ diiRecords memory count data,
          ¬ CountsBlocks table.blocksize (recordSize memory record)) ∨
        ∀ record ∈ diiRecords memory count data, moduleCut memory (record + 6) = none := by
  have ends := diiModules_end memory dataAddr count index data table
  generalize diiModules 0 memory dataAddr count index data table = outcome at ends
  cases ends with
  | fault record member uncounted =>
      exact iff_of_true (fun after same => by cases same) (.inl ⟨record, member, uncounted⟩)
  | fail after record member cut before counted _ _ =>
      refine iff_of_false (fun none_ => none_ after rfl) ?_
      rintro (⟨other, there, uncounted⟩ | whole)
      · exact uncounted (counted other there)
      · exact cut (whole record member)
  | success after whole _ _ _ _ _ =>
      exact iff_of_true (fun other same => by cases same) (.inr whole)

/-! Record by record. -/

section Cons

variable {count index data : Nat} {table : ModuleTable}

theorem recordsKeep_uncounted (uncounted : ¬ CountsBlocks table.blocksize (recordSize memory data)) :
    RecordsKeep memory dataAddr (count + 1) index data table := by
  refine .inl ⟨data, ?_, uncounted⟩
  rw [diiRecords]
  exact List.mem_cons_self

/-- A record that is cut off is the last one. -/
theorem recordsKeep_cut {cut : Nat}
    (counted : CountsBlocks table.blocksize (recordSize memory data))
    (found : moduleCut memory (data + 6) = some cut) :
    RecordsKeep memory dataAddr (count + 1) index data table ↔
      decodedEntry memory dataAddr table index data = table.modules index := by
  have last : diiRecords memory (count + 1) data = [data] := by
    rw [diiRecords, found, Option.elim_some]
  have first : (∃ record ∈ [data],
      ¬ CountsBlocks table.blocksize (recordSize memory record)) ↔ False := by
    simp [counted]
  have second : (∀ record ∈ [data], moduleCut memory (record + 6) = none) ↔ False := by
    simp [found]
  rw [RecordsKeep, last, first, second, false_or, false_or]
  constructor
  · intro all
    exact all 0 data rfl
  · intro already i record there
    cases i with
    | zero =>
        rw [List.getElem?_cons_zero, Option.some.injEq] at there
        rw [← there]
        exact already
    | succ i => cases there

/-- In front of other records, one that is counted and whole decides by its entry alone. -/
theorem recordsKeep_whole (counted : CountsBlocks table.blocksize (recordSize memory data))
    (whole : moduleCut memory (data + 6) = none) :
    RecordsKeep memory dataAddr (count + 1) index data table ↔
      ((∃ record ∈ diiRecords memory count (data + 7 + (memory (data + 6)).toNat),
          ¬ CountsBlocks table.blocksize (recordSize memory record)) ∨
        ∀ record ∈ diiRecords memory count (data + 7 + (memory (data + 6)).toNat),
          moduleCut memory (record + 6) = none) ∨
      (decodedEntry memory dataAddr table index data = table.modules index ∧
        ∀ i record, (diiRecords memory count (data + 7 + (memory (data + 6)).toNat))[i]? = some record →
          decodedEntry memory dataAddr table (index + 1 + i) record =
            table.modules (index + 1 + i)) := by
  have rest : diiRecords memory (count + 1) data =
      data :: diiRecords memory count (data + 7 + (memory (data + 6)).toNat) := by
    rw [diiRecords, whole, Option.elim_none]
  rw [RecordsKeep, rest]
  generalize diiRecords memory count (data + 7 + (memory (data + 6)).toNat) = records
  have first : (∃ record ∈ data :: records,
      ¬ CountsBlocks table.blocksize (recordSize memory record)) ↔
      ∃ record ∈ records, ¬ CountsBlocks table.blocksize (recordSize memory record) := by
    simp [counted]
  have second : (∀ record ∈ data :: records, moduleCut memory (record + 6) = none) ↔
      ∀ record ∈ records, moduleCut memory (record + 6) = none := by
    simp [whole]
  rw [first, second, ← or_assoc]
  refine or_congr_right ?_
  constructor
  · intro all
    refine ⟨all 0 data rfl, ?_⟩
    intro i record there
    have next := all (i + 1) record there
    rwa [Nat.add_comm i, ← Nat.add_assoc] at next
  · intro already i record there
    cases i with
    | zero =>
        rw [List.getElem?_cons_zero, Option.some.injEq] at there
        rw [← there]
        exact already.1
    | succ i =>
        have next := already.2 i record there
        rwa [Nat.add_assoc, Nat.add_comm 1] at next

end Cons

theorem diiModules_keeps_iff (count index data : Nat) (table : ModuleTable) :
    (∀ after, diiModules 0 memory dataAddr count index data table = .fail after → after = table) ↔
      RecordsKeep memory dataAddr count index data table := by
  induction count generalizing index data table with
  | zero =>
      refine iff_of_true (fun after same => by cases same) (.inr (.inl ?_))
      exact fun record none => absurd none List.not_mem_nil
  | succ count ih =>
      by_cases counted : CountsBlocks table.blocksize (recordSize memory data)
      · rw [diiModules_counted memory dataAddr count index data table counted]
        cases cut : moduleCut memory (data + 6) with
        | some cut_ =>
            rw [Option.elim_some, recordsKeep_cut memory dataAddr counted cut]
            constructor
            · intro all
              exact (table.put_eq_self_iff index _).mp (all _ rfl)
            · intro already after same
              injection same with same
              rw [← same, ModuleTable.put_eq_self_iff]
              exact already
        | none =>
            rw [Option.elim_none, recordsKeep_whole memory dataAddr counted cut]
            by_cases already : decodedEntry memory dataAddr table index data = table.modules index
            · -- the entry is there: the rest decides
              rw [(table.put_eq_self_iff index _).mpr already, ih, RecordsKeep, and_iff_right already,
                or_assoc]
            · -- the entry is new, and nothing behind it takes it back
              have ends := diiModules_end memory dataAddr count (index + 1)
                (data + 7 + (memory (data + 6)).toNat)
                (table.put index (decodedEntry memory dataAddr table index data))
              rw [or_iff_left (fun both => already both.1), unchanged_iff_never,
                diiModules_fails_iff]
              · exact .rfl
              · intro after fails same
                rw [fails] at ends
                cases ends with
                | fail _ _ _ _ before _ _ _ =>
                    have here := before index (Nat.lt_succ_self _)
                    have own : (table.put index
                        (decodedEntry memory dataAddr table index data)).modules index =
                        decodedEntry memory dataAddr table index data := Function.update_self ..
                    rw [same, own] at here
                    exact already here.symm
      · rw [diiModules_uncounted memory dataAddr count index data table counted]
        exact iff_of_true (fun after same => by cases same)
          (recordsKeep_uncounted memory dataAddr counted)

end Records

theorem alislDiiMessage_keeps_iff (memory : Memory) (data groupId dataAddr : Nat)
    (table : ModuleTable) :
    (∀ after, V4.alislDiiMessage memory data groupId dataAddr table = .fail after →
      after = table) ↔ DiiKeeps memory data groupId dataAddr table := by
  rw [V4.alislDiiMessage, DiiKeeps]
  by_cases other : getBe32 memory (data + 4) ≠ groupId
  · rw [diiMessage_other 0 memory data groupId dataAddr table other]
    refine iff_of_true (fun after same => ?_) (.inl other)
    injection same with same
    exact same.symm
  · rw [or_iff_right other, diiMessage_eq 0 memory data groupId dataAddr table (not_not.mp other)]
    have announced : table.announced memory data = table ↔
        table.moduleNum = diiCount memory data % 256 ∧
          table.blocksize = diiBlocksize memory data := by
      rcases table with ⟨modules, moduleNum, blocksize⟩
      simp only [ModuleTable.announced, ModuleTable.mk.injEq, true_and, eq_comm]
    by_cases many : dcModuleMax < diiCount memory data
    · have few : ¬ diiCount memory data ≤ dcModuleMax := Nat.not_le.mpr many
      rw [if_pos many, or_iff_right (fun both => few both.1)]
      constructor
      · intro all
        have same := announced.mp (all _ rfl)
        exact ⟨same.1, same.2, fun less => absurd less few⟩
      · intro already after same
        injection same with same
        rw [← same]
        exact announced.mpr ⟨already.1, already.2.1⟩
    · have few := Nat.not_lt.mp many
      rw [if_neg many, and_iff_right few, forall_prop_of_true few, ← and_assoc, ← announced]
      by_cases same : table.announced memory data = table
      · have size := (announced.mp same).2
        rw [same, diiModules_keeps_iff, RecordsKeep, and_iff_right rfl, size]
        simp only [Nat.zero_add, or_assoc]
      · -- what is announced stays, so a table that is refused has changed
        have ends := diiModules_end memory dataAddr (diiCount memory data) 0
          (diiCountAt memory data + 2) (table.announced memory data)
        have size : (table.announced memory data).blocksize = diiBlocksize memory data := rfl
        rw [or_iff_left (fun both => same both.1), unchanged_iff_never, diiModules_fails_iff, size]
        intro after fails unchanged
        rw [fails] at ends
        cases ends with
        | fail _ _ _ _ _ _ blocksize number =>
            rw [unchanged] at blocksize number
            exact same (announced.mpr ⟨number, blocksize⟩)

/-- A DII of 200 modules. -/
def manyModulesDii : Memory := fun address => if address = 31 then 200 else 0

end Alisl.Upgrade
