import Alisl.Base.DoWhile
import Alisl.Upgrade.DiiRecords

/-! The table parsers of version 4 with the pointer `data` moved as the source moves
it, step by step, and the places where it stands when a length is read. -/

namespace Alisl.Upgrade.Pointer

open Alisl.Base

section Reads

variable (memory : Memory) (data : Int)

def byteAt : Nat := (memory data.toNat).toNat

def get2byteValue : Nat := byteAt memory data * 256 + byteAt memory (data + 1)

def get3byteValue : Nat :=
  byteAt memory data * 65536 + byteAt memory (data + 1) * 256 + byteAt memory (data + 2)

def get4byteValue : Nat :=
  byteAt memory data * 16777216 + byteAt memory (data + 1) * 65536 +
    byteAt memory (data + 2) * 256 + byteAt memory (data + 3)

end Reads

/-! ### DSI -/

/-- The loop over compatibility descriptors: the pointer, what is left of their
length and `*new_sw_version`. -/
def descriptorLoop (memory : Memory) (param : DsiParam) : Nat → Int → Nat → Nat → Int × Nat × Nat
  | 0, data, compatibilityLen, newSwVersion => (data, compatibilityLen, newSwVersion)
  | count + 1, data, compatibilityLen, newSwVersion =>
      let descriptorType := byteAt memory data
      let data := data + 1
      let descriptorLen := byteAt memory data
      let data := data + 1
      if compatibilityLen < descriptorLen + 2 then
        let data := data - 1
        let data := data - 1
        (data + compatibilityLen, 0, newSwVersion)
      else
        let specifierType := byteAt memory data
        let data := data + 1
        let specifierData := get3byteValue memory data
        let data := data + 3
        let model := get2byteValue memory data
        let data := data + 2
        let version := get2byteValue memory data
        let data := data + 2
        -- a step back when the descriptor has fewer than eight bytes
        let data := data + ((descriptorLen : Int) - 8)
        let newSwVersion := if descriptorType = 0x02 ∧ specifierType = 0x01 ∧
            specifierData = param.oui ∧ model = param.swModel ∧ param.swVersion ≤ version
          then version else newSwVersion
        descriptorLoop memory param count data (compatibilityLen - (descriptorLen + 2)) newSwVersion

/-- GroupCompatibility: the pointer behind it and `*new_sw_version`. -/
def groupCompatibility (memory : Memory) (param : DsiParam) (data : Int) (newSwVersion : Nat) :
    Int × Nat :=
  let compatibilityLen := get2byteValue memory data
  let data := data + 2
  if compatibilityLen < 2 then (data + compatibilityLen, newSwVersion)
  else
    let compatibilityLen := compatibilityLen - 2
    let descriptorCount := get2byteValue memory data
    let data := data + 2
    let behind := descriptorLoop memory param descriptorCount data compatibilityLen newSwVersion
    (behind.1 + behind.2.1, behind.2.2)

structure GroupInfo where
  data : Int
  groupInfoLen : Nat
  failed : Bool

/-- `while (group_info_len > 0)`. -/
def groupInfoLoop (memory : Memory) : DoWhile GroupInfo where
  body info :=
    let data := info.data + 1
    let descriptorLen := byteAt memory data
    let data := data + 1
    if info.groupInfoLen < descriptorLen + 2 then .leave { info with data := data, failed := true }
    else .next { info with
      data := data + descriptorLen
      groupInfoLen := info.groupInfoLen - (descriptorLen + 2) }
  again info := decide (0 < info.groupInfoLen)

/-- Where the pointer stands when the two lengths of a group are read. -/
structure GroupMarks where
  compatibilityLenAt : Int
  groupInfoLenAt : Int

/-- The pointer at the first group, and the number of groups. -/
def groupsAt (memory : Memory) (data : Int) : Nat × Int :=
  let data := data + 4 + 4
  let data := data + 1
  let adaptationLen := byteAt memory data
  let data := data + 1
  let data := data + 2
  let data := data + adaptationLen
  let data := data + 20
  let compatibilityLen := get2byteValue memory data
  let data := data + 2
  let data := data + compatibilityLen
  let data := data + 2
  (get2byteValue memory data, data + 2)

/-- The loop over groups returns at the end of its first turn. Nothing comes out
when the fuel does not last. -/
def alislDsiMessage (fuel : Nat) (memory : Memory) (data : Int) (param : DsiParam) (state : DsiStore) :
    Option (DbcOutcome DsiStore × Option GroupMarks) :=
  let groups := groupsAt memory data
  if groups.1 = 0 then some (.fail state, none)
  else
    let data := groups.2
    let groupId := get4byteValue memory data
    let data := data + 4
    let groupSize := get4byteValue memory data
    let data := data + 4
    let compatibility := groupCompatibility memory param data state.newSwVersion
    let marks : GroupMarks := ⟨data, compatibility.1⟩
    let state : DsiStore := ⟨compatibility.2, ⟨groupId, groupSize⟩⟩
    let data := compatibility.1
    let groupInfoLen := get2byteValue memory data
    let data := data + 2
    ((groupInfoLoop memory).runWhile fuel ⟨data, groupInfoLen, false⟩).map (fun info =>
      (if info.failed then .fail state else .success state, some marks))

/-! ### DII -/

structure ModuleDescriptors where
  data : Int
  moduleInfoLen : Nat
  entry : DCModuleInfo
  failed : Bool

/-- `while (module_info_len > 0)`. -/
def moduleInfoLoop (memory : Memory) : DoWhile ModuleDescriptors where
  body info :=
    let descriptorTag := byteAt memory info.data
    let data := info.data + 1
    let descriptorLen := byteAt memory data
    let data := data + 1
    if info.moduleInfoLen < descriptorLen + 2 then .leave { info with data := data, failed := true }
    else if descriptorTag = 0x04 then
      if descriptorLen < 3 then .leave { info with data := data, failed := true }
      else
        let position := byteAt memory data
        let data := data + 1
        let nextModuleId := get2byteValue memory data
        let data := data + 2
        .next { info with
          data := data + ((descriptorLen : Int) - 3)
          moduleInfoLen := info.moduleInfoLen - (descriptorLen + 2)
          entry := linkModule position nextModuleId info.entry }
    else .next { info with
      data := data + descriptorLen
      moduleInfoLen := info.moduleInfoLen - (descriptorLen + 2) }
  again info := decide (0 < info.moduleInfoLen)

/-- The loop over modules, with the places where the records begin. -/
def moduleLoop (fuel : Nat) (memory : Memory) (dataAddr : Nat) :
    Nat → Nat → Int → ModuleTable → Option (DbcOutcome ModuleTable × List Int)
  | 0, _, _, table => some (.success table, [])
  | count + 1, index, record, table =>
      let data := record
      let moduleId := get2byteValue memory data
      let data := data + 2
      let moduleSize := get4byteValue memory data
      let data := data + 4
      let previous := table.modules (index - 1)
      let pointer := if index = 0 then dataAddr
        else previous.moduleBufPointer + previous.moduleBufSize
      if table.blocksize = 0 then some (.fault, [record])
      else
        let blockNum := blockNumOf moduleSize table.blocksize
        if 32 * bitMapNum < blockNum then some (.fault, [record])
        else
          let entry := freshModule (table.modules index) moduleId moduleSize pointer blockNum
          let moduleInfoLen := byteAt memory data
          let data := data + 1
          ((moduleInfoLoop memory).runWhile fuel ⟨data, moduleInfoLen, entry, false⟩).bind (fun info =>
            if info.failed then some (.fail (table.put index info.entry), [record])
            else (moduleLoop fuel memory dataAddr count (index + 1) info.data
              (table.put index info.entry)).map (fun rest => (rest.1, record :: rest.2)))

/-- The number of modules is compared before it is cut to a byte. -/
def alislDiiMessage (fuel : Nat) (memory : Memory) (data : Int) (groupId dataAddr : Nat)
    (table : ModuleTable) : Option (DbcOutcome ModuleTable × List Int) :=
  let data := data + 4
  let transactionId := get4byteValue memory data
  let data := data + 4
  if transactionId ≠ groupId then some (.fail table, [])
  else
    let data := data + 1
    let adaptationLen := byteAt memory data
    let data := data + 1
    let data := data + 2
    let data := data + adaptationLen
    let data := data + 4
    let blocksize := get2byteValue memory data
    let data := data + 2
    -- windowsize, ackperiod, tCDownloadWindow and tCDownloadScenario
    let data := data + 1 + 4 + 4 + 1
    let compatibilityLen := get2byteValue memory data
    let data := data + 2
    let data := data + compatibilityLen
    let numOfModules := get2byteValue memory data
    let data := data + 2
    let table := { table with moduleNum := numOfModules % 256, blocksize := blocksize }
    if dcModuleMax < numOfModules then some (.fail table, [])
    else moduleLoop fuel memory dataAddr numOfModules 0 data table

/-! ### The pointer and the address -/

section Casts

variable (memory : Memory) (address : Nat)

@[simp] theorem byteAt_cast : byteAt memory address = (memory address).toNat := rfl

@[simp] theorem get2byteValue_cast : get2byteValue memory address = getBe16 memory address := rfl

@[simp] theorem get3byteValue_cast : get3byteValue memory address = getBe24 memory address := rfl

@[simp] theorem get4byteValue_cast : get4byteValue memory address = getBe32 memory address := rfl

end Casts

/-- Whatever the descriptors are, the loop is at the place the address has in the model. -/
theorem descriptorLoop_eq (memory : Memory) (param : DsiParam) (count data left : Nat) (fit : DsiFit) :
    descriptorLoop memory param count data left fit.newSwVersion =
      (((dsiDescriptors true memory param count data left fit).1 : Int),
        (dsiDescriptors true memory param count data left fit).2.1,
        (dsiDescriptors true memory param count data left fit).2.2.newSwVersion) := by
  induction count generalizing data left fit with
  | zero => rfl
  | succ count ih =>
      have len : byteAt memory ((data : Int) + 1) = (memory (data + 1)).toNat := rfl
      rw [descriptorLoop, dsiDescriptors]
      dsimp only
      rw [len]
      by_cases cut : left < (memory (data + 1)).toNat + 2
      · rw [if_pos cut, if_pos cut]
        have back : (data : Int) + 1 + 1 - 1 - 1 + left = ((data + left : Nat) : Int) := by
          push_cast
          ring
        rw [back]
      · rw [if_neg cut, if_neg cut]
        have moved : (data : Int) + 1 + 1 + 1 + 3 + 2 + 2 + (((memory (data + 1)).toNat : Int) - 8) =
            ((data + 2 + (memory (data + 1)).toNat : Nat) : Int) := by
          push_cast
          ring
        rw [moved, ← ih]
        congr 1
        rw [dsiFit]
        simp only [forall_const]
        rfl

theorem groupCompatibility_eq (memory : Memory) (param : DsiParam) (data newSwVersion : Nat) :
    groupCompatibility memory param data newSwVersion =
      (((dsiCompatibility true memory param data newSwVersion).1 : Int),
        (dsiCompatibility true memory param data newSwVersion).2.newSwVersion) := by
  rw [groupCompatibility, dsiCompatibility]
  dsimp only
  rw [get2byteValue_cast]
  by_cases short : getBe16 memory data < 2
  · rw [if_pos short, if_pos short]
    rfl
  · rw [if_neg short, if_neg short]
    have loop := descriptorLoop_eq memory param (getBe16 memory (data + 2)) (data + 4)
      (getBe16 memory data - 2) ⟨false, false, newSwVersion⟩
    have start : (data : Int) + 2 + 2 = ((data + 4 : Nat) : Int) := by
      push_cast
      ring
    have count : get2byteValue memory ((data : Int) + 2) = getBe16 memory (data + 2) := rfl
    rw [start, count, loop]
    rfl

/-- What is left of the length is enough fuel. -/
theorem groupInfoLoop_eq (memory : Memory) (turns fuel data left : Nat)
    (enough : left ≤ turns) (lasts : left ≤ fuel) :
    ((groupInfoLoop memory).runWhile turns ⟨data, left, false⟩).map
        (fun info => if info.failed then none else some info.data) =
      some ((dsiGroupInfo memory fuel left data).map Int.ofNat) := by
  induction turns generalizing fuel data left with
  | zero =>
      have none_ : left = 0 := Nat.le_zero.mp enough
      subst none_
      rw [DoWhile.runWhile_last 0 rfl]
      cases fuel <;> rfl
  | succ turns ih =>
      cases left with
      | zero =>
          rw [DoWhile.runWhile_last _ rfl]
          cases fuel <;> rfl
      | succ left =>
          cases fuel with
          | zero => exact absurd lasts (Nat.not_succ_le_zero left)
          | succ fuel =>
              have goes : (groupInfoLoop memory).again ⟨data, left + 1, false⟩ = true := rfl
              have len : byteAt memory ((data : Int) + 1) = (memory (data + 1)).toNat := rfl
              rw [dsiGroupInfo]
              by_cases cut : left + 1 < (memory (data + 1)).toNat + 2
              · have turned : (groupInfoLoop memory).body ⟨data, left + 1, false⟩ =
                    .leave ⟨(data : Int) + 1 + 1, left + 1, true⟩ := if_pos cut
                rw [if_pos cut, DoWhile.runWhile_leave turns goes turned]
                rfl
              · have behind : (data : Int) + 1 + 1 + (memory (data + 1)).toNat =
                    ((data + 2 + (memory (data + 1)).toNat : Nat) : Int) := by
                  push_cast
                  ring
                have turned : (groupInfoLoop memory).body ⟨data, left + 1, false⟩ =
                    .next ⟨((data + 2 + (memory (data + 1)).toNat : Nat) : Int),
                      left + 1 - ((memory (data + 1)).toNat + 2), false⟩ := by
                  rw [← behind]
                  exact if_neg cut
                rw [if_neg cut, DoWhile.runWhile_next turns goes turned]
                exact ih _ _ _ (by omega) (by omega)

theorem moduleInfoLoop_eq (memory : Memory) (turns fuel data left : Nat) (entry : DCModuleInfo)
    (enough : left ≤ turns) (lasts : left ≤ fuel) :
    ((moduleInfoLoop memory).runWhile turns ⟨data, left, entry, false⟩).map
        (fun info => (!info.failed, info.data, info.entry)) =
      some ((diiDescriptors memory fuel left data entry).1,
        ((diiDescriptors memory fuel left data entry).2.1 : Int),
        (diiDescriptors memory fuel left data entry).2.2) := by
  induction turns generalizing fuel data left entry with
  | zero =>
      have none_ : left = 0 := Nat.le_zero.mp enough
      subst none_
      rw [DoWhile.runWhile_last 0 rfl]
      cases fuel <;> rfl
  | succ turns ih =>
      cases left with
      | zero =>
          rw [DoWhile.runWhile_last _ rfl]
          cases fuel <;> rfl
      | succ left =>
          cases fuel with
          | zero => exact absurd lasts (Nat.not_succ_le_zero left)
          | succ fuel =>
              have goes : (moduleInfoLoop memory).again ⟨data, left + 1, entry, false⟩ = true := rfl
              rw [diiDescriptors]
              by_cases cut : left + 1 < (memory (data + 1)).toNat + 2
              · have turned : (moduleInfoLoop memory).body ⟨data, left + 1, entry, false⟩ =
                    .leave ⟨(data : Int) + 1 + 1, left + 1, entry, true⟩ := if_pos cut
                rw [if_pos cut, DoWhile.runWhile_leave turns goes turned]
                rfl
              · rw [if_neg cut]
                by_cases link : (memory data).toNat = 0x04
                · by_cases short : (memory (data + 1)).toNat < 3
                  · have turned : (moduleInfoLoop memory).body ⟨data, left + 1, entry, false⟩ =
                        .leave ⟨(data : Int) + 1 + 1, left + 1, entry, true⟩ :=
                      (if_neg cut).trans ((if_pos link).trans (if_pos short))
                    rw [if_pos ⟨link, short⟩, DoWhile.runWhile_leave turns goes turned]
                    rfl
                  · have behind : (data : Int) + 1 + 1 + 1 + 2 + (((memory (data + 1)).toNat : Int) - 3) =
                        ((data + 2 + (memory (data + 1)).toNat : Nat) : Int) := by
                      push_cast
                      ring
                    have turned : (moduleInfoLoop memory).body ⟨data, left + 1, entry, false⟩ =
                        .next ⟨((data + 2 + (memory (data + 1)).toNat : Nat) : Int),
                          left + 1 - ((memory (data + 1)).toNat + 2),
                          linkModule (memory (data + 2)).toNat (getBe16 memory (data + 3)) entry,
                          false⟩ := by
                      rw [← behind]
                      exact (if_neg cut).trans ((if_pos link).trans (if_neg short))
                    have long : ¬ ((memory data).toNat = 0x04 ∧ (memory (data + 1)).toNat < 3) :=
                      fun both => short both.2
                    rw [if_neg long, if_pos link, DoWhile.runWhile_next turns goes turned]
                    exact ih _ _ _ _ (by omega) (by omega)
                · have behind : (data : Int) + 1 + 1 + (memory (data + 1)).toNat =
                      ((data + 2 + (memory (data + 1)).toNat : Nat) : Int) := by
                    push_cast
                    ring
                  have turned : (moduleInfoLoop memory).body ⟨data, left + 1, entry, false⟩ =
                      .next ⟨((data + 2 + (memory (data + 1)).toNat : Nat) : Int),
                        left + 1 - ((memory (data + 1)).toNat + 2), entry, false⟩ := by
                    rw [← behind]
                    exact (if_neg cut).trans (if_neg link)
                  have other : ¬ ((memory data).toNat = 0x04 ∧ (memory (data + 1)).toNat < 3) :=
                    fun both => link both.1
                  rw [if_neg other, if_neg link, DoWhile.runWhile_next turns goes turned]
                  exact ih _ _ _ _ (by omega) (by omega)

theorem groupsAt_eq (memory : Memory) (data : Nat) :
    groupsAt memory data = ((dsiGroups memory data).1, ((dsiGroups memory data).2 : Int)) := by
  rfl

theorem moduleInfoLoop_ends (memory : Memory) (fuel data left : Nat) (entry : DCModuleInfo)
    (enough : left ≤ fuel) :
    ∃ info, (moduleInfoLoop memory).runWhile fuel ⟨data, left, entry, false⟩ = some info ∧
      (!info.failed) = (diiDescriptors memory left left data entry).1 ∧
      info.data = ((diiDescriptors memory left left data entry).2.1 : Int) ∧
      info.entry = (diiDescriptors memory left left data entry).2.2 := by
  have ran := moduleInfoLoop_eq memory fuel left data left entry enough (Nat.le_refl left)
  rcases Option.map_eq_some_iff.mp ran with ⟨info, ended, same⟩
  rw [Prod.mk.injEq, Prod.mk.injEq] at same
  exact ⟨info, ended, same.1, same.2.1, same.2.2⟩

/-- Each record begins where the one before says that it ends. -/
def RecordsFollow (memory : Memory) : Int → List Int → Prop
  | _, [] => True
  | start, record :: records =>
      record = start ∧ RecordsFollow memory (record + 7 + byteAt memory (record + 6)) records

/-- The walk over the records: what it comes to, and where it was. -/
structure WalksRecords (memory : Memory) (start count : Nat) (outcome : DbcOutcome ModuleTable)
    (walk : Option (DbcOutcome ModuleTable × List Int)) : Prop where
  ended : ∃ records, walk = some (outcome, records) ∧ RecordsFollow memory start records ∧
    (∀ after, outcome = .success after → records.length = count)

theorem walksRecords_stop (memory : Memory) (start count : Nat) (outcome : DbcOutcome ModuleTable)
    (records : List Int) (follow : RecordsFollow memory start records)
    (stopped : ∀ after, outcome ≠ .success after) :
    WalksRecords memory start count outcome (some (outcome, records)) := by
  constructor
  exact ⟨records, rfl, follow, fun after success => absurd success (stopped after)⟩

theorem moduleLoop_walks (memory : Memory) (fuel dataAddr count index data : Nat)
    (table : ModuleTable) (enough : 255 ≤ fuel) :
    WalksRecords memory data count (diiModules 0 memory dataAddr count index data table)
      (moduleLoop fuel memory dataAddr count index data table) := by
  induction count generalizing index data table with
  | zero => exact ⟨⟨[], rfl, trivial, fun _ _ => rfl⟩⟩
  | succ count ih =>
      have fault : WalksRecords memory data (count + 1) .fault
          (some (.fault, [(data : Int)])) := by
        apply walksRecords_stop
        · exact ⟨rfl, trivial⟩
        · intro after other
          cases other
      rw [moduleLoop, diiModules]
      dsimp only
      by_cases zero : table.blocksize = 0
      · rw [if_pos zero, if_pos zero]
        exact fault
      rw [if_neg zero, if_neg zero]
      have size : get4byteValue memory ((data : Int) + 2) = getBe32 memory (data + 2) := rfl
      rw [size]
      by_cases many : 32 * bitMapNum < blockNumOf (getBe32 memory (data + 2)) table.blocksize
      · rw [if_pos many, if_pos many]
        exact fault
      rw [if_neg many, if_neg many, Nat.add_zero]
      have len : byteAt memory ((data : Int) + 2 + 4) = (memory (data + 6)).toNat := rfl
      have behind : (data : Int) + 2 + 4 + 1 = ((data + 6 + 1 : Nat) : Int) := by
        push_cast
        ring
      have small : (memory (data + 6)).toNat ≤ fuel := by
        have byte := (memory (data + 6)).toNat_lt
        omega
      rw [len, behind, get2byteValue_cast]
      generalize freshModule (table.modules index) _ _ _ _ = entry
      rcases moduleInfoLoop_ends memory fuel (data + 6 + 1) _ entry small with
        ⟨info, ended, failed, place, result⟩
      rw [ended, Option.bind_some]
      have ends := (diiDescriptors_eq memory _ _ (data + 6 + 1) entry
        (Nat.le_refl (memory (data + 6)).toNat))
      generalize diiDescriptors memory _ _ (data + 6 + 1) entry = decoded at failed place result ends ⊢
      rcases decoded with ⟨kept, next, after⟩
      dsimp only at failed place result ends
      cases kept with
      | false =>
          have broken : info.failed = true := by
            cases flag : info.failed with
            | true => rfl
            | false =>
                rw [flag] at failed
                cases failed
          rw [if_pos broken, result]
          apply walksRecords_stop
          · exact ⟨rfl, trivial⟩
          · intro after other
            cases other
      | true =>
          have sound : ¬ info.failed = true := by
            intro broken
            rw [broken] at failed
            cases failed
          have whole : descriptorCut shortLink memory (memory (data + 6)).toNat
              (memory (data + 6)).toNat (data + 6 + 1) = none := Option.isNone_iff_eq_none.mp ends.1.symm
          rcases (ih (index + 1) next (table.put index after)).ended with ⟨records, walked, follow, all⟩
          rw [if_neg sound, place, result, walked, Option.map_some]
          have declared : (data : Int) + 7 + byteAt memory ((data : Int) + 6) = (next : Int) := by
            rw [ends.2 whole]
            have byte : byteAt memory ((data : Int) + 6) = (memory (data + 6)).toNat := rfl
            rw [byte]
            push_cast
            ring
          refine ⟨⟨data :: records, rfl, ⟨rfl, ?_⟩, ?_⟩⟩
          · rw [declared]
            exact follow
          · intro final success
            rw [List.length_cons, all final success]

theorem alislDiiMessage_walks (memory : Memory) (fuel data groupId dataAddr : Nat)
    (table : ModuleTable) (enough : 255 ≤ fuel) :
    WalksRecords memory (diiCountAt memory data + 2) (diiCount memory data)
      (V4.alislDiiMessage memory data groupId dataAddr table)
      (alislDiiMessage fuel memory data groupId dataAddr table) := by
  have refused (outcome : ModuleTable) : WalksRecords memory (diiCountAt memory data + 2)
      (diiCount memory data) (.fail outcome) (some (.fail outcome, [])) := by
    apply walksRecords_stop
    · trivial
    · intro after other
      cases other
  have message : alislDiiMessage fuel memory data groupId dataAddr table =
      if getBe32 memory (data + 4) ≠ groupId then some (.fail table, [])
      else if dcModuleMax < diiCount memory data then some (.fail (table.announced memory data), [])
      else moduleLoop fuel memory dataAddr (diiCount memory data) 0
        ((diiCountAt memory data + 2 : Nat) : Int) (table.announced memory data) := rfl
  rw [V4.alislDiiMessage, message]
  by_cases own : getBe32 memory (data + 4) = groupId
  · rw [diiMessage_eq 0 memory data groupId dataAddr table own, if_neg (not_not.mpr own)]
    by_cases many : dcModuleMax < diiCount memory data
    · rw [if_pos many, if_pos many]
      exact refused _
    · rw [if_neg many, if_neg many]
      exact moduleLoop_walks memory fuel dataAddr (diiCount memory data) 0 _ _ enough
  · rw [diiMessage_other 0 memory data groupId dataAddr table own, if_pos own]
    exact refused _

/-! ### The lengths are read where they stand -/

/-- The second length of a group stands behind what the first one declares. -/
def GroupMarks.Synchronised (memory : Memory) (marks : GroupMarks) : Prop :=
  marks.groupInfoLenAt = marks.compatibilityLenAt + 2 + get2byteValue memory marks.compatibilityLenAt

theorem alislDsiMessage_walks (memory : Memory) (fuel data : Nat) (param : DsiParam)
    (state : DsiStore) (enough : 65535 ≤ fuel) :
    ∃ marks, alislDsiMessage fuel memory data param state =
        some (V4.alislDsiMessage memory data param state, marks) ∧
      (marks = none ↔ (dsiGroups memory data).1 = 0) ∧
      ∀ mark ∈ marks, mark.Synchronised memory := by
  rw [V4.alislDsiMessage_eq, alislDsiMessage, groupsAt_eq]
  dsimp only
  by_cases none_ : (dsiGroups memory data).1 = 0
  · rw [if_pos none_, if_pos none_]
    refine ⟨none, rfl, ⟨fun _ => none_, fun _ => rfl⟩, ?_⟩
    intro mark member
    cases member
  rw [if_neg none_, if_neg none_]
  generalize (dsiGroups memory data).2 = group
  have start : (group : Int) + 4 + 4 = ((group + 8 : Nat) : Int) := rfl
  have behind := dsiCompatibility_end true memory param (group + 8) state.newSwVersion
  rw [start, groupCompatibility_eq, dsiGroup]
  dsimp only
  generalize dsiCompatibility true memory param (group + 8) state.newSwVersion = compatibility at behind ⊢
  rcases compatibility with ⟨info, fit⟩
  dsimp only at behind ⊢
  have short : getBe16 memory info ≤ fuel := by
    have high := (memory info).toNat_lt
    have low := (memory (info + 1)).toNat_lt
    rw [getBe16]
    omega
  have loop := groupInfoLoop_eq memory fuel (getBe16 memory info) (info + 2) (getBe16 memory info)
    short (Nat.le_refl _)
  rcases Option.map_eq_some_iff.mp loop with ⟨last, ended, same⟩
  have ended_ : (groupInfoLoop memory).runWhile fuel
      ⟨(info : Int) + 2, get2byteValue memory info, false⟩ = some last := ended
  refine ⟨some ⟨((group + 8 : Nat) : Int), info⟩, ?_, ?_, ?_⟩
  · rw [ended_, Option.map_some]
    congr 2
    cases failed : last.failed with
    | true =>
        rw [failed, if_pos rfl] at same
        rw [Option.map_eq_none_iff.mp same.symm]
        rfl
    | false =>
        rw [failed] at same
        rcases Option.map_eq_some_iff.mp same.symm with ⟨address, found, _⟩
        rw [found]
        rfl
  · exact ⟨fun other => absurd other (Option.some_ne_none _), fun zero => absurd zero none_⟩
  · intro mark member
    rw [← Option.some.inj member, GroupMarks.Synchronised, behind]
    rfl

/-- The parsers end, with what the model of the addresses says, and every length of a
group and every record stands behind the length declared before it. -/
theorem descriptors_synchronised (memory : Memory) (fuel data groupId dataAddr : Nat)
    (param : DsiParam) (state : DsiStore) (table : ModuleTable) :
    (∃ marks, alislDsiMessage (65535 + fuel) memory data param state =
        some (V4.alislDsiMessage memory data param state, marks) ∧
      (marks = none ↔ (dsiGroups memory data).1 = 0) ∧
      ∀ mark ∈ marks, mark.Synchronised memory) ∧
    ∃ records, alislDiiMessage (65535 + fuel) memory data groupId dataAddr table =
        some (V4.alislDiiMessage memory data groupId dataAddr table, records) ∧
      RecordsFollow memory (diiCountAt memory data + 2 : Nat) records ∧
      (∀ after, V4.alislDiiMessage memory data groupId dataAddr table = .success after →
        records.length = diiCount memory data) := by
  constructor
  · exact alislDsiMessage_walks memory (65535 + fuel) data param state (Nat.le_add_right _ _)
  · exact (alislDiiMessage_walks memory (65535 + fuel) data groupId dataAddr table (by omega)).ended

end Alisl.Upgrade.Pointer
