import Alisl.Base.Reading
import Alisl.Upgrade.DbcFormat

/-! The table parsers of version 4 with every byte they read. Their `len` is only
printed: where the reads end is up to the lengths in the message. -/

namespace Alisl.Upgrade

open Alisl.Base

abbrev Reader (Value : Type) := Reading Byte Value

def readByte (data : Nat) : Reader Nat := do
  let byte ← Reading.cell data
  pure byte.toNat

def readBe16 (data : Nat) : Reader Nat := do
  let byte1 ← readByte data
  let byte2 ← readByte (data + 1)
  pure (byte1 * 256 + byte2)

def readBe24 (data : Nat) : Reader Nat := do
  let byte1 ← readByte data
  let byte2 ← readByte (data + 1)
  let byte3 ← readByte (data + 2)
  pure (byte1 * 65536 + byte2 * 256 + byte3)

def readBe32 (data : Nat) : Reader Nat := do
  let byte1 ← readByte data
  let byte2 ← readByte (data + 1)
  let byte3 ← readByte (data + 2)
  let byte4 ← readByte (data + 3)
  pure (byte1 * 16777216 + byte2 * 65536 + byte3 * 256 + byte4)

/-! DSI. -/

/-- The eight bytes behind the length are read whatever that length is. -/
def readDsiFit (param : DsiParam) (data descriptorType : Nat) (fit : DsiFit) : Reader DsiFit := do
  let specifierType ← readByte (data + 2)
  let specifierData ← readBe24 (data + 3)
  let model ← readBe16 (data + 6)
  let version ← readBe16 (data + 8)
  let hardware := descriptorType = 0x01 ∧ specifierType = 0x01 ∧ specifierData = param.oui ∧
    model = param.hwModel ∧ version = param.hwVersion
  let software := descriptorType = 0x02 ∧ specifierType = 0x01 ∧ specifierData = param.oui ∧
    model = param.swModel ∧ param.swVersion ≤ version
  pure {
    hardwareFit := fit.hardwareFit || decide hardware
    softwareFit := fit.softwareFit || decide software
    newSwVersion := if software then version else fit.newSwVersion }

def readDsiDescriptors (param : DsiParam) : Nat → Nat → Nat → DsiFit → Reader (Nat × Nat × DsiFit)
  | 0, data, compatibilityLen, fit => pure (data, compatibilityLen, fit)
  | count + 1, data, compatibilityLen, fit => do
      let descriptorType ← readByte data
      let descriptorLen ← readByte (data + 1)
      if compatibilityLen < descriptorLen + 2 then pure (data + compatibilityLen, 0, fit)
      else do
        let fit ← readDsiFit param data descriptorType fit
        readDsiDescriptors param count (data + 2 + descriptorLen)
          (compatibilityLen - (descriptorLen + 2)) fit

def readDsiCompatibility (param : DsiParam) (data newSwVersion : Nat) : Reader (Nat × DsiFit) := do
  let compatibilityLen ← readBe16 data
  if compatibilityLen < 2 then pure (data + 2 + compatibilityLen, ⟨false, false, newSwVersion⟩)
  else do
    let descriptorCount ← readBe16 (data + 2)
    let end_ ← readDsiDescriptors param descriptorCount (data + 4) (compatibilityLen - 2)
      ⟨false, false, newSwVersion⟩
    pure (end_.1 + end_.2.1, end_.2.2)

def readDsiGroupInfo : Nat → Nat → Nat → Reader (Option Nat)
  | _, 0, data => pure (some data)
  | 0, _ + 1, _ => pure none
  | fuel + 1, groupInfoLen + 1, data => do
      let _descriptorTag ← readByte data
      let descriptorLen ← readByte (data + 1)
      if groupInfoLen + 1 < descriptorLen + 2 then pure none
      else readDsiGroupInfo fuel (groupInfoLen + 1 - (descriptorLen + 2)) (data + 2 + descriptorLen)

/-- The first group; the private data behind it are skipped. -/
def readDsiGroup (param : DsiParam) (data : Nat) (state : DsiStore) : Reader (DbcOutcome DsiStore) := do
  let groupId ← readBe32 data
  let groupSize ← readBe32 (data + 4)
  let compatibility ← readDsiCompatibility param (data + 8) state.newSwVersion
  let state : DsiStore := ⟨compatibility.2.newSwVersion, ⟨groupId, groupSize⟩⟩
  let groupInfoLen ← readBe16 compatibility.1
  let next ← readDsiGroupInfo groupInfoLen groupInfoLen (compatibility.1 + 2)
  next.elim (pure (.fail state)) (fun data => do
    let _privateDataLen ← readBe16 data
    pure (.success state))

def readDsiMessage (param : DsiParam) (data : Nat) (state : DsiStore) :
    Reader (DbcOutcome DsiStore) := do
  let _transactionId ← readBe32 (data + 4)
  let adaptationLen ← readByte (data + 9)
  let _messageLen ← readBe16 (data + 10)
  let data := data + 12 + adaptationLen + 20
  let compatibilityLen ← readBe16 data
  let data := data + 2 + compatibilityLen
  let _privateDataLen ← readBe16 data
  let numOfGroups ← readBe16 (data + 2)
  if numOfGroups = 0 then pure (.fail state) else readDsiGroup param (data + 4) state

/-! DII. -/

def readDiiDescriptors : Nat → Nat → Nat → DCModuleInfo → Reader (Bool × Nat × DCModuleInfo)
  | _, 0, data, entry => pure (true, data, entry)
  | 0, _ + 1, data, entry => pure (false, data, entry)
  | fuel + 1, moduleInfoLen + 1, data, entry => do
      let descriptorTag ← readByte data
      let descriptorLen ← readByte (data + 1)
      if moduleInfoLen + 1 < descriptorLen + 2 then pure (false, data + 2, entry)
      else if descriptorTag = 0x04 then
        if descriptorLen < 3 then pure (false, data + 2, entry)
        else do
          let position ← readByte (data + 2)
          let nextModuleId ← readBe16 (data + 3)
          readDiiDescriptors fuel (moduleInfoLen + 1 - (descriptorLen + 2))
            (data + 2 + descriptorLen) (linkModule position nextModuleId entry)
      else
        readDiiDescriptors fuel (moduleInfoLen + 1 - (descriptorLen + 2))
          (data + 2 + descriptorLen) entry

/-- The private data behind the modules are skipped. -/
def readDiiModules (dataAddr : Nat) : Nat → Nat → Nat → ModuleTable → Reader (DbcOutcome ModuleTable)
  | 0, _, data, table => do
      let _privateDataLen ← readBe16 data
      pure (.success table)
  | count + 1, index, data, table => do
      let moduleId ← readBe16 data
      let moduleSize ← readBe32 (data + 2)
      let previous := table.modules (index - 1)
      let pointer := if index = 0 then dataAddr
        else previous.moduleBufPointer + previous.moduleBufSize
      if table.blocksize = 0 then pure .fault
      else if 32 * bitMapNum < blockNumOf moduleSize table.blocksize then pure .fault
      else do
        let entry := freshModule (table.modules index) moduleId moduleSize pointer
          (blockNumOf moduleSize table.blocksize)
        let moduleInfoLen ← readByte (data + 6)
        let end_ ← readDiiDescriptors moduleInfoLen moduleInfoLen (data + 7) entry
        if end_.1 then
          readDiiModules dataAddr count (index + 1) end_.2.1 (table.put index end_.2.2)
        else pure (.fail (table.put index end_.2.2))

def readDiiMessage (data groupId dataAddr : Nat) (table : ModuleTable) :
    Reader (DbcOutcome ModuleTable) := do
  let transactionId ← readBe32 (data + 4)
  if transactionId ≠ groupId then pure (.fail table)
  else do
    let adaptationLen ← readByte (data + 9)
    let _messageLen ← readBe16 (data + 10)
    let data := data + 12 + adaptationLen
    let _downloadId ← readBe32 data
    let blocksize ← readBe16 (data + 4)
    -- windowSize, ackPeriod, tCDownloadWindow and tCDownloadScenario
    let data := data + 6 + 10
    let compatibilityLen ← readBe16 data
    let data := data + 2 + compatibilityLen
    let numOfModules ← readBe16 data
    let table := { table with moduleNum := numOfModules % 256, blocksize := blocksize }
    if dcModuleMax < numOfModules then pure (.fail table)
    else readDiiModules dataAddr numOfModules 0 (data + 2) table

/-! The results are those of the parsers. -/

section Values

variable (memory : Memory) {Value : Type}

theorem value_readByte_bind (data : Nat) (next : Nat → Reader Value) :
    (readByte data >>= next).value memory = (next (memory data).toNat).value memory := rfl

theorem value_readBe16 (data : Nat) : (readBe16 data).value memory = getBe16 memory data := by
  simp only [readBe16, value_readByte_bind, Reading.value_pure, getBe16]

theorem value_readBe24 (data : Nat) : (readBe24 data).value memory = getBe24 memory data := by
  simp only [readBe24, value_readByte_bind, Reading.value_pure, getBe24]

theorem value_readBe32 (data : Nat) : (readBe32 data).value memory = getBe32 memory data := by
  simp only [readBe32, value_readByte_bind, Reading.value_pure, getBe32]

theorem value_readBe16_bind (data : Nat) (next : Nat → Reader Value) :
    (readBe16 data >>= next).value memory = (next (getBe16 memory data)).value memory :=
  Reading.value_bind_of memory (value_readBe16 memory data) next

theorem value_readBe24_bind (data : Nat) (next : Nat → Reader Value) :
    (readBe24 data >>= next).value memory = (next (getBe24 memory data)).value memory :=
  Reading.value_bind_of memory (value_readBe24 memory data) next

theorem value_readBe32_bind (data : Nat) (next : Nat → Reader Value) :
    (readBe32 data >>= next).value memory = (next (getBe32 memory data)).value memory :=
  Reading.value_bind_of memory (value_readBe32 memory data) next

theorem value_readDsiFit (param : DsiParam) (data : Nat) (fit : DsiFit) :
    (readDsiFit param data (memory data).toNat fit).value memory =
      dsiFit true memory param data fit := by
  have software : ((memory data).toNat = 0x02 ∧ (memory (data + 2)).toNat = 0x01 ∧
      getBe24 memory (data + 3) = param.oui ∧ getBe16 memory (data + 6) = param.swModel ∧
        param.swVersion ≤ getBe16 memory (data + 8)) ↔
      ((memory data).toNat = 0x02 ∧ (memory (data + 2)).toNat = 0x01 ∧
        getBe24 memory (data + 3) = param.oui ∧ getBe16 memory (data + 6) = param.swModel ∧
          (true = true → param.swVersion ≤ getBe16 memory (data + 8))) := by
    rw [forall_prop_of_true rfl]
  rw [readDsiFit, value_readByte_bind, value_readBe24_bind, value_readBe16_bind,
    value_readBe16_bind, Reading.value_pure, dsiFit, DsiFit.mk.injEq]
  refine ⟨rfl, ?_, ?_⟩
  · rw [decide_eq_decide.mpr software]
  · exact if_congr software rfl rfl

theorem value_readDsiDescriptors (param : DsiParam) (count data compatibilityLen : Nat)
    (fit : DsiFit) :
    (readDsiDescriptors param count data compatibilityLen fit).value memory =
      dsiDescriptors true memory param count data compatibilityLen fit := by
  induction count generalizing data compatibilityLen fit with
  | zero => rfl
  | succ count ih =>
      simp only [readDsiDescriptors, dsiDescriptors, value_readByte_bind]
      by_cases short : compatibilityLen < (memory (data + 1)).toNat + 2
      · rw [if_pos short, if_pos short, Reading.value_pure]
      · rw [if_neg short, if_neg short, Reading.value_bind, value_readDsiFit, ih]

theorem value_readDsiCompatibility (param : DsiParam) (data newSwVersion : Nat) :
    (readDsiCompatibility param data newSwVersion).value memory =
      dsiCompatibility true memory param data newSwVersion := by
  simp only [readDsiCompatibility, dsiCompatibility, value_readBe16_bind]
  by_cases short : getBe16 memory data < 2
  · rw [if_pos short, if_pos short, Reading.value_pure]
  · rw [if_neg short, if_neg short, value_readBe16_bind, Reading.value_bind, Reading.value_pure,
      value_readDsiDescriptors]

theorem value_readDsiGroupInfo (fuel groupInfoLen data : Nat) :
    (readDsiGroupInfo fuel groupInfoLen data).value memory =
      dsiGroupInfo memory fuel groupInfoLen data := by
  induction fuel generalizing groupInfoLen data with
  | zero => cases groupInfoLen <;> rfl
  | succ fuel ih =>
      cases groupInfoLen with
      | zero => rfl
      | succ groupInfoLen =>
          simp only [readDsiGroupInfo, dsiGroupInfo, value_readByte_bind]
          by_cases cut : groupInfoLen + 1 < (memory (data + 1)).toNat + 2
          · rw [if_pos cut, if_pos cut, Reading.value_pure]
          · rw [if_neg cut, if_neg cut, ih]

theorem value_readDsiGroup (param : DsiParam) (data : Nat) (state : DsiStore) :
    (readDsiGroup param data state).value memory =
      (dsiGroup true memory param data state.newSwVersion).1.elim
        (.fail ⟨(dsiGroup true memory param data state.newSwVersion).2.2.newSwVersion,
          (dsiGroup true memory param data state.newSwVersion).2.1⟩)
        (fun _ => .success
          ⟨(dsiGroup true memory param data state.newSwVersion).2.2.newSwVersion,
            (dsiGroup true memory param data state.newSwVersion).2.1⟩) := by
  rw [readDsiGroup, value_readBe32_bind, value_readBe32_bind,
    Reading.value_bind_of memory (value_readDsiCompatibility memory ..), value_readBe16_bind,
    Reading.value_bind_of memory (value_readDsiGroupInfo memory ..), dsiGroup]
  dsimp only
  cases dsiGroupInfo memory _ _ _ with
  | none => rfl
  | some next => rfl

theorem value_readDsiMessage (param : DsiParam) (data : Nat) (state : DsiStore) :
    (readDsiMessage param data state).value memory =
      V4.alislDsiMessage memory data param state := by
  rw [readDsiMessage, value_readBe32_bind, value_readByte_bind, value_readBe16_bind,
    value_readBe16_bind, value_readBe16_bind, value_readBe16_bind, V4.alislDsiMessage_eq, dsiGroups,
    readMessageHeader]
  dsimp only
  by_cases none_ : getBe16 memory (data + 12 + (memory (data + 9)).toNat + 20 + 2 +
      getBe16 memory (data + 12 + (memory (data + 9)).toNat + 20) + 2) = 0
  · rw [if_pos none_, if_pos none_, Reading.value_pure]
  · rw [if_neg none_, if_neg none_, value_readDsiGroup]

theorem value_readDiiDescriptors (fuel moduleInfoLen data : Nat) (entry : DCModuleInfo) :
    (readDiiDescriptors fuel moduleInfoLen data entry).value memory =
      diiDescriptors memory fuel moduleInfoLen data entry := by
  induction fuel generalizing moduleInfoLen data entry with
  | zero => cases moduleInfoLen <;> rfl
  | succ fuel ih =>
      cases moduleInfoLen with
      | zero => rfl
      | succ moduleInfoLen =>
          simp only [readDiiDescriptors, diiDescriptors, value_readByte_bind]
          by_cases cut : moduleInfoLen + 1 < (memory (data + 1)).toNat + 2
          · rw [if_pos cut, if_pos cut, Reading.value_pure]
          · rw [if_neg cut, if_neg cut]
            by_cases link : (memory data).toNat = 0x04
            · by_cases small : (memory (data + 1)).toNat < 3
              · rw [if_pos link, if_pos small, if_pos ⟨link, small⟩, Reading.value_pure]
              · rw [if_pos link, if_neg small, if_neg (fun both => small both.2), if_pos link,
                  value_readByte_bind, value_readBe16_bind, ih]
            · rw [if_neg link, if_neg (fun both => link both.1), if_neg link, ih]

theorem value_readDiiModules (dataAddr count index data : Nat) (table : ModuleTable) :
    (readDiiModules dataAddr count index data table).value memory =
      diiModules 0 memory dataAddr count index data table := by
  induction count generalizing index data table with
  | zero => rfl
  | succ count ih =>
      simp only [readDiiModules, diiModules, value_readBe16_bind, value_readBe32_bind]
      by_cases none_ : table.blocksize = 0
      · rw [if_pos none_, if_pos none_, Reading.value_pure]
      · rw [if_neg none_, if_neg none_]
        by_cases many : 32 * bitMapNum < blockNumOf (getBe32 memory (data + 2)) table.blocksize
        · rw [if_pos many, if_pos many, Reading.value_pure]
        · rw [if_neg many, if_neg many, value_readByte_bind,
            Reading.value_bind_of memory (value_readDiiDescriptors memory ..)]
          have moved : data + 6 + 0 + 1 = data + 7 := rfl
          rw [moved]
          rcases diiDescriptors memory _ _ (data + 7) _ with ⟨_ | _, next, entry⟩
          · rfl
          · exact ih ..

theorem value_readDiiMessage (data groupId dataAddr : Nat) (table : ModuleTable) :
    (readDiiMessage data groupId dataAddr table).value memory =
      V4.alislDiiMessage memory data groupId dataAddr table := by
  rw [readDiiMessage, value_readBe32_bind]
  by_cases other : getBe32 memory (data + 4) ≠ groupId
  · rw [if_pos other, V4.alislDiiMessage, diiMessage_other 0 memory data groupId dataAddr table other,
      Reading.value_pure]
  · rw [if_neg other, V4.alislDiiMessage,
      diiMessage_eq 0 memory data groupId dataAddr table (not_not.mp other), value_readByte_bind,
      value_readBe16_bind, value_readBe32_bind, value_readBe16_bind, value_readBe16_bind,
      value_readBe16_bind, ModuleTable.announced, diiCount, diiCountAt, diiBlocksize,
      readMessageHeader]
    dsimp only
    by_cases many : dcModuleMax < getBe16 memory (data + 12 + (memory (data + 9)).toNat + 6 + 10 + 2 +
        getBe16 memory (data + 12 + (memory (data + 9)).toNat + 6 + 10))
    · rw [if_pos many, if_pos many, Reading.value_pure]
    · rw [if_neg many, if_neg many, value_readDiiModules]

end Values

end Alisl.Upgrade
