import Alisl.Upgrade.RoundTrip.Dsi

/-! The DII section of the pack tool at the receiver: version 3 decodes it, version
4 only when it has a single module. -/

namespace Alisl.Upgrade

open Alisl.Base

/-- The loop over modules starts behind a header of forty bytes. -/
theorem diiMessage_of_holds (versionLen : Nat) (memory : Memory) (groupId beyond : Nat)
    (modules : List ModuleInfo) (dataAddr : Nat) (table : ModuleTable)
    (identity : groupId < 4294967296) (count : modules.length ≤ dcModuleMax)
    (holds : Holds memory 0 (putDiiSection groupId beyond modules)) :
    diiMessage versionLen memory 8 groupId dataAddr table =
        diiModules versionLen memory dataAddr modules.length 0 40
          { table with moduleNum := modules.length, blocksize := blockSize } ∧
      Holds memory 40 (putDiiModules modules.length beyond 0 modules) := by
  have small : modules.length ≤ 128 := count
  unfold putDiiSection at holds
  simp only [List.append_assoc] at holds
  obtain ⟨_, message⟩ := holds_section memory 0 _ _ holds
  rw [holds_append] at message
  obtain ⟨header, body⟩ := message
  have header := readMessageHeader_of_holds memory _ _ _ _ header
  simp only [diiBody, List.append_assoc, holds_append, sectionHeader_length, messageHeader_length,
    putBe16_length, putBe32_length, List.length_cons, List.length_nil, Nat.reduceAdd] at header body
  obtain ⟨_, size, _, _, _, compatibility, number, records, _⟩ := body
  have compatibility : getBe16 memory 36 = 0 := compatibility.getBe16
  have size : getBe16 memory 24 = blockSize := size.getBe16
  have number : getBe16 memory 38 = modules.length := by
    rw [number.getBe16]
    omega
  refine ⟨?_, records⟩
  have same : groupId % 4294967296 = groupId := Nat.mod_eq_of_lt identity
  have byte : modules.length % 256 = modules.length := by omega
  simp only [diiMessage, header, same, size, compatibility, number, byte, ne_eq, not_true_eq_false,
    if_false, Nat.not_lt.mpr count, Nat.reduceAdd, Nat.add_zero]

theorem diiSection_extension (memory : Memory) (groupId beyond : Nat) (modules : List ModuleInfo)
    (holds : Holds memory 0 (putDiiSection groupId beyond modules)) :
    getBe16 memory 3 = groupId % 65536 := by
  unfold putDiiSection at holds
  simp only [List.append_assoc] at holds
  obtain ⟨header, _⟩ := holds_section memory 0 _ _ holds
  have extension := sectionHeader_extension memory 0 _ _ _ _ _ header
  rwa [Nat.zero_add, Nat.mod_mod] at extension

/-- The number of blocks of a module of the pack tool. -/
def blockCount (moduleSize : Nat) : Nat := (moduleSize + blockSize - 1) / blockSize

theorem blockCount_le (moduleSize : Nat) (bounded : moduleSize ≤ moduleValidSize) :
    blockCount moduleSize ≤ 256 := by
  unfold blockCount blockSize
  unfold moduleValidSize at bounded
  omega

theorem blockNumOf_eq (moduleSize : Nat) (bounded : moduleSize ≤ moduleValidSize) :
    blockNumOf moduleSize blockSize = blockCount moduleSize := by
  unfold blockNumOf blockCount blockSize
  unfold moduleValidSize at bounded
  split <;> omega

/-- What the link descriptor of a record adds; a single module has none. -/
def linkedModule (num index nextModuleId : Nat) (entry : DCModuleInfo) : DCModuleInfo :=
  if 1 < num then linkModule (linkPosition num index).toNat (nextModuleId % 65536) entry else entry

/-- The entry a record is decoded to. -/
def decodedModule (num index : Nat) (info : ModuleInfo) (nextModuleId pointer : Nat)
    (entry : DCModuleInfo) : DCModuleInfo :=
  linkedModule num index nextModuleId
    (freshModule entry info.moduleId info.moduleSize pointer (blockCount info.moduleSize))

/-- A record in memory, with what its module announces in the range of its fields. -/
structure Record (memory : Memory) (data num index : Nat) (info : ModuleInfo) (nextModuleId : Nat) :
    Prop where
  holds : Holds memory data (putDiiModule num index info nextModuleId)
  idFits : info.moduleId < 65536
  sizeFits : info.moduleSize ≤ moduleValidSize

namespace Record

variable {memory : Memory} {data num index nextModuleId : Nat} {info : ModuleInfo}

theorem fields (record : Record memory data num index info nextModuleId) :
    getBe16 memory data = info.moduleId ∧ getBe32 memory (data + 2) = info.moduleSize ∧
      memory (data + 6) = 0 := by
  obtain ⟨holds, idFits, sizeFits⟩ := record
  unfold moduleValidSize at sizeFits
  unfold putDiiModule at holds
  simp only [holds_append, putBe16_length, putBe32_length, List.length_append] at holds
  obtain ⟨⟨⟨identity, size⟩, version⟩, _⟩ := holds
  have identity := identity.getBe16
  have size := size.getBe32
  have version : memory (data + 6) = 0 := version.1
  exact ⟨by omega, by omega, version⟩

theorem descriptors (record : Record memory data num index info nextModuleId) (entry : DCModuleInfo) :
    diiDescriptors memory (memory (data + 7)).toNat (memory (data + 7)).toNat (data + 8) entry =
      (true, data + (putDiiModule num index info nextModuleId).length,
        linkedModule num index nextModuleId entry) := by
  have holds := record.holds
  unfold putDiiModule at holds ⊢
  rw [holds_append] at holds
  obtain ⟨_, behind⟩ := holds
  simp only [List.length_append, putBe16_length, putBe32_length, List.length_singleton,
    Nat.reduceAdd] at behind ⊢
  unfold linkedModule
  by_cases several : 1 < num
  · simp only [if_pos several, holds_append, List.length_cons, List.length_nil, Nat.reduceAdd]
      at behind ⊢
    obtain ⟨⟨len, tag, descriptorLen, position, _⟩, next⟩ := behind
    have len : (memory (data + 7)).toNat = 5 := by rw [len]; rfl
    have tag : (memory (data + 8)).toNat = 4 := by rw [tag]; rfl
    have descriptorLen : (memory (data + 9)).toNat = 3 := by rw [descriptorLen]; rfl
    have position : memory (data + 10) = linkPosition num index := position
    have next : getBe16 memory (data + 11) = nextModuleId % 65536 := next.getBe16
    simp only [len, diiDescriptors, tag, descriptorLen, position, next, Nat.add_assoc, Nat.reduceAdd,
      Nat.reduceLT, Nat.reduceSub, if_true, if_false, and_false]
    rfl
  · simp only [if_neg several] at behind ⊢
    have len : (memory (data + 7)).toNat = 0 := by rw [behind.1]; rfl
    simp only [len, diiDescriptors]
    rfl

end Record

/-- Where the module at an index is placed. -/
def modulePointer (dataAddr index : Nat) (table : ModuleTable) : Nat :=
  if index = 0 then dataAddr
  else (table.modules (index - 1)).moduleBufPointer + (table.modules (index - 1)).moduleBufSize

/-- The step over a record whose descriptors end at `next`. -/
theorem diiModules_step (versionLen : Nat) (memory : Memory)
    (dataAddr num index data nextModuleId count next : Nat) (info : ModuleInfo) (table : ModuleTable)
    (entry : DCModuleInfo) (blocksize : table.blocksize = blockSize)
    (record : Record memory data num index info nextModuleId)
    (descriptors : diiDescriptors memory (memory (data + 6 + versionLen)).toNat
      (memory (data + 6 + versionLen)).toNat (data + 6 + versionLen + 1)
      (freshModule (table.modules index) info.moduleId info.moduleSize
        (modulePointer dataAddr index table) (blockCount info.moduleSize)) = (true, next, entry)) :
    diiModules versionLen memory dataAddr (count + 1) index data table =
      diiModules versionLen memory dataAddr count (index + 1) next (table.put index entry) := by
  obtain ⟨identity, size, _⟩ := record.fields
  have blocks := blockNumOf_eq info.moduleSize record.sizeFits
  have inMap : ¬ 32 * bitMapNum < blockCount info.moduleSize := by
    have few := blockCount_le info.moduleSize record.sizeFits
    unfold bitMapNum
    omega
  have some : blockSize ≠ 0 := by decide
  unfold modulePointer at descriptors
  rw [diiModules]
  simp only [identity, size, blocksize, if_neg some, blocks, if_neg inMap, descriptors]

theorem v3_diiModules_step (memory : Memory) (dataAddr num index data nextModuleId count : Nat)
    (info : ModuleInfo) (table : ModuleTable) (blocksize : table.blocksize = blockSize)
    (record : Record memory data num index info nextModuleId) :
    diiModules 1 memory dataAddr (count + 1) index data table =
      diiModules 1 memory dataAddr count (index + 1)
        (data + (putDiiModule num index info nextModuleId).length)
        (table.put index (decodedModule num index info nextModuleId
          (modulePointer dataAddr index table) (table.modules index))) := by
  apply diiModules_step 1 memory dataAddr num index data nextModuleId count _ info table _ blocksize
    record
  exact record.descriptors _

/-- Version 4 takes the version, 0, for the length of the descriptors and goes on
with the length byte. -/
theorem v4_diiModules_step (memory : Memory) (dataAddr num index data nextModuleId count : Nat)
    (info : ModuleInfo) (table : ModuleTable) (blocksize : table.blocksize = blockSize)
    (record : Record memory data num index info nextModuleId) :
    diiModules 0 memory dataAddr (count + 1) index data table =
      diiModules 0 memory dataAddr count (index + 1) (data + 7)
        (table.put index (freshModule (table.modules index) info.moduleId info.moduleSize
          (modulePointer dataAddr index table) (blockCount info.moduleSize))) := by
  obtain ⟨_, _, version⟩ := record.fields
  apply diiModules_step 0 memory dataAddr num index data nextModuleId count _ info table _ blocksize
    record
  rw [Nat.add_zero, version]
  rfl

/-- From there the link descriptor reads as a module of 48 MB, with far more
blocks than the map has bits. -/
theorem v4_diiModules_fault (memory : Memory) (dataAddr num data nextModuleId count : Nat)
    (info : ModuleInfo) (table : ModuleTable) (several : 1 < num)
    (blocksize : table.blocksize = blockSize)
    (record : Record memory data num 0 info nextModuleId) :
    diiModules 0 memory dataAddr (count + 1) 1 (data + 7) table = .fault := by
  have holds := record.holds
  unfold putDiiModule at holds
  rw [holds_append] at holds
  obtain ⟨_, behind⟩ := holds
  simp only [List.length_append, putBe16_length, putBe32_length, Nat.reduceAdd, if_pos several,
    holds_append, List.length_cons, List.length_nil] at behind
  obtain ⟨⟨_, _, descriptorLen, position, _⟩, next⟩ := behind
  have size : getBe32 memory (data + 7 + 2) = 50331648 + nextModuleId % 65536 := by
    have next : getBe16 memory (data + 11) = nextModuleId % 65536 := next.getBe16
    have descriptorLen : (memory (data + 9)).toNat = 3 := by rw [descriptorLen]; rfl
    have position : (memory (data + 10)).toNat = 0 := by rw [position]; rfl
    simp only [getBe16, Nat.add_assoc, Nat.reduceAdd] at next
    simp only [getBe32, Nat.add_assoc, Nat.reduceAdd, descriptorLen, position, next, Nat.reduceMul,
      Nat.zero_mul]
  have many : 32 * bitMapNum < blockNumOf (50331648 + nextModuleId % 65536) blockSize := by
    unfold blockNumOf blockSize bitMapNum
    split <;> omega
  have some : blockSize ≠ 0 := by decide
  rw [diiModules]
  simp only [size, blocksize, if_neg some, if_pos many]

@[simp] theorem ModuleTable.put_modules_self (table : ModuleTable) (index : Nat)
    (entry : DCModuleInfo) : (table.put index entry).modules index = entry :=
  Function.update_self ..

theorem ModuleTable.put_modules_of_ne (table : ModuleTable) (index other : Nat)
    (entry : DCModuleInfo) (apart : other ≠ index) :
    (table.put index entry).modules other = table.modules other :=
  Function.update_of_ne apart ..

/-- The link descriptor touches nothing but the link. -/
theorem decodedModule_frame (num index : Nat) (info : ModuleInfo) (nextModuleId pointer : Nat)
    (entry : DCModuleInfo) :
    ∃ linked first last next, decodedModule num index info nextModuleId pointer entry =
      { freshModule entry info.moduleId info.moduleSize pointer (blockCount info.moduleSize) with
        moduleLinked := linked
        moduleFirst := first
        moduleLast := last
        nextModuleId := next } := by
  unfold decodedModule linkedModule linkModule
  split_ifs <;> exact ⟨_, _, _, _, rfl⟩

theorem modulePointer_put (dataAddr num index : Nat) (info : ModuleInfo) (nextModuleId pointer : Nat)
    (entry : DCModuleInfo) (table : ModuleTable) :
    modulePointer dataAddr (index + 1)
        (table.put index (decodedModule num index info nextModuleId pointer entry)) =
      pointer + info.moduleSize := by
  obtain ⟨_, _, _, _, frame⟩ := decodedModule_frame num index info nextModuleId pointer entry
  simp only [modulePointer, Nat.add_sub_cancel, ModuleTable.put_modules_self, frame]
  rfl

/-- The entry of each module: decoded from its record, and placed behind the
modules before it. -/
def TableDecoded (dataAddr num beyond index : Nat) (modules : List ModuleInfo)
    (table after : ModuleTable) : Prop :=
  ∀ k info, modules[k]? = some info →
    after.modules (index + k) = decodedModule num (index + k) info
      (nextModuleIdOf beyond (modules.drop (k + 1)))
      (modulePointer dataAddr index table + ((modules.take k).map ModuleInfo.moduleSize).sum)
      (table.modules (index + k))

/-- Version 3's loop over the records of the pack tool. -/
theorem v3_diiModules (memory : Memory) (dataAddr num beyond : Nat) (modules : List ModuleInfo)
    (fits : ∀ info ∈ modules, info.moduleId < 65536 ∧ info.moduleSize ≤ moduleValidSize)
    (index data : Nat) (table : ModuleTable) (blocksize : table.blocksize = blockSize)
    (holds : Holds memory data (putDiiModules num beyond index modules)) :
    ∃ after, diiModules 1 memory dataAddr modules.length index data table = .success after ∧
      after.moduleNum = table.moduleNum ∧ after.blocksize = table.blocksize ∧
      (∀ earlier < index, after.modules earlier = table.modules earlier) ∧
      TableDecoded dataAddr num beyond index modules table after := by
  induction modules generalizing index data table with
  | nil => exact ⟨table, rfl, rfl, rfl, fun _ _ => rfl, fun _ _ present => by simp at present⟩
  | cons info rest ih =>
      have inRange := fits info List.mem_cons_self
      rw [putDiiModules, holds_append] at holds
      have record : Record memory data num index info (nextModuleIdOf beyond rest) :=
        ⟨holds.1, inRange.1, inRange.2⟩
      rw [List.length_cons, v3_diiModules_step memory dataAddr num index data _ _ info table blocksize
        record]
      -- the rest of the table, from a table that holds this module
      obtain ⟨after, parsed, number, size, before, decoded⟩ :=
        ih (fun other member => fits other (.tail _ member)) (index + 1) _
          (table.put index (decodedModule num index info (nextModuleIdOf beyond rest)
            (modulePointer dataAddr index table) (table.modules index))) blocksize holds.2
      refine ⟨after, parsed, number, size, ?_, ?_⟩
      · intro earlier lower
        rw [before earlier (by omega)]
        exact ModuleTable.put_modules_of_ne _ _ _ _ (by omega)
      · intro k other present
        cases k with
        | zero =>
            have same : info = other := by simpa using present
            subst same
            rw [Nat.add_zero, before index (by omega), ModuleTable.put_modules_self]
            simp
        | succ k =>
            have there := decoded k other (by simpa using present)
            rw [modulePointer_put, ModuleTable.put_modules_of_ne _ _ _ _ (by omega)] at there
            have position : index + (k + 1) = index + 1 + k := by omega
            rw [position, there]
            simp [Nat.add_assoc]

/-- A DII section in memory: one module to 128 of any ids, and sizes the pack tool
cuts. `beyond` is what it finds behind its last module. -/
structure DiiInput where
  groupId : Nat
  beyond : Nat
  modules : List ModuleInfo
  memory : Memory
  dataAddr : Nat
  table : ModuleTable
  groupIdFits : groupId < 4294967296
  notEmpty : modules ≠ []
  countFits : modules.length ≤ dcModuleMax
  idsFit : ∀ info ∈ modules, info.moduleId < 65536
  sizesFit : ∀ info ∈ modules, 0 < info.moduleSize ∧ info.moduleSize ≤ moduleValidSize
  holds : Holds memory 0 (putDiiSection groupId beyond modules)

/-- An entry says of its module what the section says. -/
structure ModuleAgrees (modules : List ModuleInfo) (index : Nat) (info : ModuleInfo)
    (entry : DCModuleInfo) : Prop where
  id : entry.moduleId = info.moduleId
  size : entry.moduleBufSize = info.moduleSize
  blocks : entry.blockNum = (info.moduleSize + blockSize - 1) / blockSize
  first : 1 < modules.length → (entry.moduleFirst = true ↔ index = 0)
  last : 1 < modules.length → (entry.moduleLast = true ↔ index + 1 = modules.length)
  next : 1 < modules.length → ∀ following, modules[index + 1]? = some following →
    entry.nextModuleId = following.moduleId

/-- Decoding undoes encoding. -/
def DiiDecoded (parser : Memory → Nat → Nat → Nat → ModuleTable → DbcOutcome ModuleTable)
    (input : DiiInput) : Prop :=
  ∃ after, parser input.memory 8 input.groupId input.dataAddr input.table = .success after ∧
    after.moduleNum = input.modules.length ∧ after.blocksize = blockSize ∧
    ∀ index info, input.modules[index]? = some info →
      ModuleAgrees input.modules index info (after.modules index)

/-- The link of a module by its place in the group. -/
theorem linkModule_linkPosition (num index nextModuleId : Nat) (entry : DCModuleInfo)
    (several : 1 < num) (inside : index < num) (notFirst : entry.moduleFirst = false)
    (notLast : entry.moduleLast = false) :
    let linked := linkModule (linkPosition num index).toNat nextModuleId entry
    (linked.moduleFirst = true ↔ index = 0) ∧ (linked.moduleLast = true ↔ index + 1 = num) ∧
      (index + 1 < num → linked.nextModuleId = nextModuleId) := by
  by_cases isFirst : index = 0
  · have single : 1 ≠ num := by omega
    simp [linkPosition, isFirst, linkModule, notLast, single]
  · by_cases isLast : index = num - 1
    · have ends : index + 1 = num := by omega
      have position : linkPosition num index = 2 := by
        rw [linkPosition, if_neg isFirst, if_pos isLast]
      simp [position, linkModule, notFirst, isFirst, ends]
    · have goesOn : index + 1 ≠ num := by omega
      have position : linkPosition num index = 1 := by
        rw [linkPosition, if_neg isFirst, if_neg isLast]
      simp [position, linkModule, notFirst, isFirst, notLast, goesOn]

/-- The id in a record is that of the following module. -/
theorem nextModuleIdOf_drop (modules : List ModuleInfo) (beyond index : Nat) (following : ModuleInfo)
    (present : modules[index]? = some following) :
    nextModuleIdOf beyond (modules.drop index) = following.moduleId := by
  obtain ⟨inside, same⟩ := List.getElem?_eq_some_iff.mp present
  rw [List.drop_eq_getElem_cons inside, nextModuleIdOf, same]

theorem decodedModule_agrees (modules : List ModuleInfo) (beyond pointer index : Nat)
    (info : ModuleInfo) (entry : DCModuleInfo) (present : modules[index]? = some info)
    (idsFit : ∀ info ∈ modules, info.moduleId < 65536) :
    ModuleAgrees modules index info (decodedModule modules.length index info
      (nextModuleIdOf beyond (modules.drop (index + 1))) pointer entry) := by
  have inside := (List.getElem?_eq_some_iff.mp present).1
  have link (several : 1 < modules.length) := linkModule_linkPosition modules.length index
    (nextModuleIdOf beyond (modules.drop (index + 1)) % 65536)
    (freshModule entry info.moduleId info.moduleSize pointer (blockCount info.moduleSize))
    several inside rfl rfl
  have linked (several : 1 < modules.length) (nextModuleId : Nat) : decodedModule modules.length index
      info nextModuleId pointer entry = linkModule (linkPosition modules.length index).toNat
        (nextModuleId % 65536)
        (freshModule entry info.moduleId info.moduleSize pointer (blockCount info.moduleSize)) :=
    if_pos several
  obtain ⟨_, _, _, _, frame⟩ := decodedModule_frame modules.length index info
    (nextModuleIdOf beyond (modules.drop (index + 1))) pointer entry
  constructor
  case id | size | blocks => rw [frame]; rfl
  case first =>
    intro several
    rw [linked several]
    exact (link several).1
  case last =>
    intro several
    rw [linked several]
    exact (link several).2.1
  case next =>
    intro several following here
    have room := (List.getElem?_eq_some_iff.mp here).1
    have fits := idsFit following (List.mem_of_getElem? here)
    rw [linked several, (link several).2.2 room, nextModuleIdOf_drop modules beyond _ following here]
    exact Nat.mod_eq_of_lt fits

/-- Version 3 decodes every DII. -/
theorem v3_dii_decoded (input : DiiInput) : DiiDecoded V3.alislDiiMessage input := by
  obtain ⟨message, records⟩ := diiMessage_of_holds 1 input.memory input.groupId input.beyond
    input.modules input.dataAddr input.table input.groupIdFits input.countFits input.holds
  obtain ⟨after, parsed, number, size, _, decoded⟩ := v3_diiModules input.memory input.dataAddr
    input.modules.length input.beyond input.modules
    (fun info member => ⟨input.idsFit info member, (input.sizesFit info member).2⟩) 0 40
    { input.table with moduleNum := input.modules.length, blocksize := blockSize } rfl records
  refine ⟨after, message.trans parsed, number, size, ?_⟩
  intro index info present
  have entry := decoded index info present
  rw [Nat.zero_add] at entry
  rw [entry]
  exact decodedModule_agrees input.modules input.beyond _ index info _ present input.idsFit

theorem v4_dii_single (input : DiiInput) (single : input.modules.length = 1) :
    DiiDecoded V4.alislDiiMessage input := by
  obtain ⟨message, records⟩ := diiMessage_of_holds 0 input.memory input.groupId input.beyond
    input.modules input.dataAddr input.table input.groupIdFits input.countFits input.holds
  obtain ⟨info, only⟩ := List.length_eq_one_iff.mp single
  have member : info ∈ input.modules := by simp [only]
  rw [only, putDiiModules, holds_append] at records
  have record : Record input.memory 40 1 0 info (nextModuleIdOf input.beyond []) :=
    ⟨records.1, input.idsFit info member, (input.sizesFit info member).2⟩
  have step := v4_diiModules_step input.memory input.dataAddr 1 0 40 _ 0 info
    { input.table with moduleNum := input.modules.length, blocksize := blockSize } rfl record
  rw [single] at message step
  refine ⟨_, message.trans step, ?_, rfl, ?_⟩
  · rw [single]
    rfl
  · intro index other present
    have first : index = 0 := by
      have inside := (List.getElem?_eq_some_iff.mp present).1
      omega
    subst first
    have same : info = other := by simpa [only] using present
    subst same
    have agrees := decodedModule_agrees input.modules input.beyond input.dataAddr 0 info
      (input.table.modules 0) present input.idsFit
    rw [single] at agrees
    rw [ModuleTable.put_modules_self]
    exact agrees

theorem v4_dii_several (input : DiiInput) (several : 1 < input.modules.length) :
    V4.alislDiiMessage input.memory 8 input.groupId input.dataAddr input.table = .fault := by
  obtain ⟨message, records⟩ := diiMessage_of_holds 0 input.memory input.groupId input.beyond
    input.modules input.dataAddr input.table input.groupIdFits input.countFits input.holds
  apply message.trans
  match split : input.modules with
  | [] => exact absurd split input.notEmpty
  | [_] => simp [split] at several
  | info :: following :: rest =>
      have member : info ∈ input.modules := by simp [split]
      rw [split] at several records
      rw [putDiiModules, holds_append] at records
      have record : Record input.memory 40 (info :: following :: rest).length 0 info
          (nextModuleIdOf input.beyond (following :: rest)) :=
        ⟨records.1, input.idsFit info member, (input.sizesFit info member).2⟩
      calc diiModules 0 input.memory input.dataAddr (rest.length + 1 + 1) 0 40 _
          = diiModules 0 input.memory input.dataAddr (rest.length + 1) 1 (40 + 7) _ :=
            v4_diiModules_step _ _ _ _ _ _ _ _ _ rfl record
        _ = .fault := v4_diiModules_fault _ _ _ _ _ _ _ _ several rfl record

/-- Version 4 decodes a DII of one module, and no other. -/
theorem v4_dii_decoded_iff (input : DiiInput) :
    DiiDecoded V4.alislDiiMessage input ↔ input.modules.length = 1 := by
  constructor
  · intro decoded
    obtain ⟨after, parsed, _⟩ := decoded
    by_contra other
    have several : 1 < input.modules.length := by
      have some := List.length_pos_of_ne_nil input.notEmpty
      omega
    rw [v4_dii_several input several] at parsed
    cases parsed
  · exact v4_dii_single input

/-- A group of two modules, as the pack tool makes it of a file of 1040996 bytes. -/
def twoModuleDii : DiiInput where
  groupId := 0x80000002
  beyond := 0
  modules := [⟨256, moduleValidSize, 255⟩, ⟨257, 100, 0⟩]
  memory := store (fun _ => 0) 0
    (putDiiSection 0x80000002 0 [⟨256, moduleValidSize, 255⟩, ⟨257, 100, 0⟩])
  dataAddr := 0
  table := clearedTable
  groupIdFits := by decide
  notEmpty := by simp
  countFits := by decide
  idsFit := by simp
  sizesFit := by simp [moduleValidSize]
  holds := holds_store ..

theorem v4_two_modules_lost : ¬ DiiDecoded V4.alislDiiMessage twoModuleDii := by
  intro decoded
  obtain ⟨after, parsed, _⟩ := decoded
  rw [v4_dii_several twoModuleDii (by decide)] at parsed
  cases parsed

end Alisl.Upgrade
