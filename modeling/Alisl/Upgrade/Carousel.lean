import Alisl.Base.Assembly
import Alisl.Upgrade.RoundTrip.Ddb

/-! The carousel end to end: the sections of the pack tool, in any order and with
any repetitions, at the receiver of version 3. -/

namespace Alisl.Upgrade

open Alisl.Base

/-! What is sent. -/

theorem packBlockLen_eq (content : List Byte) (sectionNum : Nat)
    (starts : sectionNum * blockSize ≤ content.length) :
    packBlockLen content.length sectionNum = some (blockOf content sectionNum).length := by
  rw [blockOf_length, blockLenOf, packBlockLen, if_neg (Nat.not_lt.mpr starts)]
  split <;> rfl

/-- The sections that are made of a module. -/
def moduleSections (info : ModuleInfo) (content : List Byte) (sectionNums : List Nat) :
    List (List Byte) :=
  (sectionNums.filter (fun sectionNum => sectionNum * blockSize ≤ content.length)).map
    (fun sectionNum =>
      putDdbSection info.moduleId sectionNum info.lastSectionNum (blockOf content sectionNum))

/-- From any section on, the file stands at the block of that section. -/
theorem packModuleSections_eq (info : ModuleInfo) (content rest : List Byte)
    (size : info.moduleSize = content.length) (count sectionNum : Nat) :
    packModuleSections info (List.range' sectionNum count)
        (content.drop (sectionNum * blockSize) ++ rest) =
      (moduleSections info content (List.range' sectionNum count),
        content.drop ((sectionNum + count) * blockSize) ++ rest) := by
  induction count generalizing sectionNum with
  | zero => rfl
  | succ count ih =>
      have next := ih (sectionNum + 1)
      have position : sectionNum + 1 + count = sectionNum + (count + 1) := by omega
      rw [position] at next
      rw [List.range'_succ, packModuleSections, size]
      by_cases starts : sectionNum * blockSize ≤ content.length
      · have split : content.drop (sectionNum * blockSize) =
            blockOf content sectionNum ++ content.drop ((sectionNum + 1) * blockSize) := by
          rw [Nat.succ_mul, ← List.drop_drop, blockOf, List.take_append_drop]
        rw [packBlockLen_eq content sectionNum starts, split, List.append_assoc]
        simp only [List.drop_left, List.take_left, next]
        simp [moduleSections, starts]
      · have none : packBlockLen content.length sectionNum = none := if_pos (by omega)
        have done : content.drop (sectionNum * blockSize) =
            content.drop ((sectionNum + 1) * blockSize) := by
          rw [List.drop_eq_nil_of_le (by omega), List.drop_eq_nil_of_le (by rw [Nat.succ_mul]; omega)]
        rw [none, done, next]
        simp [moduleSections, starts]

theorem packDdbSections_eq (infos : List ModuleInfo) (contents : List (List Byte))
    (sizes : infos.map ModuleInfo.moduleSize = contents.map List.length)
    (bounded : ∀ content ∈ contents, content.length ≤ moduleValidSize) :
    packDdbSections infos contents.flatten =
      (List.zipWith (fun info content => moduleSections info content (List.range 256))
        infos contents).flatten := by
  induction infos generalizing contents with
  | nil => rfl
  | cons info infos ih =>
      cases contents with
      | nil => cases sizes
      | cons content contents =>
          simp only [List.map_cons, List.cons.injEq] at sizes
          have size := bounded content List.mem_cons_self
          have first := packModuleSections_eq info content contents.flatten sizes.1 256 0
          have done : content.drop ((0 + 256) * blockSize) = [] := by
            apply List.drop_eq_nil_of_le
            exact size.trans (by decide)
          rw [Nat.zero_mul, List.drop_zero, done, List.nil_append, ← List.range_eq_range'] at first
          rw [List.flatten_cons, packDdbSections, first, List.zipWith_cons_cons, List.flatten_cons]
          simp only
          rw [ih contents sizes.2 (fun other member => bounded other (.tail _ member))]

def moduleContent (package : List Byte) (module : Nat) : List Byte :=
  (package.drop (module * moduleValidSize)).take (moduleSizeAt package.length module)

/-- The section of a block of a package. -/
def ddbSectionAt (package : List Byte) (module block : Nat) : List Byte :=
  putDdbSection (packModuleId module) block (packLastSection (moduleSizeAt package.length module))
    (blockOf (moduleContent package module) block)

theorem moduleContent_eq (package : List Byte) (module : Nat) :
    moduleContent package module = (package.drop (module * moduleValidSize)).take moduleValidSize := by
  rw [moduleContent, moduleSizeAt, ← List.length_drop, ← List.take_eq_take_min]

theorem moduleContent_length (package : List Byte) (module : Nat) :
    (moduleContent package module).length = moduleSizeAt package.length module := by
  rw [moduleContent_eq, List.length_take, List.length_drop, moduleSizeAt]

/-- The sections that are sent: one for each block, and an empty one behind a
module of whole blocks. -/
theorem mem_packDdbSections (package sent : List Byte) (notEmpty : package ≠ []) :
    sent ∈ packDdbSections (genGroupInfo package.length) package ↔
      ∃ module < packModuleCount package.length, ∃ block < 256,
        block * blockSize ≤ moduleSizeAt package.length module ∧
        sent = ddbSectionAt package module block := by
  have positive := List.length_pos_of_ne_nil notEmpty
  have starts := (last_module package.length positive).1
  have whole := cut_flatten moduleValidSize moduleValidSize_pos package
  have sections := packDdbSections_eq (genGroupInfo package.length) (cut moduleValidSize package)
    (genGroupInfo_sizes package notEmpty)
    (fun content member =>
      (length_le_of_mem_cut _ moduleValidSize_pos _ _ member).trans (Nat.min_le_left ..))
  rw [whole] at sections
  have ofModule (module : Nat) (inside : module < packModuleCount package.length) :
      (List.zipWith (fun info content => moduleSections info content (List.range 256))
        (genGroupInfo package.length) (cut moduleValidSize package))[module]? =
      some (moduleSections ⟨packModuleId module, moduleSizeAt package.length module,
        packLastSection (moduleSizeAt package.length module)⟩ (moduleContent package module)
        (List.range 256)) := by
    have start : module * moduleValidSize < package.length := by
      calc module * moduleValidSize ≤ (packModuleCount package.length - 1) * moduleValidSize :=
            Nat.mul_le_mul_right _ (by omega)
        _ < package.length := starts
    rw [List.getElem?_zipWith, genGroupInfo_getElem? package.length module positive inside,
      cut_getElem? _ moduleValidSize_pos module package start, ← moduleContent_eq]
  rw [sections, List.mem_flatten]
  constructor
  · rintro ⟨ofOne, there, member⟩
    obtain ⟨module, position⟩ := List.mem_iff_getElem?.mp there
    have inside : module < packModuleCount package.length := by
      have bound := (List.getElem?_eq_some_iff.mp position).1
      rw [List.length_zipWith, genGroupInfo_length package.length positive] at bound
      omega
    rw [ofModule module inside, Option.some.injEq] at position
    subst position
    simp only [moduleSections, List.mem_map, List.mem_filter, List.mem_range, decide_eq_true_eq,
      moduleContent_length] at member
    obtain ⟨block, ⟨small, within⟩, same⟩ := member
    exact ⟨module, inside, block, small, within, same.symm⟩
  · rintro ⟨module, inside, block, small, within, same⟩
    refine ⟨_, List.mem_iff_getElem?.mpr ⟨module, ofModule module inside⟩, ?_⟩
    simp only [moduleSections, List.mem_map, List.mem_filter, List.mem_range, decide_eq_true_eq,
      moduleContent_length]
    exact ⟨block, ⟨small, within⟩, same.symm⟩

/-! What the receiver makes of it. -/

/-- A slot is a module and a block of it. -/
abbrev Slot := Nat × Nat

/-- The package in blocks. -/
def packageParts (package : List Byte) : Parts Slot where
  whole := package
  start := fun slot => slot.1 * moduleValidSize + slot.2 * blockSize
  len := fun slot => blockLenOf (moduleSizeAt package.length slot.1) blockSize slot.2

theorem packageParts_part (package : List Byte) (module block : Nat) :
    (packageParts package).part (module, block) = blockOf (moduleContent package module) block := by
  simp only [Parts.part, packageParts, blockOf, moduleContent, List.drop_take, List.take_take,
    List.drop_drop]
  congr 1
  unfold blockLenOf
  split <;> omega

/-- All blocks of the package. -/
def AllReceived (package : List Byte) (received : Set Slot) : Prop :=
  ∀ module < packModuleCount package.length,
    ∀ block < blockCount (moduleSizeAt package.length module), (module, block) ∈ received

/-- A place before the end lies in one of the units the length is rounded up to. -/
theorem div_lt_roundUp (place length unit : Nat) (positive : 0 < unit) (inside : place < length) :
    place / unit < (length + unit - 1) / unit := by
  calc place / unit < place / unit + 1 := Nat.lt_succ_self _
    _ = (place + unit) / unit := (Nat.add_div_right place positive).symm
    _ ≤ (length + unit - 1) / unit := Nat.div_le_div_right (by omega)

theorem AllReceived.cover {package : List Byte} {received : Set Slot}
    (all : AllReceived package received) : (packageParts package).Cover received := by
  intro i inside
  have inside : i < package.length := inside
  have blockPos : 0 < blockSize := by decide
  -- the module of the byte, the rest inside it, and the block of that
  have parts := Nat.div_add_mod' i moduleValidSize
  have inModule := Nat.mod_lt i moduleValidSize_pos
  have blocks := Nat.div_add_mod' (i % moduleValidSize) blockSize
  have inBlock := Nat.mod_lt (i % moduleValidSize) blockPos
  have inSize : i % moduleValidSize < moduleSizeAt package.length (i / moduleValidSize) := by
    unfold moduleSizeAt
    omega
  refine ⟨(i / moduleValidSize, i % moduleValidSize / blockSize), all _ ?_ _ ?_, ?_, ?_⟩
  · rw [packModuleCount_eq]
    exact div_lt_roundUp i _ _ moduleValidSize_pos inside
  · exact div_lt_roundUp _ _ _ blockPos inSize
  · simp only [packageParts]
    omega
  · simp only [packageParts, blockLenOf]
    split <;> omega

/-- The entry of a module after the blocks of some slots. -/
structure EntryState (package : List Byte) (base module : Nat) (received : Set Slot)
    (entry : DCModuleInfo) : Prop where
  id : entry.moduleId = packModuleId module
  pointer : entry.moduleBufPointer = base + module * moduleValidSize
  size : entry.moduleBufSize = moduleSizeAt package.length module
  blocks : entry.blockNum = blockCount (moduleSizeAt package.length module)
  map : ∀ block, entry.blockReceived.test block = true ↔
    blockCount (moduleSizeAt package.length module) ≤ block ∨ (module, block) ∈ received
  finish : entry.moduleDownloadFinish = true ↔
    ∀ block < blockCount (moduleSizeAt package.length module), (module, block) ∈ received

/-- The receiver implements the assembly of the package. -/
structure Refines (package : List Byte) (base : Nat) (assembly : Assembly Slot) (download : Download) :
    Prop where
  number : download.receiver.table.moduleNum = packModuleCount package.length
  blocksize : download.receiver.table.blocksize = blockSize
  memory : download.receiver.ram = assembly.memory
  entries : ∀ module < packModuleCount package.length,
    EntryState package base module assembly.received (download.receiver.table.modules module)
  flag : download.continueGetSec = false ↔ AllReceived package assembly.received

theorem packModuleId_inj (left right : Nat) (leftFits : left < 256) (rightFits : right < 256)
    (same : packModuleId left = packModuleId right) : left = right := by
  unfold packModuleId at same
  omega

theorem blockCount_pos (moduleSize : Nat) (positive : 0 < moduleSize) : 0 < blockCount moduleSize := by
  unfold blockCount blockSize
  omega

/-- The pack tool and the receiver agree on the number of the last section. -/
theorem packLastSection_eq (moduleSize : Nat) (positive : 0 < moduleSize) :
    (blockCount moduleSize + 255) % 256 = packLastSection moduleSize := by
  unfold packLastSection blockCount blockSize
  split <;> omega

theorem moduleSizeAt_pos (groupLen module : Nat) (inside : module < packModuleCount groupLen) :
    0 < moduleSizeAt groupLen module := by
  have size : moduleValidSize = 1040896 := rfl
  rw [packModuleCount_eq, size] at inside
  unfold moduleSizeAt
  rw [size]
  omega

theorem moduleSizeAt_le (groupLen module : Nat) : moduleSizeAt groupLen module ≤ moduleValidSize :=
  Nat.min_le_left ..

/-- A slot of another module, or behind the last block, says nothing about a module. -/
theorem EntryState.unaffected {package : List Byte} {base module : Nat} {received : Set Slot}
    {entry : DCModuleInfo} (state : EntryState package base module received entry) (slot : Slot)
    (apart : slot.1 ≠ module ∨ blockCount (moduleSizeAt package.length module) ≤ slot.2) :
    EntryState package base module (insert slot received) entry := by
  have same (block : Nat) (counted : block < blockCount (moduleSizeAt package.length module)) :
      (module, block) ∈ insert slot received ↔ (module, block) ∈ received := by
    have other : (module, block) ≠ slot := by
      rintro rfl
      simp only at apart
      omega
    simp [other]
  refine ⟨state.id, state.pointer, state.size, state.blocks, ?_, ?_⟩
  · intro block
    rw [state.map]
    rcases Nat.lt_or_ge block (blockCount (moduleSizeAt package.length module)) with counted | behind
    · rw [same block counted]
    · exact ⟨fun _ => .inl behind, fun _ => .inl behind⟩
  · rw [state.finish]
    constructor
    · intro all block counted
      exact (same block counted).mpr (all block counted)
    · intro all block counted
      exact (same block counted).mp (all block counted)

/-- The entry with a block accepted. -/
theorem EntryState.accept {package : List Byte} {base module : Nat} {received : Set Slot}
    (memory : Memory) (data block : Nat) (state : DdbStore)
    (before : EntryState package base module received state.entry) :
    EntryState package base module (insert (module, block) received)
      (acceptBlock memory data blockSize block state).entry := by
  have few := blockCount_le _ (moduleSizeAt_le package.length module)
  have map (other : Nat) : (state.entry.blockReceived.set block).test other = true ↔
      blockCount (moduleSizeAt package.length module) ≤ other ∨
        (module, other) ∈ insert (module, block) received := by
    rw [Bitmap.test_set, Bool.or_eq_true, before.map, decide_eq_true_eq, Set.mem_insert_iff,
      Prod.mk.injEq]
    tauto
  refine ⟨before.id, before.pointer, before.size, before.blocks, map, ?_⟩
  have finished : (acceptBlock memory data blockSize block state).entry.moduleDownloadFinish =
      (state.entry.blockReceived.set block).full bitMapNum := rfl
  rw [finished, Bitmap.full_iff]
  constructor
  · intro all other counted
    have bit := (map other).mp (all other (by unfold bitMapNum; omega))
    exact bit.resolve_left (by omega)
  · intro all other _
    rw [map]
    rcases Nat.lt_or_ge other (blockCount (moduleSizeAt package.length module)) with counted | behind
    · exact .inr (all other counted)
    · exact .inl behind

theorem AllReceived.mono {package : List Byte} {received more : Set Slot}
    (all : AllReceived package received) (subset : received ⊆ more) : AllReceived package more :=
  fun module inside block counted => subset (all module inside block counted)

theorem allFinished_iff {package : List Byte} {base : Nat} {received : Set Slot} {receiver : Receiver}
    (number : receiver.table.moduleNum = packModuleCount package.length)
    (entries : ∀ module < packModuleCount package.length,
      EntryState package base module received (receiver.table.modules module)) :
    receiver.allFinished = true ↔ AllReceived package received := by
  rw [Receiver.allFinished, number, List.all_eq_true]
  constructor
  · intro all module inside
    exact (entries module inside).finish.mp (all module (List.mem_range.mpr inside))
  · intro all module member
    have inside := List.mem_range.mp member
    exact (entries module inside).finish.mpr (all module inside)

section Step

variable {package : List Byte} {base : Nat} {assembly : Assembly Slot} {download : Download}
  (refines : Refines package base assembly download)
  (fewModules : packModuleCount package.length ≤ dcModuleMax)
  {module block : Nat} (inside : module < packModuleCount package.length) (small : block < 256)
  {memory : Memory} (holds : Holds memory 0 (ddbSectionAt package module block))

include refines fewModules inside in
theorem Refines.findModule : download.receiver.findModule (packModuleId module) = some module := by
  have few : packModuleCount package.length ≤ 128 := fewModules
  unfold Receiver.findModule
  rw [List.find?_range_eq_some, refines.number]
  refine ⟨beq_iff_eq.mpr (refines.entries module inside).id, List.mem_range.mpr inside, ?_⟩
  intro other lower
  rw [(refines.entries other (by omega)).id, Bool.not_eq_true', beq_eq_false_iff_ne]
  intro same
  have equal := packModuleId_inj other module (by omega) (by omega) same
  omega

include holds in
theorem sectionAt_fields : DdbSection memory (packModuleId module) block
    (packLastSection (moduleSizeAt package.length module)) (blockOf (moduleContent package module) block) :=
  ddbSection_of_holds _ _ _ _ _ (blockOf_length_le ..) holds

include refines fewModules inside small holds in
/-- The callback comes down to the parser of the section's data. -/
theorem Refines.ddbSection_eq :
    V3.ddbSection memory download =
      match V3.alislDdbData memory 8 blockSize block
        ⟨download.receiver.table.modules module, download.receiver.ram⟩ with
      | .fault => none
      | .fail state => some { download with receiver := download.receiver.putDdb module state }
      | .success state =>
          some ⟨download.receiver.putDdb module state,
            download.continueGetSec && !(download.receiver.putDdb module state).allFinished⟩ := by
  have fields := sectionAt_fields holds
  have entry := refines.entries module inside
  have id : packModuleId module % 65536 = packModuleId module := by
    unfold packModuleId
    omega
  have number : block % 256 = block := Nat.mod_eq_of_lt small
  have last : (blockCount (moduleSizeAt package.length module) + 255) % 256 =
      packLastSection (moduleSizeAt package.length module) % 256 := by
    rw [packLastSection_eq _ (moduleSizeAt_pos _ _ inside)]
    unfold packLastSection
    omega
  simp only [V3.ddbSection, fields.extension, id, refines.findModule fewModules inside, entry.blocks,
    fields.last, last, ne_eq, not_true_eq_false, if_false, parseDsmccSec, v3, Nat.zero_add, entry.id,
    fields.number, number, refines.blocksize]
  cases V3.alislDdbData memory 8 blockSize block
    ⟨download.receiver.table.modules module, download.receiver.ram⟩ <;> rfl

include refines fewModules inside small holds in
/-- A section of a known block, or behind the last, changes nothing. -/
theorem Refines.refused (notMissing : blockCount (moduleSizeAt package.length module) ≤ block ∨
    (module, block) ∈ assembly.received) : V3.ddbSection memory download = some download := by
  have entry := refines.entries module inside
  have refused := v3_ddb_refuses memory _ block _ _
    ⟨download.receiver.table.modules module, download.receiver.ram⟩ (sectionAt_fields holds) small
    (by
      rw [entry.blocks]
      exact notMissing.imp id (fun known => (entry.map block).mpr (.inr known)))
  rw [refines.ddbSection_eq fewModules inside small holds, refused]
  simp only [Receiver.putDdb_self]

/-- The missing block as input of the parser. -/
def missingBlock (entry : EntryState package base module assembly.received
      (download.receiver.table.modules module))
    (counted : block < blockCount (moduleSizeAt package.length module))
    (missing : (module, block) ∉ assembly.received)
    (holds : Holds memory 0 (ddbSectionAt package module block)) : DdbInput where
  moduleId := packModuleId module
  content := moduleContent package module
  lastSectionNum := packLastSection (moduleSizeAt package.length module)
  blockNum := block
  memory := memory
  state := ⟨download.receiver.table.modules module, download.receiver.ram⟩
  idFits := by
    unfold packModuleId
    omega
  contentFits := by
    rw [moduleContent_length]
    exact moduleSizeAt_le ..
  inside := by
    rw [moduleContent_length]
    unfold blockCount blockSize at counted
    unfold blockSize
    omega
  holds := holds
  entryId := entry.id
  entrySize := by rw [moduleContent_length, entry.size]
  entryBlocks := by rw [moduleContent_length, entry.blocks]
  missing := by
    rw [Bool.eq_false_iff, ne_eq, entry.map]
    rintro (behind | known)
    · omega
    · exact missing known

include refines fewModules inside small holds in
theorem Refines.accepted (counted : block < blockCount (moduleSizeAt package.length module))
    (missing : (module, block) ∉ assembly.received) :
    ∃ later, V3.ddbSection memory download = some later ∧
      Refines package base ⟨insert (module, block) assembly.received,
        store assembly.memory (base + (packageParts package).start (module, block))
          ((packageParts package).part (module, block))⟩ later := by
  have entry := refines.entries module inside
  have accepts := v3_ddb_accepts (missingBlock entry counted missing holds)
  have ram := v3_acceptBlock_ram (missingBlock entry counted missing holds)
  simp only [missingBlock, entry.pointer] at accepts ram
  have marked := EntryState.accept memory 26 block
    ⟨download.receiver.table.modules module, download.receiver.ram⟩ entry
  generalize acceptBlock memory 26 blockSize block
    ⟨download.receiver.table.modules module, download.receiver.ram⟩ = state at accepts ram marked
  refine ⟨_, by rw [refines.ddbSection_eq fewModules inside small holds, accepts], ?_⟩
  have number : (download.receiver.putDdb module state).table.moduleNum =
      packModuleCount package.length := refines.number
  have entries : ∀ other < packModuleCount package.length, EntryState package base other
      (insert (module, block) assembly.received)
      ((download.receiver.putDdb module state).table.modules other) := by
    intro other present
    by_cases same : other = module
    · subst same
      simp only [Receiver.putDdb, ModuleTable.put_modules_self]
      exact marked
    · simp only [Receiver.putDdb, ModuleTable.put_modules_of_ne _ _ _ _ same]
      exact (refines.entries other present).unaffected _ (.inl (Ne.symm same))
  constructor
  case number => exact number
  case blocksize => exact refines.blocksize
  case memory =>
    simp only [Receiver.putDdb, ram, refines.memory, packageParts_part]
    simp only [packageParts, Nat.add_assoc]
  case entries => exact entries
  case flag =>
    have finished := allFinished_iff number entries
    rw [Bool.and_eq_false_iff, refines.flag, Bool.not_eq_false', finished]
    constructor
    · rintro (earlier | now)
      · exact earlier.mono (Set.subset_insert ..)
      · exact now
    · exact .inr

include refines in
/-- An empty section behind the last block. -/
theorem Refines.behind (beyond : blockCount (moduleSizeAt package.length module) ≤ block) :
    Refines package base ⟨insert (module, block) assembly.received,
      store assembly.memory (base + (packageParts package).start (module, block))
        ((packageParts package).part (module, block))⟩ download := by
  have size : blockSize = 4066 := rfl
  have empty : (packageParts package).part (module, block) = [] := by
    rw [packageParts_part, blockOf, List.take_eq_nil_iff]
    right
    apply List.drop_eq_nil_of_le
    rw [moduleContent_length]
    unfold blockCount at beyond
    rw [size] at beyond ⊢
    omega
  have unaffected (other : Nat) (present : other < packModuleCount package.length) :=
    (refines.entries other present).unaffected (module, block) (by
      by_cases same : module = other
      · exact .inr (same ▸ beyond)
      · exact .inl same)
  constructor
  case number => exact refines.number
  case blocksize => exact refines.blocksize
  case memory =>
    rw [empty, refines.memory]
    funext address
    simp [store]
  case entries => exact unaffected
  case flag =>
    rw [refines.flag, ← allFinished_iff refines.number refines.entries,
      ← allFinished_iff refines.number unaffected]

include refines fewModules inside small holds in
/-- A step of the receiver is a step of the assembly. -/
theorem Refines.step : ∃ after later, V3.ddbSection memory download = some later ∧
    Deliver (packageParts package) base (module, block) assembly after ∧
      Refines package base after later := by
  by_cases known : (module, block) ∈ assembly.received
  · have refused := refines.refused fewModules inside small holds (.inr known)
    exact ⟨assembly, download, refused, .again _ known, refines⟩
  rcases Nat.lt_or_ge block (blockCount (moduleSizeAt package.length module)) with counted | behind
  · obtain ⟨later, accepted, next⟩ := refines.accepted fewModules inside small holds counted known
    exact ⟨_, later, accepted, .fresh _ known, next⟩
  · have refused := refines.refused fewModules inside small holds (.inl behind)
    exact ⟨_, download, refused, .fresh _ known, refines.behind behind⟩

end Step

/-- The slot a section names: table id extension and section number. -/
def slotOf (memory : Memory) : Slot := (getBe16 memory 3 - 256, (memory 6).toNat)

theorem slotOf_eq (package : List Byte) (module block : Nat) (memory : Memory)
    (moduleFits : module < 256) (blockFits : block < 256)
    (holds : Holds memory 0 (ddbSectionAt package module block)) : slotOf memory = (module, block) := by
  have fields := sectionAt_fields holds
  have id : packModuleId module % 65536 = 256 + module := by
    unfold packModuleId
    omega
  unfold slotOf
  rw [fields.extension, id, fields.number, Nat.add_sub_cancel_left, Nat.mod_eq_of_lt blockFits]

/-- The memories hold sections that are sent for the package. -/
def Sent (package : List Byte) (memories : List Memory) : Prop :=
  ∀ memory ∈ memories, ∃ section_ ∈ packDdbSections (genGroupInfo package.length) package,
    Holds memory 0 section_

/-- Sections in any order, any number of times. -/
theorem Refines.run (package : List Byte) (base : Nat) (notEmpty : package ≠ [])
    (fewModules : packModuleCount package.length ≤ dcModuleMax) (memories : List Memory)
    (sent : Sent package memories) (assembly : Assembly Slot) (download : Download)
    (refines : Refines package base assembly download) :
    ∃ after later, V3.ddbSections memories download = some later ∧
      Deliveries (packageParts package) base (memories.map slotOf) assembly after ∧
        Refines package base after later := by
  induction memories generalizing assembly download with
  | nil => exact ⟨assembly, download, rfl, .nil _, refines⟩
  | cons memory memories ih =>
      obtain ⟨section_, member, holds⟩ := sent memory List.mem_cons_self
      obtain ⟨module, inside, block, small, _, same⟩ :=
        (mem_packDdbSections package section_ notEmpty).mp member
      subst same
      have few : packModuleCount package.length ≤ 128 := fewModules
      have slot := slotOf_eq package module block memory (by omega) small holds
      obtain ⟨between, next, first, delivered, refines⟩ := refines.step fewModules inside small holds
      obtain ⟨after, later, rest, deliveries, refines⟩ :=
        ih (fun other member => sent other (.tail _ member)) between next refines
      refine ⟨after, later, ?_, ?_, refines⟩
      · rw [V3.ddbSections, first, Option.bind_some, rest]
      · rw [List.map_cons, slot]
        exact .cons _ _ _ _ _ delivered deliveries

/-! The table the DII leaves. -/

theorem mem_genGroupInfo (groupLen : Nat) (positive : 0 < groupLen) (info : ModuleInfo)
    (member : info ∈ genGroupInfo groupLen) :
    info.moduleId < 65536 ∧ info.moduleSize ≤ moduleValidSize := by
  obtain ⟨module, position⟩ := List.mem_iff_getElem?.mp member
  have inside := (List.getElem?_eq_some_iff.mp position).1
  rw [genGroupInfo_length groupLen positive] at inside
  rw [genGroupInfo_getElem? groupLen module positive inside, Option.some.injEq] at position
  subst position
  refine ⟨?_, moduleSizeAt_le ..⟩
  simp only [packModuleId]
  omega

/-- The modules before one fill whole module sizes. -/
theorem genGroupInfo_before (groupLen module : Nat) (inside : module < packModuleCount groupLen) :
    (((genGroupInfo groupLen).take module).map ModuleInfo.moduleSize).sum = module * moduleValidSize := by
  have lower : module ≤ packModuleCount groupLen - 1 := by omega
  simp only [genGroupInfo]
  rw [List.take_append_of_le_length (by simpa using lower), ← List.map_take, List.map_map,
    List.take_range, Nat.min_eq_left lower]
  have sizes : ModuleInfo.moduleSize ∘
      (fun idx => (⟨packModuleId idx, moduleValidSize, 255⟩ : ModuleInfo)) =
      fun _ => moduleValidSize := rfl
  rw [sizes, List.map_const', List.sum_replicate, List.length_range, smul_eq_mul]

theorem EntryState.initial (package : List Byte) (base module : Nat)
    (inside : module < packModuleCount package.length) (num nextModuleId : Nat) (entry : DCModuleInfo) :
    EntryState package base module ∅ (decodedModule num module
      ⟨packModuleId module, moduleSizeAt package.length module,
        packLastSection (moduleSizeAt package.length module)⟩
      nextModuleId (base + module * moduleValidSize) entry) := by
  have some := blockCount_pos _ (moduleSizeAt_pos package.length module inside)
  obtain ⟨_, _, _, _, frame⟩ := decodedModule_frame num module
    ⟨packModuleId module, moduleSizeAt package.length module,
      packLastSection (moduleSizeAt package.length module)⟩
    nextModuleId (base + module * moduleValidSize) entry
  rw [frame]
  constructor
  case id | pointer | size | blocks => rfl
  case map =>
    intro block
    simp only [freshModule, Bitmap.test_clearBelow, Bitmap.test_ones, Bool.true_and,
      decide_eq_true_eq, Set.mem_empty_iff_false, or_false]
  case finish =>
    simp only [freshModule, Bool.false_eq_true, false_iff]
    intro all
    exact all 0 some

theorem not_allReceived_empty (package : List Byte) (notEmpty : package ≠ []) :
    ¬ AllReceived package ∅ := by
  intro all
  have positive := List.length_pos_of_ne_nil notEmpty
  have first : 0 < packModuleCount package.length := by
    rw [packModuleCount_eq]
    unfold moduleValidSize
    omega
  exact all 0 first 0 (blockCount_pos _ (moduleSizeAt_pos package.length 0 first))

/-- The DII makes a receiver that has no block yet. -/
theorem dii_refines (package : List Byte) (notEmpty : package ≠ [])
    (fewModules : packModuleCount package.length ≤ dcModuleMax) (receiver : Receiver) (stale beyond : Nat)
    (group : receiver.group.groupId = packGroupId) (memory : Memory)
    (holds : Holds memory 0 (putDiiSection packGroupId beyond (genGroupInfo package.length))) :
    ∃ start, parseDsmccSec v3 memory 0 stale .dii receiver = .success start ∧
      Refines package receiver.ramAddr ⟨∅, receiver.ram⟩ ⟨start, true⟩ := by
  have positive := List.length_pos_of_ne_nil notEmpty
  have count := genGroupInfo_length package.length positive
  obtain ⟨message, records⟩ := diiMessage_of_holds 1 memory packGroupId beyond
    (genGroupInfo package.length) receiver.ramAddr receiver.table (by decide) (by omega) holds
  obtain ⟨after, parsed, number, size, _, decoded⟩ := v3_diiModules memory receiver.ramAddr
    (genGroupInfo package.length).length beyond (genGroupInfo package.length)
    (mem_genGroupInfo package.length positive) 0 40
    { receiver.table with moduleNum := (genGroupInfo package.length).length, blocksize := blockSize }
    rfl records
  have extension := diiSection_extension memory packGroupId beyond _ holds
  have result : v3.diiMessage memory (0 + v3.headerLen) packGroupId receiver.ramAddr receiver.table =
      .success after := message.trans parsed
  have entries : ∀ module < packModuleCount package.length,
      EntryState package receiver.ramAddr module ∅ (after.modules module) := by
    intro module inside
    have entry := decoded module _ (genGroupInfo_getElem? package.length module positive inside)
    have pointer : modulePointer receiver.ramAddr 0 { receiver.table with
        moduleNum := (genGroupInfo package.length).length, blocksize := blockSize } =
        receiver.ramAddr := rfl
    rw [Nat.zero_add, pointer, genGroupInfo_before package.length module inside] at entry
    rw [entry]
    exact EntryState.initial package receiver.ramAddr module inside ..
  refine ⟨{ receiver with table := after }, ?_, ?_⟩
  · simp only [parseDsmccSec, group, Nat.zero_add, extension, ne_eq, not_true_eq_false, if_false]
    rw [Nat.zero_add] at result
    rw [result]
    rfl
  · constructor
    case number => exact number.trans count
    case blocksize => exact size
    case memory => rfl
    case entries => exact entries
    case flag =>
      have missing := not_allReceived_empty package notEmpty
      simp [missing]

/-- Every block of every module has been delivered. -/
def AllDelivered (package : List Byte) (memories : List Memory) : Prop :=
  ∀ module info, (genGroupInfo package.length)[module]? = some info →
    ∀ block < blockCount info.moduleSize, ∃ memory ∈ memories,
      Holds memory 0 (putDdbSection info.moduleId block info.lastSectionNum
        (blockOf (moduleContent package module) block))

theorem allDelivered_iff (package : List Byte) (notEmpty : package ≠ [])
    (fewModules : packModuleCount package.length ≤ dcModuleMax) (memories : List Memory)
    (sent : Sent package memories) :
    AllDelivered package memories ↔ AllReceived package {slot | slot ∈ memories.map slotOf} := by
  have positive := List.length_pos_of_ne_nil notEmpty
  have few : packModuleCount package.length ≤ 128 := fewModules
  constructor
  · intro all module inside block counted
    have blocks := blockCount_le _ (moduleSizeAt_le package.length module)
    obtain ⟨memory, member, holds⟩ := all module _
      (genGroupInfo_getElem? package.length module positive inside) block counted
    have slot := slotOf_eq package module block memory (by omega) (by omega) holds
    exact List.mem_map.mpr ⟨memory, member, slot⟩
  · intro all module info present block counted
    have inside := (List.getElem?_eq_some_iff.mp present).1
    rw [genGroupInfo_length package.length positive] at inside
    rw [genGroupInfo_getElem? package.length module positive inside, Option.some.injEq] at present
    subst present
    obtain ⟨memory, member, slot⟩ := List.mem_map.mp (all module inside block counted)
    -- the section in that memory names the slot it is for
    obtain ⟨section_, made, holds⟩ := sent memory member
    obtain ⟨other, present, number, small, _, same⟩ :=
      (mem_packDdbSections package section_ notEmpty).mp made
    subst same
    rw [slotOf_eq package other number memory (by omega) small holds, Prod.mk.injEq] at slot
    obtain ⟨rfl, rfl⟩ := slot
    exact ⟨memory, member, holds⟩

/-- The download ends exactly when every block has been delivered, whatever the
order and the repetitions, and the package then stands in the receive buffer. -/
theorem carousel_complete_iff (package : List Byte) (notEmpty : package ≠ [])
    (fewModules : (genGroupInfo package.length).length ≤ dcModuleMax) (receiver : Receiver)
    (stale beyond : Nat) (group : receiver.group.groupId = packGroupId) (dii : Memory)
    (diiHolds : Holds dii 0 (putDiiSection packGroupId beyond (genGroupInfo package.length)))
    (memories : List Memory) (sent : Sent package memories) :
    ∃ start later, parseDsmccSec v3 dii 0 stale .dii receiver = .success start ∧
      V3.ddbSections memories ⟨start, true⟩ = some later ∧
      (later.continueGetSec = false ↔ AllDelivered package memories) ∧
      (later.continueGetSec = false →
        slice later.receiver.ram receiver.ramAddr package.length = package) := by
  have positive := List.length_pos_of_ne_nil notEmpty
  rw [genGroupInfo_length package.length positive] at fewModules
  obtain ⟨start, parsed, initial⟩ :=
    dii_refines package notEmpty fewModules receiver stale beyond group dii diiHolds
  obtain ⟨after, later, ran, deliveries, refines⟩ :=
    Refines.run package receiver.ramAddr notEmpty fewModules memories sent _ _ initial
  have received : after.received = {slot | slot ∈ memories.map slotOf} := by
    rw [deliveries.received_eq]
    exact Set.empty_union _
  have sound : after.Sound (packageParts package) receiver.ramAddr :=
    deliveries.sound (fun slot none => none.elim)
  refine ⟨start, later, parsed, ran, ?_, ?_⟩
  · rw [refines.flag, received, allDelivered_iff package notEmpty fewModules memories sent]
  · intro ended
    rw [refines.memory]
    exact sound.complete (refines.flag.mp ended).cover

/-- A receiver that knows the group from the DSI. -/
def groupReceiver : Receiver :=
  { clearedReceiver ⟨0x90E6, 1, 1, 2, 1⟩ with group := ⟨packGroupId, 1⟩ }

/-- A package of one byte, its section delivered twice. -/
theorem carousel_one_byte :
    ∃ start later,
      parseDsmccSec v3 (store (fun _ => 0) 0 (putDiiSection packGroupId 0 (genGroupInfo 1))) 0 0 .dii
        groupReceiver = .success start ∧
      V3.ddbSections [store (fun _ => 0) 0 (ddbSectionAt [7] 0 0),
        store (fun _ => 0) 0 (ddbSectionAt [7] 0 0)] ⟨start, true⟩ = some later ∧
      later.continueGetSec = false ∧ slice later.receiver.ram 0 1 = [7] := by
  have holds := holds_store (fun _ => 0) 0 (ddbSectionAt [7] 0 0)
  have sent : Sent [7] [store (fun _ => 0) 0 (ddbSectionAt [7] 0 0),
      store (fun _ => 0) 0 (ddbSectionAt [7] 0 0)] := by
    intro memory member
    have made := (mem_packDdbSections [7] (ddbSectionAt [7] 0 0) (by simp)).mpr
      ⟨0, by decide, 0, by decide, by decide, rfl⟩
    have only : memory = store (fun _ => 0) 0 (ddbSectionAt [7] 0 0) := by simpa using member
    exact ⟨_, made, only ▸ holds⟩
  obtain ⟨start, later, parsed, ran, flag, buffer⟩ := carousel_complete_iff [7] (by simp) (by decide)
    groupReceiver 0 0 rfl _ (holds_store (fun _ => 0) 0 _) _ sent
  have all : AllDelivered [7] [store (fun _ => 0) 0 (ddbSectionAt [7] 0 0),
      store (fun _ => 0) 0 (ddbSectionAt [7] 0 0)] := by
    rw [allDelivered_iff [7] (by simp) (by decide) _ sent]
    intro module inside block counted
    have first : module = 0 := by
      have one : packModuleCount [(7 : Byte)].length = 1 := by decide
      omega
    subst first
    have zero : block = 0 := by
      have one : blockCount (moduleSizeAt [(7 : Byte)].length 0) = 1 := by decide
      omega
    subst zero
    have slot := slotOf_eq [7] 0 0 _ (by decide) (by decide) holds
    exact List.mem_map.mpr ⟨_, List.mem_cons_self, slot⟩
  exact ⟨start, later, parsed, ran, flag.mpr all, buffer (flag.mpr all)⟩

end Alisl.Upgrade
