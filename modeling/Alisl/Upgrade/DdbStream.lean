import Alisl.Upgrade.Carousel
import Alisl.Upgrade.SelfConsistent

/-! The DDB part of the stream of `gen_otapkt_start`: which packages it cuts into
exactly their blocks. -/

namespace Alisl.Upgrade

open Alisl.Base

inductive DdbStream where
  /-- `ERROR_FILE_SIZE`, nothing is put out. -/
  | refused
  /-- Without a module `module_count-1` wraps, and the loop leaves `module_info`. -/
  | fault
  | sections (secBufs : List (List Byte))
  deriving DecidableEq

/-- `MAX_MODULE_IN_GROUP * MAX_SIZE_PER_MODULE`. -/
def maxPackage : Nat := 256 * moduleValidSize

/-- The DDB sections of `gen_otapkt_start`, in the order they are put out. -/
def genDdbStream (package : List Byte) : DdbStream :=
  if maxPackage < package.length then .refused
  else if package.length = 0 then .fault
  else .sections (packDdbSections (genGroupInfo package.length) package)

/-! A section as a receiver reads it. -/

def secModuleId (secBuf : List Byte) : Nat := getBe16 (memoryOf secBuf) 3

def secNumber (secBuf : List Byte) : Nat := (memoryOf secBuf 6).toNat

def secLastNumber (secBuf : List Byte) : Nat := (memoryOf secBuf 7).toNat

/-- The block data, between the headers and the CRC. -/
def secData (secBuf : List Byte) : List Byte := slice (memoryOf secBuf) 26 (secBuf.length - 30)

/-- The sections cut the package into the blocks of its modules. -/
structure CutsIntoBlocks (package : List Byte) (secBufs : List (List Byte)) : Prop where
  numbers : secBufs.map (fun secBuf => (secModuleId secBuf, secNumber secBuf)) =
    (genGroupInfo package.length).flatMap (fun info =>
      (List.range (blockCount info.moduleSize)).map (fun block => (info.moduleId, block)))
  sized : ∀ secBuf ∈ secBufs, 1 ≤ (secData secBuf).length ∧ (secData secBuf).length ≤ blockSize ∧
    secNumber secBuf ≤ secLastNumber secBuf
  data : secBufs.flatMap secData = package

/-- What is put out, where something is put out. -/
def DdbStream.Correct (package : List Byte) : DdbStream → Prop
  | .refused => True
  | .fault => False
  | .sections secBufs => CutsIntoBlocks package secBufs

theorem putDdbSection_length (moduleId sectionNum lastSectionNum : Nat) (block : List Byte) :
    (putDdbSection moduleId sectionNum lastSectionNum block).length = block.length + 30 := by
  simp only [putDdbSection, mgFcsCoder_length, List.length_append, sectionHeader_length,
    messageHeader_length, putBe16_length, List.length_cons, List.length_nil]
  omega

/-! The sections of a package, block by block. -/

/-- `section_num` runs up to the block that starts at the end of the module. -/
def sectionCount (moduleSize : Nat) : Nat := min 256 (moduleSize / blockSize + 1)

theorem sectionCount_filter (moduleSize : Nat) :
    (List.range 256).filter (fun sectionNum => sectionNum * blockSize ≤ moduleSize) =
      List.range (sectionCount moduleSize) := by
  have below (count : Nat) : (List.range count).filter
      (fun sectionNum => sectionNum * blockSize ≤ moduleSize) =
        List.range (min count (moduleSize / blockSize + 1)) := by
    induction count with
    | zero => simp
    | succ count ih =>
        have positive : 0 < blockSize := by decide
        have starts : count * blockSize ≤ moduleSize ↔ count < moduleSize / blockSize + 1 := by
          rw [Nat.lt_succ_iff, Nat.le_div_iff_mul_le positive]
        rw [List.range_succ, List.filter_append, ih]
        by_cases inside : count * blockSize ≤ moduleSize
        · have counted := starts.mp inside
          rw [List.filter_singleton, decide_eq_true inside, Nat.min_eq_left (by omega),
            Nat.min_eq_left (by omega), List.range_succ]
          rfl
        · have behind := mt starts.mpr inside
          rw [List.filter_singleton, decide_eq_false inside, Nat.min_eq_right (by omega),
            Nat.min_eq_right (by omega)]
          exact List.append_nil _
  exact below 256

theorem moduleSections_eq (info : ModuleInfo) (content : List Byte) :
    moduleSections info content (List.range 256) =
      (List.range (sectionCount content.length)).map (fun sectionNum =>
        putDdbSection info.moduleId sectionNum info.lastSectionNum (blockOf content sectionNum)) := by
  rw [moduleSections, sectionCount_filter]

theorem genGroupInfo_eq_map (groupLen : Nat) (positive : 0 < groupLen) :
    genGroupInfo groupLen = (List.range (packModuleCount groupLen)).map (fun module =>
      ⟨packModuleId module, moduleSizeAt groupLen module,
        packLastSection (moduleSizeAt groupLen module)⟩) := by
  apply List.ext_getElem?
  intro module
  rcases Nat.lt_or_ge module (packModuleCount groupLen) with inside | outside
  · rw [genGroupInfo_getElem? groupLen module positive inside, List.getElem?_map,
      List.getElem?_range inside]
    rfl
  · have length := genGroupInfo_length groupLen positive
    rw [List.getElem?_eq_none (by omega), List.getElem?_eq_none (by simpa using outside)]

theorem cut_package (package : List Byte) :
    cut moduleValidSize package =
      (List.range (packModuleCount package.length)).map (moduleContent package) := by
  rw [cut_eq_map moduleValidSize moduleValidSize_pos, ← packModuleCount_eq]
  apply List.map_congr_left
  intro module _
  exact (moduleContent_eq package module).symm

theorem packDdbSections_eq_blocks (package : List Byte) (notEmpty : package ≠ []) :
    packDdbSections (genGroupInfo package.length) package =
      (List.range (packModuleCount package.length)).flatMap (fun module =>
        (List.range (sectionCount (moduleSizeAt package.length module))).map
          (ddbSectionAt package module)) := by
  have positive := List.length_pos_of_ne_nil notEmpty
  have sections := packDdbSections_eq (genGroupInfo package.length) (cut moduleValidSize package)
    (genGroupInfo_sizes package notEmpty)
    (fun content member =>
      (length_le_of_mem_cut _ moduleValidSize_pos _ _ member).trans (Nat.min_le_left ..))
  rw [cut_flatten moduleValidSize moduleValidSize_pos package] at sections
  rw [sections, genGroupInfo_eq_map package.length positive, cut_package, List.zipWith_map,
    List.zipWith_self, List.flatMap_def]
  congr 1
  apply List.map_congr_left
  intro module _
  rw [moduleSections_eq, moduleContent_length]
  rfl

/-- What a receiver reads of the section of a block. -/
theorem ddbSectionAt_fields (package : List Byte) (module block : Nat) (small : block < 256) :
    secModuleId (ddbSectionAt package module block) = packModuleId module ∧
      secNumber (ddbSectionAt package module block) = block ∧
      secLastNumber (ddbSectionAt package module block) =
        packLastSection (moduleSizeAt package.length module) ∧
      secData (ddbSectionAt package module block) = blockOf (moduleContent package module) block := by
  have fields := ddbSection_of_holds (memoryOf (ddbSectionAt package module block)) _ _ _ _
    (blockOf_length_le ..) (holds_memoryOf (ddbSectionAt package module block))
  have idFits : packModuleId module < 65536 := by
    unfold packModuleId
    omega
  have lastFits : packLastSection (moduleSizeAt package.length module) < 256 :=
    Nat.mod_lt _ (by decide)
  refine ⟨?_, ?_, ?_, ?_⟩
  · exact fields.extension.trans (Nat.mod_eq_of_lt idFits)
  · exact fields.number.trans (Nat.mod_eq_of_lt small)
  · exact fields.last.trans (Nat.mod_eq_of_lt lastFits)
  · rw [secData, ddbSectionAt, putDdbSection_length, Nat.add_sub_cancel]
    exact ((holds_iff_slice ..).mp fields.data)

theorem blocks_flatten (content : List Byte) :
    (List.range (blockCount content.length)).flatMap (blockOf content) = content := by
  have positive : 0 < blockSize := by decide
  have blocks := cut_eq_map blockSize positive content
  calc (List.range (blockCount content.length)).flatMap (blockOf content)
      = (cut blockSize content).flatten := by rw [blocks, List.flatMap_def]; rfl
    _ = content := cut_flatten blockSize positive content

theorem modules_flatten (package : List Byte) :
    (List.range (packModuleCount package.length)).flatMap (moduleContent package) = package := by
  rw [List.flatMap_def, ← cut_package, cut_flatten moduleValidSize moduleValidSize_pos]

theorem blockCount_le_sectionCount (moduleSize : Nat) (bounded : moduleSize ≤ moduleValidSize) :
    blockCount moduleSize ≤ sectionCount moduleSize := by
  refine Nat.le_min.mpr ⟨blockCount_le moduleSize bounded, ?_⟩
  unfold blockCount blockSize
  omega

/-- A module is as many sections as blocks if the last block is not full, or is
the last there can be. -/
theorem sectionCount_eq_iff (moduleSize : Nat) (bounded : moduleSize ≤ moduleValidSize) :
    sectionCount moduleSize = blockCount moduleSize ↔
      moduleSize % blockSize ≠ 0 ∨ moduleSize = moduleValidSize := by
  have positive : 0 < blockSize := by decide
  have whole : moduleValidSize = 256 * blockSize := rfl
  have parts := Nat.div_add_mod' moduleSize blockSize
  have few : moduleSize / blockSize ≤ 256 := by
    apply Nat.div_le_of_le_mul
    rwa [Nat.mul_comm]
  have full : moduleSize = moduleValidSize ↔
      moduleSize % blockSize = 0 ∧ moduleSize / blockSize = 256 := by
    rw [whole]
    constructor
    · intro same
      rw [same, Nat.mul_mod_left, Nat.mul_div_cancel _ positive]
      exact ⟨rfl, rfl⟩
    · intro both
      rw [both.1, both.2] at parts
      exact parts.symm
  have inside : moduleSize % blockSize ≠ 0 → moduleSize / blockSize < 256 := by
    intro part
    refine Nat.lt_of_le_of_ne few (fun same => ?_)
    rw [same] at parts
    rw [whole] at bounded
    omega
  rw [sectionCount, blockCount, roundUp_eq moduleSize blockSize positive, full]
  split <;> omega

/-- No module is one section longer than its blocks. -/
theorem sectionCounts_iff (groupLen : Nat) (positive : 0 < groupLen) :
    (∀ module < packModuleCount groupLen,
      sectionCount (moduleSizeAt groupLen module) = blockCount (moduleSizeAt groupLen module)) ↔
      groupLen % blockSize ≠ 0 ∨ groupLen % moduleValidSize = 0 := by
  obtain ⟨starts, reaches⟩ := last_module groupLen positive
  have count : 0 < packModuleCount groupLen := by
    rw [← genGroupInfo_length groupLen positive]
    exact List.length_pos_of_mem (List.mem_append_right _ (List.mem_singleton.mpr rfl))
  generalize same : packModuleCount groupLen - 1 = last at starts reaches
  have inside : last < packModuleCount groupLen := by omega
  -- what is left for the last module
  have left : moduleSizeAt groupLen last = groupLen - last * moduleValidSize := by
    unfold moduleSizeAt
    omega
  have parts : groupLen = last * moduleValidSize + moduleSizeAt groupLen last := by omega
  have blocks : groupLen % blockSize = moduleSizeAt groupLen last % blockSize := by
    have whole : moduleValidSize = 256 * blockSize := rfl
    rw [whole, ← Nat.mul_assoc] at parts
    conv_lhs => rw [parts]
    exact Nat.mul_add_mod_self_right ..
  have ends : groupLen % moduleValidSize = 0 ↔ moduleSizeAt groupLen last = moduleValidSize := by
    conv_lhs => rw [parts, Nat.mul_add_mod_self_right]
    have some := moduleSizeAt_pos groupLen last inside
    have most := moduleSizeAt_le groupLen last
    constructor
    · intro none
      by_contra less
      rw [Nat.mod_eq_of_lt (by omega)] at none
      omega
    · intro full
      rw [full, Nat.mod_self]
  rw [blocks, ends, ← sectionCount_eq_iff _ (moduleSizeAt_le groupLen last)]
  constructor
  · intro all
    exact all last inside
  · intro ofLast module before
    rcases Nat.lt_or_eq_of_le (by omega : module ≤ last) with earlier | final
    · have full : moduleSizeAt groupLen module = moduleValidSize := by
        have below : (module + 1) * moduleValidSize ≤ last * moduleValidSize :=
          Nat.mul_le_mul_right _ earlier
        rw [Nat.succ_mul, Nat.add_comm] at below
        exact Nat.min_eq_left (Nat.le_sub_of_add_le (below.trans starts.le))
      exact (sectionCount_eq_iff _ (moduleSizeAt_le groupLen module)).mpr (.inr full)
    · rwa [final]

/-- The last block of a module is as long as what is left of it. -/
theorem block_sized (content : List Byte) (block : Nat) :
    1 ≤ (blockOf content block).length ↔ block < blockCount content.length := by
  have size : blockSize = 4066 := rfl
  rw [blockOf_length, blockLenOf, blockCount, size]
  split <;> omega

/-- The sections are the blocks exactly when no module is a section too long. -/
theorem cutsIntoBlocks_iff (package : List Byte) (notEmpty : package ≠ []) :
    CutsIntoBlocks package (packDdbSections (genGroupInfo package.length) package) ↔
      ∀ module < packModuleCount package.length,
        sectionCount (moduleSizeAt package.length module) =
          blockCount (moduleSizeAt package.length module) := by
  have positive := List.length_pos_of_ne_nil notEmpty
  have sections := packDdbSections_eq_blocks package notEmpty
  constructor
  · intro cuts module inside
    have enough := blockCount_le_sectionCount _ (moduleSizeAt_le package.length module)
    by_contra differ
    -- the section behind the last block is sent, and it is empty
    have small : blockCount (moduleSizeAt package.length module) < 256 := by
      have few : sectionCount (moduleSizeAt package.length module) ≤ 256 := Nat.min_le_left ..
      omega
    have sent : ddbSectionAt package module (blockCount (moduleSizeAt package.length module)) ∈
        packDdbSections (genGroupInfo package.length) package := by
      rw [sections]
      exact List.mem_flatMap.mpr ⟨module, List.mem_range.mpr inside,
        List.mem_map.mpr ⟨_, List.mem_range.mpr (by omega), rfl⟩⟩
    have sized := (cuts.sized _ sent).1
    rw [(ddbSectionAt_fields package module _ small).2.2.2, block_sized, moduleContent_length] at sized
    exact Nat.lt_irrefl _ sized
  · intro counts
    have blocks : packDdbSections (genGroupInfo package.length) package =
        (List.range (packModuleCount package.length)).flatMap (fun module =>
          (List.range (blockCount (moduleSizeAt package.length module))).map
            (ddbSectionAt package module)) := by
      rw [sections]
      apply List.flatMap_congr
      intro module inside
      rw [counts module (List.mem_range.mp inside)]
    have few (module : Nat) : blockCount (moduleSizeAt package.length module) ≤ 256 :=
      blockCount_le _ (moduleSizeAt_le package.length module)
    rw [blocks]
    constructor
    case numbers =>
      rw [genGroupInfo_eq_map package.length positive, List.map_flatMap, List.flatMap_map]
      apply List.flatMap_congr
      intro module _
      rw [List.map_map]
      apply List.map_congr_left
      intro block inside
      have inside := List.mem_range.mp inside
      have fields := ddbSectionAt_fields package module block (by have := few module; omega)
      rw [Function.comp_apply, fields.1, fields.2.1]
    case sized =>
      intro secBuf member
      rcases List.mem_flatMap.mp member with ⟨module, inside, member⟩
      rcases List.mem_map.mp member with ⟨block, counted, same⟩
      have inside := List.mem_range.mp inside
      have counted := List.mem_range.mp counted
      have fields := ddbSectionAt_fields package module block (by have := few module; omega)
      have last := packLastSection_eq _ (moduleSizeAt_pos package.length module inside)
      have few := few module
      rw [← same, fields.2.1, fields.2.2.1, fields.2.2.2, block_sized, moduleContent_length]
      refine ⟨counted, blockOf_length_le .., ?_⟩
      omega
    case data =>
      calc _ = (List.range (packModuleCount package.length)).flatMap (moduleContent package) := by
            rw [List.flatMap_assoc]
            apply List.flatMap_congr
            intro module _
            rw [List.flatMap_map]
            calc _ = (List.range (blockCount (moduleSizeAt package.length module))).flatMap
                  (blockOf (moduleContent package module)) := by
                  apply List.flatMap_congr
                  intro block inside
                  have inside := List.mem_range.mp inside
                  have few := few module
                  exact (ddbSectionAt_fields package module block (by omega)).2.2.2
              _ = moduleContent package module := by
                  rw [← moduleContent_length, blocks_flatten]
        _ = package := modules_flatten package

theorem genDdbStream_correct_of_fits (package : List Byte) (fits : ¬ maxPackage < package.length)
    (positive : package.length ≠ 0) :
    (genDdbStream package).Correct package ↔
      package.length % blockSize ≠ 0 ∨ package.length % moduleValidSize = 0 := by
  have notEmpty : package ≠ [] := List.ne_nil_of_length_pos (Nat.pos_of_ne_zero positive)
  rw [genDdbStream, if_neg fits, if_neg positive]
  exact (cutsIntoBlocks_iff package notEmpty).trans
    (sectionCounts_iff package.length (Nat.pos_of_ne_zero positive))

/-- A last module of whole blocks gets an empty section behind its last one,
unless it is full. -/
theorem genDdbStream_correct_iff (package : List Byte) :
    (genDdbStream package).Correct package ↔
      maxPackage < package.length ∨ (package.length ≠ 0 ∧
        (package.length % blockSize ≠ 0 ∨ package.length % moduleValidSize = 0)) := by
  by_cases large : maxPackage < package.length
  · rw [genDdbStream, if_pos large]
    exact iff_of_true True.intro (.inl large)
  · rw [or_iff_right large]
    by_cases none : package.length = 0
    · rw [genDdbStream, if_neg large, if_pos none]
      exact iff_of_false id (fun condition => condition.1 none)
    · rw [and_iff_right none]
      exact genDdbStream_correct_of_fits package large none

/-- One whole block, and a second section that is empty. -/
theorem one_block_two_sections :
    ¬ (genDdbStream (List.replicate 4066 7)).Correct (List.replicate 4066 7) := by
  have length : (List.replicate 4066 (7 : Byte)).length = 4066 := List.length_replicate
  rw [genDdbStream_correct_of_fits _ (by rw [length]; decide) (by rw [length]; decide), length]
  decide

end Alisl.Upgrade
