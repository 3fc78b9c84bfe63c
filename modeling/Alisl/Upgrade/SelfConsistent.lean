import Alisl.Upgrade.Sections

/-! The length fields and the CRC of the sections of the pack tool. -/

namespace Alisl.Upgrade

open Alisl.Base

/-- The bytes of a section as memory from address 0 on. -/
def memoryOf (bytes : List Byte) : Memory := fun i => bytes.getD i 0

/-- What the header says of the section and of its message, and the CRC over all of it. -/
structure SelfConsistent (section_ : List Byte) : Prop where
  sectionLength : getBe16 (memoryOf section_) 1 % 4096 + 3 = section_.length
  messageLength : 20 + getBe16 (memoryOf section_) 18 + 4 = section_.length
  short : section_.length ≤ 4096
  crc : mgTableDrivenCrc 0xFFFFFFFF#32 section_ = 0

theorem holds_memoryOf (bytes : List Byte) : Holds (memoryOf bytes) 0 bytes := by
  rw [holds_iff_slice]
  apply List.ext_getElem (slice_length _ _ _)
  intro i _ inside
  simp [slice, memoryOf, inside]

theorem mgTableDrivenCrc_append (crc : BitVec 32) (front back : List Byte) :
    mgTableDrivenCrc crc (front ++ back) = mgTableDrivenCrc (mgTableDrivenCrc crc front) back := by
  induction front generalizing crc with
  | nil => rfl
  | cons byte front ih => exact ih _

/-- The byte that is shifted out takes itself away. -/
theorem mgTableDrivenCrc_top (crc : BitVec 32) (rest : List Byte) :
    mgTableDrivenCrc crc (byteOf (crc.toNat / 16777216) :: rest) = mgTableDrivenCrc (crc <<< 8) rest := by
  have bound := crc.isLt
  have index : ((crc >>> 24) &&& 0xff#32) ^^^ (byteOf (crc.toNat / 16777216)).toBitVec.setWidth 32 =
      0#32 := by
    have same : (crc >>> 24) &&& 0xff#32 =
        (byteOf (crc.toNat / 16777216)).toBitVec.setWidth 32 := by
      apply BitVec.eq_of_toNat_eq
      have low : crc.toNat >>> 24 &&& 255 = crc.toNat / 16777216 % 256 := by
        rw [Nat.shiftRight_eq_div_pow]
        exact Nat.and_two_pow_sub_one_eq_mod _ 8
      simp only [BitVec.toNat_and, BitVec.toNat_ushiftRight, BitVec.toNat_ofNat, Nat.reducePow,
        Nat.reduceMod, BitVec.toNat_setWidth, UInt8.toNat_toBitVec, byteOf_toNat, low]
      omega
    rw [same, BitVec.xor_self]
  have none : mgCrcTable 0#32 = 0#32 := by decide +kernel
  rw [mgTableDrivenCrc, index, none, BitVec.zero_xor]

theorem mgTableDrivenCrc_own (crc : BitVec 32) :
    mgTableDrivenCrc crc (putBe32 crc.toNat) = 0 := by
  have bound := crc.isLt
  have shift : ∀ word : BitVec 32, (word <<< 8).toNat = word.toNat * 256 % 4294967296 := by
    intro word
    rw [BitVec.toNat_shiftLeft, Nat.shiftLeft_eq]
  have next : ∀ (word : BitVec 32) (value : Nat) (rest : List Byte),
      word.toNat / 16777216 % 256 = value % 256 →
        mgTableDrivenCrc word (byteOf value :: rest) = mgTableDrivenCrc (word <<< 8) rest := by
    intro word value rest same
    have byte : byteOf value = byteOf (word.toNat / 16777216) := by
      apply UInt8.toNat_inj.mp
      rw [byteOf_toNat, byteOf_toNat, same]
    rw [byte, mgTableDrivenCrc_top]
  rw [putBe32, next crc _ _ rfl, next, next, next]
  · apply BitVec.eq_of_toNat_eq
    show (crc <<< 8 <<< 8 <<< 8 <<< 8).toNat = 0
    simp only [shift]
    omega
  · simp only [shift]
    omega
  · simp only [shift]
    omega
  · simp only [shift]
    omega

/-- A section together with its CRC has the CRC zero. -/
theorem mgFcsCoder_crc (bytes : List Byte) :
    mgTableDrivenCrc 0xFFFFFFFF#32 (mgFcsCoder bytes) = 0 := by
  rw [mgFcsCoder, mgTableDrivenCrc_append, mgTableDrivenCrc_own]

theorem mgFcsCoder_length (bytes : List Byte) : (mgFcsCoder bytes).length = bytes.length + 4 := by
  rw [mgFcsCoder, List.length_append, putBe32_length]

/-- A section of the tool in terms of what follows the headers. -/
theorem selfConsistent_iff (tableId : Byte)
    (len extension sectionNum lastSectionNum messageId transactionId messageLen : Nat)
    (body : List Byte) (fits : len < 4096) (short : messageLen < 65536) :
    SelfConsistent (mgFcsCoder (sectionHeader tableId len extension sectionNum lastSectionNum ++
        messageHeader messageId transactionId messageLen ++ body)) ↔
      len = body.length + 21 ∧ messageLen = body.length ∧ body.length + 24 ≤ 4096 := by
  have holds := holds_memoryOf (mgFcsCoder (sectionHeader tableId len extension sectionNum
    lastSectionNum ++ messageHeader messageId transactionId messageLen ++ body))
  generalize memory : memoryOf (mgFcsCoder (sectionHeader tableId len extension sectionNum
    lastSectionNum ++ messageHeader messageId transactionId messageLen ++ body)) = bytes at holds
  rw [mgFcsCoder, holds_append, holds_append, holds_append] at holds
  rcases holds with ⟨⟨⟨front, message⟩, _⟩, _⟩
  simp only [sectionHeader, putSectionLen, messageHeader, holds_append, List.length_append,
    List.length_cons, List.length_nil, putBe16_length, putBe32_length, Nat.reduceAdd] at front message
  rcases front with ⟨⟨⟨_, high, low, _⟩, _⟩, _⟩
  rcases message with ⟨_, message⟩
  have sectionField : getBe16 bytes 1 % 4096 = len := by
    rw [getBe16, high, low, byteOf_toNat, byteOf_toNat]
    omega
  have messageField : getBe16 bytes 18 = messageLen := by
    rw [message.getBe16]
    omega
  have length : (mgFcsCoder (sectionHeader tableId len extension sectionNum lastSectionNum ++
      messageHeader messageId transactionId messageLen ++ body)).length = body.length + 24 := by
    rw [mgFcsCoder_length, List.length_append, List.length_append, sectionHeader_length,
      messageHeader_length]
    omega
  constructor
  · intro consistent
    rcases consistent with ⟨whole, message, small, _⟩
    rw [memory, sectionField, length] at whole
    rw [memory, messageField, length] at message
    rw [length] at small
    omega
  · intro same
    constructor
    · rw [memory, sectionField, length]
      omega
    · rw [memory, messageField, length]
      omega
    · rw [length]
      omega
    · exact mgFcsCoder_crc _

theorem putDsiGroups_length (groups : List GroupInfo) :
    (groups.flatMap putDsiGroup).length = 38 * groups.length := by
  induction groups with
  | nil => rfl
  | cons group groups ih =>
      have one : (putDsiGroup group).length = 38 := rfl
      rw [List.flatMap_cons, List.length_append, ih, one, List.length_cons]
      omega

theorem putDiiModules_length (num beyond index : Nat) (infos : List ModuleInfo) :
    (putDiiModules num beyond index infos).length =
      (if 1 < num then 13 else 8) * infos.length := by
  induction infos generalizing index with
  | nil => rfl
  | cons info infos ih =>
      have one : ∀ next, (putDiiModule num index info next).length = if 1 < num then 13 else 8 := by
        intro next
        unfold putDiiModule
        split <;> rfl
      rw [putDiiModules, List.length_append, ih, one, List.length_cons]
      split <;> omega

theorem diiBody_length (beyond : Nat) (infos : List ModuleInfo) :
    (diiBody beyond infos).length = 22 + (if 1 < infos.length then 13 else 8) * infos.length := by
  unfold diiBody
  simp only [List.length_append, putBe16_length, putBe32_length, List.length_cons, List.length_nil,
    putDiiModules_length]
  omega

/-- The tool has room for 32 groups. -/
theorem putDsiSection_selfConsistent (groups : List GroupInfo) (few : groups.length ≤ 32) :
    SelfConsistent (putDsiSection groups) := by
  unfold putDsiSection
  simp only [List.append_assoc]
  rw [← List.append_assoc, selfConsistent_iff]
  · simp only [List.length_append, List.length_replicate, putBe16_length, putDsiGroups_length]
    omega
  · omega
  · omega

theorem putDdbSection_selfConsistent (moduleId sectionNum lastSectionNum : Nat) (block : List Byte)
    (short : block.length ≤ blockSize) :
    SelfConsistent (putDdbSection moduleId sectionNum lastSectionNum block) := by
  have small : block.length ≤ 4066 := short
  unfold putDdbSection
  simp only [List.append_assoc]
  rw [← List.append_assoc, selfConsistent_iff]
  · simp only [List.length_append, List.length_cons, List.length_nil, putBe16_length]
    omega
  · omega
  · omega

/-- The message length of a single module counts a link descriptor that is not there. -/
theorem putDiiSection_selfConsistent_iff (groupId beyond : Nat) (infos : List ModuleInfo)
    (few : infos.length ≤ 256) :
    SelfConsistent (putDiiSection groupId beyond infos) ↔ infos.length ≠ 1 := by
  have body := diiBody_length beyond infos
  unfold putDiiSection diiSectionLen
  dsimp only
  rw [selfConsistent_iff]
  · rw [body]
    by_cases several : 1 < infos.length
    · rw [if_pos several, if_pos several]
      omega
    · rw [if_neg several, if_neg several]
      omega
  · split
    · omega
    · omega
  · omega

/-- The sections of a group and of a block: only a DII of one module is not consistent. -/
theorem sections_selfConsistent (group : GroupInfo) (infos : List ModuleInfo) (beyond : Nat)
    (some : 1 ≤ infos.length) (few : infos.length ≤ 256)
    (moduleId sectionNum lastSectionNum : Nat) (block : List Byte) (short : block.length ≤ blockSize) :
    (SelfConsistent (putDsiSection [group]) ∧
        SelfConsistent (putDiiSection group.groupId beyond infos) ∧
        SelfConsistent (putDdbSection moduleId sectionNum lastSectionNum block)) ↔
      1 < infos.length := by
  have dsi := putDsiSection_selfConsistent [group] (by decide : 1 ≤ 32)
  have ddb := putDdbSection_selfConsistent moduleId sectionNum lastSectionNum block short
  have dii := putDiiSection_selfConsistent_iff group.groupId beyond infos few
  constructor
  · intro all
    have several := dii.mp all.2.1
    omega
  · intro several
    exact ⟨dsi, dii.mpr (by omega), ddb⟩

/-- Two modules, the second of them short, and a full block. -/
theorem sections_selfConsistent_two :
    (SelfConsistent (putDsiSection [⟨0x123456, 1, 2, 3, 4, packGroupId, moduleValidSize + 1⟩]) ∧
        SelfConsistent (putDiiSection packGroupId 0 (genGroupInfo (moduleValidSize + 1))) ∧
        SelfConsistent (putDdbSection 256 0 255 (List.replicate blockSize 7))) ↔
      1 < (genGroupInfo (moduleValidSize + 1)).length := by
  have two : (genGroupInfo (moduleValidSize + 1)).length = 2 := by decide
  have full : (List.replicate blockSize (7 : Byte)).length ≤ blockSize :=
    (List.length_replicate).le
  exact sections_selfConsistent ⟨0x123456, 1, 2, 3, 4, packGroupId, moduleValidSize + 1⟩
    (genGroupInfo (moduleValidSize + 1)) 0 (by omega) (by omega) 256 0 255 _ full

/-- The group of a package that fits into one module. -/
theorem single_module_inconsistent :
    ¬ ∀ (group : GroupInfo) (infos : List ModuleInfo) (beyond : Nat), 1 ≤ infos.length →
      infos.length ≤ 256 → SelfConsistent (putDiiSection group.groupId beyond infos) := by
  intro all
  have dii := all ⟨0x123456, 1, 2, 3, 4, packGroupId, 5⟩ (genGroupInfo 5) 0 (by decide) (by decide)
  have wrong : 20 + getBe16 (memoryOf (putDiiSection packGroupId 0 (genGroupInfo 5))) 18 + 4 ≠
      (putDiiSection packGroupId 0 (genGroupInfo 5)).length := by
    decide +kernel
  exact wrong dii.messageLength

end Alisl.Upgrade
