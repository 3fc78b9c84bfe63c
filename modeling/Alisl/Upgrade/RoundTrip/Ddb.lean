import Alisl.Upgrade.RoundTrip.Dii

/-! The DDB sections of the pack tool at the receiver: version 3 decodes them,
version 4 refuses every one. -/

namespace Alisl.Upgrade

open Alisl.Base

/-- The bytes of a module that one block carries. -/
def blockOf (content : List Byte) (blockNum : Nat) : List Byte :=
  (content.drop (blockNum * blockSize)).take blockSize

theorem blockOf_length_le (content : List Byte) (blockNum : Nat) :
    (blockOf content blockNum).length ≤ blockSize :=
  List.length_take_le ..

/-- A DDB section in memory, field by field. -/
structure DdbSection (memory : Memory) (moduleId sectionNum lastSectionNum : Nat) (block : List Byte) :
    Prop where
  extension : getBe16 memory 3 = moduleId % 65536
  number : (memory 6).toNat = sectionNum % 256
  last : (memory 7).toNat = lastSectionNum % 256
  header : readMessageHeader memory 8 = ⟨downloadId, block.length + 6, 20⟩
  module : getBe16 memory 20 = moduleId % 65536
  reserved : memory 23 = 0xff
  blockNum : getBe16 memory 24 = sectionNum % 256
  data : Holds memory 26 block

theorem ddbSection_of_holds (memory : Memory) (moduleId sectionNum lastSectionNum : Nat)
    (block : List Byte) (short : block.length ≤ blockSize)
    (holds : Holds memory 0 (putDdbSection moduleId sectionNum lastSectionNum block)) :
    DdbSection memory moduleId sectionNum lastSectionNum block := by
  have small : block.length ≤ 4066 := short
  unfold putDdbSection at holds
  simp only [List.append_assoc] at holds
  obtain ⟨front, message⟩ := holds_section memory 0 _ _ holds
  simp only [sectionHeader, putSectionLen, holds_append, putBe16_length, List.length_append,
    List.length_cons, List.length_nil, Nat.reduceAdd] at front
  simp only [holds_append, sectionHeader_length, messageHeader_length, putBe16_length,
    List.length_cons, List.length_nil, Nat.reduceAdd] at message
  obtain ⟨⟨_, extension⟩, _, number, last, _⟩ := front
  obtain ⟨header, module, ⟨_, reserved, _⟩, blockNum, data⟩ := message
  have header := readMessageHeader_of_holds memory _ _ _ _ header
  have length : (block.length + 6) % 65536 = block.length + 6 := by omega
  have number : (memory 6).toNat = sectionNum % 256 := by
    rw [number]
    simp
  have last : (memory 7).toNat = lastSectionNum % 256 := by
    rw [last]
    simp
  have blockNum : getBe16 memory 24 = sectionNum % 256 := by
    rw [blockNum.getBe16]
    omega
  rw [length] at header
  exact ⟨extension.getBe16, number, last, header, module.getBe16, reserved, blockNum, data⟩

/-- A block of a module in memory, and the module's entry that lacks it. -/
structure DdbInput where
  moduleId : Nat
  content : List Byte
  lastSectionNum : Nat
  blockNum : Nat
  memory : Memory
  state : DdbStore
  idFits : moduleId < 65536
  contentFits : content.length ≤ moduleValidSize
  inside : blockNum * blockSize < content.length
  holds : Holds memory 0 (putDdbSection moduleId blockNum lastSectionNum (blockOf content blockNum))
  entryId : state.entry.moduleId = moduleId
  entrySize : state.entry.moduleBufSize = content.length
  entryBlocks : state.entry.blockNum = blockCount content.length
  missing : state.entry.blockReceived.test blockNum = false

/-- Decoding undoes encoding: the block is in its place, and marked. -/
def DdbDecoded (parser : Memory → Nat → Nat → Nat → DdbStore → DbcOutcome DdbStore)
    (input : DdbInput) : Prop :=
  ∃ after, parser input.memory 8 blockSize input.blockNum input.state = .success after ∧
    after.ram = store input.state.ram
      (input.state.entry.moduleBufPointer + input.blockNum * blockSize)
      (blockOf input.content input.blockNum) ∧
    ∀ other, after.entry.blockReceived.test other =
      (input.state.entry.blockReceived.test other || decide (other = input.blockNum))

/-- Version 4 takes the reserved byte for the high byte of the block number. -/
theorem v4_ddb_fails (input : DdbInput) :
    V4.alislDdbData input.memory 8 blockSize input.blockNum input.state = .fail input.state := by
  have fields := ddbSection_of_holds _ _ _ _ _ (blockOf_length_le ..) input.holds
  have few := blockCount_le input.content.length input.contentFits
  have shifted : getBe16 input.memory 23 = 65280 := by
    have number : (input.memory 24).toNat * 256 + (input.memory 25).toNat = input.blockNum % 256 :=
      fields.blockNum
    have low : (input.memory 24).toNat = 0 := by omega
    have high : (input.memory 23).toNat = 255 := by rw [fields.reserved]; rfl
    simp only [getBe16, Nat.reduceAdd, high, low]
  have same : input.moduleId % 65536 = input.moduleId := Nat.mod_eq_of_lt input.idFits
  have many : blockCount input.content.length ≤ 65280 := by omega
  simp only [V4.alislDdbData, ddbData, fields.header, fields.module, same, input.entryId, ne_eq,
    not_true_eq_false, Nat.add_zero, Nat.reduceAdd, shifted, input.entryBlocks, if_pos many,
    ite_self]

/-- No block of any module survives. -/
theorem v4_ddb_decoded_never (input : DdbInput) : ¬ DdbDecoded V4.alislDdbData input := by
  intro decoded
  obtain ⟨after, parsed, _⟩ := decoded
  rw [v4_ddb_fails input] at parsed
  cases parsed

/-- The first block of a module of a hundred bytes. -/
def firstBlockDdb : DdbInput where
  moduleId := 256
  content := List.replicate 100 0
  lastSectionNum := 0
  blockNum := 0
  memory := store (fun _ => 0) 0 (putDdbSection 256 0 0 (blockOf (List.replicate 100 0) 0))
  state := ⟨{ clearedModule with moduleId := 256, moduleBufSize := 100, blockNum := 1 }, fun _ => 0⟩
  idFits := by decide
  contentFits := by simp [moduleValidSize]
  inside := by simp
  holds := holds_store ..
  entryId := rfl
  entrySize := by simp
  entryBlocks := by simp [blockCount, blockSize]
  missing := rfl

theorem v4_first_block_lost : ¬ DdbDecoded V4.alislDdbData firstBlockDdb := by
  intro decoded
  obtain ⟨after, parsed, _⟩ := decoded
  rw [v4_ddb_fails firstBlockDdb] at parsed
  cases parsed

theorem blockOf_length (content : List Byte) (blockNum : Nat) :
    (blockOf content blockNum).length = blockLenOf content.length blockSize blockNum := by
  simp only [blockOf, blockLenOf, List.length_take, List.length_drop]
  split <;> omega

/-- Version 3 takes a block it lacks. -/
theorem v3_ddb_accepts (input : DdbInput) :
    V3.alislDdbData input.memory 8 blockSize input.blockNum input.state =
      .success (acceptBlock input.memory 26 blockSize input.blockNum input.state) := by
  have fields := ddbSection_of_holds _ _ _ _ _ (blockOf_length_le ..) input.holds
  have size : blockSize = 4066 := rfl
  have whole : moduleValidSize = 1040896 := rfl
  have fits := input.contentFits
  have inside := input.inside
  have below : input.blockNum < 256 := by
    rw [size] at inside
    omega
  have counted : ¬ blockCount input.content.length ≤ input.blockNum := by
    unfold blockCount
    rw [size] at inside ⊢
    omega
  have same : input.moduleId % 65536 = input.moduleId := Nat.mod_eq_of_lt input.idFits
  have number : input.blockNum % 256 = input.blockNum := Nat.mod_eq_of_lt below
  have inMap : ¬ 32 * bitMapNum ≤ input.blockNum := by
    unfold bitMapNum
    omega
  have missing : ¬ input.state.entry.blockReceived.test input.blockNum = true := by
    rw [input.missing]
    decide
  have length := blockOf_length input.content input.blockNum
  simp only [V3.alislDdbData, ddbData, fields.header, fields.module, same, input.entryId, ne_eq,
    not_true_eq_false, Nat.reduceAdd, fields.blockNum, number, input.entryBlocks, if_neg counted,
    input.entrySize, Nat.not_le.mpr inside, if_neg inMap, if_neg missing, length, lt_irrefl, if_false]

theorem v3_ddb_refuses (memory : Memory) (moduleId sectionNum lastSectionNum : Nat)
    (block : List Byte) (state : DdbStore)
    (fields : DdbSection memory moduleId sectionNum lastSectionNum block) (small : sectionNum < 256)
    (notMissing : state.entry.blockNum ≤ sectionNum ∨
      state.entry.blockReceived.test sectionNum = true) :
    V3.alislDdbData memory 8 blockSize sectionNum state = .fail state := by
  have number : sectionNum % 256 = sectionNum := Nat.mod_eq_of_lt small
  have inMap : ¬ 32 * bitMapNum ≤ sectionNum := by
    unfold bitMapNum
    omega
  simp only [V3.alislDdbData, ddbData, fields.header, Nat.reduceAdd, fields.blockNum, number, ne_eq,
    not_true_eq_false, if_false, if_neg inMap]
  rcases notMissing with behind | received
  · simp only [if_pos behind, ite_self]
  · simp only [if_pos received, ite_self]

theorem v3_acceptBlock_ram (input : DdbInput) :
    (acceptBlock input.memory 26 blockSize input.blockNum input.state).ram =
      store input.state.ram (input.state.entry.moduleBufPointer + input.blockNum * blockSize)
        (blockOf input.content input.blockNum) := by
  have fields := ddbSection_of_holds _ _ _ _ _ (blockOf_length_le ..) input.holds
  have data := (holds_iff_slice ..).mp fields.data
  simp only [acceptBlock, input.entrySize]
  rw [← blockOf_length, data]

/-- Version 3 decodes every block. -/
theorem v3_ddb_decoded (input : DdbInput) : DdbDecoded V3.alislDdbData input := by
  refine ⟨_, v3_ddb_accepts input, v3_acceptBlock_ram input, ?_⟩
  intro other
  exact Bitmap.test_set ..

end Alisl.Upgrade
