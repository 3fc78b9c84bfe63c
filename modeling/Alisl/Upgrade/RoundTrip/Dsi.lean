import Alisl.Upgrade.Sections
import Alisl.Upgrade.LibOta

/-! The DSI section of the pack tool at the receiver: version 3 decodes it, version
4 starts one byte early and does not. -/

namespace Alisl.Upgrade

open Alisl.Base

theorem readMessageHeader_of_holds (memory : Memory) (at_ messageId transactionId messageLen : Nat)
    (holds : Holds memory at_ (messageHeader messageId transactionId messageLen)) :
    readMessageHeader memory at_ =
      ⟨transactionId % 4294967296, messageLen % 65536, at_ + 12⟩ := by
  simp only [messageHeader, holds_append, List.length_cons, List.length_nil] at holds
  obtain ⟨⟨⟨_, identity⟩, ⟨_, adaptation, _⟩⟩, length⟩ := holds
  simp only [readMessageHeader, MessageHeader.mk.injEq]
  refine ⟨identity.getBe32, length.getBe16, ?_⟩
  have none : memory (at_ + 9) = 0 := adaptation
  rw [none]
  rfl

/-- Parsing the section gives the group back, and its version if it is for us. -/
def DsiRoundTrip (lib : OtaLib) (receiver : Receiver) (stale : Nat) (group : GroupInfo) : Prop :=
  ∀ memory, Holds memory 0 (putDsiSection [group]) →
    ∃ after, parseDsmccSec lib memory 0 stale .dsi receiver = .success after ∧
      after.group = ⟨group.groupId, group.groupLen⟩ ∧
      (receiver.param.oui = group.oui → receiver.param.swModel = group.swModel →
        receiver.param.swVersion ≤ group.swVer → after.dlInfo.swVersion = group.swVer)

/-- Started one byte early, the parser takes the reserved byte for the number of
adaptation bytes and ends up behind the section. -/
theorem v4_dsiGroups (memory : Memory) (group : GroupInfo)
    (holds : Holds memory 0 (putDsiSection [group])) :
    dsiGroups memory 7 = (getBe16 memory (298 + getBe16 memory 294), 300 + getBe16 memory 294) := by
  have early : (readMessageHeader memory 7).next = 274 := by
    unfold putDsiSection at holds
    simp only [List.append_assoc] at holds
    obtain ⟨_, message⟩ := holds_section memory 0 _ _ holds
    rw [holds_append] at message
    simp only [messageHeader, holds_append, List.length_cons, List.length_nil,
      sectionHeader_length] at message
    obtain ⟨⟨⟨_, reserved, _⟩, _⟩, _⟩ := message
    have adaptation : memory 16 = 0xff := reserved
    simp only [readMessageHeader, adaptation]
    rfl
  have count : 274 + 20 + 2 + getBe16 memory 294 + 2 = 298 + getBe16 memory 294 := by omega
  have first : 274 + 20 + 2 + getBe16 memory 294 + 4 = 300 + getBe16 memory 294 := by omega
  calc dsiGroups memory 7
      = (getBe16 memory (274 + 20 + 2 + getBe16 memory 294 + 2),
          274 + 20 + 2 + getBe16 memory 294 + 4) := by simp only [dsiGroups, early]
    _ = (getBe16 memory (298 + getBe16 memory 294), 300 + getBe16 memory 294) := by
        rw [count, first]

theorem v4_dsi_fails (receiver : Receiver) (stale : Nat) (group : GroupInfo) (memory : Memory)
    (holds : Holds memory 0 (putDsiSection [group]))
    (cleared : ∀ address, 88 ≤ address → memory address = 0) :
    ∃ after, parseDsmccSec v4 memory 0 stale .dsi receiver = .fail after := by
  have groups := v4_dsiGroups memory group holds
  have zero (address : Nat) (behind : 88 ≤ address) : getBe16 memory address = 0 := by
    simp [getBe16, cleared address behind, cleared (address + 1) (by omega)]
  rw [zero 294 (by omega), zero (298 + 0) (by omega)] at groups
  have message : v4.dsiMessage memory (0 + v4.headerLen) receiver.param ⟨stale, receiver.group⟩ =
      .fail ⟨stale, receiver.group⟩ := by
    simp [v4, V4.alislDsiMessage, groups]
  simp only [parseDsmccSec, message]
  by_cases foreign : getBe16 memory (0 + 3) ≠ 0 ∧ getBe16 memory (0 + 3) ≠ 1
  · exact ⟨receiver, if_pos foreign⟩
  · exact ⟨_, if_neg foreign⟩

theorem v4_dsi_stored_fails (receiver : Receiver) (stale : Nat) (group : GroupInfo) :
    ∃ after, parseDsmccSec v4 (store (fun _ => 0) 0 (putDsiSection [group])) 0 stale .dsi receiver =
      .fail after := by
  apply v4_dsi_fails receiver stale group _ (holds_store ..)
  intro address behind
  apply store_after
  exact behind

/-- No group description survives. -/
theorem v4_dsi_round_trip_never (receiver : Receiver) (stale : Nat) (group : GroupInfo) :
    ¬ DsiRoundTrip v4 receiver stale group := by
  intro roundTrip
  obtain ⟨after, parsed, _⟩ := roundTrip _ (holds_store (fun _ => 0) 0 (putDsiSection [group]))
  obtain ⟨_, failed⟩ := v4_dsi_stored_fails receiver stale group
  rw [failed] at parsed
  cases parsed

def clearedModule : DCModuleInfo :=
  ⟨0, false, false, false, 0, 0, 0, 0, 0, fun _ => 0, false⟩

/-- A table before its first DII. -/
def clearedTable : ModuleTable where
  modules := fun _ => clearedModule
  moduleNum := 0
  blocksize := 0

/-- A receiver before its first section. -/
def clearedReceiver (param : DsiParam) : Receiver where
  param
  group := ⟨0, 0⟩
  dlInfo := ⟨0, 0, 0, 0⟩
  table := clearedTable
  ramAddr := 0
  ram := fun _ => 0

/-- A group for the receiver, with the next software version. -/
theorem v4_dsi_next_version_lost :
    ¬ DsiRoundTrip v4 (clearedReceiver ⟨0x90E6, 1, 1, 2, 1⟩) 0
      ⟨0x90E6, 1, 1, 2, 2, 0x80000002, 100⟩ := by
  intro roundTrip
  obtain ⟨after, parsed, _⟩ := roundTrip _ (holds_store (fun _ => 0) 0 _)
  obtain ⟨_, failed⟩ := v4_dsi_stored_fails (clearedReceiver ⟨0x90E6, 1, 1, 2, 1⟩) 0
    ⟨0x90E6, 1, 1, 2, 2, 0x80000002, 100⟩
  rw [failed] at parsed
  cases parsed

/-- The fields of a group are as wide as the section has them. -/
structure GroupInfo.Fits (group : GroupInfo) : Prop where
  oui : group.oui < 16777216
  hwModel : group.hwModel < 65536
  hwVer : group.hwVer < 65536
  swModel : group.swModel < 65536
  swVer : group.swVer < 65536
  groupId : group.groupId < 4294967296
  groupLen : group.groupLen < 4294967296

/-- The receiver is the one a group is for. -/
structure DsiParam.Matches (param : DsiParam) (group : GroupInfo) : Prop where
  oui : group.oui = param.oui
  hwModel : group.hwModel = param.hwModel
  hwVersion : group.hwVer = param.hwVersion
  swModel : group.swModel = param.swModel

@[simp] theorem putCompatibility_length (kind : Byte) (oui model version : Nat) :
    (putCompatibility kind oui model version).length = 11 := rfl

/-- A compatibility descriptor in memory, field by field. -/
theorem compatibility_fields (memory : Memory) (data : Nat) (kind : Byte) (oui model version : Nat)
    (holds : Holds memory data (putCompatibility kind oui model version)) (ouiFits : oui < 16777216)
    (modelFits : model < 65536) (versionFits : version < 65536) :
    memory data = kind ∧ memory (data + 1) = 9 ∧ memory (data + 2) = 1 ∧
      getBe24 memory (data + 3) = oui ∧ getBe16 memory (data + 6) = model ∧
      getBe16 memory (data + 8) = version := by
  unfold putCompatibility at holds
  simp only [holds_append, List.length_append, List.length_cons, List.length_nil, putBe16_length,
    putBe24_length, Nat.reduceAdd] at holds
  obtain ⟨⟨⟨⟨⟨first, len, specifier, _⟩, ouiHolds⟩, modelHolds⟩, versionHolds⟩, _⟩ := holds
  refine ⟨first, len, specifier, ?_, ?_, ?_⟩
  · rw [ouiHolds.getBe24, Nat.mod_eq_of_lt ouiFits]
  · rw [modelHolds.getBe16, Nat.mod_eq_of_lt modelFits]
  · rw [versionHolds.getBe16, Nat.mod_eq_of_lt versionFits]

/-- Both descriptors of a group fit a receiver it is for. -/
theorem dsiDescriptors_of_holds (memory : Memory) (param : DsiParam) (group : GroupInfo)
    (data newSwVersion : Nat) (fits : group.Fits) (matches_ : param.Matches group)
    (hardware : Holds memory data (putCompatibility 0x01 group.oui group.hwModel group.hwVer))
    (software : Holds memory (data + 11)
      (putCompatibility 0x02 group.oui group.swModel group.swVer)) :
    dsiDescriptors false memory param 2 data 22 ⟨false, false, newSwVersion⟩ =
      (data + 22, 0, ⟨true, true, group.swVer⟩) := by
  obtain ⟨kind1, len1, specifier1, oui1, model1, version1⟩ :=
    compatibility_fields _ _ _ _ _ _ hardware fits.oui fits.hwModel fits.hwVer
  obtain ⟨kind2, len2, specifier2, oui2, model2, version2⟩ :=
    compatibility_fields _ _ _ _ _ _ software fits.oui fits.swModel fits.swVer
  have first : dsiFit false memory param data ⟨false, false, newSwVersion⟩ =
      ⟨true, false, newSwVersion⟩ := by
    simp [dsiFit, kind1, specifier1, oui1, model1, version1, matches_.oui, matches_.hwModel,
      matches_.hwVersion]
  have second : dsiFit false memory param (data + 11) ⟨true, false, newSwVersion⟩ =
      ⟨true, true, group.swVer⟩ := by
    simp [dsiFit, kind2, specifier2, oui2, model2, version2, matches_.oui, matches_.swModel]
  have nine : (9 : Byte).toNat = 9 := rfl
  simp only [dsiDescriptors, len1, nine, Nat.reduceAdd, Nat.reduceLT, if_false, Nat.reduceSub, first,
    Nat.add_assoc] at len2 ⊢
  simp only [len2, nine, Nat.reduceAdd, lt_irrefl, if_false, second]

theorem dsiGroup_of_holds (memory : Memory) (param : DsiParam) (group : GroupInfo)
    (data newSwVersion : Nat) (fits : group.Fits) (matches_ : param.Matches group)
    (holds : Holds memory data (putDsiGroup group)) :
    dsiGroup false memory param data newSwVersion =
      (some (data + 38), ⟨group.groupId, group.groupLen⟩, ⟨true, true, group.swVer⟩) := by
  unfold putDsiGroup at holds
  simp only [List.append_assoc, holds_append, putCompatibility_length, putBe16_length,
    putBe32_length, Nat.add_assoc, Nat.reduceAdd] at holds
  obtain ⟨groupId, groupLen, len, count, hardware, software, infoLen, privateLen⟩ := holds
  have groupId : getBe32 memory data = group.groupId := by
    rw [groupId.getBe32, Nat.mod_eq_of_lt fits.groupId]
  have groupLen : getBe32 memory (data + 4) = group.groupLen := by
    rw [groupLen.getBe32, Nat.mod_eq_of_lt fits.groupLen]
  have len : getBe16 memory (data + 8) = 24 := len.getBe16
  have count : getBe16 memory (data + 10) = 2 := count.getBe16
  have infoLen : getBe16 memory (data + 34) = 0 := infoLen.getBe16
  have privateLen : getBe16 memory (data + 36) = 0 := privateLen.getBe16
  have descriptors := dsiDescriptors_of_holds memory param group (data + 12) newSwVersion fits matches_
    hardware (by rw [Nat.add_assoc]; exact software)
  have compatibility : dsiCompatibility false memory param (data + 8) newSwVersion =
      (data + 34, ⟨true, true, group.swVer⟩) := by
    simp only [dsiCompatibility, len, Nat.add_assoc, Nat.reduceAdd, count, Nat.reduceLT, if_false,
      Nat.reduceSub, descriptors]
  simp only [dsiGroup, groupId, groupLen, compatibility, infoLen, dsiGroupInfo, Option.map_some,
    Nat.add_assoc, Nat.reduceAdd, privateLen]

/-- Version 3 decodes the group that is for the receiver. -/
theorem v3_dsi_decoded (receiver : Receiver) (stale : Nat) (group : GroupInfo) (memory : Memory)
    (holds : Holds memory 0 (putDsiSection [group])) (fits : group.Fits)
    (matches_ : receiver.param.Matches group) :
    ∃ after, parseDsmccSec v3 memory 0 stale .dsi receiver = .success after ∧
      after.group = ⟨group.groupId, group.groupLen⟩ ∧ after.dlInfo.swVersion = group.swVer := by
  unfold putDsiSection at holds
  simp only [List.append_assoc] at holds
  obtain ⟨front, message⟩ := holds_section memory 0 _ _ holds
  have extension : getBe16 memory (0 + 3) = 0 := sectionHeader_extension memory 0 _ _ _ _ _ front
  rw [holds_append] at message
  obtain ⟨header, body⟩ := message
  have header := readMessageHeader_of_holds memory _ _ _ _ header
  simp only [holds_append, List.flatMap_cons, List.flatMap_nil, List.append_nil, putBe16_length,
    sectionHeader_length, messageHeader_length, List.length_replicate, Nat.reduceAdd] at header body
  obtain ⟨_, compatibility, _, number, first⟩ := body
  have compatibility : getBe16 memory 40 = 0 := compatibility.getBe16
  have number : getBe16 memory 44 = 1 := number.getBe16
  have decoded := dsiGroup_of_holds memory receiver.param group 46 stale fits matches_ first
  have parsed : v3.dsiMessage memory (0 + v3.headerLen) receiver.param ⟨stale, receiver.group⟩ =
      .success ⟨group.swVer, group.groupId, group.groupLen⟩ := by
    simp only [v3, V3.alislDsiMessage, dsiGroups, Nat.zero_add, header, Nat.reduceAdd, compatibility,
      Nat.add_zero, number, V3.dsiLoop, decoded, Bool.and_self, if_true]
  simp only [parseDsmccSec, parsed, extension]
  exact ⟨_, rfl, rfl, rfl⟩

end Alisl.Upgrade
