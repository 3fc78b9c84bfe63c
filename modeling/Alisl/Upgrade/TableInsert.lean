import Alisl.Base.Buffer
import Alisl.Upgrade.CrcTable

/-! The PAT, PMT and SDT that aliota.cpp puts before the packets of the upgrade
stream. A store outside a table gives `none`. -/

namespace Alisl.Upgrade

open Alisl.Base

/-- A transport packet. -/
structure TsPacket where
  bytes : List Byte
  size : bytes.length = 188
  sync : bytes.head? = some 0x47

/-- A string in a field of `MAX_LEN` bytes. -/
structure OtaString where
  bytes : List Byte
  plain : 0 ∉ bytes
  fits : bytes.length < 128

/-- The statics of aliota.cpp that the tables are built from; `oui` of `g_group_info`,
and what the arrays hold beforehand. -/
structure OtaStatics where
  groupNum : Nat
  oui : Vector Nat 32
  srvName : OtaString
  srvPrvdr : OtaString
  tableByte : Vector Byte 1024
  patStack : Vector Byte 16
  sdtStack : Vector Byte 256

/-- Several stores, one after the other. -/
def storesAt (buf : List Byte) (stores : List (Nat × List Byte)) : Option (List Byte) :=
  stores.foldlM (fun buf place => storeAt buf place.1 place.2) buf

/-- `MG_FCS_Coder` over the table that `MG_Setup_CRC_Table` filled. -/
def fcsCoderAt (buf : List Byte) (len : Nat) : Option (List Byte) :=
  storeAt buf len (putBe32 ((buf.take len).foldl (crcTableStep mgFillCrcTable) 0xFFFFFFFF#32).toNat)

/-- The header of a packet that starts a section, the pointer field included. -/
def insertHeader (pid : Nat) (continuityCount : Nat) : List Byte :=
  [0x47, byteOf (0x40 ||| (pid &&& 0x1f00) >>> 8), byteOf (pid &&& 0x00ff),
    byteOf (0x10 ||| continuityCount % 0x0f), 0x00]

/-- The stores of `insert_PAT` into its table. -/
def patTable (tsId progNum pmtPid : UInt16) : List (Nat × List Byte) :=
  [(0, [0x00, 0xB0, 0x0D] ++ putBe16 tsId.toNat ++ [0xC9, 0x00, 0x00]),
    (8, putBe16 progNum.toNat ++
      [byteOf (0xE0 ||| (pmtPid.toNat &&& 0x1f00) >>> 8), byteOf (pmtPid.toNat &&& 0x00ff)])]

/-- `insert_PAT`. -/
def OtaStatics.insertPat (tool : OtaStatics) (continuityCount : Nat) (tsId progNum pmtPid : UInt16) :
    Option (List Byte) := do
  let table ← storesAt tool.patStack.toList (patTable tsId progNum pmtPid)
  let table ← fcsCoderAt table 12
  some (insertHeader 0 continuityCount ++ table.take 16 ++ List.replicate (180 - 13) 0xff)

/-- One turn of the loop of `add_system_software_update_info`. -/
def OtaStatics.addGroup (tool : OtaStatics) (at_ : Nat) (buf : List Byte) (i : Nat) :
    Option (List Byte) :=
  tool.oui[i]?.bind (fun oui => storeAt buf (at_ + 1 + 6 * i) (putBe24 oui ++ [0xF1, 0xC0, 0]))

/-- `add_system_software_update_info` at an offset of `g_table_byte`. -/
def OtaStatics.addSystemSoftwareUpdateInfo (tool : OtaStatics) (at_ : Nat) (buf : List Byte) :
    Option (List Byte × Nat) := do
  let buf ← (List.range tool.groupNum).foldlM (tool.addGroup at_) buf
  let buf ← storeAt buf at_ [byteOf (6 * tool.groupNum)]
  some (buf, (byteOf (6 * tool.groupNum)).toNat + 1)

/-- The stores of `insert_PMT` ahead of the groups. -/
def pmtTable (pcrPid esPid : UInt16) (streamType : Byte) (progNum : UInt16) :
    List (Nat × List Byte) :=
  [(0, [0x02]),
    (3, putBe16 progNum.toNat ++ [0xC1, 0x00, 0x00]),
    (8, [byteOf (0xE0 ||| pcrPid.toNat >>> 8), byteOf (pcrPid.toNat &&& 0x00ff), 0xF0, 0x00]),
    (12, [streamType, byteOf (0xE0 ||| esPid.toNat >>> 8), byteOf (esPid.toNat &&& 0x00ff)]),
    (17, [0x66]), (19, [0x00, 0x0a])]

/-- The lengths `insert_PMT` stores behind the groups. -/
def pmtLengths (infoLen : Nat) : List (Nat × List Byte) :=
  let esInfoLen := infoLen + 4
  let sectionLen := 14 + esInfoLen + 4
  [(1, [byteOf (0xB0 ||| sectionLen >>> 8), byteOf (sectionLen &&& 0xFF)]),
    (15, [byteOf (0xF0 ||| esInfoLen >>> 8), byteOf (esInfoLen &&& 0xFF)]),
    (18, [byteOf (infoLen + 2)])]

/-- `insert_PMT`; no pad where the content is longer than the packet. -/
def OtaStatics.insertPmt (tool : OtaStatics) (continuityCount : Nat) (pcrPid esPid : UInt16)
    (streamType : Byte) (pmtPid progNum : UInt16) : Option (List Byte) := do
  let table ← storesAt tool.tableByte.toList (pmtTable pcrPid esPid streamType progNum)
  let (table, infoLen) ← tool.addSystemSoftwareUpdateInfo 21 table
  let table ← storesAt table (pmtLengths infoLen)
  let table ← fcsCoderAt table (21 + infoLen)
  some (insertHeader pmtPid.toNat continuityCount ++ table.take (21 + infoLen + 4) ++
    List.replicate (188 - (21 + infoLen + 4 + 5)) 0xff)

/-- The stores of `insert_SDT` into its table. -/
def sdtTable (srvName srvPrvdr : List Byte) (tsId progNum : UInt16) : List (Nat × List Byte) :=
  let oriNetworkId := 0x0001
  let snLen := srvName.length
  let spLen := srvPrvdr.length
  let descLoopLen := snLen + spLen + 5
  let sectionLen := snLen + spLen + 21 + 4 - 3
  [(0, [0x42]),
    (3, putBe16 tsId.toNat ++ [0xC9, 0x00, 0x00]),
    (8, putBe16 oriNetworkId ++ [0xFF]),
    (11, putBe16 progNum.toNat ++ [0xFC]),
    (16, [0x48, byteOf (snLen + spLen + 3), 0x0C, byteOf spLen]),
    (20, srvPrvdr),
    (spLen + 20, [byteOf snLen]),
    (spLen + 21, srvName),
    (14, [byteOf (0x80 ||| descLoopLen >>> 8), byteOf (descLoopLen &&& 0xFF)]),
    (1, [byteOf (0xF0 ||| sectionLen >>> 8), byteOf (sectionLen &&& 0xFF)])]

/-- `insert_SDT`; no pad where the content is longer than the packet. -/
def OtaStatics.insertSdt (tool : OtaStatics) (continuityCount : Nat) (tsId progNum : UInt16) :
    Option (List Byte) := do
  let snLen := tool.srvName.bytes.length
  let spLen := tool.srvPrvdr.bytes.length
  let table ← storesAt tool.sdtStack.toList
    (sdtTable tool.srvName.bytes tool.srvPrvdr.bytes tsId progNum)
  let table ← fcsCoderAt table (snLen + spLen + 21)
  some (insertHeader 17 continuityCount ++ table.take (snLen + spLen + 21 + 4) ++
    List.replicate (188 - (snLen + spLen + 21 + 4 + 5)) 0xff)

/-- A file being read: what is left of it, and `feof`. -/
structure InputFile where
  rest : List Byte
  eof : Bool

/-- `getc` as a byte: `EOF` is `0xff`, and sets `feof`. -/
def InputFile.getc (fin : InputFile) : Byte × InputFile :=
  match fin.rest with
  | [] => (0xff, { fin with eof := true })
  | byte :: rest => (byte, { fin with rest := rest })

/-- `putc(getc(fin),fout)` a number of times. -/
def InputFile.copy : Nat → InputFile → List Byte × InputFile
  | 0, fin => ([], fin)
  | count + 1, fin =>
      let (byte, fin) := fin.getc
      let (bytes, fin) := fin.copy count
      (byte :: bytes, fin)

theorem InputFile.getc_rest (fin : InputFile) : fin.getc.2.rest.length ≤ fin.rest.length := by
  rw [getc]
  split
  · exact Nat.le_refl _
  · rename_i found
    rw [found, List.length_cons]
    exact Nat.le_succ _

theorem InputFile.getc_sync (fin : InputFile) (sync : fin.getc.1 = 0x47) :
    fin.getc.2.rest.length < fin.rest.length := by
  rw [getc] at sync ⊢
  split
  · rename_i found
    have differs : (0xff : Byte) ≠ 0x47 := by decide
    rw [found] at sync
    exact absurd sync differs
  · rename_i found
    rw [found, List.length_cons]
    exact Nat.lt_succ_self _

theorem InputFile.copy_rest (count : Nat) (fin : InputFile) :
    (fin.copy count).2.rest.length ≤ fin.rest.length := by
  induction count generalizing fin with
  | zero => exact Nat.le_refl _
  | succ count ih => exact Nat.le_trans (ih _) fin.getc_rest

/-- The loop of `table_insert`. -/
def InputFile.copyPackets (fin : InputFile) : List Byte :=
  if fin.eof then []
  else
    if _ : fin.getc.1 = 0x47 then
      fin.getc.1 :: (fin.getc.2.copy 187).1 ++ (fin.getc.2.copy 187).2.copyPackets
    else []
termination_by fin.rest.length
decreasing_by exact Nat.lt_of_le_of_lt (InputFile.copy_rest _ _) (fin.getc_sync ‹_›)

/-- `table_insert`: what it writes to the output file. -/
def OtaStatics.tableInsert (tool : OtaStatics) (tsId progNum pmtPid pid : UInt16) (fin : List Byte) :
    Option (List Byte) := do
  let pcrPid := 0x1fff
  let streamType := 0xB
  let pat ← tool.insertPat 0 tsId progNum pmtPid
  let pmt ← tool.insertPmt 1 pcrPid pid streamType pmtPid progNum
  let sdt ← tool.insertSdt 2 tsId progNum
  some (pat ++ pmt ++ sdt ++ InputFile.copyPackets { rest := fin, eof := false })

/-- The packets of a stream, one behind the other. -/
def tsStream (packets : List TsPacket) : List Byte := packets.flatMap TsPacket.bytes

/-! ### The tables -/

theorem storesAt_some {buf : List Byte} (stores : List (Nat × List Byte))
    (inside : ∀ place ∈ stores, place.1 + place.2.length ≤ buf.length) :
    ∃ after, storesAt buf stores = some after ∧ after.length = buf.length := by
  induction stores generalizing buf with
  | nil => exact ⟨buf, rfl, rfl⟩
  | cons place stores ih =>
      obtain ⟨next, stored, length⟩ := storeAt_some (inside place List.mem_cons_self)
      have rest : ∀ place ∈ stores, place.1 + place.2.length ≤ next.length := by
        intro place member
        rw [length]
        exact inside place (List.mem_cons_of_mem _ member)
      obtain ⟨after, storedAll, lengthAll⟩ := ih rest
      refine ⟨after, ?_, lengthAll.trans length⟩
      rw [storesAt, List.foldlM_cons, stored]
      exact storedAll

theorem storesAt_length {buf after : List Byte} {stores : List (Nat × List Byte)}
    (stored : storesAt buf stores = some after) : after.length = buf.length := by
  induction stores generalizing buf with
  | nil =>
      cases stored
      rfl
  | cons place stores ih =>
      rw [storesAt, List.foldlM_cons] at stored
      obtain ⟨next, first, rest⟩ := Option.bind_eq_some_iff.mp stored
      exact (ih rest).trans (storeAt_length first)

theorem fcsCoderAt_some {buf : List Byte} {len : Nat} (inside : len + 4 ≤ buf.length) :
    ∃ after, fcsCoderAt buf len = some after ∧ after.length = buf.length :=
  storeAt_some inside

theorem fcsCoderAt_inside {buf after : List Byte} {len : Nat}
    (coded : fcsCoderAt buf len = some after) : len + 4 ≤ buf.length ∧ after.length = buf.length :=
  ⟨storeAt_inside coded, storeAt_length coded⟩

theorem insertHeader_packet (pid continuityCount pad : Nat) (content : List Byte)
    (size : 5 + content.length + pad = 188) :
    ∃ packet : TsPacket,
      insertHeader pid continuityCount ++ content ++ List.replicate pad 0xff = packet.bytes := by
  have length : (insertHeader pid continuityCount ++ content ++
      List.replicate pad (0xff : Byte)).length = 188 := by
    rw [List.length_append, List.length_append, List.length_replicate]
    exact size
  exact ⟨⟨_, length, rfl⟩, rfl⟩

theorem insertPat_packet (tool : OtaStatics) (continuityCount : Nat) (tsId progNum pmtPid : UInt16) :
    ∃ pat : TsPacket, tool.insertPat continuityCount tsId progNum pmtPid = some pat.bytes := by
  have length : tool.patStack.toList.length = 16 := Vector.length_toList
  have inside : ∀ place ∈ patTable tsId progNum pmtPid,
      place.1 + place.2.length ≤ tool.patStack.toList.length := by
    simp [length, patTable, putBe16]
  obtain ⟨table, stored, tableLength⟩ := storesAt_some _ inside
  have room : 12 + 4 ≤ table.length := by omega
  obtain ⟨coded, codedAt, codedLength⟩ := fcsCoderAt_some room
  have content : 5 + (coded.take 16).length + (180 - 13) = 188 := by
    rw [List.length_take, codedLength, tableLength, length]
    rfl
  obtain ⟨pat, same⟩ := insertHeader_packet 0 continuityCount (180 - 13) _ content
  refine ⟨pat, ?_⟩
  simp only [OtaStatics.insertPat, stored, codedAt, Option.bind_eq_bind, Option.bind_some, same]

/-! ### The groups -/

theorem addGroup_length {tool : OtaStatics} {at_ i : Nat} {buf after : List Byte}
    (added : tool.addGroup at_ buf i = some after) : i < 32 ∧ after.length = buf.length := by
  obtain ⟨oui, found, stored⟩ := Option.bind_eq_some_iff.mp added
  exact ⟨(Vector.getElem?_eq_some_iff.mp found).1, storeAt_length stored⟩

theorem addGroup_some (tool : OtaStatics) {at_ i : Nat} {buf : List Byte} (known : i < 32)
    (inside : at_ + 7 + 6 * i ≤ buf.length) :
    ∃ after, tool.addGroup at_ buf i = some after ∧ after.length = buf.length := by
  rw [OtaStatics.addGroup, Vector.getElem?_eq_getElem known, Option.bind_some]
  apply storeAt_some
  simp only [putBe24, List.length_append, List.length_cons, List.length_nil]
  omega

theorem addGroups_some (tool : OtaStatics) (at_ count : Nat) (buf : List Byte) (known : count ≤ 32)
    (inside : at_ + 1 + 6 * count ≤ buf.length) :
    ∃ after, (List.range count).foldlM (tool.addGroup at_) buf = some after ∧
      after.length = buf.length := by
  induction count with
  | zero => exact ⟨buf, rfl, rfl⟩
  | succ count ih =>
      obtain ⟨front, stored, length⟩ := ih (by omega) (by omega)
      have room : at_ + 7 + 6 * count ≤ front.length := by omega
      obtain ⟨after, added, sameLength⟩ := addGroup_some tool known room
      refine ⟨after, ?_, sameLength.trans length⟩
      rw [List.range_succ, List.foldlM_append, stored, Option.bind_eq_bind, Option.bind_some,
        List.foldlM_cons, added]
      rfl

theorem addGroups_known {tool : OtaStatics} {at_ count : Nat} {buf after : List Byte}
    (added : (List.range count).foldlM (tool.addGroup at_) buf = some after) : count ≤ 32 := by
  cases count with
  | zero => exact Nat.zero_le _
  | succ count =>
      rw [List.range_succ, List.foldlM_append] at added
      obtain ⟨front, _, rest⟩ := Option.bind_eq_some_iff.mp added
      rw [List.foldlM_cons] at rest
      obtain ⟨last, stored, _⟩ := Option.bind_eq_some_iff.mp rest
      exact (addGroup_length stored).1

/-- The length `add_system_software_update_info` returns. -/
def OtaStatics.infoLen (tool : OtaStatics) : Nat := (byteOf (6 * tool.groupNum)).toNat + 1

theorem addSystemSoftwareUpdateInfo_some (tool : OtaStatics) (at_ : Nat) (buf : List Byte)
    (known : tool.groupNum ≤ 32) (inside : at_ + 1 + 6 * tool.groupNum ≤ buf.length) :
    ∃ after, tool.addSystemSoftwareUpdateInfo at_ buf = some (after, tool.infoLen) ∧
      after.length = buf.length := by
  obtain ⟨groups, added, length⟩ := addGroups_some tool at_ tool.groupNum buf known inside
  have room : at_ + [byteOf (6 * tool.groupNum)].length ≤ groups.length := by
    rw [List.length_singleton]
    omega
  obtain ⟨after, stored, sameLength⟩ := storeAt_some room
  refine ⟨after, ?_, sameLength.trans length⟩
  simp only [OtaStatics.addSystemSoftwareUpdateInfo, added, stored, Option.bind_eq_bind,
    Option.bind_some, OtaStatics.infoLen]

theorem insertPmt_some (tool : OtaStatics) (known : tool.groupNum ≤ 32) (continuityCount : Nat)
    (pcrPid esPid : UInt16) (streamType : Byte) (pmtPid progNum : UInt16) :
    ∃ content : List Byte, content.length = 6 * tool.groupNum + 26 ∧
      tool.insertPmt continuityCount pcrPid esPid streamType pmtPid progNum =
        some (insertHeader pmtPid.toNat continuityCount ++ content ++
          List.replicate (188 - (5 + content.length)) 0xff) := by
  have length : tool.tableByte.toList.length = 1024 := Vector.length_toList
  have infoLen : tool.infoLen = 6 * tool.groupNum + 1 := by
    rw [OtaStatics.infoLen, byteOf_toNat]
    omega
  have frontInside : ∀ place ∈ pmtTable pcrPid esPid streamType progNum,
      place.1 + place.2.length ≤ tool.tableByte.toList.length := by
    simp [length, pmtTable, putBe16]
  obtain ⟨front, frontStored, frontLength⟩ := storesAt_some _ frontInside
  have groupsInside : 21 + 1 + 6 * tool.groupNum ≤ front.length := by omega
  obtain ⟨groups, groupsStored, groupsLength⟩ :=
    addSystemSoftwareUpdateInfo_some tool 21 front known groupsInside
  have lengthsInside : ∀ place ∈ pmtLengths tool.infoLen,
      place.1 + place.2.length ≤ groups.length := by
    rw [groupsLength, frontLength, length]
    simp [pmtLengths]
  obtain ⟨table, tableStored, tableLength⟩ := storesAt_some _ lengthsInside
  have room : 21 + tool.infoLen + 4 ≤ table.length := by omega
  obtain ⟨coded, codedStored, codedLength⟩ := fcsCoderAt_some room
  have content : (coded.take (21 + tool.infoLen + 4)).length = 21 + tool.infoLen + 4 := by
    rw [List.length_take]
    omega
  refine ⟨coded.take (21 + tool.infoLen + 4), by omega, ?_⟩
  rw [content, Nat.add_comm 5]
  simp only [OtaStatics.insertPmt, frontStored, groupsStored, tableStored, codedStored,
    Option.bind_eq_bind, Option.bind_some]

theorem insertPmt_known {tool : OtaStatics} {continuityCount : Nat} {pcrPid esPid : UInt16}
    {streamType : Byte} {pmtPid progNum : UInt16} {bytes : List Byte}
    (inserted : tool.insertPmt continuityCount pcrPid esPid streamType pmtPid progNum = some bytes) :
    tool.groupNum ≤ 32 := by
  obtain ⟨front, _, rest⟩ := Option.bind_eq_some_iff.mp inserted
  obtain ⟨groups, groupsStored, _⟩ := Option.bind_eq_some_iff.mp rest
  obtain ⟨added, addedGroups, _⟩ := Option.bind_eq_some_iff.mp groupsStored
  exact addGroups_known addedGroups

/-! ### The names -/

theorem insertSdt_some (tool : OtaStatics)
    (names : tool.srvName.bytes.length + tool.srvPrvdr.bytes.length ≤ 231) (continuityCount : Nat)
    (tsId progNum : UInt16) :
    ∃ content : List Byte,
      content.length = tool.srvName.bytes.length + tool.srvPrvdr.bytes.length + 25 ∧
      tool.insertSdt continuityCount tsId progNum =
        some (insertHeader 17 continuityCount ++ content ++
          List.replicate (188 - (5 + content.length)) 0xff) := by
  have length : tool.sdtStack.toList.length = 256 := Vector.length_toList
  have inside : ∀ place ∈ sdtTable tool.srvName.bytes tool.srvPrvdr.bytes tsId progNum,
      place.1 + place.2.length ≤ tool.sdtStack.toList.length := by
    simp only [length, sdtTable, putBe16, List.forall_mem_cons, List.length_append,
      List.length_cons, List.length_nil]
    refine ⟨?_, ?_, ?_, ?_, ?_, ?_, ?_, ?_, ?_, ?_, ?_⟩
    all_goals first | omega | simp
  obtain ⟨table, tableStored, tableLength⟩ := storesAt_some _ inside
  have room : tool.srvName.bytes.length + tool.srvPrvdr.bytes.length + 21 + 4 ≤ table.length := by
    omega
  obtain ⟨coded, codedStored, codedLength⟩ := fcsCoderAt_some room
  have content : (coded.take
      (tool.srvName.bytes.length + tool.srvPrvdr.bytes.length + 21 + 4)).length =
      tool.srvName.bytes.length + tool.srvPrvdr.bytes.length + 21 + 4 := by
    rw [List.length_take]
    omega
  refine ⟨coded.take (tool.srvName.bytes.length + tool.srvPrvdr.bytes.length + 21 + 4), content, ?_⟩
  rw [content, Nat.add_comm 5]
  simp only [OtaStatics.insertSdt, tableStored, codedStored, Option.bind_eq_bind, Option.bind_some]

theorem insertSdt_inside {tool : OtaStatics} {continuityCount : Nat} {tsId progNum : UInt16}
    {bytes : List Byte} (inserted : tool.insertSdt continuityCount tsId progNum = some bytes) :
    tool.srvName.bytes.length + tool.srvPrvdr.bytes.length ≤ 231 := by
  have length : tool.sdtStack.toList.length = 256 := Vector.length_toList
  obtain ⟨table, stored, rest⟩ := Option.bind_eq_some_iff.mp inserted
  obtain ⟨coded, codedStored, _⟩ := Option.bind_eq_some_iff.mp rest
  have room := (fcsCoderAt_inside codedStored).1
  have kept := storesAt_length stored
  omega

/-! ### A packet exactly when the content fits -/

theorem padded_packet (pid continuityCount : Nat) (content : List Byte) :
    (∃ packet : TsPacket, insertHeader pid continuityCount ++ content ++
        List.replicate (188 - (5 + content.length)) 0xff = packet.bytes) ↔ content.length ≤ 183 := by
  constructor
  · rintro ⟨packet, same⟩
    have length := packet.size
    rw [← same, List.length_append, List.length_append, List.length_replicate] at length
    have header : (insertHeader pid continuityCount).length = 5 := rfl
    omega
  · intro short
    exact insertHeader_packet pid continuityCount _ content (by omega)

theorem insertPmt_packet (tool : OtaStatics) (continuityCount : Nat) (pcrPid esPid : UInt16)
    (streamType : Byte) (pmtPid progNum : UInt16) :
    (∃ pmt : TsPacket, tool.insertPmt continuityCount pcrPid esPid streamType pmtPid progNum =
      some pmt.bytes) ↔ tool.groupNum ≤ 26 := by
  constructor
  · rintro ⟨pmt, inserted⟩
    have known := insertPmt_known inserted
    obtain ⟨content, length, written⟩ :=
      insertPmt_some tool known continuityCount pcrPid esPid streamType pmtPid progNum
    have same := Option.some.inj (written.symm.trans inserted)
    have short := (padded_packet _ _ content).mp ⟨pmt, same⟩
    omega
  · intro few
    obtain ⟨content, length, written⟩ := insertPmt_some tool (Nat.le_trans few (by decide))
      continuityCount pcrPid esPid streamType pmtPid progNum
    have short : content.length ≤ 183 := by omega
    obtain ⟨pmt, same⟩ := (padded_packet pmtPid.toNat continuityCount content).mpr short
    exact ⟨pmt, written.trans (congrArg some same)⟩

theorem insertSdt_packet (tool : OtaStatics) (continuityCount : Nat) (tsId progNum : UInt16) :
    (∃ sdt : TsPacket, tool.insertSdt continuityCount tsId progNum = some sdt.bytes) ↔
      tool.srvName.bytes.length + tool.srvPrvdr.bytes.length ≤ 158 := by
  constructor
  · rintro ⟨sdt, inserted⟩
    have room := insertSdt_inside inserted
    obtain ⟨content, length, written⟩ := insertSdt_some tool room continuityCount tsId progNum
    have same := Option.some.inj (written.symm.trans inserted)
    have short := (padded_packet _ _ content).mp ⟨sdt, same⟩
    omega
  · intro names
    obtain ⟨content, length, written⟩ :=
      insertSdt_some tool (Nat.le_trans names (by decide)) continuityCount tsId progNum
    have short : content.length ≤ 183 := by omega
    obtain ⟨sdt, same⟩ := (padded_packet 17 continuityCount content).mpr short
    exact ⟨sdt, written.trans (congrArg some same)⟩

/-! ### The packets behind them -/

theorem InputFile.copy_append (bytes rest : List Byte) (eof : Bool) :
    InputFile.copy bytes.length { rest := bytes ++ rest, eof := eof } =
      (bytes, { rest := rest, eof := eof }) := by
  induction bytes with
  | nil => rfl
  | cons byte bytes ih =>
      rw [List.length_cons, copy]
      simp only [getc, List.cons_append, ih]

theorem InputFile.copyPackets_nil :
    InputFile.copyPackets { rest := [], eof := false } = [] := by
  rw [copyPackets]
  simp [getc]

theorem InputFile.copyPackets_packet (packet : TsPacket) (rest : List Byte) :
    InputFile.copyPackets { rest := packet.bytes ++ rest, eof := false } =
      packet.bytes ++ InputFile.copyPackets { rest := rest, eof := false } := by
  obtain ⟨bytes, size, sync⟩ := packet
  cases bytes with
  | nil => cases sync
  | cons byte bytes =>
      have first : byte = 0x47 := Option.some.inj sync
      have others : bytes.length = 187 := Nat.succ.inj size
      have copied := copy_append bytes rest false
      rw [others] at copied
      subst first
      rw [copyPackets]
      simp [getc, copied]

theorem copyPackets_tsStream (packets : List TsPacket) :
    InputFile.copyPackets { rest := tsStream packets, eof := false } = tsStream packets := by
  induction packets with
  | nil => exact InputFile.copyPackets_nil
  | cons packet packets ih =>
      rw [tsStream, List.flatMap_cons, InputFile.copyPackets_packet]
      exact congrArg (packet.bytes ++ ·) ih

/-- The output is a sequence of packets, each table in one of them. -/
def OtaStatics.Inserts (tool : OtaStatics) (tsId progNum pmtPid pid : UInt16)
    (packets : List TsPacket) : Prop :=
  ∃ pat pmt sdt : TsPacket,
    tool.insertPat 0 tsId progNum pmtPid = some pat.bytes ∧
    tool.insertPmt 1 0x1fff pid 0xB pmtPid progNum = some pmt.bytes ∧
    tool.insertSdt 2 tsId progNum = some sdt.bytes ∧
    tool.tableInsert tsId progNum pmtPid pid (tsStream packets) =
      some (tsStream (pat :: pmt :: sdt :: packets))

/-- Each table is one packet and the packets behind them stay as they were exactly when
at most 26 groups and at most 158 bytes of names go into the tables. -/
theorem tables_inserted_iff (tool : OtaStatics) (tsId progNum pmtPid pid : UInt16)
    (packets : List TsPacket) :
    tool.Inserts tsId progNum pmtPid pid packets ↔
      tool.groupNum ≤ 26 ∧ tool.srvName.bytes.length + tool.srvPrvdr.bytes.length ≤ 158 := by
  constructor
  · rintro ⟨_, pmt, sdt, _, pmtInserted, sdtInserted, _⟩
    exact ⟨(insertPmt_packet tool 1 _ pid _ pmtPid progNum).mp ⟨pmt, pmtInserted⟩,
      (insertSdt_packet tool 2 tsId progNum).mp ⟨sdt, sdtInserted⟩⟩
  · rintro ⟨few, names⟩
    obtain ⟨pat, patInserted⟩ := insertPat_packet tool 0 tsId progNum pmtPid
    obtain ⟨pmt, pmtInserted⟩ := (insertPmt_packet tool 1 0x1fff pid 0xB pmtPid progNum).mpr few
    obtain ⟨sdt, sdtInserted⟩ := (insertSdt_packet tool 2 tsId progNum).mpr names
    refine ⟨pat, pmt, sdt, patInserted, pmtInserted, sdtInserted, ?_⟩
    simp only [OtaStatics.tableInsert, patInserted, pmtInserted, sdtInserted, Option.bind_eq_bind,
      Option.bind_some, copyPackets_tsStream]
    simp only [tsStream, List.flatMap_cons, List.append_assoc]

/-- A name of 80 bytes. -/
def otaName : OtaString where
  bytes := List.replicate 80 0x41
  plain := by decide
  fits := by decide

/-- One group, as `g_group_num` stands, and names of 80 bytes. -/
def otaNames : OtaStatics where
  groupNum := 1
  oui := Vector.replicate 32 0
  srvName := otaName
  srvPrvdr := otaName
  tableByte := Vector.replicate 1024 0
  patStack := Vector.replicate 16 0
  sdtStack := Vector.replicate 256 0

/-- Two names of 80 bytes make the SDT longer than a packet. -/
theorem tables_not_inserted :
    ¬ ∀ tool : OtaStatics, tool.groupNum ≤ 32 →
      ∀ (tsId progNum pmtPid pid : UInt16) (packets : List TsPacket),
        tool.Inserts tsId progNum pmtPid pid packets := by
  intro claimed
  have known : otaNames.groupNum ≤ 32 := by decide
  obtain ⟨_, _, sdt, _, _, inserted, _⟩ := claimed otaNames known 0 1 0x20 0x100 []
  have names := (insertSdt_packet otaNames 2 0 1).mp ⟨sdt, inserted⟩
  have long : ¬ otaNames.srvName.bytes.length + otaNames.srvPrvdr.bytes.length ≤ 158 := by decide
  exact long names


end Alisl.Upgrade
