import Alisl.Upgrade.LibOta

/-! A piece put together by version 4's `ddb_section`, whatever sections arrive. -/

namespace Alisl.Upgrade

open Alisl.Base

theorem ModulesRange.mem_indexes (range : ModulesRange) (index : Nat) :
    index ∈ range.indexes ↔ range.start ≤ index ∧ index ≤ range.stop := by
  rw [ModulesRange.indexes, List.mem_range'_1]
  omega

/-- A module table and a range of it that a piece may be downloaded with. -/
structure PieceTable (range : ModulesRange) (table : ModuleTable) : Prop where
  order : range.start ≤ range.stop
  bound : range.stop < table.moduleNum
  distinct : ∀ left < table.moduleNum, ∀ right < table.moduleNum,
    (table.modules left).moduleId = (table.modules right).moduleId → left = right
  blocksize : 0 < table.blocksize
  size : ∀ index < table.moduleNum, 1 ≤ (table.modules index).moduleBufSize
  blocks : ∀ index < table.moduleNum, (table.modules index).blockNum =
    ((table.modules index).moduleBufSize + table.blocksize - 1) / table.blocksize
  few : ∀ index < table.moduleNum,
    1 ≤ (table.modules index).blockNum ∧ (table.modules index).blockNum ≤ 1024

/-- What a call of the data parser can do to a module whose blocks fit its map. -/
theorem ddbData_cases (versionLen : Nat) (memory : Memory) (data blocksize blkId : Nat)
    (state : DdbStore) (fits : state.entry.blockNum ≤ 32 * bitMapNum) :
    ddbData versionLen memory data blocksize blkId state = .fail state ∨
      ∃ blockNum, blockNum = getBe16 memory ((readMessageHeader memory data).next + 2 + versionLen + 1) ∧
        blockNum < state.entry.blockNum ∧ blockNum * blocksize < state.entry.moduleBufSize ∧
        state.entry.blockReceived.test blockNum = false ∧
        ddbData versionLen memory data blocksize blkId state = .success (acceptBlock memory
          ((readMessageHeader memory data).next + 2 + versionLen + 1 + 2) blocksize blockNum state) := by
  simp only [ddbData]
  split
  · exact .inl rfl
  split
  · exact .inl rfl
  split
  · exact .inl rfl
  split
  · exact .inl rfl
  split
  · omega
  split
  · exact .inl rfl
  split
  · exact .inl rfl
  · rename_i counted inside _ missing _
    exact .inr ⟨_, rfl, by omega, by omega, by simpa using missing, rfl⟩

/-- A block of a module that is accepted. -/
structure Accepts (range : ModulesRange) (memory : Memory) (receiver : Receiver) (index : Nat)
    (copy : BlockCopy) (after : DdbStore) : Prop where
  wanted : index ∈ range.indexes
  module : copy.index = index
  number : copy.blockNum < (receiver.table.modules index).blockNum
  start : copy.blockNum * receiver.table.blocksize < (receiver.table.modules index).moduleBufSize
  missing : (receiver.table.modules index).blockReceived.test copy.blockNum = false
  address : copy.address =
    (receiver.table.modules index).moduleBufPointer + copy.blockNum * receiver.table.blocksize
  length : copy.data.length = blockLenOf (receiver.table.modules index).moduleBufSize
    receiver.table.blocksize copy.blockNum
  entry : after.entry = { receiver.table.modules index with
    blockReceived := (receiver.table.modules index).blockReceived.set copy.blockNum
    moduleDownloadFinish :=
      ((receiver.table.modules index).blockReceived.set copy.blockNum).full bitMapNum }
  ram : after.ram = store receiver.ram copy.address copy.data

theorem parseDsmccSec_ddb_cases (range : ModulesRange) (memory : Memory) (receiver : Receiver)
    (index : Nat) (wanted : index ∈ range.indexes)
    (fits : (receiver.table.modules index).blockNum ≤ 32 * bitMapNum) :
    parseDsmccSec v4 memory 0 0 (.ddb index) receiver = .fail receiver ∨
      ∃ after, Accepts range memory receiver index (V4.ddbCopy memory receiver index) after ∧
        parseDsmccSec v4 memory 0 0 (.ddb index) receiver = .success (receiver.putDdb index after) := by
  simp only [parseDsmccSec, v4, V4.alislDdbData]
  by_cases known : getBe16 memory (0 + 3) = (receiver.table.modules index).moduleId
  · rw [if_neg (not_not_intro known)]
    rcases ddbData_cases 0 memory (0 + 7) receiver.table.blocksize (memory (0 + 6)).toNat
      ⟨receiver.table.modules index, receiver.ram⟩ fits with
      refused | ⟨blockNum, read, counted, inside, missing, accepted⟩
    · left
      rw [refused, DbcOutcome.map, Receiver.putDdb_self]
    · right
      rw [accepted]
      subst read
      exact ⟨_, ⟨wanted, rfl, counted, inside, missing, rfl, slice_length .., rfl, rfl⟩, rfl⟩
  · left
    rw [if_pos known]

/-- One section: nothing changes, or a missing block of a wanted module is copied
and marked, and the request ends with the last one. -/
theorem ddbSection_cases (range : ModulesRange) (memory : Memory) (request : PieceRequest)
    (fits : ∀ index ∈ range.indexes,
      (request.receiver.table.modules index).blockNum ≤ 32 * bitMapNum) :
    V4.ddbSection range memory request = some request ∨
      ∃ index copy after, Accepts range memory request.receiver index copy after ∧
        V4.ddbSection range memory request =
          if (request.receiver.putDdb index after).rangeFinished range then
            some ⟨request.receiver.putDdb index after, false, request.unlocks + 1,
              request.copies ++ [copy]⟩
          else some ⟨request.receiver.putDdb index after, request.continueGetSec, request.unlocks,
            request.copies ++ [copy]⟩ := by
  simp only [V4.ddbSection]
  split
  · exact .inl rfl
  cases found : request.receiver.findInRange range (getBe16 memory 3) with
  | none => exact .inl rfl
  | some index =>
      have wanted : index ∈ range.indexes := List.mem_of_find?_eq_some found
      dsimp only
      split
      · exact .inl rfl
      rcases parseDsmccSec_ddb_cases range memory request.receiver index wanted (fits index wanted) with
        refused | ⟨after, accepts, accepted⟩
      · left
        rw [refused]
      · right
        rw [accepted]
        exact ⟨index, _, after, accepts, rfl⟩

def BlockCopy.slot (copy : BlockCopy) : Nat × Nat := (copy.index, copy.blockNum)

/-- The copy lies inside the buffer of its module, where its block belongs. -/
structure BlockCopy.Placed (copy : BlockCopy) (range : ModulesRange) (table : ModuleTable) : Prop where
  wanted : copy.index ∈ range.indexes
  number : copy.blockNum < (table.modules copy.index).blockNum
  address : copy.address =
    (table.modules copy.index).moduleBufPointer + copy.blockNum * table.blocksize
  length : copy.data.length =
    blockLenOf (table.modules copy.index).moduleBufSize table.blocksize copy.blockNum
  inside : copy.address + copy.data.length ≤
    (table.modules copy.index).moduleBufPointer + (table.modules copy.index).moduleBufSize

def DCModuleInfo.Apart (left right : DCModuleInfo) : Prop :=
  left.moduleBufPointer + left.moduleBufSize ≤ right.moduleBufPointer ∨
    right.moduleBufPointer + right.moduleBufSize ≤ left.moduleBufPointer

/-- Every block of every wanted module is marked. -/
def Receiver.Complete (receiver : Receiver) (range : ModulesRange) : Prop :=
  ∀ index ∈ range.indexes, ∀ block < (receiver.table.modules index).blockNum,
    (receiver.table.modules index).blockReceived.test block = true

/-- What the sections have left behind, compared with the receiver before the
request: marks and copies agree, each block was copied once and to its place, the
memory has just these copies (none of them damaged, as far as the buffers are
apart), other modules are as they were, and the request is open until the piece is
complete. -/
structure Reassembled (range : ModulesRange) (receiver : Receiver) (request : PieceRequest) : Prop where
  received : ∀ index ∈ range.indexes, ∀ block < (receiver.table.modules index).blockNum,
    (request.receiver.table.modules index).blockReceived.test block = true ↔
      ∃ copy ∈ request.copies, copy.slot = (index, block)
  placed : ∀ copy ∈ request.copies, copy.Placed range receiver.table
  once : (request.copies.map BlockCopy.slot).Nodup
  ram : request.receiver.ram =
    request.copies.foldl (fun ram copy => store ram copy.address copy.data) receiver.ram
  intact : ∀ copy ∈ request.copies,
    (∀ index ∈ range.indexes, index ≠ copy.index →
      (receiver.table.modules index).Apart (receiver.table.modules copy.index)) →
    slice request.receiver.ram copy.address copy.data.length = copy.data
  outside : ∀ index, index ∉ range.indexes →
    request.receiver.table.modules index = receiver.table.modules index
  fixed : ∀ index, request.receiver.table.modules index = { receiver.table.modules index with
    blockReceived := (request.receiver.table.modules index).blockReceived
    moduleDownloadFinish := (request.receiver.table.modules index).moduleDownloadFinish }
  number : request.receiver.table.moduleNum = receiver.table.moduleNum
  blocksize : request.receiver.table.blocksize = receiver.table.blocksize
  complete : request.continueGetSec = false ↔ request.receiver.Complete range
  unlocks : request.unlocks = if request.continueGetSec = true then 0 else 1

/-- The maps count the blocks behind the last one as received, so that the finish
flags can test whole words. -/
structure Reassembling (range : ModulesRange) (receiver : Receiver) (request : PieceRequest) : Prop
    extends Reassembled range receiver request where
  behind : ∀ index ∈ range.indexes, ∀ block, (receiver.table.modules index).blockNum ≤ block →
    (request.receiver.table.modules index).blockReceived.test block = true
  finish : ∀ index ∈ range.indexes,
    (request.receiver.table.modules index).moduleDownloadFinish = true ↔
      ∀ block < (request.receiver.table.modules index).blockNum,
        (request.receiver.table.modules index).blockReceived.test block = true

theorem Receiver.rangeFinished_iff (receiver : Receiver) (range : ModulesRange)
    (finish : ∀ index ∈ range.indexes, (receiver.table.modules index).moduleDownloadFinish = true ↔
      ∀ block < (receiver.table.modules index).blockNum,
        (receiver.table.modules index).blockReceived.test block = true) :
    receiver.rangeFinished range = true ↔ receiver.Complete range := by
  rw [Receiver.rangeFinished, List.all_eq_true]
  constructor
  · intro all index wanted
    exact (finish index wanted).mp (all index wanted)
  · intro all index wanted
    exact (finish index wanted).mpr (all index wanted)

/-- Blocks of a module do not overlap. -/
theorem blockLenOf_le (moduleSize blocksize blockNum : Nat) :
    blockLenOf moduleSize blocksize blockNum ≤ blocksize := by
  unfold blockLenOf
  split <;> omega

theorem blockLenOf_inside (moduleSize blocksize blockNum : Nat)
    (start : blockNum * blocksize < moduleSize) :
    blockNum * blocksize + blockLenOf moduleSize blocksize blockNum ≤ moduleSize := by
  unfold blockLenOf
  split <;> omega

/-- Two copies of different blocks are apart when their modules are. -/
theorem BlockCopy.Placed.apart {range : ModulesRange} {table : ModuleTable} {left right : BlockCopy}
    (leftPlaced : left.Placed range table) (rightPlaced : right.Placed range table)
    (other : left.slot ≠ right.slot)
    (buffers : left.index ≠ right.index →
      (table.modules left.index).Apart (table.modules right.index)) :
    right.address + right.data.length ≤ left.address ∨
      left.address + left.data.length ≤ right.address := by
  have leftLow := leftPlaced.address
  have rightLow := rightPlaced.address
  by_cases module : left.index = right.index
  · have block : left.blockNum ≠ right.blockNum := by
      intro same
      exact other (by rw [slot, slot, module, same])
    have leftLen := blockLenOf_le (table.modules left.index).moduleBufSize table.blocksize left.blockNum
    have rightLen :=
      blockLenOf_le (table.modules right.index).moduleBufSize table.blocksize right.blockNum
    rw [← leftPlaced.length] at leftLen
    rw [← rightPlaced.length] at rightLen
    rw [module] at leftLow
    rcases Nat.lt_or_gt_of_ne block with lower | higher
    · right
      have next := Nat.mul_le_mul_right table.blocksize (Nat.succ_le_of_lt lower)
      rw [Nat.succ_mul] at next
      omega
    · left
      have next := Nat.mul_le_mul_right table.blocksize (Nat.succ_le_of_lt higher)
      rw [Nat.succ_mul] at next
      omega
  · have leftHigh := leftPlaced.inside
    have rightHigh := rightPlaced.inside
    rcases buffers module with before | after
    · exact .inr (by omega)
    · exact .inl (by omega)

section Step

variable {range : ModulesRange} {receiver : Receiver} {request : PieceRequest}
  (inv : Reassembling range receiver request)

include inv

theorem Reassembling.entry_fixed (index : Nat) :
    (request.receiver.table.modules index).moduleBufPointer =
        (receiver.table.modules index).moduleBufPointer ∧
      (request.receiver.table.modules index).moduleBufSize =
        (receiver.table.modules index).moduleBufSize ∧
      (request.receiver.table.modules index).blockNum = (receiver.table.modules index).blockNum := by
  rw [inv.fixed index]
  exact ⟨rfl, rfl, rfl⟩

variable {memory : Memory} {index : Nat} {copy : BlockCopy} {after : DdbStore}
  (accepts : Accepts range memory request.receiver index copy after)

include accepts

theorem Reassembling.accepted_placed : copy.Placed range receiver.table := by
  rcases inv.entry_fixed index with ⟨pointer, size, blocks⟩
  have inside := blockLenOf_inside _ _ _ accepts.start
  have address := accepts.address
  have length := accepts.length
  rw [← length] at inside
  rw [inv.blocksize] at inside address length
  rw [pointer] at address
  rw [size] at inside length
  rw [← accepts.module] at address inside length
  constructor
  case wanted => exact accepts.module ▸ accepts.wanted
  case number =>
    rw [accepts.module, ← blocks]
    exact accepts.number
  case address => exact address
  case length => exact length
  case inside => omega

theorem Reassembling.accepted_new : copy.slot ∉ request.copies.map BlockCopy.slot := by
  intro known
  rcases List.mem_map.mp known with ⟨earlier, member, same⟩
  have counted := accepts.number
  rw [(inv.entry_fixed index).2.2] at counted
  have marked := (inv.received index accepts.wanted copy.blockNum counted).mpr
    ⟨earlier, member, by rw [same, BlockCopy.slot, accepts.module]⟩
  rw [accepts.missing] at marked
  contradiction

omit inv in
/-- The maps after the copy. -/
theorem Accepts.map (other block : Nat) :
    ((request.receiver.putDdb index after).table.modules other).blockReceived.test block =
      ((request.receiver.table.modules other).blockReceived.test block ||
        decide ((other, block) = copy.slot)) := by
  have slot : copy.slot = (index, copy.blockNum) := by rw [BlockCopy.slot, accepts.module]
  rw [slot]
  by_cases same : other = index
  · subst same
    simp only [Receiver.putDdb, ModuleTable.put, Function.update_self, accepts.entry,
      Bitmap.test_set, Prod.mk.injEq, true_and]
  · simp [Receiver.putDdb, ModuleTable.put, same]

theorem Reassembling.accepted_finish (few : (receiver.table.modules index).blockNum ≤ 32 * bitMapNum)
    (other : Nat) (wanted : other ∈ range.indexes) :
    ((request.receiver.putDdb index after).table.modules other).moduleDownloadFinish = true ↔
      ∀ block < ((request.receiver.putDdb index after).table.modules other).blockNum,
        ((request.receiver.putDdb index after).table.modules other).blockReceived.test block = true := by
  by_cases same : other = index
  · subst same
    have entry : (request.receiver.putDdb other after).table.modules other = after.entry :=
      Function.update_self ..
    have blocks : after.entry.blockNum = (receiver.table.modules other).blockNum := by
      rw [accepts.entry]
      exact (inv.entry_fixed other).2.2
    have finished : after.entry.moduleDownloadFinish = after.entry.blockReceived.full bitMapNum := by
      rw [accepts.entry]
    rw [entry, finished, Bitmap.full_iff, blocks]
    constructor
    · intro all block counted
      exact all block (by omega)
    · intro all block _
      rcases Nat.lt_or_ge block (receiver.table.modules other).blockNum with counted | beyond
      · exact all block counted
      · have marked := accepts.map other block
        rw [entry, inv.behind other wanted block beyond, Bool.true_or] at marked
        exact marked
  · have kept : (request.receiver.putDdb index after).table.modules other =
        request.receiver.table.modules other := Function.update_of_ne same ..
    rw [kept]
    exact inv.finish other wanted

/-- All that does not concern the end of the request. -/
theorem Reassembling.accepted (few : (receiver.table.modules index).blockNum ≤ 32 * bitMapNum)
    (open_ : Bool) (unlocks : Nat)
    (complete : open_ = false ↔ (request.receiver.putDdb index after).Complete range)
    (once : unlocks = if open_ = true then 0 else 1) :
    Reassembling range receiver
      ⟨request.receiver.putDdb index after, open_, unlocks, request.copies ++ [copy]⟩ := by
  have placed := inv.accepted_placed accepts
  have new := inv.accepted_new accepts
  have elsewhere (other : Nat) (apart : other ≠ index) :
      (request.receiver.putDdb index after).table.modules other =
        request.receiver.table.modules other := Function.update_of_ne apart ..
  constructor
  case toReassembled =>
    constructor
    case received =>
      intro other wanted block counted
      rw [accepts.map, Bool.or_eq_true, decide_eq_true_eq, inv.received other wanted block counted]
      constructor
      · rintro (⟨earlier, member, same⟩ | same)
        · exact ⟨earlier, List.mem_append_left _ member, same⟩
        · exact ⟨copy, List.mem_append_right _ (List.mem_singleton_self _), same.symm⟩
      · rintro ⟨earlier, member, same⟩
        rcases List.mem_append.mp member with member | member
        · exact .inl ⟨earlier, member, same⟩
        · rw [List.mem_singleton.mp member] at same
          exact .inr same.symm
    case placed =>
      intro earlier member
      rcases List.mem_append.mp member with member | member
      · exact inv.placed earlier member
      · exact List.mem_singleton.mp member ▸ placed
    case once =>
      rw [List.map_append, List.nodup_append']
      refine ⟨inv.once, List.nodup_singleton _, ?_⟩
      rw [List.disjoint_comm]
      exact List.singleton_disjoint.mpr new
    case ram =>
      rw [List.foldl_append, ← inv.ram]
      exact accepts.ram
    case intact =>
      intro earlier member buffers
      have stored : (request.receiver.putDdb index after).ram =
        store request.receiver.ram copy.address copy.data := accepts.ram
      rw [stored]
      rcases List.mem_append.mp member with member | member
      · have other : earlier.slot ≠ copy.slot := by
          intro same
          exact new (same ▸ List.mem_map_of_mem member)
        rw [slice_store_apart, inv.intact earlier member buffers]
        apply (placed.apart (inv.placed earlier member) other.symm ?_).imp id id
        intro apart
        exact buffers copy.index placed.wanted apart
      · rw [List.mem_singleton.mp member]
        exact slice_store ..
    case outside =>
      intro other unwanted
      have apart : other ≠ index := by
        rintro rfl
        exact unwanted accepts.wanted
      rw [elsewhere other apart, inv.outside other unwanted]
    case fixed =>
      intro other
      by_cases same : other = index
      · subst same
        have entry : (request.receiver.putDdb other after).table.modules other = after.entry :=
          Function.update_self ..
        rw [entry, accepts.entry, inv.fixed other]
      · rw [elsewhere other same, ← inv.fixed other]
    case number => exact inv.number
    case blocksize => exact inv.blocksize
    case complete => exact complete
    case unlocks => exact once
  case behind =>
    intro other wanted block beyond
    rw [accepts.map, inv.behind other wanted block beyond, Bool.true_or]
  case finish =>
    intro other wanted
    exact inv.accepted_finish accepts few other wanted

end Step

theorem PieceTable.fits {range : ModulesRange} {table : ModuleTable} (piece : PieceTable range table)
    (index : Nat) (wanted : index ∈ range.indexes) :
    (table.modules index).blockNum ≤ 32 * bitMapNum := by
  have low := (range.mem_indexes index).mp wanted
  have bound := piece.bound
  exact (piece.few index (by omega)).2

/-- A section never fails badly. It closes the request exactly when it completes
the piece. -/
theorem Reassembling.step {range : ModulesRange} {receiver : Receiver} {request : PieceRequest}
    (inv : Reassembling range receiver request) (piece : PieceTable range receiver.table)
    (memory : Memory) :
    ∃ later, V4.ddbSection range memory request = some later ∧ Reassembling range receiver later ∧
      (later.unlocks = request.unlocks + 1 ↔
        ¬ request.receiver.Complete range ∧ later.receiver.Complete range) := by
  have fits (index : Nat) (wanted : index ∈ range.indexes) :
      (request.receiver.table.modules index).blockNum ≤ 32 * bitMapNum := by
    rw [(inv.entry_fixed index).2.2]
    exact piece.fits index wanted
  rcases ddbSection_cases range memory request fits with same | ⟨index, copy, after, accepts, result⟩
  · refine ⟨request, same, inv, ?_⟩
    constructor
    · omega
    · rintro ⟨open_, closed⟩
      exact absurd closed open_
  · have few := piece.fits index accepts.wanted
    -- the block was missing, so the request was open
    have missing : ¬ request.receiver.Complete range := by
      intro complete
      have marked := complete index accepts.wanted copy.blockNum accepts.number
      rw [accepts.missing] at marked
      contradiction
    have open_ : request.continueGetSec = true := by
      rw [← Bool.not_eq_false, inv.complete]
      exact missing
    have before : request.unlocks = 0 := by
      rw [inv.unlocks, if_pos open_]
    have finished := Receiver.rangeFinished_iff _ range (inv.accepted_finish accepts few)
    by_cases complete : (request.receiver.putDdb index after).Complete range
    · rw [if_pos (finished.mpr complete)] at result
      refine ⟨_, result, inv.accepted accepts few false _ ?_ ?_, ?_⟩
      · simp [complete]
      · simp [before]
      · simp [missing, complete]
    · rw [if_neg (mt finished.mp complete)] at result
      refine ⟨_, result, inv.accepted accepts few _ _ ?_ ?_, ?_⟩
      · simp [open_, complete]
      · simp [open_, before]
      · simp [complete]

/-- Before the first section. -/
theorem reassembling_start (range : ModulesRange) (receiver : Receiver)
    (piece : PieceTable range receiver.table) :
    Reassembling range receiver (V4.startDownloadByPiece range receiver) := by
  have entry (index : Nat) (wanted : index ∈ range.indexes) :
      (V4.startDownloadByPiece range receiver).receiver.table.modules index =
        (receiver.table.modules index).restart := if_pos wanted
  have other (index : Nat) (unwanted : index ∉ range.indexes) :
      (V4.startDownloadByPiece range receiver).receiver.table.modules index =
        receiver.table.modules index := if_neg unwanted
  have map (index : Nat) (wanted : index ∈ range.indexes) (block : Nat) :
      ((V4.startDownloadByPiece range receiver).receiver.table.modules index).blockReceived.test block =
        decide ((receiver.table.modules index).blockNum ≤ block) := by
    rw [entry index wanted, DCModuleInfo.restart, Bitmap.test_clearBelow, Bitmap.test_ones,
      Bool.true_and]
  have first (index : Nat) (wanted : index ∈ range.indexes) :
      0 < (receiver.table.modules index).blockNum := by
    have low := (range.mem_indexes index).mp wanted
    have bound := piece.bound
    exact (piece.few index (by omega)).1
  constructor
  case toReassembled =>
    constructor
    case received =>
      intro index wanted block counted
      rw [map index wanted, decide_eq_true_eq]
      simp [V4.startDownloadByPiece, counted]
    case complete =>
      have start : range.start ∈ range.indexes := (range.mem_indexes _).mpr ⟨le_rfl, piece.order⟩
      constructor
      · intro closed
        cases closed
      · intro complete
        have marked := complete range.start start 0 (by
          rw [entry _ start]
          exact first _ start)
        rw [map _ start, decide_eq_true_eq] at marked
        have some := first _ start
        omega
    case outside => exact other
    case fixed =>
      intro index
      by_cases wanted : index ∈ range.indexes
      · rw [entry index wanted]
        rfl
      · rw [other index wanted]
    case placed => simp [V4.startDownloadByPiece]
    case once => exact List.nodup_nil
    case ram => rfl
    case intact => simp [V4.startDownloadByPiece]
    case number => rfl
    case blocksize => rfl
    case unlocks => rfl
  case behind =>
    intro index wanted block beyond
    rw [map index wanted, decide_eq_true_eq]
    exact beyond
  case finish =>
    intro index wanted
    constructor
    · intro finished
      rw [entry index wanted] at finished
      cases finished
    · intro all
      have marked := all 0 (by
        rw [entry index wanted]
        exact first index wanted)
      rw [map index wanted, decide_eq_true_eq] at marked
      have some := first index wanted
      omega

theorem Reassembling.run {range : ModulesRange} {receiver : Receiver}
    (piece : PieceTable range receiver.table) (memories : List Memory) (request : PieceRequest)
    (inv : Reassembling range receiver request) :
    ∃ after, V4.ddbSections range memories request = some after ∧
      Reassembling range receiver after := by
  induction memories generalizing request with
  | nil => exact ⟨request, rfl, inv⟩
  | cons memory memories ih =>
      rcases inv.step piece memory with ⟨later, moved, next, _⟩
      rcases ih later next with ⟨after, ran, done⟩
      exact ⟨after, by rw [V4.ddbSections, moved, Option.bind_some, ran], done⟩

/-- Any sections in any order: the piece is put together as `Reassembled` says,
and whichever section comes next closes the request exactly if it completes the
piece. -/
theorem piece_reassembled (range : ModulesRange) (receiver : Receiver)
    (piece : PieceTable range receiver.table) (memories : List Memory) :
    ∃ after, V4.ddbSections range memories (V4.startDownloadByPiece range receiver) = some after ∧
      Reassembled range receiver after ∧
      ∀ memory, ∃ later, V4.ddbSection range memory after = some later ∧
        (later.unlocks = after.unlocks + 1 ↔
          ¬ after.receiver.Complete range ∧ later.receiver.Complete range) := by
  rcases Reassembling.run piece memories _ (reassembling_start range receiver piece) with
    ⟨after, ran, inv⟩
  refine ⟨after, ran, inv.toReassembled, ?_⟩
  intro memory
  rcases inv.step piece memory with ⟨later, moved, _, closes⟩
  exact ⟨later, moved, closes⟩

/-- A block of a module of five bytes in blocks of four, as version 4 reads it. -/
def fiveByteSection (blockNum : Byte) (data : List Byte) : Memory :=
  fun address => ([0x3c, 0, 0, 1, 0, 0, blockNum, 1, 0, 0, 0, 0, 0, 0, 0, 0, 0, 0, 10, 1, 0, 0xff, 0,
    blockNum] ++ data).getD address 0

def fiveByteReceiver : Receiver where
  param := ⟨0, 0, 0, 0, 0⟩
  group := ⟨0, 5⟩
  dlInfo := ⟨0, 0, 0, 5⟩
  table := ⟨fun _ => ⟨256, false, false, false, 1000, 5, 2, 0, 0, Bitmap.ones, true⟩, 1, 4⟩
  ramAddr := 1000
  ram := fun _ => 0xff

theorem fiveByte_pieceTable : PieceTable ⟨0, 0⟩ fiveByteReceiver.table := by
  constructor
  case order => exact le_rfl
  case bound => decide
  case distinct =>
    intro left leftBound right rightBound _
    simp only [fiveByteReceiver] at leftBound rightBound
    omega
  all_goals decide

/-- The short last block, the first one twice: closed at the second section. -/
theorem piece_reassembled_five_bytes :
    ∃ after, V4.ddbSections ⟨0, 0⟩
        [fiveByteSection 1 [9], fiveByteSection 0 [1, 2, 3, 4], fiveByteSection 0 [7, 7, 7, 7]]
        (V4.startDownloadByPiece ⟨0, 0⟩ fiveByteReceiver) = some after ∧
      after.copies = [⟨0, 1, 1004, [9]⟩, ⟨0, 0, 1000, [1, 2, 3, 4]⟩] ∧
      after.continueGetSec = false ∧ Reassembled ⟨0, 0⟩ fiveByteReceiver after := by
  have ran : ∃ after, V4.ddbSections ⟨0, 0⟩
        [fiveByteSection 1 [9], fiveByteSection 0 [1, 2, 3, 4], fiveByteSection 0 [7, 7, 7, 7]]
        (V4.startDownloadByPiece ⟨0, 0⟩ fiveByteReceiver) = some after ∧
      after.copies = [⟨0, 1, 1004, [9]⟩, ⟨0, 0, 1000, [1, 2, 3, 4]⟩] ∧
      after.continueGetSec = false := ⟨_, rfl, rfl, rfl⟩
  rcases ran with ⟨after, ran, copies, closed⟩
  rcases piece_reassembled ⟨0, 0⟩ fiveByteReceiver fiveByte_pieceTable _ with ⟨same, sameRan, done, _⟩
  have equal : same = after := Option.some.inj (sameRan.symm.trans ran)
  exact ⟨after, ran, copies, closed, equal ▸ done⟩

end Alisl.Upgrade
