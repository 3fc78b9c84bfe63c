import Alisl.Storage.WriteBack

/-! Reading after writing when blocks cannot be erased, and the three records of the bad blocks. -/

namespace Alisl.Storage.Nand

open Alisl.Base

section

variable {geometry : Geometry}

/-- The bytes of `bad_map`. -/
def badMapSize (geometry : Geometry) : Nat :=
  geometry.blocks / 8 + if geometry.blocks % 8 ≠ 0 then 1 else 0

/-- `bad_map` agrees with the driver's table, `bad_cnt` is the number of its bits that are set, and the
logical size leaves out the bad blocks. -/
structure BadRecords (dev : Dev geometry) : Prop where
  agrees : ∀ idx, dev.badMap.get idx = (decide (idx < geometry.blocks) && dev.flash.bad idx)
  counted : dev.badCnt = Nat.count (fun idx => dev.badMap.get idx = true) (8 * badMapSize geometry)
  sized : dev.logicSize + dev.badCnt * geometry.eraseSize = geometry.size

theorem blocks_le_bits (geometry : Geometry) : geometry.blocks ≤ 8 * badMapSize geometry := by
  rw [badMapSize]
  split
  · omega
  · omega

/-- The bits set are the bad blocks. -/
theorem count_bits {dev : Dev geometry}
    (agrees : ∀ idx, dev.badMap.get idx = (decide (idx < geometry.blocks) && dev.flash.bad idx)) :
    Nat.count (fun idx => dev.badMap.get idx = true) (8 * badMapSize geometry) =
      Nat.count (fun block => dev.flash.bad block = true) geometry.blocks := by
  rw [count_beyond (blocks_le_bits geometry)]
  · apply count_congr
    intro idx less
    rw [agrees, decide_eq_true less, Bool.true_and]
  · intro idx beyond
    rw [agrees, decide_eq_false (Nat.not_lt.mpr beyond), Bool.false_and]
    exact Bool.false_ne_true

/-! The scan. -/

theorem scanBadBlocks_spec (bad : Nat → Bool) (blocks : Nat) :
    (∀ idx, (Dev.scanBadBlocks bad blocks).1.get idx = (decide (idx < blocks) && bad idx)) ∧
      (Dev.scanBadBlocks bad blocks).2 = Nat.count (fun block => bad block = true) blocks := by
  induction blocks with
  | zero =>
      constructor
      · intro idx
        simp [Dev.scanBadBlocks, BitArray.get]
      · simp [Dev.scanBadBlocks]
  | succ blocks ih =>
      have turn : Dev.scanBadBlocks bad (blocks + 1) =
          if bad blocks then ((Dev.scanBadBlocks bad blocks).1.set blocks,
            (Dev.scanBadBlocks bad blocks).2 + 1) else Dev.scanBadBlocks bad blocks := by
        rw [Dev.scanBadBlocks, List.range_succ, List.foldl_append]
        rfl
      rw [turn, Nat.count_succ]
      have split_lt : ∀ idx, idx < blocks + 1 ↔ idx < blocks ∨ idx = blocks := by omega
      cases broken : bad blocks with
      | true =>
          rw [if_pos rfl, if_pos rfl]
          refine ⟨?_, by rw [ih.2]⟩
          intro idx
          rw [BitArray.get_set (by decide), ih.1]
          by_cases here : idx = blocks
          · simp [here, broken]
          · simp [here, split_lt]
      | false =>
          simp only [Bool.false_eq_true, if_false, Nat.add_zero]
          refine ⟨?_, ih.2⟩
          intro idx
          rw [ih.1]
          by_cases here : idx = blocks
          · simp [here, broken]
          · simp [here, split_lt]

theorem records_opened (flash : Flash) (type : EraseType) :
    BadRecords (Dev.opened geometry flash type) := by
  rcases scanBadBlocks_spec flash.bad geometry.blocks with ⟨agrees, counted⟩
  have bits := count_bits (show ∀ idx, (Dev.opened geometry flash type).badMap.get idx =
    (decide (idx < geometry.blocks) && (Dev.opened geometry flash type).flash.bad idx) from agrees)
  constructor
  case agrees => exact agrees
  case counted => exact counted.trans bits.symm
  case sized =>
      have less : (Dev.scanBadBlocks flash.bad geometry.blocks).2 ≤ geometry.blocks := by
        rw [counted]
        exact Nat.count_le _
      exact Nat.sub_add_cancel (Nat.mul_le_mul_right geometry.eraseSize less)

/-! A block that goes bad. -/

theorem updateBbt_records {dev : Dev geometry} (records : BadRecords dev) {address : Nat}
    (inside : address / geometry.eraseSize < geometry.blocks)
    (good : dev.flash.bad (address / geometry.eraseSize) = false) :
    BadRecords (dev.updateBbt address true) := by
  have unmapped : dev.badMap.get (address / geometry.eraseSize) = false := by
    rw [records.agrees, good, Bool.and_false]
  rw [Dev.updateBbt, if_pos rfl]
  simp only [unmapped, Bool.false_eq_true, if_false]
  have bits : ∀ idx, (dev.badMap.set (address / geometry.eraseSize)).get idx =
      (dev.badMap.get idx || decide (idx = address / geometry.eraseSize)) :=
    BitArray.get_set (by decide) dev.badMap _
  have more : dev.badCnt + 1 = Nat.count (fun idx =>
      (dev.badMap.set (address / geometry.eraseSize)).get idx = true) (8 * badMapSize geometry) := by
    rw [records.counted]
    symm
    apply count_insert (P := fun idx => dev.badMap.get idx = true)
      (i := address / geometry.eraseSize)
    · rw [unmapped]
      exact Bool.false_ne_true
    · exact Nat.lt_of_lt_of_le inside (blocks_le_bits geometry)
    · intro idx
      rw [bits, Bool.or_eq_true, decide_eq_true_eq]
  have room : dev.badCnt + 1 ≤ geometry.blocks := by
    have larger := count_insert (P := fun block => dev.flash.bad block = true)
      (Q := fun block => dev.flash.bad block = true ∨ block = address / geometry.eraseSize)
      (by rw [good]; exact Bool.false_ne_true) inside (fun _ => Iff.rfl)
    rw [records.counted, count_bits records.agrees, ← larger]
    exact Nat.count_le _
  constructor
  case agrees =>
      intro idx
      dsimp only
      rw [bits, records.agrees, setBadBlock_bad]
      by_cases here : idx = address / geometry.eraseSize
      · rw [here, Function.update_self]
        simp [inside]
      · rw [Function.update_of_ne here]
        simp [here]
  case counted => exact more
  case sized =>
      have sized := records.sized
      have fits : (dev.badCnt + 1) * geometry.eraseSize ≤ geometry.size :=
        Nat.mul_le_mul_right geometry.eraseSize room
      rw [Nat.succ_mul] at fits
      dsimp only
      rw [Nat.succ_mul]
      omega

/-! The loop keeps the records. -/

/-- A handle in block mode whose records are right. -/
structure Sound (dev : Dev geometry) : Prop where
  block : dev.eraseType = .block
  records : BadRecords dev

theorem Sound.moved {dev : Dev geometry} (sound : Sound dev) (offset : Nat) :
    Sound ({ dev with offset } : Dev geometry) :=
  ⟨sound.block, ⟨sound.records.agrees, sound.records.counted, sound.records.sized⟩⟩

theorem Sound.updateBbt {dev : Dev geometry} (sound : Sound dev) {address : Nat}
    (inside : address / geometry.eraseSize < geometry.blocks)
    (good : dev.flash.bad (address / geometry.eraseSize) = false) :
    Sound (dev.updateBbt address true) := by
  constructor
  case block =>
      rw [Dev.updateBbt, if_pos rfl]
      dsimp only
      split
      · exact sound.block
      · exact sound.block
  case records => exact updateBbt_records sound.records inside good

/-- The content of the flash is no record. -/
theorem Sound.rewritten {dev : Dev geometry} (sound : Sound dev) (flash : Flash)
    (bad : flash.bad = dev.flash.bad) : Sound ({ dev with flash } : Dev geometry) := by
  refine ⟨sound.block, ?_, sound.records.counted, sound.records.sized⟩
  dsimp only
  rw [bad]
  exact sound.records.agrees

/-- How erasing can go on a driver that takes every block it cannot erase into its table. -/
structure Marking extends Erasure where
  marked : ∀ block, fails block = true → marks block = true

theorem sound_turn {erasure : Marking} {buf : List Byte} {state after : Writing geometry}
    (sound : Sound state.dev)
    (turned : (writeLoop erasure.toErasure buf).body state = .next after ∨
      (writeLoop erasure.toErasure buf).body state = .leave after) : Sound after.dev := by
  have size : state.dev.unitSize = geometry.eraseSize := by rw [Dev.unitSize, sound.block]
  unfold writeLoop at turned
  simp only [size, start_block] at turned
  split at turned
  · rcases turned with next | leave
    · cases next
    · cases leave
      exact sound
  case isFalse inside =>
    rw [Nat.not_le] at inside
    split at turned
    · rcases turned with next | leave
      · cases next
        exact sound.moved _
      · cases leave
    case isFalse good =>
      rw [Bool.not_eq_true] at good
      split at turned
      case isTrue fails =>
        rw [erasure.marked _ fails] at turned
        rcases turned with next | leave
        · cases next
          apply Sound.moved
          apply Sound.updateBbt
          · exact sound.rewritten _ rfl
          · rw [start_block]
            exact block_lt inside
          · rw [start_block]
            exact good
        · cases leave
      case isFalse =>
        rcases turned with next | leave
        · cases next
          apply (sound.moved (state.dev.offset + (state.unit buf).2)).rewritten
          rfl
        · cases leave

/-- In the middle of a write the records are right, too. -/
theorem sound_visits {erasure : Marking} {buf : List Byte} {dev : Dev geometry} (sound : Sound dev)
    {state : Writing geometry} (visits : (writeLoop erasure.toErasure buf).Visits ⟨dev, 0⟩ state) :
    Sound state.dev := by
  apply DoWhile.Visits.always (fun state : Writing geometry => Sound state.dev) visits sound
  · exact fun _ _ held turned => sound_turn held (.inl turned)
  · exact fun _ _ held turned => sound_turn held (.inr turned)

end

/-! All runs of a handle. -/

inductive Request where
  | lseek (offset : BitVec 32) (whence : Whence)
  | lseekLogic (offset : BitVec 32) (whence : Whence)
  | setOffset (offset : Nat) (flag : Bool)
  | read (len : Nat)
  | write (erasure : Marking) (buf : List Byte)

/-- A handle on a flash with any contents and bad blocks, in block-erase mode. -/
def store (geometry : Geometry) : Machine (Dev geometry) Request where
  Initial dev := ∃ flash, dev = Dev.opened geometry flash .block
  next dev
    | .lseek offset whence => some (dev.alislstoLseek offset whence).2
    | .lseekLogic offset whence => some (dev.alislstoLseekLogic offset whence).2
    | .setOffset offset flag => some (dev.alislstoSetOffset offset flag)
    | .read len => (dev.alislstoRead len).map Prod.snd
    | .write erasure buf => (dev.alislstoWrite erasure.toErasure buf).map Prod.snd

section

variable {geometry : Geometry}

theorem Sound.lseek {dev : Dev geometry} (sound : Sound dev) (offset : BitVec 32) (whence : Whence) :
    Sound (dev.alislstoLseek offset whence).2 := by
  rw [Dev.alislstoLseek]
  split
  · exact sound
  · exact sound.moved _

theorem Sound.lseekLogic {dev : Dev geometry} (sound : Sound dev) (offset : BitVec 32)
    (whence : Whence) : Sound (dev.alislstoLseekLogic offset whence).2 := by
  rw [Dev.alislstoLseekLogic]
  split
  · exact sound
  · split
    · exact sound
    · split
      · exact sound
      · exact sound.moved _

theorem Sound.read {dev after : Dev geometry} (sound : Sound dev) {len : Nat} {data : List Byte}
    (done : dev.alislstoRead len = some (data, after)) : Sound after := by
  rcases Option.map_eq_some_iff.mp done with ⟨final, ran, result⟩
  rcases readLoop_fetches ran with ⟨count, fetched, _⟩
  cases result
  rw [fetched.dev]
  exact sound.moved _

theorem Sound.write {dev after : Dev geometry} (sound : Sound dev) {erasure : Marking}
    {buf : List Byte} {count : Nat}
    (done : dev.alislstoWrite erasure.toErasure buf = some (count, after)) : Sound after := by
  rcases Option.map_eq_some_iff.mp done with ⟨final, ran, result⟩
  cases result
  revert sound
  refine DoWhile.ends (fun state after : Writing geometry => Sound state.dev → Sound after.dev)
    ?leave ?last ?next ran
  case leave => exact fun _ _ turned held => sound_turn held (.inr turned)
  case last => exact fun _ _ turned _ held => sound_turn held (.inl turned)
  case next => exact fun _ _ _ turned _ ih held => ih (sound_turn held (.inl turned))

theorem sound_of_reachable : ∀ dev, (store geometry).Reachable dev → Sound dev := by
  apply Machine.Reachable.always
  case initially =>
      rintro dev ⟨flash, rfl⟩
      exact ⟨rfl, records_opened flash .block⟩
  case kept =>
      intro dev label after _ sound moved
      cases label with
      | lseek offset whence =>
          cases moved
          exact sound.lseek offset whence
      | lseekLogic offset whence =>
          cases moved
          exact sound.lseekLogic offset whence
      | setOffset offset flag =>
          cases moved
          rw [Dev.alislstoSetOffset]
          split
          · exact sound.moved offset
          · exact sound
      | read len =>
          rcases Option.map_eq_some_iff.mp moved with ⟨⟨data, dev'⟩, done, rfl⟩
          exact sound.read done
      | write erasure buf =>
          rcases Option.map_eq_some_iff.mp moved with ⟨⟨count, dev'⟩, done, rfl⟩
          exact sound.write done

/-- After a write of all of `buf` at the offset of `dev`: read back from there, `buf` is found again, and
every byte of a block that is good then, apart from those of `buf`, is as before. -/
structure ReadsBack (dev after : Dev geometry) (buf : List Byte) : Prop where
  found : ∃ final, (after.alislstoSetOffset dev.offset true).alislstoRead buf.length =
    some (buf, final)
  sought : ∀ offset : BitVec 32, offset.toInt = dev.offset → dev.offset < geometry.size →
    (after.alislstoLseek offset .seekSet).2 = after.alislstoSetOffset dev.offset true
  kept : ∀ x, after.flash.bad (x / geometry.eraseSize) = false →
    (∀ i, i < buf.length → x ≠ after.address (after.position dev.offset + i)) →
      after.flash.content x = dev.flash.content x

theorem Stored.data {buf : List Byte} {dev after : Dev geometry}
    (stored : Stored buf ⟨dev, 0⟩ ⟨after, buf.length⟩ buf.length) :
    (List.range buf.length).map (fun i =>
      after.flash.content (after.address (after.position dev.offset + i))) = buf := by
  apply List.ext_getElem?
  intro i
  by_cases inside : i < buf.length
  · have cell := stored.stored i inside
    rw [Nat.zero_add] at cell
    rw [List.getElem?_map, List.getElem?_range inside, Option.map_some]
    exact cell
  · rw [List.getElem?_eq_none (by rw [List.length_map, List.length_range]; omega),
      List.getElem?_eq_none (by omega)]

theorem lseek_back {after : Dev geometry} {start : Nat} {offset : BitVec 32}
    (same : offset.toInt = start) (inside : start < geometry.size) :
    (after.alislstoLseek offset .seekSet).2 = after.alislstoSetOffset start true := by
  have value : offset.toNat = start := by
    have small := geometry.fits
    rw [BitVec.toInt_eq_toNat_cond] at same
    split at same
    · exact_mod_cast same
    · have bound := offset.isLt
      omega
  rw [Dev.alislstoLseek, seekAddr]
  dsimp only
  rw [value, if_neg (Nat.not_le.mpr inside), if_pos (by omega)]
  rfl

/-- Whatever blocks cannot be erased: a write that returns its length is read back, the other bytes are
kept, and the records of the bad blocks agree before, during and after it. -/
theorem read_after_write (dev : Dev geometry) (reachable : (store geometry).Reachable dev) :
    BadRecords dev ∧ ∀ (erasure : Marking) (buf : List Byte),
      (∀ state, (writeLoop erasure.toErasure buf).Visits ⟨dev, 0⟩ state → BadRecords state.dev) ∧
      ∀ after, dev.alislstoWrite erasure.toErasure buf = some (buf.length, after) →
        BadRecords after ∧ ReadsBack dev after buf := by
  have sound := sound_of_reachable dev reachable
  refine ⟨sound.records, ?_⟩
  intro erasure buf
  refine ⟨fun state visits => (sound_visits sound visits).records, ?_⟩
  intro after done
  refine ⟨(sound.write done).records, ?_⟩
  rcases alislstoWrite_stores erasure.marked sound.block buf with ⟨count, after', done', stored⟩
  rw [done] at done'
  cases done'
  constructor
  case found =>
      have room : buf.length = 0 ∨ after.position dev.offset + buf.length ≤ after.capacity := by
        rcases Nat.eq_zero_or_pos buf.length with none_ | some_
        · exact .inl none_
        · exact .inr (stored.room some_)
      rcases alislstoRead_spec (after.alislstoSetOffset dev.offset true) buf.length room with
        ⟨offset, read, _⟩
      refine ⟨{ after.alislstoSetOffset dev.offset true with offset }, ?_⟩
      rw [read]
      congr 2
      exact stored.data
  case sought => exact fun offset same inside => lseek_back same inside
  case kept => exact stored.kept

/-! A small flash: block 1 is bad, and block 2 cannot be erased. -/

def smallGeometry : Geometry := ⟨4, 5, by decide, by decide⟩

def smallFlash : Flash := ⟨fun x => UInt8.ofNat x, fun block => block == 1, []⟩

def secondFails : Marking where
  fails := fun block => block == 2
  left := fun _ => 7
  marks := fun _ => true
  marked := fun _ _ => rfl

def smallDev : Dev smallGeometry := (Dev.opened smallGeometry smallFlash .block).alislstoSetOffset 2 true

theorem smallDev_reachable : (store smallGeometry).Reachable smallDev := by
  have start : (store smallGeometry).Reachable (Dev.opened smallGeometry smallFlash .block) :=
    .initial ⟨smallFlash, rfl⟩
  exact start.move (.setOffset 2 true) rfl

/-- Six bytes at offset 2 end up in the blocks 0 and 3. -/
theorem read_after_write_small :
    ∃ after, smallDev.alislstoWrite secondFails.toErasure [101, 102, 103, 104, 105, 106] =
        some (6, after) ∧ after.logicSize = 12 ∧
      ReadsBack smallDev after [101, 102, 103, 104, 105, 106] := by
  have ran : (smallDev.alislstoWrite secondFails.toErasure [101, 102, 103, 104, 105, 106]).map
      (fun result => (result.1, result.2.logicSize)) = some (6, 12) := by
    decide +kernel
  rcases Option.map_eq_some_iff.mp ran with ⟨⟨count, after⟩, done, result⟩
  cases (Prod.mk.inj result).1
  have back := (read_after_write smallDev smallDev_reachable).2 secondFails
    [101, 102, 103, 104, 105, 106]
  exact ⟨after, done, (Prod.mk.inj result).2, (back.2 after done).2⟩

end

end Alisl.Storage.Nand
