import Alisl.Storage.Transfer

/-! What `alislsto_write` leaves on the flash, whichever blocks it cannot erase. -/

namespace Alisl.Storage.Nand

open Alisl.Base

section

variable {geometry : Geometry}

/-! One unit. -/

theorem length_overlay {buffer data : List Byte} {start : Nat}
    (fits : start + data.length ≤ buffer.length) :
    (overlay buffer start data).length = buffer.length := by
  rw [overlay, List.length_append, List.length_append, List.length_take, List.length_drop]
  omega

theorem getElem?_overlay {buffer data : List Byte} {start : Nat}
    (fits : start + data.length ≤ buffer.length) (j : Nat) :
    (overlay buffer start data)[j]? =
      if start ≤ j ∧ j < start + data.length then data[j - start]? else buffer[j]? := by
  have head : (buffer.take start).length = start := by
    rw [List.length_take]
    omega
  have front : (buffer.take start ++ data).length = start + data.length := by
    rw [List.length_append, head]
  rw [overlay]
  by_cases early : j < start
  · rw [if_neg (fun inside => Nat.not_lt.mpr inside.1 early),
      List.getElem?_append_left (by omega), List.getElem?_append_left (by omega),
      List.getElem?_take_of_lt early]
  · rw [Nat.not_lt] at early
    by_cases inside : j < start + data.length
    · rw [if_pos ⟨early, inside⟩, List.getElem?_append_left (by omega),
        List.getElem?_append_right (by omega), head]
    · rw [Nat.not_lt] at inside
      rw [if_neg (fun both => Nat.not_lt.mpr inside both.2), List.getElem?_append_right (by omega),
        front, List.getElem?_drop]
      congr 1
      omega

theorem getElem?_read {flash : Flash} {address count j : Nat} (less : j < count) :
    (flash.read address count)[j]? = some (flash.content (address + j)) := by
  rw [Flash.read, List.getElem?_map, List.getElem?_range less, Option.map_some]

theorem getElem?_part (buf : List Byte) (total size : Nat) {j : Nat} (less : j < size) :
    ((buf.drop total).take size)[j]? = buf[total + j]? := by
  rw [List.getElem?_take_of_lt less, List.getElem?_drop]

theorem length_part {buf : List Byte} {total size : Nat} (enough : size ≤ buf.length - total) :
    ((buf.drop total).take size).length = size := by
  rw [List.length_take, List.length_drop, Nat.min_eq_left enough]

/-- The block of an offset. -/
theorem block_start (offset : Nat) :
    offset - offset % geometry.eraseSize = offset / geometry.eraseSize * geometry.eraseSize := by
  have parts := Nat.div_add_mod' offset geometry.eraseSize
  omega

theorem start_block (offset : Nat) :
    (offset - offset % geometry.eraseSize) / geometry.eraseSize = offset / geometry.eraseSize := by
  rw [block_start, Nat.mul_div_cancel _ geometry.erase_pos]

theorem in_block {offset x : Nat} :
    (offset - offset % geometry.eraseSize ≤ x ∧
      x < offset - offset % geometry.eraseSize + geometry.eraseSize) ↔
      x / geometry.eraseSize = offset / geometry.eraseSize := by
  rw [block_start, ← Nat.succ_mul]
  constructor
  · intro both
    apply Nat.le_antisymm
    · exact Nat.le_of_lt_succ ((Nat.div_lt_iff_lt_mul geometry.erase_pos).mpr both.2)
    · exact (Nat.le_div_iff_mul_le geometry.erase_pos).mpr both.1
  · intro same
    rw [← same]
    exact ⟨Nat.div_mul_le_self .., Nat.lt_mul_of_div_lt (Nat.lt_succ_self _) geometry.erase_pos⟩

/-- Where the loop is: a part of a block is left out at most before the first unit. -/
structure Writing.Ready (buf : List Byte) (state : Writing geometry) : Prop where
  block : state.dev.eraseType = .block
  aligned : state.totalWrittenSize = 0 ∨ state.dev.offset % geometry.eraseSize = 0
  most : state.totalWrittenSize ≤ buf.length

/-- What a unit is made of. -/
structure Merged (buf : List Byte) (state : Writing geometry) (unit : List Byte × Nat) : Prop where
  least : unit.2 = min (geometry.eraseSize - state.dev.offset % geometry.eraseSize)
    (buf.length - state.totalWrittenSize)
  length : unit.1.length = geometry.eraseSize
  each : ∀ j, j < geometry.eraseSize → unit.1[j]? =
    if state.dev.offset % geometry.eraseSize ≤ j ∧
        j < state.dev.offset % geometry.eraseSize + unit.2 then
      buf[state.totalWrittenSize + (j - state.dev.offset % geometry.eraseSize)]?
    else some (state.dev.flash.content
      (state.dev.offset - state.dev.offset % geometry.eraseSize + j))

theorem merged_overlay {buf : List Byte} {state : Writing geometry} {size : Nat}
    (least : size = min (geometry.eraseSize - state.dev.offset % geometry.eraseSize)
      (buf.length - state.totalWrittenSize)) :
    Merged buf state
      (overlay (state.dev.flash.read (state.dev.offset - state.dev.offset % geometry.eraseSize)
        geometry.eraseSize) (state.dev.offset % geometry.eraseSize)
          ((buf.drop state.totalWrittenSize).take size), size) := by
  have small := Nat.mod_lt state.dev.offset geometry.erase_pos
  have part : ((buf.drop state.totalWrittenSize).take size).length = size :=
    length_part (by omega)
  have fits : state.dev.offset % geometry.eraseSize +
      ((buf.drop state.totalWrittenSize).take size).length ≤
      (state.dev.flash.read (state.dev.offset - state.dev.offset % geometry.eraseSize)
        geometry.eraseSize).length := by
    rw [part, length_read]
    omega
  constructor
  case least => exact least
  case length => rw [length_overlay fits, length_read]
  case each =>
      intro j less
      rw [getElem?_overlay fits, part]
      split
      case isTrue inside => rw [getElem?_part buf _ _ (by omega)]
      case isFalse => rw [getElem?_read less]

theorem unit_merged {buf : List Byte} {state : Writing geometry} (ready : state.Ready buf) :
    Merged buf state (state.unit buf) := by
  have size : state.dev.unitSize = geometry.eraseSize := by rw [Dev.unitSize, ready.block]
  unfold Writing.unit
  simp only [size]
  have small := Nat.mod_lt state.dev.offset geometry.erase_pos
  split
  case isTrue inner =>
    -- not at the start of a block, so nothing was written yet
    have nothing : state.totalWrittenSize = 0 := ready.aligned.resolve_right inner
    apply merged_overlay
    split
    · omega
    · omega
  case isFalse outer =>
    rw [not_not] at outer
    have whole : geometry.eraseSize - state.dev.offset % geometry.eraseSize = geometry.eraseSize := by
      omega
    split
    case isTrue short =>
      have least : buf.length - state.totalWrittenSize =
          min (geometry.eraseSize - state.dev.offset % geometry.eraseSize)
            (buf.length - state.totalWrittenSize) := by omega
      have merged := merged_overlay least
      rw [outer] at merged
      rw [outer]
      exact merged
    case isFalse long =>
      constructor
      case least => omega
      case length => exact length_part (by omega)
      case each =>
          intro j less
          rw [outer, if_pos (by omega), getElem?_part buf _ _ less, Nat.sub_zero]

theorem all_ones_and (byte : Byte) : 0xff &&& byte = byte := by
  have ones : (0xff : Byte) = -1 := rfl
  rw [ones, UInt8.neg_one_and]

/-- A block that is erased and written again has the new bytes at the offset and the old ones around
them. -/
theorem rewrite_content {buf : List Byte} {state : Writing geometry} {unit : List Byte × Nat}
    (merged : Merged buf state unit) (x : Nat) :
    (((state.dev.flash.erase geometry (state.dev.offset - state.dev.offset % geometry.eraseSize)
      geometry.eraseSize).write geometry
        (state.dev.offset - state.dev.offset % geometry.eraseSize) unit.1).content x) =
      if state.dev.offset ≤ x ∧ x < state.dev.offset + unit.2 then
        buf.getD (state.totalWrittenSize + (x - state.dev.offset)) 0xff
      else state.dev.flash.content x := by
  have small := Nat.mod_lt state.dev.offset geometry.erase_pos
  have least := merged.least
  have under := Nat.mod_le state.dev.offset geometry.eraseSize
  simp only [Flash.write, Flash.erase, merged.length]
  by_cases inside : state.dev.offset - state.dev.offset % geometry.eraseSize ≤ x ∧
      x < state.dev.offset - state.dev.offset % geometry.eraseSize + geometry.eraseSize
  · have each := merged.each (x - (state.dev.offset - state.dev.offset % geometry.eraseSize))
      (by omega)
    rw [if_pos inside, if_pos inside, all_ones_and, List.getD_eq_getElem?_getD, each]
    by_cases new : state.dev.offset ≤ x ∧ x < state.dev.offset + unit.2
    · rw [if_pos (by omega), if_pos new, List.getD_eq_getElem?_getD]
      congr 3
      omega
    · rw [if_neg (by omega), if_neg new, Option.getD_some]
      congr 1
      omega
  · rw [if_neg inside, if_neg inside, if_neg (by omega)]

/-! A turn of the loop. -/

/-- The device ends, a bad block is passed, a block cannot be erased and is marked, or a part of a good
block is written. -/
inductive WriteTurn (erasure : Erasure) (buf : List Byte) (state : Writing geometry) :
    Turn (Writing geometry) → Prop where
  | ended (beyond : geometry.size ≤ state.dev.offset) : WriteTurn erasure buf state (.leave state)
  | skip (inside : state.dev.offset < geometry.size)
      (bad : state.dev.flash.bad (state.dev.offset / geometry.eraseSize) = true) :
      WriteTurn erasure buf state (.next { state with
        dev := { state.dev with offset := state.dev.offset + geometry.eraseSize } })
  | fail (inside : state.dev.offset < geometry.size)
      (good : state.dev.flash.Good (state.dev.offset / geometry.eraseSize))
      (fails : erasure.fails (state.dev.offset / geometry.eraseSize) = true)
      (start : Nat) (first : start = state.dev.offset - state.dev.offset % geometry.eraseSize)
      (marked : Dev geometry)
      (updated : marked = Dev.updateBbt
        { state.dev with
          flash := state.dev.flash.spoil geometry erasure.left start geometry.eraseSize }
        start (erasure.marks (state.dev.offset / geometry.eraseSize))) :
      WriteTurn erasure buf state (.next { state with
        dev := { marked with offset := state.dev.offset + geometry.eraseSize } })
  | part (inside : state.dev.offset < geometry.size)
      (good : state.dev.flash.Good (state.dev.offset / geometry.eraseSize))
      (erased : erasure.fails (state.dev.offset / geometry.eraseSize) = false)
      (start : Nat) (first : start = state.dev.offset - state.dev.offset % geometry.eraseSize)
      (unit : List Byte × Nat) (merged : Merged buf state unit) :
      WriteTurn erasure buf state (.next ⟨{ state.dev with
        flash := (state.dev.flash.erase geometry start geometry.eraseSize).write geometry start unit.1
        offset := state.dev.offset + unit.2 }, state.totalWrittenSize + unit.2⟩)

theorem writeTurn (erasure : Erasure) {buf : List Byte} {state : Writing geometry}
    (ready : state.Ready buf) :
    WriteTurn erasure buf state ((writeLoop erasure buf).body state) := by
  have size : state.dev.unitSize = geometry.eraseSize := by rw [Dev.unitSize, ready.block]
  unfold writeLoop
  simp only [size, start_block]
  split
  case isTrue beyond => exact .ended beyond
  case isFalse inside =>
    rw [Nat.not_le] at inside
    split
    case isTrue bad => exact .skip inside bad
    case isFalse good =>
      rw [Bool.not_eq_true] at good
      split
      case isTrue fails => exact .fail inside good fails _ rfl _ rfl
      case isFalse erased =>
        rw [Bool.not_eq_true] at erased
        exact .part inside good erased _ rfl _ (unit_merged ready)

/-- The loop stays ready: it goes on in the middle of a block only before the first unit. -/
theorem writeTurn_ready {erasure : Erasure} {buf : List Byte} {state middle : Writing geometry}
    (ready : state.Ready buf) (turn : WriteTurn erasure buf state (.next middle))
    (goes : middle.totalWrittenSize < buf.length) : middle.Ready buf := by
  cases turn with
  | skip inside bad =>
      refine ⟨ready.block, ?_, ready.most⟩
      rw [Nat.add_mod_right]
      exact ready.aligned
  | fail inside good fails start first marked updated =>
      have type : marked.eraseType = state.dev.eraseType := by
        rw [updated, Dev.updateBbt]
        split
        · split
          · rfl
          · rfl
        · rfl
      refine ⟨type.trans ready.block, ?_, ready.most⟩
      rw [Nat.add_mod_right]
      exact ready.aligned
  | part inside good erased start first unit merged =>
      have least := merged.least
      have small := Nat.mod_lt state.dev.offset geometry.erase_pos
      dsimp only at goes
      have reach : state.dev.offset % geometry.eraseSize + unit.2 = geometry.eraseSize := by omega
      exact ⟨ready.block, .inr (Blocks.div_add_of_eq geometry.erase_pos reach).2,
        Nat.le_of_lt goes⟩

/-! A run of the loop. -/

/-- What a run of the loop stores, seen with the bad blocks at its end: the data lies at the positions
from the offset on, and every other byte of the blocks that are good then is as before. -/
structure Stored (buf : List Byte) (state after : Writing geometry) (count : Nat) : Prop where
  total : after.totalWrittenSize = state.totalWrittenSize + count
  worse : ∀ block, state.dev.flash.bad block = true → after.dev.flash.bad block = true
  before : ∀ block, block < state.dev.offset / geometry.eraseSize →
    after.dev.flash.bad block = state.dev.flash.bad block
  behind : ∀ x, x / geometry.eraseSize < state.dev.offset / geometry.eraseSize →
    after.dev.flash.content x = state.dev.flash.content x
  moved : after.dev.position after.dev.offset = after.dev.position state.dev.offset + count
  stored : ∀ i, i < count → some (after.dev.flash.content
    (after.dev.address (after.dev.position state.dev.offset + i))) =
      buf[state.totalWrittenSize + i]?
  kept : ∀ x, after.dev.flash.Good (x / geometry.eraseSize) →
    (∀ i, i < count → x ≠ after.dev.address (after.dev.position state.dev.offset + i)) →
      after.dev.flash.content x = state.dev.flash.content x
  room : 0 < count → after.dev.position state.dev.offset + count ≤ after.dev.capacity

theorem Stored.nothing (buf : List Byte) (state : Writing geometry) :
    Stored buf state state 0 := by
  constructor
  case total => rfl
  case worse => exact fun _ bad => bad
  case before => exact fun _ _ => rfl
  case behind => exact fun _ _ => rfl
  case moved => rfl
  case stored => exact fun i inside => absurd inside (Nat.not_lt_zero i)
  case kept => exact fun _ _ _ => rfl
  case room => exact fun more => absurd more (Nat.lt_irrefl 0)

/-- A block is passed: it was bad or is bad now, and the others are as they were. -/
theorem Stored.pass {buf : List Byte} {state middle after : Writing geometry} {count : Nat}
    (rest : Stored buf middle after count)
    (total : middle.totalWrittenSize = state.totalWrittenSize)
    (offset : middle.dev.offset = state.dev.offset + geometry.eraseSize)
    (passed : middle.dev.flash.bad (state.dev.offset / geometry.eraseSize) = true)
    (others : ∀ block, block ≠ state.dev.offset / geometry.eraseSize →
      middle.dev.flash.bad block = state.dev.flash.bad block)
    (content : ∀ x, x / geometry.eraseSize ≠ state.dev.offset / geometry.eraseSize →
      middle.dev.flash.content x = state.dev.flash.content x) : Stored buf state after count := by
  have gone := rest.worse _ passed
  have same : after.dev.position middle.dev.offset = after.dev.position state.dev.offset := by
    rw [offset]
    exact Blocks.logical_skip geometry.erase_pos (Flash.not_good gone)
  have next : state.dev.offset / geometry.eraseSize < middle.dev.offset / geometry.eraseSize := by
    rw [offset, Nat.add_div_right _ geometry.erase_pos]
    exact Nat.lt_succ_self _
  constructor
  case total => rw [rest.total, total]
  case worse =>
      intro block bad
      by_cases here : block = state.dev.offset / geometry.eraseSize
      · rw [here]
        exact gone
      · apply rest.worse
        rw [others block here]
        exact bad
  case before =>
      intro block less
      rw [rest.before block (Nat.lt_trans less next), others block (Nat.ne_of_lt less)]
  case behind =>
      intro x less
      rw [rest.behind x (Nat.lt_trans less next), content x (Nat.ne_of_lt less)]
  case moved => rw [rest.moved, same]
  case stored =>
      rw [← same, ← total]
      exact rest.stored
  case kept =>
      intro x good apart
      rw [← same] at apart
      have elsewhere : x / geometry.eraseSize ≠ state.dev.offset / geometry.eraseSize := by
        intro here
        rw [here] at good
        exact Flash.not_good gone good
      rw [rest.kept x good apart, content x elsewhere]
  case room =>
      rw [← same]
      exact rest.room

/-- A part of a good block is written, and the run ends there or goes on behind the block. -/
theorem Stored.part {buf : List Byte} {state middle after : Writing geometry} {size count : Nat}
    (rest : Stored buf middle after count) (inside : state.dev.offset < geometry.size)
    (good : state.dev.flash.Good (state.dev.offset / geometry.eraseSize))
    (least : size = min (geometry.eraseSize - state.dev.offset % geometry.eraseSize)
      (buf.length - state.totalWrittenSize))
    (total : middle.totalWrittenSize = state.totalWrittenSize + size)
    (offset : middle.dev.offset = state.dev.offset + size)
    (bad : middle.dev.flash.bad = state.dev.flash.bad)
    (content : ∀ x, middle.dev.flash.content x =
      if state.dev.offset ≤ x ∧ x < state.dev.offset + size then
        buf.getD (state.totalWrittenSize + (x - state.dev.offset)) 0xff
      else state.dev.flash.content x)
    (onward : after = middle ∨ state.dev.offset % geometry.eraseSize + size = geometry.eraseSize) :
    Stored buf state after (size + count) := by
  have pos := geometry.erase_pos
  have small := Nat.mod_lt state.dev.offset pos
  have fits : state.dev.offset % geometry.eraseSize + size ≤ geometry.eraseSize := by omega
  have later : state.dev.offset / geometry.eraseSize ≤ middle.dev.offset / geometry.eraseSize := by
    rw [offset]
    exact Nat.div_le_div_right (Nat.le_add_right ..)
  -- the rest of the run leaves the block alone
  have spared : after = middle ∨
      state.dev.offset / geometry.eraseSize < middle.dev.offset / geometry.eraseSize := by
    rcases onward with same | reach
    · exact .inl same
    · rw [offset, (Blocks.div_add_of_eq pos reach).1]
      exact .inr (Nat.lt_succ_self _)
  have still : after.dev.flash.Good (state.dev.offset / geometry.eraseSize) := by
    rw [Flash.Good]
    rcases spared with same | less
    · rw [same, bad]
      exact good
    · rw [rest.before _ less, bad]
      exact good
  have fixed : ∀ x, x / geometry.eraseSize = state.dev.offset / geometry.eraseSize →
      after.dev.flash.content x = middle.dev.flash.content x := by
    intro x here
    rcases spared with same | less
    · rw [same]
    · exact rest.behind x (here ▸ less)
  have same : after.dev.position middle.dev.offset =
      after.dev.position state.dev.offset + size := by
    rw [offset]
    exact Blocks.logical_add pos still fits
  have found : ∀ i, i < size → after.dev.address (after.dev.position state.dev.offset + i) =
      state.dev.offset + i := by
    intro i less
    exact Blocks.physical_logical_add pos still (by omega)
  constructor
  case total => rw [rest.total, total, Nat.add_assoc]
  case worse =>
      intro block held
      apply rest.worse
      rw [bad]
      exact held
  case before =>
      intro block less
      rw [rest.before block (Nat.lt_of_lt_of_le less later), bad]
  case behind =>
      intro x less
      have early : x < state.dev.offset := by
        by_contra late
        exact Nat.not_le.mpr less (Nat.div_le_div_right (Nat.not_lt.mp late))
      rw [rest.behind x (Nat.lt_of_lt_of_le less later), content, if_neg (by omega)]
  case moved => rw [rest.moved, same, Nat.add_assoc]
  case stored =>
      intro i less
      by_cases here : i < size
      · have block : (state.dev.offset + i) / geometry.eraseSize =
            state.dev.offset / geometry.eraseSize := (Blocks.div_add_of_lt (by omega)).1
        have there : state.totalWrittenSize + i < buf.length := by omega
        rw [found i here, fixed _ block, content, if_pos (by omega), Nat.add_sub_cancel_left,
          List.getD_eq_getElem?_getD, List.getElem?_eq_getElem there, Option.getD_some]
      · have tail := rest.stored (i - size) (by omega)
        rw [same, total, Nat.add_assoc, Nat.add_assoc, Nat.add_sub_cancel' (Nat.not_lt.mp here)] at tail
        exact tail
  case kept =>
      intro x held apart
      have tail : ∀ i, i < count →
          x ≠ after.dev.address (after.dev.position middle.dev.offset + i) := by
        intro i less
        rw [same, Nat.add_assoc]
        exact apart (size + i) (by omega)
      have outside : ¬ (state.dev.offset ≤ x ∧ x < state.dev.offset + size) := by
        intro both
        have hit := apart (x - state.dev.offset) (by omega)
        rw [found _ (by omega)] at hit
        omega
      rw [rest.kept x held tail, content, if_neg outside]
  case room =>
      intro _
      by_cases more : 0 < count
      · have room := rest.room more
        rw [same] at room
        omega
      · have zero : count = 0 := Nat.eq_zero_of_not_pos more
        rw [zero, Nat.add_zero]
        exact Blocks.logical_room still fits (block_lt inside)

theorem setBadBlock_bad (flash : Flash) (address : Nat) : (flash.setBadBlock geometry address).bad =
    Function.update flash.bad (address / geometry.eraseSize) true :=
  rfl

theorem updateBbt_flash {dev : Dev geometry} (address : Nat) :
    (dev.updateBbt address true).flash = dev.flash.setBadBlock geometry address := by
  rw [Dev.updateBbt, if_pos rfl]
  dsimp only
  split
  · rfl
  · rfl

/-- A turn before a run. -/
theorem stored_turn {erasure : Erasure} (marks : ∀ block, erasure.fails block = true →
    erasure.marks block = true) {buf : List Byte} {state middle after : Writing geometry} {count : Nat}
    (turn : WriteTurn erasure buf state (.next middle))
    (onward : after = middle ∨ middle.totalWrittenSize < buf.length)
    (rest : Stored buf middle after count) : ∃ count, Stored buf state after count := by
  cases turn with
  | skip inside bad =>
      exact ⟨count, rest.pass rfl rfl bad (fun _ _ => rfl) (fun _ _ => rfl)⟩
  | fail inside good fails start first marked updated =>
      rw [marks _ fails] at updated
      have flash : marked.flash = (state.dev.flash.spoil geometry erasure.left start
          geometry.eraseSize).setBadBlock geometry start := by
        rw [updated, updateBbt_flash]
      have block : start / geometry.eraseSize = state.dev.offset / geometry.eraseSize := by
        rw [first, start_block]
      refine ⟨count, rest.pass rfl rfl ?_ ?_ ?_⟩
      · show marked.flash.bad _ = true
        rw [flash, setBadBlock_bad, block, Function.update_self]
      · intro other apart
        show marked.flash.bad other = _
        rw [flash, setBadBlock_bad, block, Function.update_of_ne apart]
        rfl
      · intro x apart
        show marked.flash.content x = _
        rw [flash]
        simp only [Flash.setBadBlock, Flash.spoil]
        rw [first, if_neg (mt in_block.mp apart)]
  | part inside good erased start first unit merged =>
      have least := merged.least
      have small := Nat.mod_lt state.dev.offset geometry.erase_pos
      refine ⟨unit.2 + count, rest.part inside good least rfl rfl rfl ?_ ?_⟩
      · intro x
        dsimp only
        rw [first]
        exact rewrite_content merged x
      · rcases onward with same | goes
        · exact .inl same
        · dsimp only at goes
          exact .inr (by omega)

theorem writeLoop_stores {erasure : Erasure} (marks : ∀ block, erasure.fails block = true →
    erasure.marks block = true) {buf : List Byte} {fuel : Nat} {state after : Writing geometry}
    (ready : state.Ready buf) (ran : (writeLoop erasure buf).run fuel state = some after) :
    ∃ count, Stored buf state after count := by
  revert ready
  refine DoWhile.ends (fun state after => state.Ready buf → ∃ count, Stored buf state after count)
    ?leave ?last ?next ran
  case leave =>
      intro state after turned ready
      have turn := writeTurn erasure ready
      rw [turned] at turn
      cases turn with
      | ended beyond => exact ⟨0, .nothing buf state⟩
  case last =>
      intro state after turned _ ready
      have turn := writeTurn erasure ready
      rw [turned] at turn
      exact stored_turn marks turn (.inl rfl) (.nothing buf after)
  case next =>
      intro state middle after turned goes ih ready
      have turn := writeTurn erasure ready
      rw [turned] at turn
      replace goes : middle.totalWrittenSize < buf.length := of_decide_eq_true goes
      rcases ih (writeTurn_ready ready turn goes) with ⟨count, rest⟩
      exact stored_turn marks turn (.inr goes) rest

theorem ready_start {dev : Dev geometry} (block : dev.eraseType = .block) (buf : List Byte) :
    Writing.Ready buf ⟨dev, 0⟩ :=
  ⟨block, .inl rfl, Nat.zero_le _⟩

theorem writeLoop_terminates (erasure : Erasure) (buf : List Byte) {dev : Dev geometry}
    (block : dev.eraseType = .block) :
    ∃ after, (writeLoop erasure buf).run (Dev.loopFuel geometry) ⟨dev, 0⟩ = some after := by
  apply DoWhile.terminates (fun state : Writing geometry => state.Ready buf)
    (fun state => geometry.size - state.dev.offset)
  case start => exact ready_start block buf
  case enough => exact Nat.lt_succ_of_le (Nat.sub_le ..)
  case less =>
      intro state middle ready turned goes
      have turn := writeTurn erasure ready
      rw [turned] at turn
      replace goes : middle.totalWrittenSize < buf.length := of_decide_eq_true goes
      refine ⟨writeTurn_ready ready turn goes, ?_⟩
      have pos := geometry.erase_pos
      cases turn with
      | skip inside bad =>
          dsimp only
          omega
      | fail inside good fails start first marked updated =>
          dsimp only
          omega
      | part inside good erased start first unit merged =>
          have least := merged.least
          have small := Nat.mod_lt state.dev.offset pos
          dsimp only at goes ⊢
          omega

/-- `alislsto_write` returns, and what it returns is what it stored. -/
theorem alislstoWrite_stores {erasure : Erasure} (marks : ∀ block, erasure.fails block = true →
    erasure.marks block = true) {dev : Dev geometry} (block : dev.eraseType = .block)
    (buf : List Byte) : ∃ count after, dev.alislstoWrite erasure buf = some (count, after) ∧
      Stored buf ⟨dev, 0⟩ ⟨after, count⟩ count := by
  rcases writeLoop_terminates erasure buf block with ⟨final, ran⟩
  rcases writeLoop_stores marks (ready_start block buf) ran with ⟨count, stored⟩
  have total : final.totalWrittenSize = count := by rw [stored.total, Nat.zero_add]
  refine ⟨count, final.dev, ?_, ?_⟩
  · rw [Dev.alislstoWrite, ran, Option.map_some, total]
  · rw [← total]
    rw [← total] at stored
    exact stored

end

end Alisl.Storage.Nand
