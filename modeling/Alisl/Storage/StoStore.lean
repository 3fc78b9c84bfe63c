import Alisl.Storage.StoDevice

/-! What the write loop of a device of either type does, in terms of the write loop of a NAND
flash whose driver never fails. -/

namespace Alisl.Storage.Nand

open Alisl.Base

section

variable {geometry : NandGeometry} {driver : Driver} {dev : StoDev} {buf : List Byte}

/-- The state as the loop over a NAND flash has it. -/
def Storing.placing (geometry : NandGeometry) (dev : StoDev) (state : Storing) : Placing geometry where
  dev := ({ dev with flash := state.flash }).plain geometry (base geometry state.offset)
  skipping := state.skipping
  totalWrittenSize := state.totalWrittenSize

/-- A bad block is passed. -/
def Storing.pass (geometry : NandGeometry) (state : Storing) : Storing :=
  { state with offset := state.offset + geometry.eraseSize, skipping := true }

/-- So many bytes are written at an address. -/
def Storing.place (geometry : NandGeometry) (buf : List Byte) (state : Storing)
    (address size : Nat) : Storing where
  flash := state.flash.write geometry.toGeometry address
    ((buf.drop state.totalWrittenSize).take size)
  offset := (address + size : Nat)
  skipping := false
  totalWrittenSize := state.totalWrittenSize + size

/-- A turn of the write loop on an open device. -/
inductive StoreTurn (geometry : NandGeometry) (driver : Driver) (dev : StoDev) (buf : List Byte)
    (state : Storing) : Turn Storing → Prop where
  | ended (outer : state.skipping = false) (beyond : (geometry.size : Int) ≤ state.offset) :
      StoreTurn geometry driver dev buf state (.leave state)
  | pass (nand : dev.nand = true)
      (inside : state.skipping = false → state.offset < geometry.size)
      (bad : ({ dev with flash := state.flash }).getBadBlock geometry state.offset = true) :
      StoreTurn geometry driver dev buf state (.next (state.pass geometry))
  | missed (address : Nat) (here : state.offset = address) (inside : address < geometry.size)
      (good : (state.placing geometry dev).dev.flash.Good (address / geometry.eraseSize))
      (page : address % geometry.writeSize ≠ 0) :
      StoreTurn geometry driver dev buf state (.leave { state with skipping := false })
  | fails (address : Nat) (here : state.offset = address) (inside : address < geometry.size)
      (good : (state.placing geometry dev).dev.flash.Good (address / geometry.eraseSize))
      (page : address % geometry.writeSize = 0) (size : Nat)
      (least : size = min (geometry.eraseSize - address % geometry.eraseSize)
        (buf.length - state.totalWrittenSize))
      (unwritable : ∃ i < size, driver.unwritable (address + i) = true) :
      StoreTurn geometry driver dev buf state (.leave { state with
        flash := state.flash.spoil geometry.toGeometry driver.left address size
        skipping := false })
  | part (address : Nat) (here : state.offset = address) (inside : address < geometry.size)
      (good : (state.placing geometry dev).dev.flash.Good (address / geometry.eraseSize))
      (page : address % geometry.writeSize = 0) (size : Nat)
      (least : size = min (geometry.eraseSize - address % geometry.eraseSize)
        (buf.length - state.totalWrittenSize))
      (writable : ∀ i < size, driver.unwritable (address + i) = false) :
      StoreTurn geometry driver dev buf state (.next (state.place geometry buf address size))

theorem storeTurn (geometry : NandGeometry) (driver : Driver) (valid : dev.valid = true) (buf : List Byte) {state : Storing}
    (reached : dev.nand = true ∨ (0 ≤ state.offset ∧ state.skipping = false)) :
    StoreTurn geometry driver dev buf state ((storeLoop geometry driver dev buf).body state) := by
  unfold storeLoop
  dsimp only
  by_cases ended : state.skipping = false ∧ (geometry.size : Int) ≤ state.offset
  · rw [if_pos ended]
    exact .ended ended.1 ended.2
  rw [if_neg ended]
  by_cases bad : (dev.nand &&
      ({ dev with flash := state.flash }).getBadBlock geometry state.offset) = true
  · rw [if_pos bad]
    rw [Bool.and_eq_true] at bad
    apply StoreTurn.pass bad.1 _ bad.2
    intro outer
    by_contra beyond
    exact ended ⟨outer, Int.not_lt.mp beyond⟩
  rw [if_neg bad]
  have inside : 0 ≤ state.offset ∧ state.offset < geometry.size ∧
      (state.placing geometry dev).dev.flash.Good (state.offset.toNat / geometry.eraseSize) := by
    cases nand : dev.nand with
    | true =>
        rw [nand, Bool.true_and, Bool.not_eq_true] at bad
        simp only [StoDev.getBadBlock, valid, Bool.not_true, Bool.false_or, Bool.or_eq_false_iff,
          decide_eq_false_iff_not, Int.not_lt, Int.not_le] at bad
        refine ⟨bad.1.1, bad.1.2, ?_⟩
        simp [Flash.Good, Storing.placing, StoDev.plain, bad.2]
    | false =>
        rw [nand] at reached
        have outer := reached.resolve_left (by decide)
        refine ⟨outer.1, ?_, ?_⟩
        · by_contra beyond
          exact ended ⟨outer.2, Int.not_lt.mp beyond⟩
        · simp [Flash.Good, Storing.placing, StoDev.plain, nand]
  obtain ⟨address, here⟩ := Int.eq_ofNat_of_zero_le inside.1
  have open_ : ¬ (dev.valid = false ∨ state.offset < 0) := by
    rintro (closed | negative)
    · rw [valid] at closed
      cases closed
    · exact absurd inside.1 (Int.not_le.mpr negative)
  have less : address < geometry.size := by
    have bound := inside.2.1
    rw [here] at bound
    exact_mod_cast bound
  have good := inside.2.2
  have pages : state.offset % geometry.writeSize ≠ 0 ↔ address % geometry.writeSize ≠ 0 := by
    rw [here]
    exact_mod_cast Iff.rfl
  rw [here, Int.toNat_natCast] at good
  by_cases page : state.offset % geometry.writeSize ≠ 0
  · rw [if_pos page]
    exact .missed address here less good (pages.mp page)
  rw [if_neg page, if_neg open_, here, Int.toNat_natCast]
  have whole : address % geometry.writeSize = 0 := by
    by_contra missed
    exact page (pages.mpr missed)
  have least : (if geometry.eraseSize - address % geometry.eraseSize ≤
        buf.length - state.totalWrittenSize then geometry.eraseSize - address % geometry.eraseSize
      else buf.length - state.totalWrittenSize) =
      min (geometry.eraseSize - address % geometry.eraseSize)
        (buf.length - state.totalWrittenSize) := Nat.min_def.symm
  generalize (if geometry.eraseSize - address % geometry.eraseSize ≤
        buf.length - state.totalWrittenSize then geometry.eraseSize - address % geometry.eraseSize
      else buf.length - state.totalWrittenSize) = size at least ⊢
  by_cases failing : (List.range size).any (fun i => driver.unwritable (address + i)) = true
  · rw [if_pos failing]
    obtain ⟨i, member, unwritable⟩ := List.any_eq_true.mp failing
    have turn : StoreTurn geometry driver dev buf state _ :=
      .fails address here less good whole size least ⟨i, List.mem_range.mp member, unwritable⟩
    rw [here] at turn
    exact turn
  · rw [if_neg failing]
    have writable : ∀ i < size, driver.unwritable (address + i) = false := by
      intro i below
      by_contra unwritable
      exact failing (List.any_eq_true.mpr
        ⟨i, List.mem_range.mpr below, Bool.eq_true_of_not_eq_false unwritable⟩)
    exact .part address here less good whole size least writable

/-- The address of a byte that the loop is to write. -/
noncomputable def Placing.target (state : Placing geometry) (i : Nat) : Nat :=
  state.dev.address (state.dev.position state.dev.offset + i)

/-- The run goes as over a driver that never fails, or a byte that was due cannot be written. -/
def Answered (driver : Driver) (buf : List Byte) (state : Placing geometry) (after : Placing geometry) :
    Prop :=
  (Settled buf state after ∧
    ∀ i < state.due buf, driver.unwritable (state.target i) = false) ∨
  (after.totalWrittenSize < buf.length ∧
    ∃ i < state.due buf, driver.unwritable (state.target i) = true)

theorem Answered.settled {state after : Placing geometry} (settled : Settled buf state after)
    (none_ : state.due buf = 0) : Answered driver buf state after := by
  refine .inl ⟨settled, ?_⟩
  intro i less
  omega

theorem ended_due {state : Placing geometry} (beyond : geometry.size ≤ state.dev.offset) :
    state.due buf = 0 := by
  have behind : state.dev.capacity ≤ state.dev.position state.dev.offset :=
    Blocks.capacity_le_logical geometry.erase_pos beyond
  rw [Placing.due]
  split <;> omega

/-- Passing what is in front of the device changes nothing but the loop it is passed in. -/
theorem settled_skipping {state after : Placing geometry}
    (rest : Settled buf { state with skipping := true } after) : Settled buf state after := by
  obtain ⟨returns, placed⟩ := rest
  constructor
  · rcases returns with ended | met
    · cases ended.1
    · exact .inr met
  · exact ⟨placed.dev, placed.bad, placed.total, placed.moved, placed.room, placed.placed,
      placed.kept⟩

theorem Answered.skipping {state after : Placing geometry}
    (rest : Answered driver buf { state with skipping := true } after) :
    Answered driver buf state after := by
  rcases rest with ⟨settled, writable⟩ | failed
  · exact .inl ⟨settled_skipping settled, writable⟩
  · exact .inr failed

theorem Answered.skip {state after : Placing geometry}
    (inside : state.skipping = false → state.dev.offset < geometry.size)
    (bad : state.dev.getBadBlock state.dev.offset = true)
    (rest : Answered driver buf state.pass after)
    (broken : state.dev.flash.bad (state.dev.offset / geometry.eraseSize) = true) :
    Answered driver buf state after := by
  have due := (due_skip broken : state.pass.due buf = state.due buf)
  have target : ∀ i, state.pass.target i = state.target i := by
    intro i
    rw [Placing.target, pass_position state broken]
    rfl
  rcases rest with ⟨settled, writable⟩ | ⟨short, i, less, unwritable⟩
  · refine .inl ⟨settled_skip inside bad settled, ?_⟩
    intro i less
    rw [← target i]
    exact writable i (due ▸ less)
  · refine .inr ⟨short, i, due ▸ less, ?_⟩
    rw [← target i]
    exact unwritable

section

variable {state : Placing geometry} {size : Nat}

theorem target_here (good : state.dev.flash.Good (state.dev.offset / geometry.eraseSize))
    (least : size = min (geometry.eraseSize - state.dev.offset % geometry.eraseSize)
      (buf.length - state.totalWrittenSize)) {i : Nat} (less : i < size) :
    state.target i = state.dev.offset + i := by
  have small := Nat.mod_lt state.dev.offset geometry.erase_pos
  exact Blocks.physical_logical_add geometry.erase_pos good (by omega)

theorem target_behind (inside : state.dev.offset < geometry.size)
    (good : state.dev.flash.Good (state.dev.offset / geometry.eraseSize))
    (least : size = min (geometry.eraseSize - state.dev.offset % geometry.eraseSize)
      (buf.length - state.totalWrittenSize)) (i : Nat) :
    (state.place buf size).target i = state.target (size + i) := by
  have same : (state.place buf size).dev.position (state.place buf size).dev.offset =
      state.dev.position state.dev.offset + size := (place_room inside good least).2
  rw [Placing.target, Placing.target, same, Nat.add_assoc]
  rfl

theorem size_le_due (inside : state.dev.offset < geometry.size)
    (good : state.dev.flash.Good (state.dev.offset / geometry.eraseSize))
    (page : state.dev.offset % geometry.writeSize = 0)
    (least : size = min (geometry.eraseSize - state.dev.offset % geometry.eraseSize)
      (buf.length - state.totalWrittenSize)) : size ≤ state.due buf := by
  have room := (place_room inside good least).1
  rw [Placing.due, if_pos page]
  omega

theorem due_place (inside : state.dev.offset < geometry.size)
    (good : state.dev.flash.Good (state.dev.offset / geometry.eraseSize))
    (page : state.dev.offset % geometry.writeSize = 0)
    (least : size = min (geometry.eraseSize - state.dev.offset % geometry.eraseSize)
      (buf.length - state.totalWrittenSize))
    (more : state.totalWrittenSize + size < buf.length) :
    state.due buf = size + (state.place buf size).due buf := by
  obtain ⟨room, same⟩ := place_room inside good least
  have whole := (part_whole least (by omega)).1
  have page' : (state.place buf size).dev.offset % geometry.writeSize = 0 := page_whole whole
  have position : (state.place buf size).dev.position (state.place buf size).dev.offset =
      state.dev.position state.dev.offset + size := same
  have capacity : (state.place buf size).dev.capacity = state.dev.capacity := rfl
  have total : (state.place buf size).totalWrittenSize = state.totalWrittenSize + size := rfl
  rw [Placing.due, Placing.due, if_pos page, if_pos page', total, position, capacity]
  omega

theorem Answered.last (inside : state.dev.offset < geometry.size)
    (good : state.dev.flash.Good (state.dev.offset / geometry.eraseSize))
    (page : state.dev.offset % geometry.writeSize = 0)
    (least : size = min (geometry.eraseSize - state.dev.offset % geometry.eraseSize)
      (buf.length - state.totalWrittenSize))
    (writable : ∀ i < size, driver.unwritable (state.dev.offset + i) = false)
    (all : buf.length ≤ state.totalWrittenSize + size) :
    Answered driver buf state (state.place buf size) := by
  refine .inl ⟨settled_last inside good page least all, ?_⟩
  intro i less
  have due : state.due buf ≤ buf.length - state.totalWrittenSize := by
    rw [Placing.due, if_pos page]
    exact Nat.min_le_left _ _
  have here : i < size := by omega
  rw [target_here good least here]
  exact writable i here

theorem Answered.next {after : Placing geometry} (inside : state.dev.offset < geometry.size)
    (good : state.dev.flash.Good (state.dev.offset / geometry.eraseSize))
    (page : state.dev.offset % geometry.writeSize = 0)
    (least : size = min (geometry.eraseSize - state.dev.offset % geometry.eraseSize)
      (buf.length - state.totalWrittenSize))
    (writable : ∀ i < size, driver.unwritable (state.dev.offset + i) = false)
    (more : state.totalWrittenSize + size < buf.length)
    (rest : Answered driver buf (state.place buf size) after) : Answered driver buf state after := by
  have due := due_place inside good page least more
  rcases rest with ⟨settled, behind⟩ | ⟨short, i, less, unwritable⟩
  · refine .inl ⟨settled_next inside good page least more settled, ?_⟩
    intro i less
    by_cases here : i < size
    · rw [target_here good least here]
      exact writable i here
    · obtain ⟨j, rfl⟩ := Nat.exists_eq_add_of_le (Nat.not_lt.mp here)
      rw [← target_behind inside good least]
      exact behind j (by omega)
  · refine .inr ⟨short, size + i, by omega, ?_⟩
    rw [← target_behind inside good least]
    exact unwritable

end

/-! ### The run -/

theorem placing_negative {state : Storing} (negative : state.offset < 0) :
    (state.pass geometry).placing geometry dev =
      { state.placing geometry dev with skipping := true } := by
  have same : base geometry (state.offset + geometry.eraseSize) = base geometry state.offset :=
    base_skip negative
  unfold Storing.placing Storing.pass
  dsimp only
  rw [same]

theorem placing_pass {state : Storing} {address : Nat} (here : state.offset = address) :
    (state.pass geometry).placing geometry dev = (state.placing geometry dev).pass := by
  have next : base geometry (state.offset + geometry.eraseSize) =
      base geometry state.offset + geometry.eraseSize := by
    rw [here, ← Nat.cast_add, base_natCast, base_natCast]
  unfold Storing.placing Storing.pass Placing.pass
  dsimp only
  rw [next]
  rfl

theorem placing_offset {state : Storing} {address : Nat} (here : state.offset = address) :
    (state.placing geometry dev).dev.offset = address := by
  show base geometry state.offset = address
  rw [here, base_natCast]

theorem placing_place {state : Storing} {address : Nat} (here : state.offset = address)
    (size : Nat) :
    (state.place geometry buf address size).placing geometry dev =
      (state.placing geometry dev).place buf size := by
  unfold Storing.placing Storing.place Placing.place
  dsimp only
  rw [here, base_natCast, base_natCast]
  rfl

/-- What the inner loop passes: what is in front of the device, a bad block, and what is behind. -/
theorem answered_pass {state after : Storing} (valid : dev.valid = true) (nand : dev.nand = true)
    (inside : state.skipping = false → state.offset < geometry.size)
    (bad : ({ dev with flash := state.flash }).getBadBlock geometry state.offset = true)
    (rest : Answered driver buf ((state.pass geometry).placing geometry dev)
      (after.placing geometry dev)) :
    Answered driver buf (state.placing geometry dev) (after.placing geometry dev) := by
  by_cases negative : state.offset < 0
  · rw [placing_negative negative] at rest
    exact rest.skipping
  obtain ⟨address, here⟩ := Int.eq_ofNat_of_zero_le (Int.not_lt.mp negative)
  have offset : (state.placing geometry dev).dev.offset = address := placing_offset here
  rw [placing_pass here] at rest
  have inner : (state.placing geometry dev).skipping = false →
      (state.placing geometry dev).dev.offset < geometry.size := by
    intro outer
    have less := inside outer
    rw [here] at less
    rw [offset]
    exact_mod_cast less
  by_cases beyond : geometry.size ≤ address
  · have passed : (state.placing geometry dev).dev.getBadBlock address = true := by
      rw [Dev.getBadBlock, decide_eq_true beyond, Bool.true_or]
    rw [← offset] at passed
    have behind : (state.placing geometry dev).pass.due buf = 0 := by
      apply ended_due
      show geometry.size ≤ (state.placing geometry dev).dev.offset + geometry.eraseSize
      omega
    rcases rest with ⟨settled, _⟩ | ⟨_, i, less, _⟩
    · exact Answered.settled (settled_skip inner passed settled) (ended_due (by omega))
    · omega
  · have within : state.offset < geometry.size := by omega
    have opened : ({ dev with flash := state.flash } : StoDev).valid = true := valid
    have broken := (getBadBlock_valid opened within nand).mp bad
    have block : (state.placing geometry dev).dev.flash.bad
        ((state.placing geometry dev).dev.offset / geometry.eraseSize) = true := by
      have found := (broken.resolve_left negative).2
      rw [here, Int.toNat_natCast] at found
      rw [offset]
      exact found
    have passed : (state.placing geometry dev).dev.getBadBlock
        (state.placing geometry dev).dev.offset = true := by
      rw [Dev.getBadBlock, block, Bool.or_true]
    exact rest.skip inner passed block

/-- The state with the offset of a good block, of which the turn has found the size of a part. -/
theorem storeLoop_answers (driver : Driver) (valid : dev.valid = true) (buf : List Byte) {fuel : Nat}
    {before after : Storing} (ran : (storeLoop geometry driver dev buf).run fuel before = some after) :
    (dev.nand = true ∨ (0 ≤ before.offset ∧ before.skipping = false)) →
      before.totalWrittenSize < buf.length →
      Answered driver buf (before.placing geometry dev) (after.placing geometry dev) := by
  refine DoWhile.ends (fun before after =>
    (dev.nand = true ∨ (0 ≤ before.offset ∧ before.skipping = false)) →
      before.totalWrittenSize < buf.length →
      Answered driver buf (before.placing geometry dev) (after.placing geometry dev))
    ?leave ?last ?next ran
  case leave =>
      intro state after turned reached more
      have turn := storeTurn geometry driver valid buf reached
      rw [turned] at turn
      cases turn with
      | ended outer beyond =>
          obtain ⟨address, here⟩ :=
            Int.eq_ofNat_of_zero_le (Int.le_trans (Int.natCast_nonneg _) beyond)
          have offset : (state.placing geometry dev).dev.offset = address := placing_offset here
          have behind : geometry.size ≤ (state.placing geometry dev).dev.offset := by omega
          exact .settled (settled_ended outer behind) (ended_due behind)
      | missed address here inside good page =>
          have offset : (state.placing geometry dev).dev.offset = address := placing_offset here
          rw [← offset] at inside good page
          apply Answered.settled (settled_missed inside good page)
          rw [Placing.due, if_neg page]
      | fails address here inside good page size least unwritable =>
          have offset : (state.placing geometry dev).dev.offset = address := placing_offset here
          rw [← offset] at inside good page least unwritable
          obtain ⟨i, less, failing⟩ := unwritable
          have most : size ≤ (state.placing geometry dev).due buf :=
            size_le_due inside good page least
          have target : (state.placing geometry dev).target i =
              (state.placing geometry dev).dev.offset + i := target_here good least less
          refine .inr ⟨more, i, by omega, ?_⟩
          rw [target]
          exact failing
  case last =>
      intro state after turned done reached more
      have turn := storeTurn geometry driver valid buf reached
      rw [turned] at turn
      cases turn with
      | pass nand inside bad => cases done
      | part address here inside good page size least writable =>
          have offset : (state.placing geometry dev).dev.offset = address := placing_offset here
          have all : ¬ state.totalWrittenSize + size < buf.length := of_decide_eq_false done
          rw [placing_place here]
          rw [← offset] at inside good page least writable
          exact .last inside good page least writable (Nat.not_lt.mp all)
  case next =>
      intro state middle after turned goes rest reached more
      have turn := storeTurn geometry driver valid buf reached
      rw [turned] at turn
      cases turn with
      | pass nand inside bad => exact answered_pass valid nand inside bad (rest (.inl nand) more)
      | part address here inside good page size least writable =>
          have offset : (state.placing geometry dev).dev.offset = address := placing_offset here
          have still : state.totalWrittenSize + size < buf.length := of_decide_eq_true goes
          have answered := rest (.inr ⟨Int.natCast_nonneg _, rfl⟩) still
          rw [placing_place here] at answered
          rw [← offset] at inside good page least writable
          exact answered.next inside good page least writable still

/-- Without an open handle, or in front of a NOR flash, nothing is written. -/
theorem storeLoop_nothing {driver : Driver} {fuel : Nat} {before after : Storing}
    (ran : (storeLoop geometry driver dev buf).run fuel before = some after) :
    ¬ (dev.valid = true ∧ (dev.nand = true ∨ 0 ≤ before.offset)) →
      after.totalWrittenSize = before.totalWrittenSize := by
  refine DoWhile.ends (fun before after => ¬ (dev.valid = true ∧
    (dev.nand = true ∨ 0 ≤ before.offset)) → after.totalWrittenSize = before.totalWrittenSize)
    ?leave ?last ?next ran
  case leave =>
      intro state after turned closed
      unfold storeLoop at turned
      dsimp only at turned
      split at turned
      · cases turned
        rfl
      split at turned
      · cases turned
      split at turned
      · cases turned
        rfl
      split at turned
      case isTrue =>
          cases turned
          rfl
      case isFalse opened =>
          rw [not_or, Bool.not_eq_false, Int.not_lt] at opened
          exact absurd ⟨opened.1, .inr opened.2⟩ closed
  case last =>
      intro state after turned _ closed
      unfold storeLoop at turned
      dsimp only at turned
      split at turned
      · cases turned
      split at turned
      · cases turned
        rfl
      split at turned
      · cases turned
      split at turned
      case isTrue => cases turned
      case isFalse opened =>
          rw [not_or, Bool.not_eq_false, Int.not_lt] at opened
          exact absurd ⟨opened.1, .inr opened.2⟩ closed
  case next =>
      intro state middle after turned _ rest closed
      unfold storeLoop at turned
      dsimp only at turned
      split at turned
      · cases turned
      split at turned
      case isTrue bad =>
          cases turned
          rw [Bool.and_eq_true] at bad
          apply rest
          rintro ⟨valid, _⟩
          exact closed ⟨valid, .inl bad.1⟩
      case isFalse =>
          split at turned
          · cases turned
          split at turned
          case isTrue => cases turned
          case isFalse opened =>
              rw [not_or, Bool.not_eq_false, Int.not_lt] at opened
              exact absurd ⟨opened.1, .inr opened.2⟩ closed

theorem base_page (offset : Int) :
    base geometry offset % geometry.writeSize = 0 ↔ offset % geometry.writeSize = 0 := by
  have pages : (geometry.writeSize : Int) ∣ geometry.eraseSize :=
    Int.natCast_dvd_natCast.mpr geometry.pages
  have pos : (0 : Int) < geometry.eraseSize := Int.natCast_pos.mpr geometry.erase_pos
  have same : ((base geometry offset : Nat) : Int) % geometry.writeSize =
      offset % geometry.writeSize := by
    rw [base]
    split
    · rw [Int.toNat_of_nonneg (Int.emod_nonneg _ (Int.ne_of_gt pos)), Int.emod_emod_of_dvd _ pages]
    · rw [Int.toNat_of_nonneg (by omega)]
  rw [← same]
  exact_mod_cast Iff.rfl

/-- Where a write counts all its bytes, and what it has done then. -/
theorem stoWrite_all {driver : Driver} {dev after : StoDev} {fuel count : Nat}
    {buf : List Byte} (some_ : 0 < buf.length)
    (written : dev.alislstoWriteNoErase geometry driver fuel buf = some (count, after)) :
    (count = buf.length ↔ dev.Enough geometry dev.offset buf.length ∧
      dev.offset % geometry.writeSize = 0 ∧
      ∀ i < buf.length, driver.unwritable (dev.byteAt geometry dev.offset i) = false) ∧
    (count = buf.length →
      (∀ i < buf.length, after.flash.content (dev.byteAt geometry dev.offset i) =
        dev.flash.content (dev.byteAt geometry dev.offset i) &&& buf.getD i 0xff) ∧
      ∀ x, (∀ i < buf.length, x ≠ dev.byteAt geometry dev.offset i) →
        after.flash.content x = dev.flash.content x) := by
  obtain ⟨final, ran, result⟩ := Option.map_eq_some_iff.mp written
  cases result
  by_cases opened : dev.valid = true ∧ (dev.nand = true ∨ 0 ≤ dev.offset)
  case neg =>
    have nothing : final.totalWrittenSize = 0 := storeLoop_nothing ran opened
    rw [nothing]
    refine ⟨iff_of_false (by omega) ?_, fun all => by omega⟩
    rintro ⟨⟨valid, reached, _⟩, _⟩
    exact opened ⟨valid, reached⟩
  have answered := storeLoop_answers driver opened.1 buf ran
    (opened.2.imp_right (fun inside => ⟨inside, rfl⟩)) some_
  -- the positions of the loop are those of the device
  generalize starts : Storing.placing geometry dev ⟨dev.flash, dev.offset, false, 0⟩ = start
    at answered
  have place : start.dev.position start.dev.offset = dev.place geometry dev.offset := by
    rw [← starts]
    rfl
  have capacity : start.dev.capacity = dev.room geometry := by
    rw [← starts]
    rfl
  have target : ∀ i, start.target i = dev.byteAt geometry dev.offset i := by
    rw [← starts]
    exact fun i => rfl
  have content : start.dev.flash.content = dev.flash.content := by
    rw [← starts]
    rfl
  have total : start.totalWrittenSize = 0 := by
    rw [← starts]
    rfl
  have page : start.dev.offset % geometry.writeSize = 0 ↔ dev.offset % geometry.writeSize = 0 := by
    rw [← starts]
    exact base_page dev.offset
  have due : start.due buf = buf.length ↔ dev.offset % geometry.writeSize = 0 ∧
      dev.place geometry dev.offset + buf.length ≤ dev.room geometry := by
    rw [Placing.due, place, capacity, total, ← page]
    split <;> omega
  have most : start.due buf ≤ buf.length := by
    rw [Placing.due]
    split <;> omega
  rcases answered with ⟨settled, writable⟩ | ⟨short, i, less, failing⟩
  · have placed := settled.2
    have counted : final.totalWrittenSize = start.due buf := by
      have sum : final.totalWrittenSize = start.totalWrittenSize + start.due buf := placed.total
      rw [sum, total, Nat.zero_add]
    constructor
    · rw [counted, due]
      constructor
      · rintro ⟨aligned, fits⟩
        refine ⟨⟨opened.1, opened.2, fits⟩, aligned, ?_⟩
        intro i less
        rw [← target i]
        exact writable i (by rw [due.mpr ⟨aligned, fits⟩]; exact less)
      · rintro ⟨enough, aligned, _⟩
        exact ⟨aligned, enough.2.2⟩
    · intro all
      rw [← counted, all] at placed
      have placed_ := placed.placed
      have kept := placed.kept
      simp only [content, total, Nat.zero_add] at placed_ kept
      have bytes : ∀ i, start.dev.address (start.dev.position start.dev.offset + i) =
          dev.byteAt geometry dev.offset i := target
      simp only [bytes] at placed_ kept
      exact ⟨placed_, kept⟩
  · have counted : final.totalWrittenSize < buf.length := short
    refine ⟨iff_of_false (by omega) ?_, fun all => by omega⟩
    rintro ⟨_, _, writable⟩
    rw [target i, writable i (by omega)] at failing
    cases failing

end

end Alisl.Storage.Nand
