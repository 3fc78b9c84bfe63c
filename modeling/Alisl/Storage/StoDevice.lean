import Alisl.Storage.NoErase

/-! `alislsto_dev_t` of either type with an offset of type `loff_t`: the seeks, the read and the
write without erasing, over a driver whose reads and writes can fail. -/

namespace Alisl.Storage.Nand

open Alisl.Base

inductive StoRetcode where
  | none
  | cantOpen
  | noLayoutMap
  | invalidHandle
  | cantSeek
  | overflow
  | invalidSize
  | invalidParam
  | driver
  | mem
  deriving DecidableEq, Repr

/-- `STO_ERR_INVALIDHANDLE` as an `int`. -/
def invalidHandleCode : Int := 3

/-- An entry of `storage_map_t`. -/
structure MapEntry where
  offset : Int
  size : Nat

/-- A mapping table, and what lies outside of it in memory. -/
structure MapTable where
  entries : List MapEntry
  behind : Int → MapEntry

def MapTable.get (map : MapTable) (idx : Int) : MapEntry :=
  if 0 ≤ idx then map.entries.getD idx.toNat (map.behind idx) else map.behind idx

/-- What the driver answers: the bytes that cannot be read and those that cannot be written,
with what a failed write leaves. -/
structure Driver where
  unreadable : Nat → Bool
  unwritable : Nat → Bool
  left : Nat → Byte

/-- What the functions use of `alislsto_dev_t` and of `storage_priv_t`; `valid` says that `handle`
is not `STO_INVALID_HANDLE`. -/
structure StoDev where
  nand : Bool
  valid : Bool
  pmi : Bool
  attr : Option MapTable
  flash : Flash
  offset : Int
  margin : Int
  seekmutex : Bool

/-- `seekAddr` from any offset. -/
def seekPlace (size : Nat) (current : Int) (offset : BitVec 32) : Whence → Option Int
  | .seekSet =>
      some (if size ≤ offset.toNat then lastAddr size
        else if 0 ≤ offset.toInt then offset.toNat
        else current)
  | .seekCur =>
      let newAddr := BitVec.ofInt 32 (current + offset.toInt)
      some (if newAddr.toInt < 0 then 0
        else if size ≤ newAddr.toNat then lastAddr size
        else newAddr.toNat)
  | .seekEnd =>
      let newAddr := BitVec.ofNat 32 size + offset - 1
      some (if newAddr.toInt < 0 then 0
        else if offset.toInt ≤ 0 then newAddr.toNat
        else current)
  | .other => none

theorem seekPlace_natCast (size current : Nat) (offset : BitVec 32) (whence : Whence) :
    seekPlace size current offset whence = (seekAddr size current offset whence).map Nat.cast := by
  cases whence with
  | seekSet =>
      simp only [seekPlace, seekAddr, Option.map_some, Option.some.injEq]
      split
      · rfl
      · split <;> rfl
  | seekCur =>
      simp only [seekPlace, seekAddr, Option.map_some, Option.some.injEq]
      split
      · rfl
      · split <;> rfl
  | seekEnd =>
      simp only [seekPlace, seekAddr, Option.map_some, Option.some.injEq]
      split
      · rfl
      · split <;> rfl
  | other => rfl

section

variable (geometry : NandGeometry)

namespace StoDev

/-- `alislsto_lseek`. -/
def alislstoLseek (dev : StoDev) (offset : BitVec 32) (whence : Whence) : Int × StoDev :=
  if dev.valid then
    match seekPlace geometry.size dev.offset offset whence with
    | none => (-1, dev)
    | some place => ((BitVec.ofInt 32 place).toInt, { dev with offset := place })
  else (invalidHandleCode, dev)

/-- `alislsto_lseek_ext`. -/
def alislstoLseekExt (dev : StoDev) (idx : Int) (offset : Int) : StoRetcode × StoDev :=
  if dev.pmi = false then (.driver, dev)
  else if dev.valid = false then (.invalidHandle, dev)
  else
    match dev.attr with
    | none => (.noLayoutMap, dev)
    | some map =>
        let entry := map.get idx
        if (entry.size ≠ 0 ∧ (entry.size : Int) < offset) ∨
            (geometry.size : Int) < entry.offset + offset then (.overflow, dev)
        else
          (.none, { dev with
            offset := entry.offset + offset
            margin := if idx = 0 then geometry.size else entry.offset + entry.size })

/-- `MEMGETBADBLOCK`: what is not an address of the device is an error, which is not zero either. -/
def getBadBlock (dev : StoDev) (offset : Int) : Bool :=
  !dev.valid || decide (offset < 0) || decide ((geometry.size : Int) ≤ offset) ||
    dev.flash.bad (offset.toNat / geometry.eraseSize)

end StoDev

/-- One `read` of the driver; the buffer keeps its bytes where it fails. -/
def Driver.read (driver : Driver) (flash : Flash) (start size : Nat) : List (Option Byte) :=
  if (List.range size).any (fun i => driver.unreadable (start + i)) then List.replicate size none
  else (flash.read start size).map some

/-- `alislsto_read` in its loop: the offset, and the bytes counted so far. -/
structure Fetching where
  offset : Int
  buffer : List (Option Byte)

def fetchLoop (driver : Driver) (dev : StoDev) (len : Nat) : DoWhile Fetching where
  body state :=
    if (geometry.size : Int) ≤ state.offset then .leave state
    else if dev.nand && dev.getBadBlock geometry state.offset then
      .next { state with offset := state.offset + geometry.eraseSize }
    else if dev.valid = false ∨ state.offset < 0 then .leave state
    else
      let start := state.offset.toNat
      let rest := geometry.eraseSize - start % geometry.eraseSize
      let size := if rest ≤ len - state.buffer.length then rest else len - state.buffer.length
      .next ⟨state.offset + size, state.buffer ++ driver.read dev.flash start size⟩
  again state := decide (state.buffer.length < len)

/-- `alislsto_read`; `none` is a call that does not return within the fuel. -/
def StoDev.alislstoRead (driver : Driver) (fuel : Nat) (dev : StoDev) (len : Nat) :
    Option (List (Option Byte) × StoDev) :=
  ((fetchLoop geometry driver dev len).run fuel ⟨dev.offset, []⟩).map (fun state =>
    (state.buffer, { dev with offset := state.offset }))

/-- `alislsto_write_no_erase` in its loop, as in `Placing`. -/
structure Storing where
  flash : Flash
  offset : Int
  skipping : Bool
  totalWrittenSize : Nat

def storeLoop (driver : Driver) (dev : StoDev) (buf : List Byte) : DoWhile Storing where
  body state :=
    if state.skipping = false ∧ (geometry.size : Int) ≤ state.offset then .leave state
    else if dev.nand && ({ dev with flash := state.flash }).getBadBlock geometry state.offset then
      .next { state with offset := state.offset + geometry.eraseSize, skipping := true }
    else if state.offset % geometry.writeSize ≠ 0 then .leave { state with skipping := false }
    else if dev.valid = false ∨ state.offset < 0 then .leave { state with skipping := false }
    else
      let start := state.offset.toNat
      let rest := geometry.eraseSize - start % geometry.eraseSize
      let size :=
        if rest ≤ buf.length - state.totalWrittenSize then rest
        else buf.length - state.totalWrittenSize
      let data := (buf.drop state.totalWrittenSize).take size
      if (List.range size).any (fun i => driver.unwritable (start + i)) then
        .leave { state with
          flash := state.flash.spoil geometry.toGeometry driver.left start size
          skipping := false }
      else
        .next ⟨state.flash.write geometry.toGeometry start data, state.offset + size, false,
          state.totalWrittenSize + size⟩
  again state := state.skipping || decide (state.totalWrittenSize < buf.length)

/-- `alislsto_write_no_erase`; `none` is a call that does not return within the fuel. -/
def StoDev.alislstoWriteNoErase (driver : Driver) (fuel : Nat) (dev : StoDev) (buf : List Byte) :
    Option (Nat × StoDev) :=
  ((storeLoop geometry driver dev buf).run fuel ⟨dev.flash, dev.offset, false, 0⟩).map (fun state =>
    (state.totalWrittenSize, { dev with flash := state.flash, offset := state.offset }))

end

/-! ### Positions -/

section

variable {geometry : NandGeometry}

/-- The device as the loops go over it, from an address: only NAND has bad blocks. -/
def StoDev.plain (geometry : NandGeometry) (dev : StoDev) (address : Nat) :
    Dev geometry.toGeometry where
  flash := { dev.flash with bad := fun block => dev.nand && dev.flash.bad block }
  eraseType := .block
  offset := address
  badCnt := 0
  badMap := fun _ => 0
  logicSize := 0

/-- Where the loops get to the device: an offset in front of it is moved on by whole blocks. -/
def base (geometry : NandGeometry) (offset : Int) : Nat :=
  if offset < 0 then (offset % geometry.eraseSize).toNat else offset.toNat

/-- The position among the good blocks that a transfer begins at. -/
def StoDev.place (geometry : NandGeometry) (dev : StoDev) (offset : Int) : Nat :=
  (dev.plain geometry 0).position (base geometry offset)

/-- The address of a byte of a transfer. -/
noncomputable def StoDev.byteAt (geometry : NandGeometry) (dev : StoDev) (offset : Int) (i : Nat) : Nat :=
  (dev.plain geometry 0).address (dev.place geometry offset + i)

def StoDev.room (geometry : NandGeometry) (dev : StoDev) : Nat := (dev.plain geometry 0).capacity

theorem base_natCast (address : Nat) : base geometry address = address := by
  rw [base, if_neg (Int.not_lt.mpr (Int.natCast_nonneg address)), Int.toNat_natCast]

theorem base_skip {offset : Int} (negative : offset < 0) :
    base geometry (offset + geometry.eraseSize) = base geometry offset := by
  have pos : (0 : Int) < geometry.eraseSize := Int.natCast_pos.mpr geometry.erase_pos
  rw [base, base, if_pos negative]
  by_cases still : offset + geometry.eraseSize < 0
  · rw [if_pos still, Int.add_emod_right]
  · have small : (offset + geometry.eraseSize) % geometry.eraseSize = offset + geometry.eraseSize :=
      Int.emod_eq_of_lt (Int.not_lt.mp still) (by omega)
    rw [Int.add_emod_right] at small
    rw [if_neg still, small]

theorem place_skip (dev : StoDev) {offset : Int}
    (passed : offset < 0 ∨ 0 ≤ offset ∧
      (dev.plain geometry 0).flash.bad (offset.toNat / geometry.eraseSize) = true) :
    dev.place geometry (offset + geometry.eraseSize) = dev.place geometry offset := by
  rcases passed with negative | ⟨inside, bad⟩
  · rw [StoDev.place, StoDev.place, base_skip negative]
  · obtain ⟨address, rfl⟩ := Int.eq_ofNat_of_zero_le inside
    rw [Int.toNat_natCast] at bad
    rw [StoDev.place, StoDev.place, ← Nat.cast_add, base_natCast, base_natCast]
    exact Blocks.logical_skip geometry.erase_pos (Flash.not_good bad)

theorem place_part (dev : StoDev) {address size : Nat}
    (good : (dev.plain geometry 0).flash.Good (address / geometry.eraseSize))
    (inside : address % geometry.eraseSize + size ≤ geometry.eraseSize) :
    dev.place geometry (address + size : Nat) = dev.place geometry address + size := by
  rw [StoDev.place, StoDev.place, base_natCast, base_natCast]
  exact Blocks.logical_add geometry.erase_pos good inside

theorem byteAt_part (dev : StoDev) {address size i : Nat}
    (good : (dev.plain geometry 0).flash.Good (address / geometry.eraseSize))
    (inside : address % geometry.eraseSize + size ≤ geometry.eraseSize) (less : i < size) :
    dev.byteAt geometry address i = address + i := by
  rw [StoDev.byteAt, StoDev.place, base_natCast]
  exact Blocks.physical_logical_add geometry.erase_pos good (by omega)

theorem byteAt_behind (dev : StoDev) {address size : Nat} (i : Nat)
    (good : (dev.plain geometry 0).flash.Good (address / geometry.eraseSize))
    (inside : address % geometry.eraseSize + size ≤ geometry.eraseSize) :
    dev.byteAt geometry (address + size : Nat) i = dev.byteAt geometry address (size + i) := by
  rw [StoDev.byteAt, StoDev.byteAt, place_part dev good inside, Nat.add_assoc]

/-! ### The read loop -/

/-- A turn of the read loop on an open device, the offset being inside of what it can reach. -/
inductive FetchTurn (geometry : NandGeometry) (driver : Driver) (dev : StoDev) (len : Nat) (state : Fetching) :
    Turn Fetching → Prop where
  | ended (beyond : (geometry.size : Int) ≤ state.offset) : FetchTurn geometry driver dev len state (.leave state)
  | pass (nand : dev.nand = true) (passed : state.offset < 0 ∨ 0 ≤ state.offset ∧
        (dev.plain geometry 0).flash.bad (state.offset.toNat / geometry.eraseSize) = true) :
      FetchTurn geometry driver dev len state
        (.next { state with offset := state.offset + geometry.eraseSize })
  | part (address : Nat) (here : state.offset = address) (inside : address < geometry.size)
      (good : (dev.plain geometry 0).flash.Good (address / geometry.eraseSize)) (size : Nat)
      (least : size = min (geometry.eraseSize - address % geometry.eraseSize)
        (len - state.buffer.length)) :
      FetchTurn geometry driver dev len state
        (.next ⟨(address + size : Nat), state.buffer ++ driver.read dev.flash address size⟩)

theorem getBadBlock_valid {dev : StoDev} (valid : dev.valid = true) {offset : Int}
    (inside : offset < geometry.size) (nand : dev.nand = true) :
    dev.getBadBlock geometry offset = true ↔ offset < 0 ∨ 0 ≤ offset ∧
      (dev.plain geometry 0).flash.bad (offset.toNat / geometry.eraseSize) = true := by
  simp only [StoDev.getBadBlock, StoDev.plain, valid, nand, Bool.not_true, Bool.false_or,
    Bool.or_eq_true, decide_eq_true_eq, Bool.true_and]
  constructor
  · rintro ((negative | beyond) | bad)
    · exact .inl negative
    · omega
    · by_cases negative : offset < 0
      · exact .inl negative
      · exact .inr ⟨Int.not_lt.mp negative, bad⟩
  · rintro (negative | ⟨_, bad⟩)
    · exact .inl (.inl negative)
    · exact .inr bad

theorem fetchTurn (geometry : NandGeometry) (driver : Driver) {dev : StoDev} (valid : dev.valid = true) (len : Nat)
    {state : Fetching} (reached : dev.nand = true ∨ 0 ≤ state.offset) :
    FetchTurn geometry driver dev len state
      ((fetchLoop geometry driver dev len).body state) := by
  unfold fetchLoop
  dsimp only
  by_cases beyond : (geometry.size : Int) ≤ state.offset
  · rw [if_pos beyond]
    exact .ended beyond
  rw [if_neg beyond]
  by_cases bad : (dev.nand && dev.getBadBlock geometry state.offset) = true
  · rw [if_pos bad]
    rw [Bool.and_eq_true] at bad
    exact .pass bad.1 ((getBadBlock_valid valid (Int.not_le.mp beyond) bad.1).mp bad.2)
  rw [if_neg bad]
  have inside : 0 ≤ state.offset ∧ (dev.plain geometry 0).flash.Good
      (state.offset.toNat / geometry.eraseSize) := by
    cases nand : dev.nand with
    | true =>
        rw [nand, Bool.true_and, getBadBlock_valid valid (Int.not_le.mp beyond) nand] at bad
        rw [not_or, Int.not_lt, not_and] at bad
        exact ⟨bad.1, Bool.eq_false_of_not_eq_true (bad.2 bad.1)⟩
    | false =>
        rw [nand] at reached
        refine ⟨reached.resolve_left (by decide), ?_⟩
        simp [Flash.Good, StoDev.plain, nand]
  have open_ : ¬ (dev.valid = false ∨ state.offset < 0) := by
    rintro (closed | negative)
    · rw [valid] at closed
      cases closed
    · exact absurd inside.1 (Int.not_le.mpr negative)
  rw [if_neg open_]
  obtain ⟨address, here⟩ := Int.eq_ofNat_of_zero_le inside.1
  have good := inside.2
  rw [here, Int.toNat_natCast] at good ⊢
  rw [← Nat.cast_add]
  apply FetchTurn.part address here _ good _ Nat.min_def.symm
  rw [here] at beyond
  omega

/-- What a run of the read loop counts: so many bytes from the offset on, each of them read if and
only if the driver can read them all; all that are missing unless the device ends before. -/
structure Got (geometry : NandGeometry) (driver : Driver) (dev : StoDev) (len : Nat) (before after : Fetching) (count : Nat) :
    Prop where
  most : count ≤ len - before.buffer.length
  bytes : ∃ got : List (Option Byte), after.buffer = before.buffer ++ got ∧ got.length = count ∧
    (got = (List.range count).map (fun i =>
        some (dev.flash.content (dev.byteAt geometry before.offset i))) ↔
      ∀ i < count, driver.unreadable (dev.byteAt geometry before.offset i) = false)
  room : 0 < count → dev.place geometry before.offset + count ≤ dev.room geometry
  complete : count = len - before.buffer.length ∨
    dev.room geometry ≤ dev.place geometry before.offset + count

theorem Got.nothing {driver : Driver} {dev : StoDev} {len : Nat} {state : Fetching}
    (complete : 0 = len - state.buffer.length ∨
      dev.room geometry ≤ dev.place geometry state.offset) :
    Got geometry driver dev len state state 0 where
  most := Nat.zero_le _
  bytes := ⟨[], (List.append_nil _).symm, rfl,
    iff_of_true rfl (fun i less => absurd less (Nat.not_lt_zero i))⟩
  room := fun more => absurd more (Nat.lt_irrefl 0)
  complete := complete

theorem Got.pass {driver : Driver} {dev : StoDev} {len count : Nat} {state after : Fetching}
    (passed : state.offset < 0 ∨ 0 ≤ state.offset ∧
      (dev.plain geometry 0).flash.bad (state.offset.toNat / geometry.eraseSize) = true)
    (rest : Got geometry driver dev len
      { state with offset := state.offset + geometry.eraseSize } after count) :
    Got geometry driver dev len state after count := by
  have same := place_skip dev passed
  have bytes := rest.bytes
  have room := rest.room
  have complete := rest.complete
  simp only [StoDev.byteAt, same] at bytes room complete
  exact ⟨rest.most, bytes, room, complete⟩

theorem driver_read_iff (driver : Driver) (flash : Flash) (start size : Nat) :
    driver.read flash start size = (List.range size).map (fun i => some (flash.content (start + i))) ↔
      ∀ i < size, driver.unreadable (start + i) = false := by
  rw [Driver.read]
  by_cases fails : (List.range size).any (fun i => driver.unreadable (start + i)) = true
  · rw [if_pos fails]
    obtain ⟨i, member, unreadable⟩ := List.any_eq_true.mp fails
    have less := List.mem_range.mp member
    apply iff_of_false
    · intro same
      have first := congrArg (fun bytes => bytes[i]?) same
      simp [less] at first
    · intro readable
      rw [readable i less] at unreadable
      cases unreadable
  · rw [if_neg fails, Flash.read, List.map_map]
    apply iff_of_true rfl
    intro i less
    rw [List.any_eq_true] at fails
    by_contra unreadable
    exact fails ⟨i, List.mem_range.mpr less, Bool.eq_true_of_not_eq_false unreadable⟩

theorem driver_read_length (driver : Driver) (flash : Flash) (start size : Nat) :
    (driver.read flash start size).length = size := by
  rw [Driver.read]
  split
  · exact List.length_replicate
  · rw [List.length_map, length_read]

/-- The bytes of a part are in their block. -/
theorem part_fits {address size left : Nat}
    (least : size = min (geometry.eraseSize - address % geometry.eraseSize) left) :
    address % geometry.eraseSize + size ≤ geometry.eraseSize := by
  have small := Nat.mod_lt address geometry.erase_pos
  omega

theorem part_room {dev : StoDev} {address size : Nat} (inside : address < geometry.size)
    (good : (dev.plain geometry 0).flash.Good (address / geometry.eraseSize))
    (fits : address % geometry.eraseSize + size ≤ geometry.eraseSize) :
    dev.place geometry address + size ≤ dev.room geometry := by
  rw [StoDev.place, base_natCast]
  exact Blocks.logical_room good fits (block_lt inside)

theorem Got.part {driver : Driver} {dev : StoDev} {len count address size : Nat}
    {state after : Fetching} (here : state.offset = address) (inside : address < geometry.size)
    (good : (dev.plain geometry 0).flash.Good (address / geometry.eraseSize))
    (least : size = min (geometry.eraseSize - address % geometry.eraseSize)
      (len - state.buffer.length))
    (rest : Got geometry driver dev len
      ⟨(address + size : Nat), state.buffer ++ driver.read dev.flash address size⟩ after count) :
    Got geometry driver dev len state after (size + count) := by
  have fits := part_fits least
  have place := place_part dev good fits
  have length : (state.buffer ++ driver.read dev.flash address size).length =
      state.buffer.length + size := by
    rw [List.length_append, driver_read_length]
  have most := rest.most
  have room := rest.room
  have complete := rest.complete
  obtain ⟨got, appended, gotLength, readable⟩ := rest.bytes
  simp only [length, place, byteAt_behind dev _ good fits] at most room complete readable
  constructor
  case most => omega
  case room =>
      rw [here]
      intro _
      have whole := part_room inside good fits
      by_cases more : 0 < count
      · have behind := room more
        omega
      · omega
  case complete =>
      rw [here]
      omega
  case bytes =>
      refine ⟨driver.read dev.flash address size ++ got, ?_, ?_, ?_⟩
      · rw [appended, List.append_assoc]
      · rw [List.length_append, driver_read_length, gotLength]
      · have front : ∀ i < size, dev.byteAt geometry address i = address + i :=
          fun i less => byteAt_part dev good fits less
        have first : (List.range size).map (fun i =>
              some (dev.flash.content (dev.byteAt geometry address i))) =
            (List.range size).map (fun i => some (dev.flash.content (address + i))) := by
          apply List.map_congr_left
          intro i member
          rw [front i (List.mem_range.mp member)]
        rw [here, List.range_add, List.map_append, List.map_map, first]
        have lengths : (driver.read dev.flash address size).length =
            ((List.range size).map (fun i => some (dev.flash.content (address + i)))).length := by
          rw [driver_read_length, List.length_map, List.length_range]
        rw [List.append_eq_append_iff_of_size_eq_left lengths, driver_read_iff]
        have later : (got = (List.range count).map ((fun i =>
            some (dev.flash.content (dev.byteAt geometry address i))) ∘ fun x => size + x)) ↔
            ∀ i < count, driver.unreadable (dev.byteAt geometry address (size + i)) = false := readable
        rw [later]
        constructor
        · rintro ⟨low, high⟩ i less
          by_cases below : i < size
          · rw [front i below]
            exact low i below
          · obtain ⟨j, rfl⟩ := Nat.exists_eq_add_of_le (Nat.not_lt.mp below)
            exact high j (by omega)
        · intro all
          constructor
          · intro i less
            rw [← front i less]
            exact all i (by omega)
          · intro i less
            exact all (size + i) (by omega)

theorem room_of_beyond (dev : StoDev) {offset : Int} (beyond : (geometry.size : Int) ≤ offset) :
    dev.room geometry ≤ dev.place geometry offset := by
  obtain ⟨address, rfl⟩ := Int.eq_ofNat_of_zero_le (Int.le_trans (Int.natCast_nonneg _) beyond)
  rw [StoDev.place, base_natCast]
  exact Blocks.capacity_le_logical geometry.erase_pos (by exact_mod_cast beyond)

theorem fetchLoop_got {driver : Driver} {dev : StoDev} (valid : dev.valid = true) {len fuel : Nat}
    {before after : Fetching} (ran : (fetchLoop geometry driver dev len).run fuel before = some after) :
    (dev.nand = true ∨ 0 ≤ before.offset) →
      ∃ count, Got geometry driver dev len before after count := by
  refine DoWhile.ends (fun before after => (dev.nand = true ∨ 0 ≤ before.offset) →
    ∃ count, Got geometry driver dev len before after count) ?leave ?last ?next ran
  case leave =>
      intro state after turned reached
      have turn := fetchTurn geometry driver valid len reached
      rw [turned] at turn
      cases turn with
      | ended beyond => exact ⟨0, .nothing (.inr (room_of_beyond dev beyond))⟩
  case last =>
      intro state after turned done reached
      have turn := fetchTurn geometry driver valid len reached
      rw [turned] at turn
      have stopped : ¬ after.buffer.length < len := of_decide_eq_false done
      have nothing : Got geometry driver dev len after after 0 :=
        .nothing (.inl (by omega))
      cases turn with
      | pass nand passed => exact ⟨0, nothing.pass passed⟩
      | part address here inside good size least => exact ⟨size + 0, nothing.part here inside good least⟩
  case next =>
      intro state middle after turned goes rest reached
      have turn := fetchTurn geometry driver valid len reached
      rw [turned] at turn
      cases turn with
      | pass nand passed =>
          obtain ⟨count, got⟩ := rest (.inl nand)
          exact ⟨count, got.pass passed⟩
      | part address here inside good size least =>
          obtain ⟨count, got⟩ := rest (.inr (Int.natCast_nonneg _))
          exact ⟨size + count, got.part here inside good least⟩

/-- Without an open handle, or in front of a NOR flash, nothing is read. -/
theorem fetchLoop_nothing {driver : Driver} {dev : StoDev} {len fuel : Nat}
    {before after : Fetching} (ran : (fetchLoop geometry driver dev len).run fuel before = some after) :
    ¬ (dev.valid = true ∧ (dev.nand = true ∨ 0 ≤ before.offset)) → after.buffer = before.buffer := by
  refine DoWhile.ends (fun before after => ¬ (dev.valid = true ∧
    (dev.nand = true ∨ 0 ≤ before.offset)) → after.buffer = before.buffer) ?leave ?last ?next ran
  case leave =>
      intro state after turned closed
      unfold fetchLoop at turned
      dsimp only at turned
      split at turned
      · cases turned
        rfl
      split at turned
      · cases turned
      split at turned
      · cases turned
        rfl
      · cases turned
  case last =>
      intro state after turned _ closed
      unfold fetchLoop at turned
      dsimp only at turned
      split at turned
      · cases turned
      split at turned
      · cases turned
        rfl
      split at turned
      case isTrue => cases turned
      case isFalse opened =>
          rw [not_or, Bool.not_eq_false, Int.not_lt] at opened
          exact absurd ⟨opened.1, .inr opened.2⟩ closed
  case next =>
      intro state middle after turned _ rest closed
      unfold fetchLoop at turned
      dsimp only at turned
      split at turned
      · cases turned
      split at turned
      case isTrue bad =>
          cases turned
          rw [Bool.and_eq_true] at bad
          apply rest
          rintro ⟨valid, _⟩
          exact closed ⟨valid, .inl bad.1⟩
      case isFalse =>
          split at turned
          case isTrue => cases turned
          case isFalse opened =>
              rw [not_or, Bool.not_eq_false, Int.not_lt] at opened
              exact absurd ⟨opened.1, .inr opened.2⟩ closed

/-- Every turn moves the offset on. -/
theorem fetchLoop_terminates (driver : Driver) (dev : StoDev) (len : Nat) (state : Fetching)
    (more : state.buffer.length < len) :
    ∃ fuel after, (fetchLoop geometry driver dev len).run fuel state = some after := by
  refine ⟨((geometry.size : Int) - state.offset).toNat + 1, ?_⟩
  apply DoWhile.terminates (fun state : Fetching => state.buffer.length < len)
    (fun state => ((geometry.size : Int) - state.offset).toNat)
  case start => exact more
  case enough => exact Nat.lt_succ_self _
  case less =>
      intro state middle more turned goes
      have pos := geometry.erase_pos
      have still : middle.buffer.length < len := of_decide_eq_true goes
      refine ⟨still, ?_⟩
      unfold fetchLoop at turned
      dsimp only at turned
      split at turned
      case isTrue => cases turned
      case isFalse inside =>
          split at turned
          case isTrue =>
              cases turned
              dsimp only
              omega
          case isFalse =>
              split at turned
              case isTrue => cases turned
              case isFalse opened =>
                  cases turned
                  have small := Nat.mod_lt state.offset.toNat pos
                  dsimp only
                  split <;> omega

/-- Enough good bytes follow for a transfer, and the offset can be reached. -/
def StoDev.Enough (geometry : NandGeometry) (dev : StoDev) (offset : Int) (size : Nat) : Prop :=
  dev.valid = true ∧ (dev.nand = true ∨ 0 ≤ offset) ∧
    dev.place geometry offset + size ≤ dev.room geometry

/-- A read counts all its bytes exactly if there are enough; then each is the one at its address
exactly if the driver can read them all. -/
theorem stoRead_all {driver : Driver} {dev after : StoDev} {fuel len : Nat}
    {buffer : List (Option Byte)} (some_ : 0 < len)
    (read : dev.alislstoRead geometry driver fuel len = some (buffer, after)) :
    (buffer.length = len ↔ dev.Enough geometry dev.offset len) ∧
    (dev.Enough geometry dev.offset len →
      (buffer = (List.range len).map (fun i =>
          some (dev.flash.content (dev.byteAt geometry dev.offset i))) ↔
        ∀ i < len, driver.unreadable (dev.byteAt geometry dev.offset i) = false)) := by
  obtain ⟨final, ran, result⟩ := Option.map_eq_some_iff.mp read
  cases result
  by_cases opened : dev.valid = true ∧ (dev.nand = true ∨ 0 ≤ dev.offset)
  · obtain ⟨count, got⟩ := fetchLoop_got opened.1 ran opened.2
    have most := got.most
    have room := got.room
    have complete := got.complete
    obtain ⟨bytes, appended, length, readable⟩ := got.bytes
    rw [List.nil_append] at appended
    rw [List.length_nil, Nat.sub_zero] at most complete
    subst appended
    have enough : final.buffer.length = len ↔ dev.Enough geometry dev.offset len := by
      constructor
      · intro all
        have whole : dev.place geometry dev.offset + count ≤ dev.room geometry := room (by omega)
        exact ⟨opened.1, opened.2, by omega⟩
      · rintro ⟨_, _, fits⟩
        have bound : dev.place geometry dev.offset + len ≤ dev.room geometry := fits
        dsimp only at complete room
        omega
    refine ⟨enough, ?_⟩
    intro fits
    have all : count = len := by rw [← length, enough.mpr fits]
    rw [all] at readable
    exact readable
  · have nothing := fetchLoop_nothing ran opened
    have short : ¬ dev.Enough geometry dev.offset len := fun enough => opened ⟨enough.1, enough.2.1⟩
    rw [nothing]
    refine ⟨iff_of_false ?_ short, fun enough => absurd enough short⟩
    rw [List.length_nil]
    omega

end

end Alisl.Storage.Nand
