import Alisl.Storage.Erase

/-! The upgrade and extension information that libalislsysinfo keeps on the NAND flash, one erase block
behind the other as the PMI header says. -/

namespace Alisl.Storage.Nand

open Alisl.Base

/-- The PMI header of 512 bytes is no larger than a block. -/
structure SysGeometry extends NandGeometry where
  header : 512 ≤ eraseSize

/-- The areas of `sysinfo_rw_map` in question. -/
inductive Area where
  | upginfo
  | extinfo
  deriving DecidableEq, Repr

/-- `*(unsigned long *)&buf[at_]`. -/
def getLe32 (memory : Memory) (at_ : Nat) : Nat :=
  (memory at_).toNat + (memory (at_ + 1)).toNat * 256 + (memory (at_ + 2)).toNat * 65536 +
    (memory (at_ + 3)).toNat * 16777216

def upginfoAddrPos : Nat := 184

/-- A partition of `nand_map`. -/
structure StorageMap where
  offset : Nat
  size : Nat

section

variable {geometry : SysGeometry}

/-- Where `alislsto_get_pmi` looks. -/
def pmiStart (geometry : SysGeometry) (i : Nat) : Nat := geometry.writeSize * i * 256 % 2 ^ 32

/-- A turn of the loop of `alislsto_get_pmi`: the tag is looked at if both blocks are good. -/
def isPmi (dev : Dev geometry.toGeometry) (i : Nat) : Bool :=
  let start := pmiStart geometry i
  !dev.getBadBlock (start + geometry.eraseSize) && !dev.getBadBlock start &&
    dev.flash.content (start + 14) == 0x55 && dev.flash.content (start + 15) == 0xaa

def getPmi (dev : Dev geometry.toGeometry) : Option Nat :=
  ((List.range 4).find? (isPmi dev)).map (pmiStart geometry)

/-- The offsets `sysinfo_parse` takes from the header. -/
def sysinfoParse (dev : Dev geometry.toGeometry) (pmi : Nat) : Area → Nat
  | .upginfo => getLe32 dev.flash.content (pmi + upginfoAddrPos)
  | .extinfo => (getLe32 dev.flash.content (pmi + upginfoAddrPos) + geometry.eraseSize) % 2 ^ 32

/-- What `storage_parse` sets for `STO_PRIVATE`. -/
def privateMap (geometry : SysGeometry) : StorageMap := ⟨0, geometry.size⟩

/-- `alislsto_lseek_ext` to a place of `STO_PRIVATE` with a PMI at hand. -/
def lseekExt (dev : Dev geometry.toGeometry) (offset : Nat) : Option (Dev geometry.toGeometry) :=
  let map := privateMap geometry
  if (map.size ≠ 0 ∧ map.size < offset) ∨ geometry.size < map.offset + offset then none
  else some { dev with offset := map.offset + offset }

/-- `alislsysinfo_construct`: the handle and the offset of the area, if there is a PMI. -/
def construct (geometry : SysGeometry) (flash : Flash) (area : Area) :
    Option (Dev geometry.toGeometry × Nat) :=
  let dev := Dev.opened geometry.toGeometry flash .block
  (getPmi dev).bind (fun pmi =>
    (lseekExt dev 0).map (fun _ => (dev, sysinfoParse dev pmi area)))

/-- The handle at the area, as `alislsto_lock_read` and `alislsto_lock_write` have it. -/
def seekArea (geometry : SysGeometry) (flash : Flash) (area : Area) :
    Option (Dev geometry.toGeometry) :=
  (construct geometry flash area).bind (fun opened => lseekExt opened.1 opened.2)

/-- `alislsysinfo_upginfo_read` and `alislsysinfo_extinfo_read`: the size they return, and what is in
the buffer. -/
def sysinfoRead (geometry : SysGeometry) (flash : Flash) (area : Area) (size : Nat) :
    Option (Nat × List Byte) :=
  if size = 0 then some (0, [])
  else match seekArea geometry flash area with
    | none => some (0, [])
    | some dev =>
        (dev.alislstoRead size).map (fun result =>
          (if result.1.length = size then size else 0, result.1))

/-- `alislsysinfo_upginfo_write` and `alislsysinfo_extinfo_write`: the size they return, and the flash.
`none` is a call that does not return. -/
def sysinfoWrite (geometry : SysGeometry) (flash : Flash) (area : Area) (data : List Byte) :
    Option (Nat × Flash) :=
  if data = [] then some (0, flash)
  else match seekArea geometry flash area with
    | none => some (0, flash)
    | some dev =>
        (dev.alislstoWriteNoErase (Dev.loopFuel geometry.toGeometry) data).map (fun result =>
          (if result.1 = data.length then data.length else 0, result.2.flash))

end

/-! The calls one after the other, and what the caller erases in between. -/

/-- A call of one of the four functions, or the caller erasing a block for the next write. -/
inductive SysCall where
  | write (area : Area) (data : List Byte)
  | read (area : Area) (size : Nat)
  | erase (block : Nat)

/-- The calls with at most a block of data; one that does not return ends the run. -/
def sysinfo (geometry : SysGeometry) : Machine Flash SysCall where
  Initial := fun _ => True
  next flash
    | .write area data =>
        if data.length ≤ geometry.eraseSize then
          (sysinfoWrite geometry flash area data).map (fun result => result.2)
        else none
    | .read area size =>
        if size ≤ geometry.eraseSize then
          (sysinfoRead geometry flash area size).map (fun _ => flash)
        else none
    | .erase block =>
        if block < geometry.blocks ∧ flash.bad block = false then
          some (flash.erase geometry.toGeometry (block * geometry.eraseSize) geometry.eraseSize)
        else none

section

variable (geometry : SysGeometry)

/-- The offset of the upgrade information, if there is a PMI. -/
def upginfoOffset (flash : Flash) : Option Nat :=
  let dev := Dev.opened geometry.toGeometry flash .block
  (getPmi dev).map (fun pmi => sysinfoParse dev pmi .upginfo)

/-- An address in one of the four places of a PMI header. -/
def InHeader (x : Nat) : Prop := ∃ i < 4, pmiStart geometry i ≤ x ∧ x < pmiStart geometry i + 512

/-- An address among the first `size` bytes of an area. -/
def InArea (flash : Flash) (area : Area) (size x : Nat) : Prop :=
  ∃ dev, seekArea geometry flash area = some dev ∧ ∃ i < size,
    dev.position dev.offset + i < dev.capacity ∧
      x = dev.address (dev.position dev.offset + i)

/-- The block at the offset of the upgrade information is good, and the next one has an address. -/
def UpginfoGood (flash : Flash) : Prop :=
  ∀ offset, upginfoOffset geometry flash = some offset → geometry.size ≤ offset ∨
    (flash.bad (offset / geometry.eraseSize) = false ∧ offset + geometry.eraseSize < 2 ^ 32)

/-- The steps that are to leave an area alone: the writes of the other one outside the PMI headers,
with the block of the upgrade information good, and the erasures elsewhere. -/
def Meets (kept : Area) (flash : Flash) : SysCall → Prop
  | .write area data => area ≠ kept ∧ UpginfoGood geometry flash ∧
      ∀ x, InArea geometry flash area data.length x → ¬ InHeader geometry x
  | .read _ _ => True
  | .erase block => ∀ x, InHeader geometry x ∨ InArea geometry flash kept geometry.eraseSize x →
      x / geometry.eraseSize ≠ block

end

section

variable {geometry : SysGeometry}

/-! What a call depends on. -/

theorem opened_congr {before after : Flash} (bad : after.bad = before.bad) :
    Dev.opened geometry.toGeometry after .block =
      { Dev.opened geometry.toGeometry before .block with flash := after } := by
  rw [Dev.opened, Dev.opened, bad]

theorem position_congr {geometry : Geometry} {dev after : Dev geometry}
    (bad : after.flash.bad = dev.flash.bad) : after.position = dev.position ∧
      after.address = dev.address ∧ after.capacity = dev.capacity := by
  rcases dev with ⟨⟨content, bad', touched⟩, type, offset, badCnt, badMap, logicSize⟩
  rcases after with ⟨flash, _, _, _, _, _⟩
  rcases flash with ⟨_, _, _⟩
  cases bad
  exact ⟨rfl, rfl, rfl⟩

/-- The bad blocks, the headers and the bytes of an area are as before. -/
structure Leaves (geometry : SysGeometry) (kept : Area) (before after : Flash) : Prop where
  bad : after.bad = before.bad
  header : ∀ x, InHeader geometry x → after.content x = before.content x
  area : ∀ x, InArea geometry before kept geometry.eraseSize x →
    after.content x = before.content x

theorem inHeader_add {i k : Nat} (candidate : i < 4) (small : k < 512) :
    InHeader geometry (pmiStart geometry i + k) :=
  ⟨i, candidate, Nat.le_add_right .., Nat.add_lt_add_left small _⟩

theorem getPmi_congr {before after : Flash} (bad : after.bad = before.bad)
    (header : ∀ x, InHeader geometry x → after.content x = before.content x) :
    getPmi (Dev.opened geometry.toGeometry after .block) =
      getPmi (Dev.opened geometry.toGeometry before .block) := by
  unfold getPmi
  congr 1
  apply List.find?_congr
  intro i member
  have candidate : i < 4 := List.mem_range.mp member
  simp only [isPmi, Dev.getBadBlock, Dev.opened, bad,
    header _ (inHeader_add candidate (show 14 < 512 by decide)),
    header _ (inHeader_add candidate (show 15 < 512 by decide))]

theorem getPmi_start {dev : Dev geometry.toGeometry} {pmi : Nat} (found : getPmi dev = some pmi) :
    ∃ i < 4, pmi = pmiStart geometry i := by
  rcases Option.map_eq_some_iff.mp found with ⟨i, first, same⟩
  exact ⟨i, List.mem_range.mp (List.mem_of_find?_eq_some first), same.symm⟩

theorem sysinfoParse_congr {before after : Flash} {pmi : Nat} (area : Area)
    (found : getPmi (Dev.opened geometry.toGeometry before .block) = some pmi)
    (header : ∀ x, InHeader geometry x → after.content x = before.content x) :
    sysinfoParse (Dev.opened geometry.toGeometry after .block) pmi area =
      sysinfoParse (Dev.opened geometry.toGeometry before .block) pmi area := by
  rcases getPmi_start found with ⟨i, candidate, rfl⟩
  have word : getLe32 after.content (pmiStart geometry i + upginfoAddrPos) =
      getLe32 before.content (pmiStart geometry i + upginfoAddrPos) := by
    simp only [getLe32, upginfoAddrPos, Nat.add_assoc]
    rw [header _ (inHeader_add candidate (show 184 < 512 by decide)),
      header _ (inHeader_add candidate (show 184 + 1 < 512 by decide)),
      header _ (inHeader_add candidate (show 184 + 2 < 512 by decide)),
      header _ (inHeader_add candidate (show 184 + 3 < 512 by decide))]
  cases area with
  | upginfo => exact word
  | extinfo => exact congrArg (fun offset => (offset + geometry.eraseSize) % 2 ^ 32) word

theorem lseekExt_eq (dev : Dev geometry.toGeometry) (offset : Nat) :
    lseekExt dev offset =
      if geometry.size < offset then none else some { dev with offset } := by
  simp only [lseekExt, privateMap, Nat.zero_add]
  by_cases beyond : geometry.size < offset
  · rw [if_pos (.inr beyond), if_pos beyond]
  · rw [if_neg (by simp [beyond]), if_neg beyond]

/-- A handle at an area. -/
theorem seekArea_some {flash : Flash} {area : Area} {dev : Dev geometry.toGeometry} :
    seekArea geometry flash area = some dev ↔
      ∃ pmi, getPmi (Dev.opened geometry.toGeometry flash .block) = some pmi ∧
        dev = { Dev.opened geometry.toGeometry flash .block with
          offset := sysinfoParse (Dev.opened geometry.toGeometry flash .block) pmi area } ∧
        dev.offset ≤ geometry.size := by
  simp only [seekArea, construct, lseekExt_eq, if_neg (Nat.not_lt_zero geometry.size),
    Option.map_some, Option.bind_eq_some_iff]
  constructor
  · intro sought
    rcases sought with ⟨opened, ⟨pmi, found, same⟩, there⟩
    cases same
    split at there
    · cases there
    · rename_i inside
      cases there
      exact ⟨pmi, found, rfl, Nat.not_lt.mp inside⟩
  · intro sought
    rcases sought with ⟨pmi, found, same, inside⟩
    refine ⟨_, ⟨pmi, found, rfl⟩, ?_⟩
    rw [same] at inside ⊢
    rw [if_neg (Nat.not_lt.mpr inside)]

theorem seekArea_congr {before after : Flash} (area : Area) (bad : after.bad = before.bad)
    (header : ∀ x, InHeader geometry x → after.content x = before.content x) :
    seekArea geometry after area =
      (seekArea geometry before area).map (fun dev => { dev with flash := after }) := by
  have pmi := getPmi_congr bad header
  have opened := @opened_congr geometry before after bad
  cases found : getPmi (Dev.opened geometry.toGeometry before .block) with
  | none =>
      rw [found] at pmi
      simp only [seekArea, construct, found, pmi, Option.bind_none, Option.map_none]
  | some start =>
      rw [found] at pmi
      have parsed := sysinfoParse_congr area found header
      simp only [seekArea, construct, found, pmi, Option.bind_some, lseekExt_eq, parsed,
        if_neg (Nat.not_lt_zero geometry.size), Option.map_some]
      split
      · rfl
      · rw [opened]
        rfl

theorem alislstoRead_congr {geometry : Geometry} {dev after : Dev geometry} {len : Nat}
    (bad : after.flash.bad = dev.flash.bad) (offset : after.offset = dev.offset)
    (content : ∀ i < len, dev.position dev.offset + i < dev.capacity →
      after.flash.content (dev.address (dev.position dev.offset + i)) =
        dev.flash.content (dev.address (dev.position dev.offset + i))) :
    (after.alislstoRead len).map Prod.fst = (dev.alislstoRead len).map Prod.fst := by
  rcases position_congr bad with ⟨position, address, capacity⟩
  rcases alislstoRead_all dev len with ⟨_, read, _⟩
  rcases alislstoRead_all after len with ⟨_, read', _⟩
  rw [read, read', Option.map_some, Option.map_some, position, address, capacity, offset]
  congr 1
  apply List.map_congr_left
  intro i member
  have less := List.mem_range.mp member
  exact content i (by omega) (by omega)

/-- What is read from an area is what stands there. -/
theorem sysinfoRead_congr {kept : Area} {before after : Flash} {size : Nat}
    (leaves : Leaves geometry kept before after) (most : size ≤ geometry.eraseSize) :
    sysinfoRead geometry after kept size = sysinfoRead geometry before kept size := by
  unfold sysinfoRead
  rw [seekArea_congr kept leaves.bad leaves.header]
  cases sought : seekArea geometry before kept with
  | none => rfl
  | some dev =>
      have flash : dev.flash = before := by
        rcases seekArea_some.mp sought with ⟨_, _, same, _⟩
        rw [same]
        rfl
      have congr_ : (Dev.alislstoRead ({ dev with flash := after } : Dev geometry.toGeometry)
          size).map Prod.fst = (dev.alislstoRead size).map Prod.fst := by
        apply alislstoRead_congr
        · rw [flash]
          exact leaves.bad
        · rfl
        · intro i less inside
          rw [flash]
          exact leaves.area _ ⟨dev, sought, i, Nat.lt_of_lt_of_le less most, inside, rfl⟩
      have each := congrArg (Option.map (fun bytes : List Byte =>
        (if bytes.length = size then size else 0, bytes))) congr_
      rw [Option.map_map, Option.map_map] at each
      rw [Option.map_some]
      split
      · rfl
      · exact each

/-! What a step leaves alone. -/

/-- A write changes nothing but the area, as far as the data goes. -/
theorem sysinfoWrite_frame {flash after : Flash} {area : Area} {data : List Byte} {ret : Nat}
    (wrote : sysinfoWrite geometry flash area data = some (ret, after)) :
    after.bad = flash.bad ∧ ∀ x, ¬ InArea geometry flash area data.length x →
      after.content x = flash.content x := by
  unfold sysinfoWrite at wrote
  split at wrote
  · cases wrote
    exact ⟨rfl, fun _ _ => rfl⟩
  cases sought : seekArea geometry flash area with
  | none =>
      rw [sought] at wrote
      cases wrote
      exact ⟨rfl, fun _ _ => rfl⟩
  | some dev =>
      have here : dev.flash = flash := by
        rcases seekArea_some.mp sought with ⟨_, _, same, _⟩
        rw [same]
        rfl
      simp only [sought] at wrote
      rcases Option.map_eq_some_iff.mp wrote with ⟨result, called, same⟩
      rcases Option.map_eq_some_iff.mp called with ⟨state, ran, rfl⟩
      cases same
      have placed := (noEraseLoop_settles ran).2
      have most : Placing.due data ⟨dev, false, 0⟩ ≤ data.length := by
        rw [Placing.due]
        split
        · exact Nat.le_trans (Nat.min_le_left ..) (Nat.sub_le ..)
        · exact Nat.zero_le _
      constructor
      · rw [← here]
        exact placed.bad
      · intro x outside
        rw [← here]
        apply placed.kept
        intro i less same
        apply outside
        have room := placed.room (Nat.zero_lt_of_lt less)
        refine ⟨dev, sought, i, Nat.lt_of_lt_of_le less most, ?_, same⟩
        dsimp only at room
        omega

theorem inArea_position {flash : Flash} {area : Area} {size x : Nat}
    (member : InArea geometry flash area size x) :
    ∃ pmi, getPmi (Dev.opened geometry.toGeometry flash .block) = some pmi ∧ ∃ i < size,
      (Dev.opened geometry.toGeometry flash .block).position
        (sysinfoParse (Dev.opened geometry.toGeometry flash .block) pmi area) + i <
          (Dev.opened geometry.toGeometry flash .block).capacity ∧
      (Dev.opened geometry.toGeometry flash .block).position x =
        (Dev.opened geometry.toGeometry flash .block).position
          (sysinfoParse (Dev.opened geometry.toGeometry flash .block) pmi area) + i := by
  rcases member with ⟨dev, sought, i, less, inside, here⟩
  rcases seekArea_some.mp sought with ⟨pmi, found, same, _⟩
  have place : dev.position x = dev.position dev.offset + i := by
    rw [here]
    exact (Blocks.physical_spec geometry.erase_pos inside).2.2
  rw [same] at inside place
  exact ⟨pmi, found, i, less, inside, place⟩

theorem position_next_block {geometry : Geometry} (dev : Dev geometry) {offset : Nat}
    (good : dev.flash.Good (offset / geometry.eraseSize)) :
    dev.position (offset + geometry.eraseSize) = dev.position offset + geometry.eraseSize := by
  rw [Dev.position, Blocks.logical, Dev.position, Blocks.logical,
    Nat.add_div_right _ geometry.erase_pos, Nat.add_mod_right,
    Nat.count_succ_eq_succ_count_iff.mpr good, Nat.succ_mul]
  omega

/-- With a good block at its offset, the upgrade information ends where the extension information
begins. -/
theorem areas_apart {flash : Flash} {size size' x : Nat} (good : UpginfoGood geometry flash)
    (most : size ≤ geometry.eraseSize) (upginfo : InArea geometry flash .upginfo size x)
    (extinfo : InArea geometry flash .extinfo size' x) : False := by
  rcases inArea_position upginfo with ⟨pmi, found, i, less, inside, first⟩
  rcases inArea_position extinfo with ⟨pmi', found', j, _, inside', second⟩
  rw [found, Option.some_inj] at found'
  rw [← found'] at second
  have known : upginfoOffset geometry flash =
      some (sysinfoParse (Dev.opened geometry.toGeometry flash .block) pmi .upginfo) := by
    rw [upginfoOffset, found, Option.map_some]
  rcases good _ known with beyond | ⟨sound, narrow⟩
  · have behind := @Blocks.capacity_le_logical _ flash.Good _ geometry.erase_pos _ _ beyond
    exact Nat.not_lt.mpr (Nat.le_trans behind (Nat.le_add_right _ i)) inside
  · have next : sysinfoParse (Dev.opened geometry.toGeometry flash .block) pmi .extinfo =
        sysinfoParse (Dev.opened geometry.toGeometry flash .block) pmi .upginfo +
          geometry.eraseSize := Nat.mod_eq_of_lt narrow
    have shifted := position_next_block (Dev.opened geometry.toGeometry flash .block) sound
    rw [next, shifted] at second
    omega

theorem erase_content (flash : Flash) (block x : Nat) (apart : x / geometry.eraseSize ≠ block) :
    (flash.erase geometry.toGeometry (block * geometry.eraseSize) geometry.eraseSize).content x =
      flash.content x :=
  if_neg (mt whole_block.mp apart)

theorem leaves_step {kept : Area} {before after : Flash} {call : SysCall}
    (meets : Meets geometry kept before call)
    (moved : (sysinfo geometry).next before call = some after) : Leaves geometry kept before after := by
  cases call with
  | read area size =>
      simp only [sysinfo] at moved
      split at moved
      · rcases Option.map_eq_some_iff.mp moved with ⟨_, _, rfl⟩
        exact ⟨rfl, fun _ _ => rfl, fun _ _ => rfl⟩
      · cases moved
  | write area data =>
      simp only [sysinfo] at moved
      split at moved
      case isFalse => cases moved
      case isTrue most =>
        rcases Option.map_eq_some_iff.mp moved with ⟨⟨ret, flash⟩, wrote, rfl⟩
        rcases sysinfoWrite_frame wrote with ⟨bad, frame⟩
        rcases meets with ⟨other, good, outside⟩
        refine ⟨bad, ?_, ?_⟩
        · intro x header
          exact frame x (fun member => outside x member header)
        · intro x member
          apply frame
          intro target
          cases area with
          | upginfo =>
              cases kept with
              | upginfo => exact other rfl
              | extinfo => exact areas_apart good most target member
          | extinfo =>
              cases kept with
              | upginfo => exact areas_apart good (Nat.le_refl _) member target
              | extinfo => exact other rfl
  | erase block =>
      simp only [sysinfo] at moved
      split at moved
      case isFalse => cases moved
      case isTrue =>
        cases moved
        exact ⟨rfl, fun x header => erase_content before block x (meets x (.inl header)),
          fun x member => erase_content before block x (meets x (.inr member))⟩

/-- A write through `STO_PRIVATE` stays in the partition at every moment. -/
theorem write_in_partition {flash : Flash} {area : Area} {data : List Byte}
    {dev : Dev geometry.toGeometry} {state : Placing geometry.toNandGeometry}
    (sought : seekArea geometry flash area = some dev)
    (visits : (noEraseLoop data).Visits ⟨dev, false, 0⟩ state) {x : Nat}
    (outside : x < (privateMap geometry).offset ∨
      (privateMap geometry).offset + (privateMap geometry).size ≤ x) :
    state.dev.flash.content x = flash.content x := by
  have here : dev.flash = flash := by
    rcases seekArea_some.mp sought with ⟨_, _, same, _⟩
    rw [same]
    rfl
  have beyond : geometry.size ≤ x := by
    simp only [privateMap] at outside
    omega
  rw [← here]
  exact (noEraseLoop_spares visits).content x (.inl beyond)

end

open Classical in
/-- In a run whose steps all meet the condition, an area that is not written reads the same at the
end; and no write leaves the partition, whatever the state. -/
theorem sysinfo_areas {geometry : SysGeometry} (kept : Area) (before after : Flash)
    (calls : List SysCall)
    (ran : ((sysinfo geometry).restrict (Meets geometry kept)).run before calls = some after) :
    (∀ size ≤ geometry.eraseSize,
      sysinfoRead geometry after kept size = sysinfoRead geometry before kept size) ∧
    ∀ area data dev, seekArea geometry after area = some dev →
      ∀ state, (noEraseLoop data).Visits ⟨dev, false, 0⟩ state →
        ∀ x, x < (privateMap geometry).offset ∨
            (privateMap geometry).offset + (privateMap geometry).size ≤ x →
          state.dev.flash.content x = after.content x := by
  refine ⟨?_, fun area data dev sought state visits x outside =>
    write_in_partition sought visits outside⟩
  intro size most
  induction calls generalizing before with
  | nil =>
      cases ran
      rfl
  | cons call calls ih =>
      rcases Option.bind_eq_some_iff.mp ran with ⟨middle, moved, rest⟩
      rcases Machine.restrict_next.mp moved with ⟨meets, stepped⟩
      rw [ih middle rest]
      exact sysinfoRead_congr (leaves_step meets stepped) most

/-- Twelve blocks of a kilobyte, with the PMI in the first. -/
def twelveBlocks : SysGeometry where
  eraseSize := 1024
  blocks := 12
  erase_pos := Nat.succ_pos 1023
  fits := by decide
  writeSize := 4
  write_pos := Nat.succ_pos 3
  pages := by decide
  header := by decide

/-- The upgrade information is to stand in block 8. -/
def pmiContent (x : Nat) : Byte :=
  if x = 14 then 0x55
  else if x = 15 then 0xaa
  else if x = 185 then 0x20
  else if x = 184 ∨ x = 186 ∨ x = 187 then 0
  else 0xff

def allGood : Flash := ⟨pmiContent, fun _ => false, []⟩

def eighthBad : Flash := ⟨pmiContent, fun block => block == 8, []⟩

theorem extinfo_elsewhere {x : Nat} (member : InArea twelveBlocks allGood .extinfo 1 x) :
    x = 9216 := by
  rcases member with ⟨dev, sought, i, less, _, here⟩
  rcases seekArea_some.mp sought with ⟨pmi, found, same, _⟩
  have first : getPmi (Dev.opened twelveBlocks.toGeometry allGood .block) = some 0 := by
    decide +kernel
  rw [first, Option.some_inj] at found
  have offset : sysinfoParse (Dev.opened twelveBlocks.toGeometry allGood .block) 0 .extinfo =
      9216 := by
    decide +kernel
  rw [same, ← found, offset, Nat.lt_one_iff.mp less, Nat.add_zero] at here
  exact here.trans (Blocks.physical_logical twelveBlocks.erase_pos rfl)

/-- A write of the extension information on a chip without bad blocks. -/
theorem sysinfo_areas_good :
    ∃ after, (sysinfo twelveBlocks).next allGood (.write .extinfo [1]) = some after ∧
      (∀ size ≤ twelveBlocks.eraseSize,
        sysinfoRead twelveBlocks after .upginfo size =
          sysinfoRead twelveBlocks allGood .upginfo size) ∧
      ∀ area data dev, seekArea twelveBlocks after area = some dev →
        ∀ state, (noEraseLoop data).Visits ⟨dev, false, 0⟩ state →
          ∀ x, x < (privateMap twelveBlocks).offset ∨
              (privateMap twelveBlocks).offset + (privateMap twelveBlocks).size ≤ x →
            state.dev.flash.content x = after.content x := by
  have some_ : ((sysinfo twelveBlocks).next allGood (.write .extinfo [1])).isSome := by
    decide +kernel
  rcases Option.isSome_iff_exists.mp some_ with ⟨after, moved⟩
  have meets : Meets twelveBlocks .upginfo allGood (.write .extinfo [1]) := by
    refine ⟨by decide, ?_, ?_⟩
    · intro offset known
      have eight : upginfoOffset twelveBlocks allGood = some 8192 := by decide +kernel
      rw [eight, Option.some_inj] at known
      rw [← known]
      exact .inr ⟨rfl, by decide⟩
    · intro x member header
      rw [extinfo_elsewhere member] at header
      rcases header with ⟨i, candidate, low, high⟩
      simp only [pmiStart, twelveBlocks] at high
      omega
  refine ⟨after, moved, sysinfo_areas .upginfo allGood after [.write .extinfo [1]] ?_⟩
  classical
  rw [Machine.run, Machine.restrict_next.mpr ⟨meets, moved⟩]
  rfl

/-- Where block 8 is bad both areas are in block 9: the extension information is written, the block
erased for the upgrade information, and the upgrade information written; then the extension
information reads as that. -/
theorem upginfo_written_over_extinfo :
    ((sysinfo twelveBlocks).run eighthBad [.write .extinfo [1], .erase 9]).bind (fun flash =>
      (sysinfoWrite twelveBlocks flash .upginfo [2]).map (fun result =>
        (result.1, sysinfoRead twelveBlocks flash .extinfo 1,
          sysinfoRead twelveBlocks result.2 .extinfo 1))) =
      some (1, some (1, [0xff]), some (1, [2])) := by
  decide +kernel

end Alisl.Storage.Nand
