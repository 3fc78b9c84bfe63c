import Alisl.Storage.ReadBack

/-! The flash as one flat file: the good blocks in a row, read and written at a logical position. -/

namespace Alisl.Storage.Nand

open Alisl.Base

inductive Call where
  | seek (offset : BitVec 32) (whence : Whence)
  | read (len : Nat)
  | write (data : List Byte)

inductive Reply where
  | position (value : Int)
  | bytes (data : List Byte)
  | count (written : Nat)
  deriving DecidableEq

/-- A file and a position in it. -/
structure Flat where
  file : List Byte
  pos : Nat

namespace Flat

/-- Where a seek leads; `SEEK_END` counts from the last byte. -/
def target (flat : Flat) (offset : BitVec 32) : Whence → Option Int
  | .seekSet => some offset.toInt
  | .seekCur => some (flat.pos + offset.toInt)
  | .seekEnd => some (flat.file.length - 1 + offset.toInt)
  | .other => none

/-- A call that stays inside the file. -/
def step (flat : Flat) : Call → Option (Reply × Flat)
  | .seek offset whence =>
      (flat.target offset whence).bind (fun target =>
        if 0 ≤ target ∧ target < flat.file.length then
          some (.position target, { flat with pos := target.toNat })
        else none)
  | .read len =>
      if flat.pos + len ≤ flat.file.length then
        some (.bytes ((flat.file.drop flat.pos).take len), { flat with pos := flat.pos + len })
      else none
  | .write data =>
      if flat.pos + data.length ≤ flat.file.length then
        some (.count data.length, ⟨overlay flat.file flat.pos data, flat.pos + data.length⟩)
      else none

/-- Calls one after the other that all meet a condition. -/
def run (meets : Flat → Call → Bool) : Flat → List Call → Option (List Reply × Flat)
  | flat, [] => some ([], flat)
  | flat, call :: calls =>
      if meets flat call then
        (flat.step call).bind (fun result =>
          (run meets result.2 calls).map (fun rest => (result.1 :: rest.1, rest.2)))
      else none

/-- A seek leads to an address that is an `int`. -/
def narrow (flat : Flat) : Call → Bool
  | .seek offset whence => (flat.target offset whence).all (fun target => decide (target < 2 ^ 31))
  | _ => true

end Flat

/-- No erase fails. -/
def sure : Marking where
  fails := fun _ => false
  left := fun _ => 0
  marks := fun _ => true
  marked := nofun

section

variable {geometry : Geometry}

namespace Dev

def perform (dev : Dev geometry) : Call → Option (Reply × Dev geometry)
  | .seek offset whence =>
      let result := dev.alislstoLseekLogic offset whence
      some (.position result.1, result.2)
  | .read len => (dev.alislstoRead len).map (fun result => (.bytes result.1, result.2))
  | .write data =>
      (dev.alislstoWrite sure.toErasure data).map (fun result => (.count result.1, result.2))

def run : Dev geometry → List Call → Option (List Reply × Dev geometry)
  | dev, [] => some ([], dev)
  | dev, call :: calls =>
      (dev.perform call).bind (fun result =>
        (run result.2 calls).map (fun rest => (result.1 :: rest.1, rest.2)))

/-- The logical file of a flash and the logical position of its handle. -/
def flat (dev : Dev geometry) : Flat where
  file := Blocks.file geometry.eraseSize dev.flash.Good dev.flash.content geometry.blocks
  pos := dev.position dev.offset

end Dev

/-! The two directions of the address conversion. -/

theorem count_good (flash : Flash) (n : Nat) :
    Nat.count flash.Good n + Nat.count (fun block => flash.bad block = true) n = n := by
  have same : Nat.count flash.Good n = Nat.count (fun block => ¬ flash.bad block = true) n := by
    apply count_congr
    intro block _
    rw [Flash.Good, Bool.not_eq_true]
  rw [same]
  exact count_not_add_count n

/-- The logical size is the length of the file. -/
theorem BadRecords.capacity {dev : Dev geometry} (records : BadRecords dev) :
    dev.capacity = dev.logicSize := by
  have sized := records.sized
  have parts := count_good dev.flash geometry.blocks
  rw [records.counted, count_bits records.agrees, Geometry.size, ← parts, Nat.add_mul] at sized
  rw [parts] at sized
  exact (Nat.add_right_cancel sized).symm

theorem length_flat (dev : Dev geometry) : dev.flat.file.length = dev.capacity :=
  Blocks.length_file _ _

theorem capacity_le (dev : Dev geometry) : dev.capacity ≤ geometry.size :=
  Nat.mul_le_mul_right geometry.eraseSize (Nat.count_le _)

/-- Without bad blocks positions are addresses. -/
theorem BadRecords.position_eq {dev : Dev geometry} (records : BadRecords dev)
    (none_ : dev.badCnt = 0) {address : Nat} (inside : address ≤ geometry.size) :
    dev.position address = address := by
  have good : ∀ block, block < geometry.blocks → dev.flash.Good block := by
    have counted := records.counted
    rw [none_, count_bits records.agrees] at counted
    intro block less
    have sound := Nat.count_iff_forall_not.mp counted.symm block less
    rwa [Bool.not_eq_true] at sound
  have all : Nat.count dev.flash.Good (address / geometry.eraseSize) =
      address / geometry.eraseSize := by
    rw [Nat.count_iff_forall]
    intro block less
    apply good
    apply Nat.lt_of_lt_of_le less
    calc
      address / geometry.eraseSize ≤ geometry.size / geometry.eraseSize := Nat.div_le_div_right inside
      _ = geometry.blocks := Nat.mul_div_cancel _ geometry.erase_pos
  rw [Dev.position, Blocks.logical, all]
  exact Nat.div_add_mod' address geometry.eraseSize

theorem BadRecords.get_eq {dev : Dev geometry} (records : BadRecords dev) {block : Nat}
    (inside : block < geometry.blocks) : dev.badMap.get block = dev.flash.bad block := by
  rw [records.agrees, decide_eq_true inside, Bool.true_and]

theorem fold_good {dev : Dev geometry} (records : BadRecords dev) {n : Nat}
    (inside : n ≤ geometry.blocks) :
    (List.range n).foldl (fun blockIdx cnt =>
      if dev.badMap.get cnt then blockIdx else blockIdx + 1) 0 = Nat.count dev.flash.Good n := by
  induction n with
  | zero => simp
  | succ n ih =>
      rw [List.range_succ, List.foldl_append, ih (Nat.le_of_succ_le inside), Nat.count_succ]
      simp only [List.foldl_cons, List.foldl_nil, records.get_eq inside, Flash.Good]
      by_cases bad : dev.flash.bad n = true
      · simp [bad]
      · simp [bad]

theorem BadRecords.getLogicAddr {dev : Dev geometry} (records : BadRecords dev) {address : Nat}
    (inside : address ≤ geometry.size) : dev.getLogicAddr address = some (dev.position address) := by
  rw [Dev.getLogicAddr, if_neg (Nat.not_lt.mpr inside)]
  split
  case isTrue none_ => rw [records.position_eq none_ inside]
  case isFalse =>
    have blocks : address / geometry.eraseSize ≤ geometry.blocks := by
      calc
        address / geometry.eraseSize ≤ geometry.size / geometry.eraseSize :=
          Nat.div_le_div_right inside
        _ = geometry.blocks := Nat.mul_div_cancel _ geometry.erase_pos
    dsimp only
    rw [fold_good records blocks]
    rfl

/-- The scan finds the good block with the number it looks for. -/
theorem seekGood_spec {dev : Dev geometry} (records : BadRecords dev) {target : Nat}
    (inside : target < Nat.count dev.flash.Good geometry.blocks) (left cnt : Nat)
    (rest : cnt + left = geometry.blocks) (below : Nat.count dev.flash.Good cnt ≤ target) :
    Dev.seekGood dev.badMap target left cnt (Nat.count dev.flash.Good cnt) =
      (Nat.nth dev.flash.Good target, target) := by
  induction left generalizing cnt with
  | zero =>
      rw [Nat.add_zero] at rest
      rw [rest] at below
      exact absurd inside (Nat.not_lt.mpr below)
  | succ left ih =>
      have there : cnt < geometry.blocks := by omega
      rw [Dev.seekGood, records.get_eq there]
      cases bad : dev.flash.bad cnt with
      | true =>
          have same : Nat.count dev.flash.Good (cnt + 1) = Nat.count dev.flash.Good cnt :=
            Nat.count_succ_eq_count_iff.mpr (Flash.not_good bad)
          rw [if_pos rfl, ← same]
          apply ih
          · omega
          · rw [same]
            exact below
      | false =>
          have good : dev.flash.Good cnt := bad
          simp only [Bool.false_eq_true, if_false]
          split
          case isTrue here => rw [← here, Nat.nth_count good]
          case isFalse more =>
            have next : Nat.count dev.flash.Good (cnt + 1) = Nat.count dev.flash.Good cnt + 1 :=
              Nat.count_succ_eq_succ_count_iff.mpr good
            rw [← next]
            apply ih
            · omega
            · omega

theorem BadRecords.getPhyAddr {dev : Dev geometry} (records : BadRecords dev) {position : Nat}
    (inside : position < dev.capacity) : dev.getPhyAddr position = some (dev.address position) := by
  have pos := geometry.erase_pos
  have small := Nat.lt_of_lt_of_le inside (capacity_le dev)
  rw [Dev.getPhyAddr, if_neg (Nat.not_lt.mpr (Nat.le_of_lt small))]
  split
  case isTrue none_ =>
    have back : dev.position (dev.address position) = position :=
      (Blocks.physical_spec pos inside).2.2
    have less : dev.address position < geometry.size := (Blocks.physical_spec pos inside).1
    rw [records.position_eq none_ (Nat.le_of_lt less)] at back
    rw [back]
  case isFalse =>
    have block : position / geometry.eraseSize < Nat.count dev.flash.Good geometry.blocks :=
      (Nat.div_lt_iff_lt_mul pos).mpr inside
    have found := seekGood_spec records block geometry.blocks 0 (Nat.zero_add _)
      (by rw [Nat.count_zero]; exact Nat.zero_le _)
    rw [Nat.count_zero] at found
    dsimp only
    have apart : position / geometry.eraseSize ≠ geometry.blocks :=
      Nat.ne_of_lt (Nat.lt_of_lt_of_le block (Nat.count_le _))
    rw [found, if_neg apart]
    rfl

/-! Seeking. -/

theorem toNat_of_toInt {value : BitVec 32} {target : Int} (same : value.toInt = target)
    (nonneg : 0 ≤ target) : value.toNat = target.toNat := by
  rw [BitVec.toInt_eq_toNat_cond] at same
  have bound := value.isLt
  split at same
  · omega
  · omega

/-- An `int` that a sum fits into. -/
theorem toInt_ofInt_narrow {target : Int} (nonneg : 0 ≤ target) (narrow : target < 2 ^ 31) :
    (BitVec.ofInt 32 target).toInt = target := by
  rw [BitVec.toInt_ofInt]
  apply Int.bmod_eq_of_le
  · omega
  · omega

theorem end_addr (size : Nat) (offset : BitVec 32) :
    BitVec.ofNat 32 size + offset - 1 = BitVec.ofInt 32 (size - 1 + offset.toInt) := by
  have sum : (size : Int) - 1 + offset.toInt = size + offset.toInt + -1 := by omega
  rw [sum, BitVec.ofInt_add, BitVec.ofInt_add, BitVec.ofInt_natCast, BitVec.ofInt_toInt,
    BitVec.sub_eq_add_neg]
  rfl

theorem seekAddr_spec {flat : Flat} {offset : BitVec 32} {whence : Whence} {target : Int}
    (leads : flat.target offset whence = some target) (nonneg : 0 ≤ target)
    (inside : target < flat.file.length) (narrow : target < 2 ^ 31) :
    seekAddr flat.file.length flat.pos offset whence = some target.toNat := by
  cases whence with
  | seekSet =>
      have value := toNat_of_toInt (Option.some.inj leads) nonneg
      have same : offset.toInt = target := Option.some.inj leads
      rw [seekAddr, value, same, if_neg (by omega), if_pos nonneg]
  | seekCur =>
      have same : flat.pos + offset.toInt = target := Option.some.inj leads
      have sum := toInt_ofInt_narrow nonneg narrow
      rw [seekAddr, same, toNat_of_toInt sum nonneg, sum, if_neg (by omega), if_neg (by omega)]
  | seekEnd =>
      have same : flat.file.length - 1 + offset.toInt = target := Option.some.inj leads
      have sum := toInt_ofInt_narrow nonneg narrow
      rw [seekAddr, end_addr, same, toNat_of_toInt sum nonneg, sum, if_neg (by omega), if_pos (by omega)]
  | other => cases leads

/-- Where the handle rests between the calls: inside the flash, in a bad block only at its start. -/
structure Rested (dev : Dev geometry) : Prop where
  sound : Sound dev
  within : dev.offset ≤ geometry.size
  rests : dev.flash.bad (dev.offset / geometry.eraseSize) = true →
    dev.offset % geometry.eraseSize = 0

/-- No block turns bad, and no bad block is touched. -/
structure Spares (before after : Flash) : Prop where
  bad : after.bad = before.bad
  touched : ∀ block ∈ after.touched, block ∈ before.touched ∨ before.bad block = false

theorem Spares.refl (flash : Flash) : Spares flash flash :=
  ⟨rfl, fun _ member => .inl member⟩

theorem Spares.trans {before middle after : Flash} (first : Spares before middle)
    (second : Spares middle after) : Spares before after := by
  refine ⟨second.bad.trans first.bad, ?_⟩
  intro block member
  rcases second.touched block member with old | good
  · exact first.touched block old
  · rw [first.bad] at good
    exact .inr good

/-- A call does to the flash what it does to the flat file. -/
structure Refines (before after : Dev geometry) (flat : Flat) : Prop where
  flat : after.flat = flat
  rested : Rested after
  spares : Spares before.flash after.flash

theorem Rested.seek {dev : Dev geometry} (rested : Rested dev) {offset : BitVec 32} {whence : Whence}
    {reply : Reply} {flat : Flat} (narrow : dev.flat.narrow (.seek offset whence) = true)
    (moved : dev.flat.step (.seek offset whence) = some (reply, flat)) :
    ∃ after, dev.perform (.seek offset whence) = some (reply, after) ∧ Refines dev after flat := by
  have records := rested.sound.records
  rcases Option.bind_eq_some_iff.mp moved with ⟨target, leads, result⟩
  rw [Flat.narrow, leads] at narrow
  replace narrow : target < 2 ^ 31 := of_decide_eq_true narrow
  split at result
  case isTrue both =>
    cases result
    have less : target.toNat < dev.capacity := by
      rw [← length_flat]
      omega
    rcases Blocks.physical_spec geometry.erase_pos less with ⟨there, good, back⟩
    have sought := seekAddr_spec leads both.1 both.2 narrow
    rw [length_flat, records.capacity] at sought
    have value : (BitVec.ofNat 32 target.toNat).toInt = target := by
      have cast : ((target.toNat : Nat) : Int) = target := Int.toNat_of_nonneg both.1
      rw [← BitVec.ofInt_natCast, cast]
      exact toInt_ofInt_narrow both.1 narrow
    have performed : dev.alislstoLseekLogic offset whence =
        (target, { dev with offset := dev.address target.toNat }) := by
      rw [Dev.alislstoLseekLogic, records.getLogicAddr rested.within]
      dsimp only
      rw [show dev.position dev.offset = dev.flat.pos from rfl, sought]
      dsimp only
      rw [records.getPhyAddr less]
      dsimp only
      rw [value]
    refine ⟨{ dev with offset := dev.address target.toNat }, ?_, ?_⟩
    · rw [Dev.perform, performed]
    · constructor
      case flat =>
          show Flat.mk dev.flat.file (dev.position (dev.address target.toNat)) = _
          rw [show dev.position (dev.address target.toNat) = target.toNat from back]
      case rested =>
          refine ⟨rested.sound.moved _, Nat.le_of_lt there, ?_⟩
          intro bad
          exact absurd good (Flash.not_good bad)
      case spares => exact .refl dev.flash
  case isFalse => cases result

/-! Reading. -/

theorem Rested.skip {dev : Dev geometry} (rested : Rested dev) (inside : dev.offset < geometry.size)
    (bad : dev.flash.bad (dev.offset / geometry.eraseSize) = true) :
    Rested ({ dev with offset := dev.offset + geometry.eraseSize } : Dev geometry) := by
  have aligned := rested.rests bad
  constructor
  case sound => exact rested.sound.moved _
  case within =>
      have parts := Nat.div_add_mod' dev.offset geometry.eraseSize
      calc
        dev.offset + geometry.eraseSize =
            (dev.offset / geometry.eraseSize + 1) * geometry.eraseSize := by
          rw [Nat.succ_mul]
          omega
        _ ≤ geometry.size := Nat.mul_le_mul_right _ (block_lt inside)
  case rests =>
      intro _
      dsimp only
      rw [Nat.add_mod_right]
      exact aligned

theorem Rested.part {dev : Dev geometry} (rested : Rested dev) (inside : dev.offset < geometry.size)
    (good : dev.flash.Good (dev.offset / geometry.eraseSize)) (size : Nat)
    (fits : dev.offset % geometry.eraseSize + size ≤ geometry.eraseSize) :
    Rested ({ dev with offset := dev.offset + size } : Dev geometry) := by
  constructor
  case sound => exact rested.sound.moved _
  case within =>
      have parts := Nat.div_add_mod' dev.offset geometry.eraseSize
      calc
        dev.offset + size ≤ (dev.offset / geometry.eraseSize + 1) * geometry.eraseSize := by
          rw [Nat.succ_mul]
          omega
        _ ≤ geometry.size := Nat.mul_le_mul_right _ (block_lt inside)
  case rests =>
      intro bad
      dsimp only at bad ⊢
      rcases Nat.lt_or_eq_of_le fits with less | reach
      · rw [(Blocks.div_add_of_lt less).1] at bad
        exact absurd good (Flash.not_good bad)
      · exact (Blocks.div_add_of_eq geometry.erase_pos reach).2

theorem Rested.afterReadTurn {len : Nat} {state middle : Reading geometry} (rested : Rested state.dev)
    (turn : ReadTurn len state (.next middle)) : Rested middle.dev := by
  cases turn with
  | skip inside bad => exact rested.skip inside bad
  | part inside good size least =>
      have small := Nat.mod_lt state.dev.offset geometry.erase_pos
      exact rested.part inside good size (by omega)

theorem Rested.readLoop {len fuel : Nat} {before after : Reading geometry} (rested : Rested before.dev)
    (ran : (readLoop len).run fuel before = some after) : Rested after.dev := by
  revert rested
  refine DoWhile.ends (fun before after : Reading geometry => Rested before.dev → Rested after.dev)
    ?leave ?last ?next ran
  case leave =>
      intro state after turned rested
      have turn := readTurn len state
      rw [turned] at turn
      cases turn with
      | ended => exact rested
  case last =>
      intro state after turned _ rested
      have turn := readTurn len state
      rw [turned] at turn
      exact rested.afterReadTurn turn
  case next =>
      intro state middle after turned _ ih rested
      have turn := readTurn len state
      rw [turned] at turn
      exact ih (rested.afterReadTurn turn)

/-- The bytes of the file from a position on. -/
theorem file_part (dev : Dev geometry) {pos len : Nat} (inside : pos + len ≤ dev.capacity) :
    (dev.flat.file.drop pos).take len =
      (List.range len).map (fun i => dev.flash.content (dev.address (pos + i))) := by
  apply List.ext_getElem?
  intro i
  by_cases less : i < len
  · rw [getElem?_part dev.flat.file pos len less, List.getElem?_map, List.getElem?_range less,
      Option.map_some]
    exact Blocks.getElem?_file dev.flash.content geometry.erase_pos (Nat.lt_of_lt_of_le (by omega) inside)
  · rw [List.getElem?_eq_none, List.getElem?_eq_none]
    · rw [List.length_map, List.length_range]
      omega
    · rw [List.length_take]
      omega

theorem Rested.read {dev : Dev geometry} (rested : Rested dev) {len : Nat} {reply : Reply}
    {flat : Flat} (moved : dev.flat.step (.read len) = some (reply, flat)) :
    ∃ after, dev.perform (.read len) = some (reply, after) ∧ Refines dev after flat := by
  rw [Flat.step] at moved
  split at moved
  case isTrue inside =>
    cases moved
    rw [length_flat] at inside
    rcases alislstoRead_spec dev len (.inr inside) with ⟨offset, done, position⟩
    have still : Rested ({ dev with offset } : Dev geometry) := by
      rcases Option.map_eq_some_iff.mp done with ⟨final, ran, result⟩
      rw [← (Prod.mk.inj result).2]
      exact Rested.readLoop rested ran
    refine ⟨{ dev with offset }, ?_, ?_⟩
    · rw [Dev.perform, done, Option.map_some, file_part dev inside]
      rfl
    · constructor
      case flat =>
          show Flat.mk dev.flat.file (dev.position offset) = _
          rw [position]
          rfl
      case rested => exact still
      case spares => exact .refl dev.flash
  case isFalse => cases moved

/-! Writing. -/

/-- A turn in which no erase fails. -/
theorem Rested.afterWriteTurn {buf : List Byte} {state middle : Writing geometry}
    (rested : Rested state.dev) (turn : WriteTurn sure.toErasure buf state (.next middle)) :
    Rested middle.dev ∧ Spares state.dev.flash middle.dev.flash := by
  cases turn with
  | skip inside bad => exact ⟨rested.skip inside bad, .refl _⟩
  | fail inside good fails => cases fails
  | part inside good erased start first unit merged =>
      have least := merged.least
      have small := Nat.mod_lt state.dev.offset geometry.erase_pos
      have moved := rested.part inside good unit.2 (by omega)
      have block : start / geometry.eraseSize = state.dev.offset / geometry.eraseSize := by
        rw [first, start_block]
      refine ⟨⟨moved.sound.rewritten _ rfl, moved.within, moved.rests⟩, rfl, ?_⟩
      intro other member
      simp only [Flash.write, Flash.erase, block, List.mem_cons] at member
      rcases member with rfl | rfl | old
      · exact .inr good
      · exact .inr good
      · exact .inl old

/-- The loop ends behind the flash or with all of the data written. -/
theorem Rested.writeLoop {buf : List Byte} {fuel : Nat} {before after : Writing geometry}
    (ready : before.Ready buf) (rested : Rested before.dev)
    (ran : (writeLoop sure.toErasure buf).run fuel before = some after) :
    Rested after.dev ∧ Spares before.dev.flash after.dev.flash ∧
      (buf.length ≤ after.totalWrittenSize ∨ geometry.size ≤ after.dev.offset) := by
  revert ready rested
  refine DoWhile.ends (fun before after : Writing geometry => before.Ready buf → Rested before.dev →
    Rested after.dev ∧ Spares before.dev.flash after.dev.flash ∧
      (buf.length ≤ after.totalWrittenSize ∨ geometry.size ≤ after.dev.offset))
    ?leave ?last ?next ran
  case leave =>
      intro state after turned ready rested
      have turn := writeTurn sure.toErasure ready
      rw [turned] at turn
      cases turn with
      | ended beyond => exact ⟨rested, .refl _, .inr beyond⟩
  case last =>
      intro state after turned done ready rested
      have turn := writeTurn sure.toErasure ready
      rw [turned] at turn
      rcases rested.afterWriteTurn turn with ⟨still, spares⟩
      exact ⟨still, spares, .inl (Nat.not_lt.mp (of_decide_eq_false done))⟩
  case next =>
      intro state middle after turned goes ih ready rested
      have turn := writeTurn sure.toErasure ready
      rw [turned] at turn
      rcases rested.afterWriteTurn turn with ⟨still, spares⟩
      rcases ih (writeTurn_ready ready turn (of_decide_eq_true goes)) still with
        ⟨rests, rest, complete⟩
      exact ⟨rests, spares.trans rest, complete⟩

theorem Stored.count_le {buf : List Byte} {dev after : Dev geometry} {count : Nat}
    (stored : Stored buf ⟨dev, 0⟩ ⟨after, count⟩ count) : count ≤ buf.length := by
  by_contra more
  have cell := stored.stored buf.length (by omega)
  rw [Nat.zero_add, List.getElem?_eq_none (Nat.le_refl _)] at cell
  cases cell

section SameTable

variable {dev after : Dev geometry} (bad : after.flash.bad = dev.flash.bad)

include bad

theorem good_same : after.flash.Good = dev.flash.Good := by
  funext block
  rw [Flash.Good, Flash.Good, bad]

theorem position_same (address : Nat) : after.position address = dev.position address := by
  rw [Dev.position, Dev.position]
  simp only [good_same bad]

theorem address_same (position : Nat) : after.address position = dev.address position := by
  rw [Dev.address, Dev.address]
  simp only [good_same bad]

theorem capacity_same : after.capacity = dev.capacity := by
  rw [Dev.capacity, Dev.capacity]
  simp only [good_same bad]

end SameTable

/-- The file after a write. -/
theorem Stored.file {buf : List Byte} {dev after : Dev geometry}
    (stored : Stored buf ⟨dev, 0⟩ ⟨after, buf.length⟩ buf.length)
    (bad : after.flash.bad = dev.flash.bad)
    (inside : dev.position dev.offset + buf.length ≤ dev.capacity) :
    after.flat.file = overlay dev.flat.file (dev.position dev.offset) buf := by
  have pos := geometry.erase_pos
  have positions := position_same bad
  have addresses := address_same bad
  have capacities := capacity_same bad
  have fits : dev.position dev.offset + buf.length ≤ dev.flat.file.length := by
    rw [length_flat]
    exact inside
  symm
  apply Blocks.eq_file after.flash.content pos
  · rw [length_overlay fits, length_flat, ← capacities]
    rfl
  · intro position less
    replace less : position < dev.capacity := by
      rw [← capacities]
      exact less
    rw [getElem?_overlay fits]
    split
    case isTrue new =>
      have cell := stored.stored (position - dev.position dev.offset) (by omega)
      dsimp only at cell
      rw [positions, Nat.add_sub_cancel' new.1, Nat.zero_add] at cell
      exact cell.symm
    case isFalse old =>
      have found : dev.flat.file[position]? = some (dev.flash.content (dev.address position)) :=
        Blocks.getElem?_file dev.flash.content pos less
      rcases Blocks.physical_spec pos less with ⟨_, good, back⟩
      have apart : ∀ i, i < buf.length →
          dev.address position ≠ after.address (after.position dev.offset + i) := by
        intro i more hit
        rw [positions, addresses] at hit
        have there : dev.position dev.offset + i < dev.capacity := by omega
        have backward := (Blocks.physical_spec pos there).2.2
        have equal : dev.position (dev.address position) =
            dev.position (dev.address (dev.position dev.offset + i)) := by rw [hit]
        rw [show dev.position (dev.address position) = position from back,
          show dev.position (dev.address (dev.position dev.offset + i)) =
            dev.position dev.offset + i from backward] at equal
        omega
      have held : after.flash.Good (dev.address position / geometry.eraseSize) := by
        rw [good_same bad]
        exact good
      rw [found, ← stored.kept _ held apart]
      congr 2
      exact (addresses position).symm

theorem Rested.write {dev : Dev geometry} (rested : Rested dev) {data : List Byte} {reply : Reply}
    {flat : Flat} (moved : dev.flat.step (.write data) = some (reply, flat)) :
    ∃ after, dev.perform (.write data) = some (reply, after) ∧ Refines dev after flat := by
  rw [Flat.step] at moved
  split at moved
  case isTrue inside =>
    cases moved
    rw [length_flat] at inside
    replace inside : dev.position dev.offset + data.length ≤ dev.capacity := inside
    rcases alislstoWrite_stores sure.marked rested.sound.block data with ⟨count, after, done, stored⟩
    rcases Option.map_eq_some_iff.mp done with ⟨final, ran, result⟩
    cases result
    rcases Rested.writeLoop (ready_start rested.sound.block data) rested ran with
      ⟨rests, spares, complete⟩
    have moved := stored.moved
    have bad : final.dev.flash.bad = dev.flash.bad := spares.bad
    have all : final.totalWrittenSize = data.length := by
      apply Nat.le_antisymm stored.count_le
      rcases complete with done | beyond
      · exact done
      · have behind : final.dev.capacity ≤ final.dev.position final.dev.offset :=
          Blocks.capacity_le_logical geometry.erase_pos beyond
        rw [moved, capacity_same bad, position_same bad] at behind
        dsimp only at behind
        omega
    rw [all] at stored done moved
    refine ⟨final.dev, ?_, ?_⟩
    · rw [Dev.perform, done, Option.map_some]
    · constructor
      case flat =>
          show Flat.mk final.dev.flat.file (final.dev.position final.dev.offset) = _
          rw [stored.file bad inside, moved, position_same bad]
          rfl
      case rested => exact rests
      case spares => exact spares
  case isFalse => cases moved

/-! Sequences of calls. -/

theorem Rested.step {dev : Dev geometry} (rested : Rested dev) {call : Call} {reply : Reply}
    {flat : Flat} (narrow : dev.flat.narrow call = true)
    (moved : dev.flat.step call = some (reply, flat)) :
    ∃ after, dev.perform call = some (reply, after) ∧ Refines dev after flat := by
  cases call with
  | seek offset whence => exact rested.seek narrow moved
  | read len => exact rested.read moved
  | write data => exact rested.write moved

/-- The calls on the flash answer as those on the flat file do. -/
theorem Rested.run {dev : Dev geometry} (rested : Rested dev) {calls : List Call}
    {replies : List Reply} {flat : Flat}
    (ran : Flat.run Flat.narrow dev.flat calls = some (replies, flat)) :
    ∃ after, dev.run calls = some (replies, after) ∧ Refines dev after flat := by
  induction calls generalizing dev replies with
  | nil =>
      cases ran
      exact ⟨dev, rfl, rfl, rested, .refl _⟩
  | cons call calls ih =>
      rw [Flat.run] at ran
      split at ran
      case isTrue narrow =>
        rcases Option.bind_eq_some_iff.mp ran with ⟨⟨reply, flat'⟩, moved, rest⟩
        rcases Option.map_eq_some_iff.mp rest with ⟨⟨later, last⟩, ran', result⟩
        cases result
        rcases rested.step narrow moved with ⟨middle, performed, refines⟩
        have onward := refines.flat
        subst onward
        rcases ih refines.rested ran' with ⟨after, done, refines'⟩
        refine ⟨after, ?_, refines'.flat, refines'.rested, refines.spares.trans refines'.spares⟩
        rw [Dev.run, performed, Option.bind_some, done]
        rfl
      case isFalse => cases ran

end

theorem rested_opened (geometry : Geometry) (flash : Flash) :
    Rested (Dev.opened geometry flash .block) := by
  constructor
  case sound => exact ⟨rfl, records_opened flash .block⟩
  case within => exact Nat.zero_le _
  case rests => exact fun _ => Nat.zero_mod _

theorem Flat.step_length {flat after : Flat} {call : Call} {reply : Reply}
    (moved : flat.step call = some (reply, after)) : after.file.length = flat.file.length := by
  cases call with
  | seek offset whence =>
      rcases Option.bind_eq_some_iff.mp moved with ⟨target, _, result⟩
      split at result
      · cases result
        rfl
      · cases result
  | read len =>
      rw [Flat.step] at moved
      split at moved
      · cases moved
        rfl
      · cases moved
  | write data =>
      rw [Flat.step] at moved
      split at moved
      case isTrue fits =>
        cases moved
        exact length_overlay fits
      case isFalse => cases moved

theorem Flat.step_narrow {flat after : Flat} {call : Call} {reply : Reply}
    (small : flat.file.length ≤ 2 ^ 31) (moved : flat.step call = some (reply, after)) :
    flat.narrow call = true := by
  cases call with
  | seek offset whence =>
      rcases Option.bind_eq_some_iff.mp moved with ⟨target, leads, result⟩
      split at result
      case isTrue inside =>
        rw [Flat.narrow, leads]
        exact decide_eq_true (by omega)
      case isFalse => cases result
  | read len => rfl
  | write data => rfl

/-- On a file of at most 2 GiB every call inside the file is of this kind. -/
theorem Flat.run_narrow {flat after : Flat} (small : flat.file.length ≤ 2 ^ 31) {calls : List Call}
    {replies : List Reply} (ran : Flat.run (fun _ _ => true) flat calls = some (replies, after)) :
    Flat.run Flat.narrow flat calls = some (replies, after) := by
  induction calls generalizing flat replies with
  | nil => exact ran
  | cons call calls ih =>
      rw [Flat.run, if_pos rfl] at ran
      rcases Option.bind_eq_some_iff.mp ran with ⟨⟨reply, middle⟩, moved, rest⟩
      rcases Option.map_eq_some_iff.mp rest with ⟨⟨later, last⟩, ran', result⟩
      cases result
      have small' : middle.file.length ≤ 2 ^ 31 := by
        rw [Flat.step_length moved]
        exact small
      rw [Flat.run, if_pos (Flat.step_narrow small moved), moved, Option.bind_some, ih small' ran']
      rfl

section Wide

variable {geometry : Geometry} {dev : Dev geometry}

/-- On the flat file: to the last address below 2 ^ 31, over it, and stay there. -/
theorem wide_flat {flat : Flat} (length : flat.file.length = 3221225472) :
    flat.step (.seek 2147483647 .seekSet) =
        some (.position 2147483647, { flat with pos := 2147483647 }) ∧
      ({ flat with pos := 2147483647 } : Flat).step (.read 1) =
        some (.bytes ((flat.file.drop 2147483647).take 1), { flat with pos := 2147483648 }) ∧
      ({ flat with pos := 2147483648 } : Flat).step (.seek 0 .seekCur) =
        some (.position 2147483648, { flat with pos := 2147483648 }) := by
  refine ⟨?_, ?_, ?_⟩
  · rw [Flat.step, Flat.target, Option.bind_some, length, if_pos (by decide)]
    rfl
  · have inside : 2147483647 + 1 ≤ 3221225472 := by decide
    rw [Flat.step, length, if_pos inside]
  · have inside : (0 : Int) ≤ ((2147483648 : Nat) : Int) + BitVec.toInt (0 : BitVec 32) ∧
        ((2147483648 : Nat) : Int) + BitVec.toInt (0 : BitVec 32) < ((3221225472 : Nat) : Int) := by
      decide
    rw [Flat.step, Flat.target, Option.bind_some, length, if_pos inside]
    rfl

/-- On the flash a seek to this position leads to the start of the file. -/
theorem wide_seek (rested : Rested dev) (capacity : dev.capacity = 3221225472)
    (position : dev.position dev.offset = 2147483648) :
    ∃ after, dev.perform (.seek 0 .seekCur) = some (.position 0, after) := by
  have records := rested.sound.records
  have size : dev.logicSize = 3221225472 := records.capacity.symm.trans capacity
  have sought : seekAddr 3221225472 2147483648 0 .seekCur = some 0 := by decide
  have performed : dev.alislstoLseekLogic 0 .seekCur = (0, { dev with offset := dev.address 0 }) := by
    rw [Dev.alislstoLseekLogic, records.getLogicAddr rested.within]
    dsimp only
    rw [size, position, sought]
    dsimp only
    rw [records.getPhyAddr (by rw [capacity]; decide)]
    rfl
  exact ⟨_, by rw [Dev.perform, performed]⟩

def wideCalls : List Call := [.seek 2147483647 .seekSet, .read 1, .seek 0 .seekCur]

/-- The calls that stay inside the flat file and are answered otherwise on the flash. -/
theorem wide_differs (rested : Rested dev) (capacity : dev.capacity = 3221225472) :
    ∃ replies flat, Flat.run (fun _ _ => true) dev.flat wideCalls = some (replies, flat) ∧
      ∀ after, dev.run wideCalls ≠ some (replies, after) := by
  have length : dev.flat.file.length = 3221225472 := by rw [length_flat, capacity]
  rcases wide_flat length with ⟨first, second, third⟩
  have ran : Flat.run (fun _ _ => true) dev.flat wideCalls =
      some ([.position 2147483647, .bytes ((dev.flat.file.drop 2147483647).take 1),
        .position 2147483648], { dev.flat with pos := 2147483648 }) := by
    simp only [wideCalls, Flat.run, if_true, first, second, third, Option.bind_some, Option.map_some]
  refine ⟨_, _, ran, ?_⟩
  rcases rested.seek rfl first with ⟨one, seeked, refines⟩
  rw [← refines.flat] at second
  rcases refines.rested.read second with ⟨two, read, refines'⟩
  have position : two.position two.offset = 2147483648 := congrArg Flat.pos refines'.flat
  have capacity' : two.capacity = 3221225472 := by
    rw [← length_flat, refines'.flat]
    exact length
  rcases wide_seek refines'.rested capacity' position with ⟨three, wrapped⟩
  intro after answered
  simp only [wideCalls, Dev.run, seeked, read, wrapped, Option.bind_some, Option.map_some,
    Option.some.injEq, Prod.mk.injEq, List.cons.injEq, Reply.position.injEq] at answered
  omega

end Wide

/-- With the block size the comments of the source use. -/
def wideGeometry : Geometry := ⟨0x200000, 1536, by decide, by decide⟩

def blankFlash : Flash := ⟨fun _ => 0, fun _ => false, []⟩

theorem capacity_opened (geometry : Geometry) (flash : Flash) (type : EraseType) :
    (Dev.opened geometry flash type).capacity =
      Nat.count flash.Good geometry.blocks * geometry.eraseSize :=
  rfl

theorem wide_capacity : (Dev.opened wideGeometry blankFlash .block).capacity = 3221225472 := by
  have all : Nat.count blankFlash.Good wideGeometry.blocks = wideGeometry.blocks := by
    rw [Nat.count_iff_forall]
    exact fun _ _ => rfl
  calc
    (Dev.opened wideGeometry blankFlash .block).capacity =
        Nat.count blankFlash.Good wideGeometry.blocks * wideGeometry.eraseSize :=
      capacity_opened wideGeometry blankFlash .block
    _ = wideGeometry.blocks * wideGeometry.eraseSize := by rw [all]
    _ = 3221225472 := by decide

end Alisl.Storage.Nand
