import Alisl.Storage.SeekLaw

/-! `alislsto_write_no_erase`: writing into blocks that were erased before. -/

namespace Alisl.Storage.Nand

open Alisl.Base

/-- The pages of a NAND flash fill its blocks. -/
structure NandGeometry extends Geometry where
  writeSize : Nat
  write_pos : 0 < writeSize
  pages : writeSize ∣ eraseSize

/-- `alislsto_write_no_erase` in its loop. The inner loop over bad blocks takes turns of its own, in
which the end of the device is not looked at. -/
structure Placing (geometry : NandGeometry) where
  dev : Dev geometry.toGeometry
  skipping : Bool
  totalWrittenSize : Nat

/-- `MEMGETBADBLOCK`: an address outside the device is an error, which is not zero either. -/
def Dev.getBadBlock {geometry : Geometry} (dev : Dev geometry) (address : Nat) : Bool :=
  decide (geometry.size ≤ address) || dev.flash.bad (address / geometry.eraseSize)

section

variable {geometry : NandGeometry}

def noEraseLoop (buf : List Byte) : DoWhile (Placing geometry) where
  body state :=
    let dev := state.dev
    let offset := dev.offset
    if state.skipping = false ∧ geometry.size ≤ offset then .leave state
    else if dev.getBadBlock offset then
      .next { state with
        dev := { dev with offset := offset + geometry.eraseSize }
        skipping := true }
    else if offset % geometry.writeSize ≠ 0 then .leave { state with skipping := false }
    else
      let rest := geometry.eraseSize - offset % geometry.eraseSize
      let size :=
        if rest ≤ buf.length - state.totalWrittenSize then rest
        else buf.length - state.totalWrittenSize
      let data := (buf.drop state.totalWrittenSize).take size
      .next ⟨{ dev with
          flash := dev.flash.write geometry.toGeometry offset data
          offset := offset + size },
        false, state.totalWrittenSize + size⟩
  again state := state.skipping || decide (state.totalWrittenSize < buf.length)

/-- `none` is a call that does not return within the fuel. -/
def Dev.alislstoWriteNoErase (fuel : Nat) (dev : Dev geometry.toGeometry) (buf : List Byte) :
    Option (Nat × Dev geometry.toGeometry) :=
  ((noEraseLoop buf).run fuel ⟨dev, false, 0⟩).map (fun state => (state.totalWrittenSize, state.dev))

/-! A turn of the loop. -/

/-- A bad block is passed. -/
def Placing.pass (state : Placing geometry) : Placing geometry :=
  { state with
    dev := { state.dev with offset := state.dev.offset + geometry.eraseSize }
    skipping := true }

/-- So many bytes are written at the offset. -/
def Placing.place (buf : List Byte) (state : Placing geometry) (size : Nat) : Placing geometry :=
  ⟨{ state.dev with
      flash := state.dev.flash.write geometry.toGeometry state.dev.offset
        ((buf.drop state.totalWrittenSize).take size)
      offset := state.dev.offset + size },
    false, state.totalWrittenSize + size⟩


/-- The device ends, a bad block is passed, the page is missed, or a part of a good block is written. -/
inductive PlaceTurn (buf : List Byte) (state : Placing geometry) :
    Turn (Placing geometry) → Prop where
  | ended (outer : state.skipping = false) (beyond : geometry.size ≤ state.dev.offset) :
      PlaceTurn buf state (.leave state)
  | skip (inside : state.skipping = false → state.dev.offset < geometry.size)
      (bad : state.dev.getBadBlock state.dev.offset = true) :
      PlaceTurn buf state (.next state.pass)
  | missed (inside : state.dev.offset < geometry.size)
      (good : state.dev.flash.Good (state.dev.offset / geometry.eraseSize))
      (page : state.dev.offset % geometry.writeSize ≠ 0) :
      PlaceTurn buf state (.leave { state with skipping := false })
  | part (inside : state.dev.offset < geometry.size)
      (good : state.dev.flash.Good (state.dev.offset / geometry.eraseSize))
      (page : state.dev.offset % geometry.writeSize = 0) (size : Nat)
      (least : size = min (geometry.eraseSize - state.dev.offset % geometry.eraseSize)
        (buf.length - state.totalWrittenSize)) :
      PlaceTurn buf state (.next (state.place buf size))

theorem getBadBlock_false {geometry : Geometry} {dev : Dev geometry} {address : Nat}
    (good : dev.getBadBlock address = false) :
    address < geometry.size ∧ dev.flash.Good (address / geometry.eraseSize) := by
  rw [Dev.getBadBlock, Bool.or_eq_false_iff] at good
  exact ⟨Nat.not_le.mp (of_decide_eq_false good.1), good.2⟩

theorem placeTurn (buf : List Byte) (state : Placing geometry) :
    PlaceTurn buf state ((noEraseLoop buf).body state) := by
  unfold noEraseLoop
  simp only
  split
  case isTrue ended => exact .ended ended.1 ended.2
  case isFalse inside =>
    split
    case isTrue bad =>
      apply PlaceTurn.skip _ bad
      intro outer
      by_contra beyond
      exact inside ⟨outer, Nat.not_lt.mp beyond⟩
    case isFalse good =>
      rcases getBadBlock_false (Bool.eq_false_of_not_eq_true good) with ⟨less, sound⟩
      split
      case isTrue page => exact .missed less sound page
      case isFalse page =>
        apply PlaceTurn.part less sound (not_not.mp page)
        rw [Nat.min_def]

/-! Which calls return. -/

/-- A good block from an offset on. -/
def Dev.Ahead {geometry : Geometry} (dev : Dev geometry) (offset : Nat) : Prop :=
  ∃ block, offset / geometry.eraseSize ≤ block ∧ block < geometry.blocks ∧ dev.flash.Good block

/-- The loop finds a good block whenever it looks for one. -/
def Placing.Returns (buf : List Byte) (state : Placing geometry) : Prop :=
  (state.skipping = false ∧ geometry.size ≤ state.dev.offset) ∨
    (state.dev.Ahead state.dev.offset ∧
      (state.dev.offset % geometry.writeSize ≠ 0 ∨
        buf.length - state.totalWrittenSize + state.dev.position state.dev.offset ≤
          state.dev.capacity ∨
        state.dev.flash.Good (geometry.blocks - 1)))

theorem Dev.Ahead.inside {geometry : Geometry} {dev : Dev geometry} {offset : Nat}
    (ahead : dev.Ahead offset) : offset < geometry.size := by
  rcases ahead with ⟨block, later, less, _⟩
  exact (Nat.div_lt_iff_lt_mul geometry.erase_pos).mp (Nat.lt_of_le_of_lt later less)

theorem ahead_here {geometry : Geometry} {dev : Dev geometry} {offset : Nat}
    (inside : offset < geometry.size) (good : dev.flash.Good (offset / geometry.eraseSize)) :
    dev.Ahead offset :=
  ⟨offset / geometry.eraseSize, Nat.le_refl _, block_lt inside, good⟩

theorem ahead_skip {geometry : Geometry} {dev : Dev geometry} {offset : Nat}
    (bad : dev.flash.bad (offset / geometry.eraseSize) = true) :
    dev.Ahead (offset + geometry.eraseSize) ↔ dev.Ahead offset := by
  unfold Dev.Ahead
  rw [Nat.add_div_right _ geometry.erase_pos]
  constructor
  · intro ahead
    rcases ahead with ⟨block, later, less, good⟩
    exact ⟨block, Nat.le_of_succ_le later, less, good⟩
  · intro ahead
    rcases ahead with ⟨block, later, less, good⟩
    refine ⟨block, ?_, less, good⟩
    have apart : block ≠ offset / geometry.eraseSize := by
      intro same
      rw [same] at good
      exact Flash.not_good bad good
    omega

theorem exists_good_between {Good : Nat → Prop} [DecidablePred Good] {low high : Nat}
    (more : Nat.count Good low < Nat.count Good high) :
    ∃ block, low ≤ block ∧ block < high ∧ Good block := by
  induction high with
  | zero =>
      rw [Nat.count_zero] at more
      omega
  | succ high ih =>
      by_cases good : Good high
      · by_cases below : low ≤ high
        · exact ⟨high, below, Nat.lt_succ_self _, good⟩
        · have fewer : Nat.count Good (high + 1) ≤ Nat.count Good low :=
            Nat.count_monotone Good (by omega)
          omega
      · rw [Nat.count_succ_eq_count_iff.mpr good] at more
        rcases ih more with ⟨block, later, less, held⟩
        exact ⟨block, later, Nat.lt_succ_of_lt less, held⟩

/-- A position of the file has a good block ahead. -/
theorem ahead_of_position {geometry : Geometry} {dev : Dev geometry} {offset : Nat}
    (whole : offset % geometry.eraseSize = 0) (room : dev.position offset < dev.capacity) :
    dev.Ahead offset := by
  rw [Dev.position, Blocks.logical, whole, Nat.add_zero, Dev.capacity, Blocks.capacity] at room
  exact exists_good_between (Nat.lt_of_mul_lt_mul_right room)

theorem page_skip (offset : Nat) :
    (offset + geometry.eraseSize) % geometry.writeSize = offset % geometry.writeSize := by
  rcases geometry.pages with ⟨pages, same⟩
  rw [same, Nat.add_mul_mod_self_left]

theorem page_whole {offset : Nat} (whole : offset % geometry.eraseSize = 0) :
    offset % geometry.writeSize = 0 :=
  Nat.mod_eq_zero_of_dvd (Nat.dvd_trans geometry.pages (Nat.dvd_of_mod_eq_zero whole))

/-! What a run places. -/

/-- So many bytes are programmed at the positions from the offset on, and nothing else is. -/
structure Placed (buf : List Byte) (state after : Placing geometry) (count : Nat) : Prop where
  dev : after.dev = { state.dev with flash := after.dev.flash, offset := after.dev.offset }
  bad : after.dev.flash.bad = state.dev.flash.bad
  total : after.totalWrittenSize = state.totalWrittenSize + count
  moved : state.dev.position after.dev.offset = state.dev.position state.dev.offset + count
  room : 0 < count → state.dev.position state.dev.offset + count ≤ state.dev.capacity
  placed : ∀ i, i < count →
    after.dev.flash.content (state.dev.address (state.dev.position state.dev.offset + i)) =
      state.dev.flash.content (state.dev.address (state.dev.position state.dev.offset + i)) &&&
        buf.getD (state.totalWrittenSize + i) 0xff
  kept : ∀ x, (∀ i, i < count →
      x ≠ state.dev.address (state.dev.position state.dev.offset + i)) →
    after.dev.flash.content x = state.dev.flash.content x

/-- All that fits, if the offset is that of a page. -/
def Placing.due (buf : List Byte) (state : Placing geometry) : Nat :=
  if state.dev.offset % geometry.writeSize = 0 then
    min (buf.length - state.totalWrittenSize)
      (state.dev.capacity - state.dev.position state.dev.offset)
  else 0

theorem Placed.nothing (buf : List Byte) (state : Placing geometry) (skipping : Bool) :
    Placed buf state { state with skipping } 0 := by
  constructor
  case dev => rfl
  case bad => rfl
  case total => rfl
  case moved => rfl
  case room => exact fun more => absurd more (Nat.lt_irrefl 0)
  case placed => exact fun i inside => absurd inside (Nat.not_lt_zero i)
  case kept => exact fun _ _ => rfl

theorem getBadBlock_skip {dev : Dev geometry.toGeometry} {offset : Nat}
    (bad : dev.getBadBlock offset = true) :
    dev.flash.bad (offset / geometry.eraseSize) = true ∨ geometry.size ≤ offset := by
  rw [Dev.getBadBlock, Bool.or_eq_true, decide_eq_true_eq] at bad
  exact bad.symm

theorem Placed.skip {buf : List Byte} {state after : Placing geometry} {count : Nat}
    (bad : state.dev.flash.bad (state.dev.offset / geometry.eraseSize) = true)
    (rest : Placed buf state.pass after count) : Placed buf state after count := by
  have same : state.dev.position (state.dev.offset + geometry.eraseSize) =
      state.dev.position state.dev.offset :=
    Blocks.logical_skip geometry.erase_pos (Flash.not_good bad)
  have moved : state.dev.position after.dev.offset =
      state.dev.position (state.dev.offset + geometry.eraseSize) + count := rest.moved
  have room : 0 < count → state.dev.position (state.dev.offset + geometry.eraseSize) + count ≤
      state.dev.capacity := rest.room
  have placed : ∀ i, i < count → after.dev.flash.content
      (state.dev.address (state.dev.position (state.dev.offset + geometry.eraseSize) + i)) =
        state.dev.flash.content
          (state.dev.address (state.dev.position (state.dev.offset + geometry.eraseSize) + i)) &&&
          buf.getD (state.totalWrittenSize + i) 0xff := rest.placed
  have kept : ∀ x, (∀ i, i < count →
      x ≠ state.dev.address (state.dev.position (state.dev.offset + geometry.eraseSize) + i)) →
        after.dev.flash.content x = state.dev.flash.content x := rest.kept
  rw [same] at moved room placed kept
  exact ⟨rest.dev, rest.bad, rest.total, moved, room, placed, kept⟩

theorem write_content (flash : Flash) {start x : Nat} {data : List Byte} :
    (flash.write geometry.toGeometry start data).content x =
      if start ≤ x ∧ x < start + data.length then
        flash.content x &&& data.getD (x - start) 0xff
      else flash.content x :=
  rfl

theorem Placed.part {buf : List Byte} {state after : Placing geometry} {size count : Nat}
    (inside : state.dev.offset < geometry.size)
    (good : state.dev.flash.Good (state.dev.offset / geometry.eraseSize))
    (least : size = min (geometry.eraseSize - state.dev.offset % geometry.eraseSize)
      (buf.length - state.totalWrittenSize))
    (rest : Placed buf (state.place buf size) after count) :
    Placed buf state after (size + count) := by
  have pos := geometry.erase_pos
  have small := Nat.mod_lt state.dev.offset pos
  have fits : state.dev.offset % geometry.eraseSize + size ≤ geometry.eraseSize := by omega
  have length : ((buf.drop state.totalWrittenSize).take size).length = size :=
    length_part (by omega)
  have same : state.dev.position (state.dev.offset + size) =
      state.dev.position state.dev.offset + size :=
    Blocks.logical_add pos good fits
  have found : ∀ i, i < size → state.dev.address (state.dev.position state.dev.offset + i) =
      state.dev.offset + i := by
    intro i less
    exact Blocks.physical_logical_add pos good (by omega)
  have moved : state.dev.position after.dev.offset =
      state.dev.position (state.dev.offset + size) + count := rest.moved
  have room : 0 < count →
      state.dev.position (state.dev.offset + size) + count ≤ state.dev.capacity := rest.room
  have placed : ∀ i, i < count → after.dev.flash.content
      (state.dev.address (state.dev.position (state.dev.offset + size) + i)) =
        (state.dev.flash.write geometry.toGeometry state.dev.offset
          ((buf.drop state.totalWrittenSize).take size)).content
            (state.dev.address (state.dev.position (state.dev.offset + size) + i)) &&&
          buf.getD (state.totalWrittenSize + size + i) 0xff := rest.placed
  have kept : ∀ x, (∀ i, i < count →
      x ≠ state.dev.address (state.dev.position (state.dev.offset + size) + i)) →
        after.dev.flash.content x = (state.dev.flash.write geometry.toGeometry state.dev.offset
          ((buf.drop state.totalWrittenSize).take size)).content x := rest.kept
  rw [same] at moved room placed kept
  -- the bytes that follow lie at other addresses than this part
  have beyond : ∀ j, j < count → ¬ (state.dev.offset ≤
      state.dev.address (state.dev.position state.dev.offset + size + j) ∧
        state.dev.address (state.dev.position state.dev.offset + size + j) <
          state.dev.offset + size) := by
    intro j below
    exact Blocks.physical_beyond pos good fits (Nat.le_add_right _ _)
      (show state.dev.position state.dev.offset + size + j < state.dev.capacity by omega)
  constructor
  case dev => exact rest.dev
  case bad => exact rest.bad
  case total => exact rest.total.trans (Nat.add_assoc ..)
  case moved => rw [moved, Nat.add_assoc]
  case room =>
      intro _
      by_cases more : 0 < count
      · rw [← Nat.add_assoc]
        exact room more
      · have whole := Blocks.logical_room good fits (block_lt inside)
        have zero : count = 0 := Nat.eq_zero_of_not_pos more
        rw [zero, Nat.add_zero]
        exact whole
  case placed =>
      intro i less
      by_cases here : i < size
      · have part := getElem?_part buf state.totalWrittenSize size here
        have apart : ∀ j, j < count → state.dev.offset + i ≠
            state.dev.address (state.dev.position state.dev.offset + size + j) := by
          intro j below hit
          exact beyond j below (by omega)
        rw [found i here, kept _ apart, write_content, length,
          if_pos (by omega), Nat.add_sub_cancel_left]
        congr 1
        rw [List.getD_eq_getElem?_getD, List.getD_eq_getElem?_getD, part]
      · obtain ⟨j, rfl⟩ := Nat.exists_eq_add_of_le (Nat.not_lt.mp here)
        have below : j < count := by omega
        rw [← Nat.add_assoc, placed j below, write_content, length, if_neg (beyond j below), Nat.add_assoc,
          Nat.add_assoc]
  case kept =>
      intro x away
      have outside : ¬ (state.dev.offset ≤ x ∧ x < state.dev.offset + size) := by
        intro both
        apply away (x - state.dev.offset) (by omega)
        rw [found _ (by omega)]
        omega
      rw [kept x, write_content, length, if_neg outside]
      intro j below
      rw [Nat.add_assoc]
      exact away (size + j) (by omega)

/-! The turns of a call that returns. -/

theorem pass_position (state : Placing geometry)
    (bad : state.dev.flash.bad (state.dev.offset / geometry.eraseSize) = true) :
    state.pass.dev.position state.pass.dev.offset = state.dev.position state.dev.offset :=
  Blocks.logical_skip geometry.erase_pos (Flash.not_good bad)

theorem pass_page (state : Placing geometry) :
    state.pass.dev.offset % geometry.writeSize = state.dev.offset % geometry.writeSize :=
  page_skip state.dev.offset

theorem due_skip {buf : List Byte} {state : Placing geometry}
    (bad : state.dev.flash.bad (state.dev.offset / geometry.eraseSize) = true) :
    state.pass.due buf = state.due buf := by
  rw [Placing.due, pass_page, pass_position state bad]
  rfl

theorem returns_skip {buf : List Byte} {state : Placing geometry}
    (inside : state.skipping = false → state.dev.offset < geometry.size)
    (bad : state.dev.flash.bad (state.dev.offset / geometry.eraseSize) = true) :
    state.pass.Returns buf ↔ state.Returns buf := by
  have ahead : state.pass.dev.Ahead state.pass.dev.offset ↔ state.dev.Ahead state.dev.offset :=
    ahead_skip bad
  have outer : ¬ (state.skipping = false ∧ geometry.size ≤ state.dev.offset) := by
    intro both
    exact Nat.not_le.mpr (inside both.1) both.2
  have inner : ¬ (state.pass.skipping = false ∧ geometry.size ≤ state.pass.dev.offset) := by
    intro both
    cases both.1
  rw [Placing.Returns, Placing.Returns, pass_page, pass_position state bad, ahead,
    or_iff_right outer, or_iff_right inner]
  rfl

theorem returns_bad {buf : List Byte} {state : Placing geometry}
    (inside : state.skipping = false → state.dev.offset < geometry.size)
    (returns : state.Returns buf) (bad : state.dev.getBadBlock state.dev.offset = true) :
    state.dev.flash.bad (state.dev.offset / geometry.eraseSize) = true := by
  rcases getBadBlock_skip bad with broken | beyond
  · exact broken
  · rcases returns with ended | met
    · exact absurd ended.2 (Nat.not_le.mpr (inside ended.1))
    · exact absurd met.1.inside (Nat.not_lt.mpr beyond)

/-- A part that does not end the call ends its block. -/
theorem part_whole {offset size left : Nat}
    (least : size = min (geometry.eraseSize - offset % geometry.eraseSize) left)
    (more : size < left) :
    (offset + size) % geometry.eraseSize = 0 ∧
      (offset + size) / geometry.eraseSize = offset / geometry.eraseSize + 1 := by
  have small := Nat.mod_lt offset geometry.erase_pos
  have reach : offset % geometry.eraseSize + size = geometry.eraseSize := by omega
  rcases Blocks.div_add_of_eq geometry.erase_pos reach with ⟨block, rest⟩
  exact ⟨rest, block⟩

/-- The run ends: it was to return, and it has placed what was due. -/
def Settled (buf : List Byte) (state after : Placing geometry) : Prop :=
  state.Returns buf ∧ Placed buf state after (state.due buf)

theorem settled_ended {buf : List Byte} {state : Placing geometry} (outer : state.skipping = false)
    (beyond : geometry.size ≤ state.dev.offset) : Settled buf state state := by
  have none_ : state.due buf = 0 := by
    have behind : state.dev.capacity ≤ state.dev.position state.dev.offset :=
      Blocks.capacity_le_logical geometry.erase_pos beyond
    rw [Placing.due]
    split
    · omega
    · rfl
  refine ⟨.inl ⟨outer, beyond⟩, ?_⟩
  rw [none_]
  have nothing := Placed.nothing buf state state.skipping
  exact nothing

theorem settled_missed {buf : List Byte} {state : Placing geometry}
    (inside : state.dev.offset < geometry.size)
    (good : state.dev.flash.Good (state.dev.offset / geometry.eraseSize))
    (page : state.dev.offset % geometry.writeSize ≠ 0) :
    Settled buf state { state with skipping := false } := by
  refine ⟨.inr ⟨ahead_here inside good, .inl page⟩, ?_⟩
  rw [Placing.due, if_neg page]
  exact .nothing buf state false

theorem settled_skip {buf : List Byte} {state after : Placing geometry}
    (inside : state.skipping = false → state.dev.offset < geometry.size)
    (bad : state.dev.getBadBlock state.dev.offset = true)
    (rest : Settled buf state.pass after) : Settled buf state after := by
  have broken : state.dev.flash.bad (state.dev.offset / geometry.eraseSize) = true := by
    rcases getBadBlock_skip bad with broken | beyond
    · exact broken
    · -- behind the device the inner loop never ends
      rcases rest.1 with ended | met
      · cases ended.1
      · have less : state.dev.offset + geometry.eraseSize < geometry.size := met.1.inside
        omega
  rcases rest with ⟨returns, placed⟩
  rw [due_skip broken] at placed
  exact ⟨(returns_skip inside broken).mp returns, placed.skip broken⟩

theorem place_room {buf : List Byte} {state : Placing geometry} {size : Nat}
    (inside : state.dev.offset < geometry.size)
    (good : state.dev.flash.Good (state.dev.offset / geometry.eraseSize))
    (least : size = min (geometry.eraseSize - state.dev.offset % geometry.eraseSize)
      (buf.length - state.totalWrittenSize)) :
    state.dev.position state.dev.offset + size ≤ state.dev.capacity ∧
      state.dev.position (state.dev.offset + size) = state.dev.position state.dev.offset + size := by
  have small := Nat.mod_lt state.dev.offset geometry.erase_pos
  have fits : state.dev.offset % geometry.eraseSize + size ≤ geometry.eraseSize := by omega
  exact ⟨Blocks.logical_room good fits (block_lt inside),
    Blocks.logical_add geometry.erase_pos good fits⟩

theorem settled_last {buf : List Byte} {state : Placing geometry} {size : Nat}
    (inside : state.dev.offset < geometry.size)
    (good : state.dev.flash.Good (state.dev.offset / geometry.eraseSize))
    (page : state.dev.offset % geometry.writeSize = 0)
    (least : size = min (geometry.eraseSize - state.dev.offset % geometry.eraseSize)
      (buf.length - state.totalWrittenSize))
    (all : buf.length ≤ state.totalWrittenSize + size) :
    Settled buf state (state.place buf size) := by
  have room := (place_room inside good least).1
  have whole : state.due buf = size + 0 := by
    rw [Placing.due, if_pos page]
    omega
  refine ⟨.inr ⟨ahead_here inside good, .inr (.inl (by omega))⟩, ?_⟩
  rw [whole]
  exact .part inside good least (.nothing buf _ false)

theorem settled_next {buf : List Byte} {state after : Placing geometry} {size : Nat}
    (inside : state.dev.offset < geometry.size)
    (good : state.dev.flash.Good (state.dev.offset / geometry.eraseSize))
    (page : state.dev.offset % geometry.writeSize = 0)
    (least : size = min (geometry.eraseSize - state.dev.offset % geometry.eraseSize)
      (buf.length - state.totalWrittenSize))
    (more : state.totalWrittenSize + size < buf.length)
    (rest : Settled buf (state.place buf size) after) : Settled buf state after := by
  rcases place_room inside good least with ⟨room, same⟩
  rcases part_whole least (by omega) with ⟨whole, block⟩
  have page' : (state.place buf size).dev.offset % geometry.writeSize = 0 := page_whole whole
  have position : (state.place buf size).dev.position (state.place buf size).dev.offset =
      state.dev.position state.dev.offset + size := same
  have capacity : (state.place buf size).dev.capacity = state.dev.capacity := rfl
  have total : (state.place buf size).totalWrittenSize = state.totalWrittenSize + size := rfl
  rcases rest with ⟨returns, placed⟩
  constructor
  · refine .inr ⟨ahead_here inside good, .inr ?_⟩
    rcases returns with ended | met
    · -- the device ends behind this block, which is good
      right
      have beyond : geometry.blocks ≤ (state.dev.offset + size) / geometry.eraseSize :=
        (Nat.le_div_iff_mul_le geometry.erase_pos).mpr ended.2
      rw [block] at beyond
      have below : state.dev.offset / geometry.eraseSize < geometry.blocks := block_lt inside
      have last : geometry.blocks = state.dev.offset / geometry.eraseSize + 1 :=
        Nat.le_antisymm beyond below
      rw [last, Nat.add_sub_cancel]
      exact good
    · rcases met.2 with missed | fits | last
      · exact absurd page' missed
      · rw [total, position, capacity] at fits
        left
        omega
      · exact .inr last
  · have due : state.due buf = size + (state.place buf size).due buf := by
      rw [Placing.due, Placing.due, if_pos page, if_pos page', total, position, capacity]
      omega
    rw [due]
    exact placed.part inside good least

theorem noEraseLoop_settles {buf : List Byte} {fuel : Nat} {state after : Placing geometry}
    (ran : (noEraseLoop buf).run fuel state = some after) : Settled buf state after := by
  refine DoWhile.ends (Settled buf) ?leave ?last ?next ran
  case leave =>
      intro state after turned
      have turn := placeTurn buf state
      rw [turned] at turn
      cases turn with
      | ended outer beyond => exact settled_ended outer beyond
      | missed inside good page => exact settled_missed inside good page
  case last =>
      intro state after turned done
      have turn := placeTurn buf state
      rw [turned] at turn
      cases turn with
      | skip inside bad => cases done
      | part inside good page size least =>
          have all : ¬ state.totalWrittenSize + size < buf.length := of_decide_eq_false done
          exact settled_last inside good page least (Nat.not_lt.mp all)
  case next =>
      intro state middle after turned goes rest
      have turn := placeTurn buf state
      rw [turned] at turn
      cases turn with
      | skip inside bad => exact settled_skip inside bad rest
      | part inside good page size least =>
          have more : state.totalWrittenSize + size < buf.length := of_decide_eq_true goes
          exact settled_next inside good page least more rest

/-! The calls that are to return do. -/

theorem returns_place {buf : List Byte} {state : Placing geometry} {size : Nat}
    (inside : state.dev.offset < geometry.size)
    (good : state.dev.flash.Good (state.dev.offset / geometry.eraseSize))
    (page : state.dev.offset % geometry.writeSize = 0)
    (least : size = min (geometry.eraseSize - state.dev.offset % geometry.eraseSize)
      (buf.length - state.totalWrittenSize))
    (more : state.totalWrittenSize + size < buf.length) (returns : state.Returns buf) :
    (state.place buf size).Returns buf := by
  rcases place_room inside good least with ⟨room, same⟩
  rcases part_whole least (by omega) with ⟨whole, block⟩
  by_cases beyond : geometry.size ≤ state.dev.offset + size
  · exact .inl ⟨rfl, beyond⟩
  rw [Nat.not_le] at beyond
  rcases returns with ended | met
  · exact absurd ended.2 (Nat.not_le.mpr inside)
  rcases met.2 with missed | fits | last
  · exact absurd page missed
  · have left_ : buf.length - (state.totalWrittenSize + size) +
        state.dev.position (state.dev.offset + size) ≤ state.dev.capacity := by omega
    have ahead : state.dev.Ahead (state.dev.offset + size) :=
      ahead_of_position whole (by omega)
    exact .inr ⟨ahead, .inr (.inl left_)⟩
  · have below : (state.dev.offset + size) / geometry.eraseSize < geometry.blocks := block_lt beyond
    exact .inr ⟨⟨geometry.blocks - 1, Nat.le_sub_one_of_lt below,
      Nat.sub_one_lt (Nat.ne_of_gt (Nat.zero_lt_of_lt below)), last⟩, .inr (.inr last)⟩

theorem noEraseLoop_terminates {buf : List Byte} {state : Placing geometry}
    (returns : state.Returns buf) :
    ∃ after, (noEraseLoop buf).run (Dev.loopFuel geometry.toGeometry) state = some after := by
  apply DoWhile.terminates (fun state : Placing geometry => state.Returns buf)
    (fun state => geometry.size - state.dev.offset)
  case start => exact returns
  case enough => exact Nat.lt_succ_of_le (Nat.sub_le ..)
  case less =>
      intro state middle returns turned goes
      have pos := geometry.erase_pos
      have turn := placeTurn buf state
      rw [turned] at turn
      cases turn with
      | skip inside bad =>
          have broken := returns_bad inside returns bad
          have less : state.dev.offset < geometry.size := by
            rcases returns with ended | met
            · exact inside ended.1
            · exact met.1.inside
          refine ⟨(returns_skip inside broken).mpr returns, ?_⟩
          show geometry.size - (state.dev.offset + geometry.eraseSize) < _
          omega
      | part inside good page size least =>
          have more : state.totalWrittenSize + size < buf.length := of_decide_eq_true goes
          refine ⟨returns_place inside good page least more returns, ?_⟩
          have small := Nat.mod_lt state.dev.offset pos
          show geometry.size - (state.dev.offset + size) < _
          omega

/-! What no call does, whether it returns or not. -/

/-- Nothing was written behind the device or into a bad block. -/
structure Placing.Spares (before : Flash) (state : Placing geometry) : Prop where
  bad : state.dev.flash.bad = before.bad
  content : ∀ x, geometry.size ≤ x ∨ before.bad (x / geometry.eraseSize) = true →
    state.dev.flash.content x = before.content x
  touched : ∀ block ∈ state.dev.flash.touched,
    block ∈ before.touched ∨ (block < geometry.blocks ∧ before.bad block = false)

theorem spares_place {before : Flash} {buf : List Byte} {state : Placing geometry} {size : Nat}
    (spares : state.Spares before) (inside : state.dev.offset < geometry.size)
    (good : state.dev.flash.Good (state.dev.offset / geometry.eraseSize))
    (least : size = min (geometry.eraseSize - state.dev.offset % geometry.eraseSize)
      (buf.length - state.totalWrittenSize)) : (state.place buf size).Spares before := by
  have small := Nat.mod_lt state.dev.offset geometry.erase_pos
  have length : ((buf.drop state.totalWrittenSize).take size).length = size :=
    length_part (by omega)
  have below : state.dev.offset / geometry.eraseSize < geometry.blocks := block_lt inside
  have sound : before.bad (state.dev.offset / geometry.eraseSize) = false := by
    rw [← spares.bad]
    exact good
  constructor
  case bad => exact spares.bad
  case content =>
      intro x outside
      have apart : ¬ (state.dev.offset ≤ x ∧ x < state.dev.offset + size) := by
        intro both
        have shift : state.dev.offset % geometry.eraseSize + (x - state.dev.offset) <
            geometry.eraseSize := by omega
        have block : x / geometry.eraseSize = state.dev.offset / geometry.eraseSize := by
          have moved := (Blocks.div_add_of_lt shift).1
          rwa [Nat.add_sub_cancel' both.1] at moved
        rcases outside with beyond | bad
        · rw [← block] at below
          exact Nat.not_le.mpr ((Nat.div_lt_iff_lt_mul geometry.erase_pos).mp below) beyond
        · rw [block, sound] at bad
          cases bad
      show (state.dev.flash.write geometry.toGeometry state.dev.offset
        ((buf.drop state.totalWrittenSize).take size)).content x = _
      rw [write_content, length, if_neg apart]
      exact spares.content x outside
  case touched =>
      intro block member
      rcases List.mem_cons.mp member with here | old
      · rw [here]
        exact .inr ⟨below, sound⟩
      · exact spares.touched block old

theorem noEraseLoop_spares {buf : List Byte} {start state : Placing geometry}
    (visits : (noEraseLoop buf).Visits start state) : state.Spares start.dev.flash := by
  refine visits.always (Placing.Spares start.dev.flash) ?start ?next ?leave
  case start => exact ⟨rfl, fun _ _ => rfl, fun _ member => .inl member⟩
  case next =>
      intro state middle spares turned
      have turn := placeTurn buf state
      rw [turned] at turn
      cases turn with
      | skip inside bad => exact ⟨spares.bad, spares.content, spares.touched⟩
      | part inside good page size least => exact spares_place spares inside good least
  case leave =>
      intro state after spares turned
      have turn := placeTurn buf state
      rw [turned] at turn
      cases turn with
      | ended outer beyond => exact spares
      | missed inside good page => exact ⟨spares.bad, spares.content, spares.touched⟩

/-- The call returns the number of bytes that it placed in the good blocks from the offset on, and
writes nowhere else. -/
structure Dev.WritesNoErase (dev : Dev geometry.toGeometry) (buf : List Byte) : Prop where
  returns : ∃ fuel after, (noEraseLoop buf).run fuel ⟨dev, false, 0⟩ = some after ∧
    Placed buf ⟨dev, false, 0⟩ after after.totalWrittenSize
  spares : ∀ state, (noEraseLoop buf).Visits ⟨dev, false, 0⟩ state → state.Spares dev.flash

theorem writesNoErase_returns {dev : Dev geometry.toGeometry} {buf : List Byte} :
    dev.WritesNoErase buf ↔ Placing.Returns buf ⟨dev, false, 0⟩ := by
  constructor
  · intro writes
    rcases writes.returns with ⟨fuel, after, ran, _⟩
    exact (noEraseLoop_settles ran).1
  · intro returns
    rcases noEraseLoop_terminates returns with ⟨after, ran⟩
    have placed := (noEraseLoop_settles ran).2
    have total : after.totalWrittenSize = Placing.due buf ⟨dev, false, 0⟩ :=
      placed.total.trans (Nat.zero_add _)
    rw [← total] at placed
    exact ⟨⟨_, after, ran, placed⟩, fun _ visits => noEraseLoop_spares visits⟩

end

/-- A call does not return when it looks for a good block where only bad ones are left. -/
theorem writeNoErase_returns_iff {geometry : NandGeometry} (dev : Dev geometry.toGeometry)
    (buf : List Byte) :
    dev.WritesNoErase buf ↔ geometry.size ≤ dev.offset ∨
      (∃ block, dev.offset / geometry.eraseSize ≤ block ∧ block < geometry.blocks ∧
        dev.flash.Good block) ∧
      (dev.offset % geometry.writeSize ≠ 0 ∨
        buf.length + dev.position dev.offset ≤ dev.capacity ∨
        dev.flash.Good (geometry.blocks - 1)) := by
  rw [writesNoErase_returns]
  constructor
  · intro returns
    rcases returns with ended | met
    · exact .inl ended.2
    · exact .inr met
  · intro met
    rcases met with beyond | met
    · exact .inl ⟨rfl, beyond⟩
    · exact .inr met

/-- Four blocks of 128 KiB. -/
def fourBlocks : NandGeometry where
  eraseSize := 0x20000
  blocks := 4
  erase_pos := by decide
  fits := by decide
  writeSize := 0x800
  write_pos := by decide
  pages := by decide

def lastBad : Flash := ⟨fun _ => 0xff, fun block => block == 3, []⟩

/-- One byte behind the last good block is looked for without end. -/
theorem writeNoErase_last_bad :
    ¬ ({ Dev.opened fourBlocks.toGeometry lastBad .block with offset := 0x60000 } :
      Dev fourBlocks.toGeometry).WritesNoErase [0] := by
  rw [writesNoErase_returns]
  intro returns
  rcases returns with ended | met
  · revert ended
    decide
  · rcases met.1 with ⟨block, later, less, good⟩
    have here : block = 3 := by
      have first : 0x60000 / fourBlocks.eraseSize = 3 := by decide
      have count : fourBlocks.blocks = 4 := rfl
      rw [count] at less
      have start : 0x60000 / fourBlocks.eraseSize ≤ block := later
      omega
    rw [here] at good
    exact absurd good (by decide)

end Alisl.Storage.Nand
