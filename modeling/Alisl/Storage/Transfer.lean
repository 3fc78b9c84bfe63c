import Alisl.Storage.Flash

/-! What the loops of `alislsto_read` and `alislsto_write` do, in terms of the positions of the good
blocks. -/

namespace Alisl.Storage.Nand

open Alisl.Base

def Flash.Good (flash : Flash) (block : Nat) : Prop := flash.bad block = false

instance (flash : Flash) : DecidablePred flash.Good :=
  fun block => inferInstanceAs (Decidable (flash.bad block = false))

section

variable {geometry : Geometry}

namespace Dev

/-- The position of an address among the good blocks. -/
def position (dev : Dev geometry) (address : Nat) : Nat :=
  Blocks.logical geometry.eraseSize dev.flash.Good address

noncomputable def address (dev : Dev geometry) (position : Nat) : Nat :=
  Blocks.physical geometry.eraseSize dev.flash.Good position

def capacity (dev : Dev geometry) : Nat :=
  Blocks.capacity geometry.eraseSize dev.flash.Good geometry.blocks

end Dev

theorem Flash.not_good {flash : Flash} {block : Nat} (bad : flash.bad block = true) :
    ¬ flash.Good block := by
  simp [Flash.Good, bad]

theorem block_lt {address : Nat} (inside : address < geometry.size) :
    address / geometry.eraseSize < geometry.blocks :=
  (Nat.div_lt_iff_lt_mul geometry.erase_pos).mpr inside

/-! Reading. -/

/-- A run of the read loop: so many bytes at the positions from the offset on, all that are missing
unless the device ends before. -/
structure Fetched (len : Nat) (before after : Reading geometry) (count : Nat) : Prop where
  dev : after.dev = { before.dev with offset := after.dev.offset }
  most : count ≤ len - before.buffer.length
  bytes : after.buffer = before.buffer ++ (List.range count).map (fun i =>
    before.dev.flash.content (before.dev.address (before.dev.position before.dev.offset + i)))
  moved : before.dev.position after.dev.offset = before.dev.position before.dev.offset + count
  complete : count = len - before.buffer.length ∨ geometry.size ≤ after.dev.offset

/-- A turn of the read loop: the device ends, a bad block is passed, or a part of a good block is
read. -/
inductive ReadTurn (len : Nat) (state : Reading geometry) : Turn (Reading geometry) → Prop where
  | ended (beyond : geometry.size ≤ state.dev.offset) : ReadTurn len state (.leave state)
  | skip (inside : state.dev.offset < geometry.size)
      (bad : state.dev.flash.bad (state.dev.offset / geometry.eraseSize) = true) :
      ReadTurn len state (.next { state with
        dev := { state.dev with offset := state.dev.offset + geometry.eraseSize } })
  | part (inside : state.dev.offset < geometry.size)
      (good : state.dev.flash.Good (state.dev.offset / geometry.eraseSize)) (size : Nat)
      (least : size = min (geometry.eraseSize - state.dev.offset % geometry.eraseSize)
        (len - state.buffer.length)) :
      ReadTurn len state (.next ⟨{ state.dev with offset := state.dev.offset + size },
        state.buffer ++ state.dev.flash.read state.dev.offset size⟩)

theorem readTurn (len : Nat) (state : Reading geometry) :
    ReadTurn len state ((readLoop len).body state) := by
  unfold readLoop
  simp only
  split
  case isTrue beyond => exact .ended beyond
  case isFalse inside =>
    rw [Nat.not_le] at inside
    split
    case isTrue bad => exact .skip inside bad
    case isFalse good =>
      rw [Bool.not_eq_true] at good
      apply ReadTurn.part inside good
      rw [Nat.min_def]

theorem read_part {dev : Dev geometry} {k : Nat}
    (good : dev.flash.Good (dev.offset / geometry.eraseSize))
    (inside : dev.offset % geometry.eraseSize + k ≤ geometry.eraseSize) :
    dev.flash.read dev.offset k = (List.range k).map (fun i =>
      dev.flash.content (dev.address (dev.position dev.offset + i))) := by
  apply List.map_congr_left
  intro i member
  have less : i < k := List.mem_range.mp member
  have found : dev.address (dev.position dev.offset + i) = dev.offset + i :=
    Blocks.physical_logical_add geometry.erase_pos good (by omega)
  rw [found]

theorem length_read (flash : Flash) (address count : Nat) :
    (flash.read address count).length = count := by
  rw [Flash.read, List.length_map, List.length_range]

theorem Fetched.nothing {len : Nat} (state : Reading geometry)
    (complete : 0 = len - state.buffer.length ∨ geometry.size ≤ state.dev.offset) :
    Fetched len state state 0 := by
  constructor
  case dev => rfl
  case most => exact Nat.zero_le _
  case bytes => rw [List.range_zero, List.map_nil, List.append_nil]
  case moved => rfl
  case complete => exact complete

theorem Fetched.skip {len count : Nat} {state after : Reading geometry}
    (bad : state.dev.flash.bad (state.dev.offset / geometry.eraseSize) = true)
    (rest : Fetched len { state with
      dev := { state.dev with offset := state.dev.offset + geometry.eraseSize } } after count) :
    Fetched len state after count := by
  have same : state.dev.position (state.dev.offset + geometry.eraseSize) =
      state.dev.position state.dev.offset :=
    Blocks.logical_skip geometry.erase_pos (Flash.not_good bad)
  have bytes := rest.bytes
  have moved := rest.moved
  simp only [Dev.position, Dev.address] at bytes moved same
  rw [same] at bytes moved
  exact ⟨rest.dev, rest.most, bytes, moved, rest.complete⟩

theorem Fetched.part {len size count : Nat} {state after : Reading geometry}
    (good : state.dev.flash.Good (state.dev.offset / geometry.eraseSize))
    (least : size = min (geometry.eraseSize - state.dev.offset % geometry.eraseSize)
      (len - state.buffer.length))
    (rest : Fetched len ⟨{ state.dev with offset := state.dev.offset + size },
      state.buffer ++ state.dev.flash.read state.dev.offset size⟩ after count) :
    Fetched len state after (size + count) := by
  have small := Nat.mod_lt state.dev.offset geometry.erase_pos
  have inside : state.dev.offset % geometry.eraseSize + size ≤ geometry.eraseSize := by omega
  have same : state.dev.position (state.dev.offset + size) =
      state.dev.position state.dev.offset + size :=
    Blocks.logical_add geometry.erase_pos good inside
  have longer : (state.buffer ++ state.dev.flash.read state.dev.offset size).length =
      state.buffer.length + size := by
    rw [List.length_append, length_read]
  have most := rest.most
  have complete := rest.complete
  have bytes := rest.bytes
  have moved := rest.moved
  simp only [longer] at most complete
  constructor
  case dev => exact rest.dev
  case most => omega
  case bytes =>
      rw [bytes, read_part good inside, List.append_assoc, List.range_add, List.map_append,
        List.map_map]
      congr 2
      apply List.map_congr_left
      intro i _
      show state.dev.flash.content (state.dev.address
        (state.dev.position (state.dev.offset + size) + i)) = _
      rw [same, Nat.add_assoc]
      rfl
  case moved =>
      calc
        state.dev.position after.dev.offset = state.dev.position (state.dev.offset + size) + count :=
          moved
        _ = state.dev.position state.dev.offset + (size + count) := by rw [same, Nat.add_assoc]
  case complete =>
      rcases complete with all | over_
      · exact .inl (by omega)
      · exact .inr over_

theorem read_room {state : Reading geometry} {size len : Nat}
    (inside : state.dev.offset < geometry.size)
    (good : state.dev.flash.Good (state.dev.offset / geometry.eraseSize))
    (least : size = min (geometry.eraseSize - state.dev.offset % geometry.eraseSize)
      (len - state.buffer.length)) :
    state.dev.position state.dev.offset + size ≤ state.dev.capacity ∧
      state.dev.position (state.dev.offset + size) = state.dev.position state.dev.offset + size := by
  have small := Nat.mod_lt state.dev.offset geometry.erase_pos
  have fits : state.dev.offset % geometry.eraseSize + size ≤ geometry.eraseSize := by omega
  exact ⟨Blocks.logical_room good fits (block_lt inside),
    Blocks.logical_add geometry.erase_pos good fits⟩

/-- A run reads no more than there is. -/
theorem readLoop_fetches {len fuel : Nat} {before after : Reading geometry}
    (ran : (readLoop len).run fuel before = some after) :
    ∃ count, Fetched len before after count ∧
      (0 < count → before.dev.position before.dev.offset + count ≤ before.dev.capacity) := by
  refine DoWhile.ends (fun before after => ∃ count, Fetched len before after count ∧
    (0 < count → before.dev.position before.dev.offset + count ≤ before.dev.capacity))
    ?leave ?last ?next ran
  case leave =>
      intro state after turned
      have turn := readTurn len state
      rw [turned] at turn
      cases turn with
      | ended beyond =>
          exact ⟨0, .nothing state (.inr beyond), fun more => absurd more (Nat.lt_irrefl 0)⟩
  case last =>
      intro state after turned done
      have turn := readTurn len state
      rw [turned] at turn
      have stopped : 0 = len - after.buffer.length ∨ geometry.size ≤ after.dev.offset :=
        .inl (by have := of_decide_eq_false done; omega)
      cases turn with
      | skip inside bad =>
          exact ⟨0, .skip bad (.nothing _ stopped), fun more => absurd more (Nat.lt_irrefl 0)⟩
      | part inside good size least =>
          exact ⟨size + 0, .part good least (.nothing _ stopped),
            fun _ => (read_room inside good least).1⟩
  case next =>
      intro state middle after turned _ ih
      rcases ih with ⟨count, rest, room⟩
      have turn := readTurn len state
      rw [turned] at turn
      cases turn with
      | skip inside bad =>
          have same : state.dev.position (state.dev.offset + geometry.eraseSize) =
              state.dev.position state.dev.offset :=
            Blocks.logical_skip geometry.erase_pos (Flash.not_good bad)
          refine ⟨count, .skip bad rest, fun more => ?_⟩
          rw [← same]
          exact room more
      | part inside good size least =>
          rcases read_room inside good least with ⟨first, same⟩
          refine ⟨size + count, .part good least rest, fun _ => ?_⟩
          by_cases more : 0 < count
          · have later : state.dev.position (state.dev.offset + size) + count ≤
                state.dev.capacity := room more
            rw [same, Nat.add_assoc] at later
            exact later
          · rw [Nat.eq_zero_of_not_pos more]
            exact first

theorem readLoop_terminates (len : Nat) (dev : Dev geometry) :
    ∃ after, (readLoop len).run (Dev.loopFuel geometry) ⟨dev, []⟩ = some after := by
  apply DoWhile.terminates (fun _ => True) (fun state => geometry.size - state.dev.offset)
  case start => exact trivial
  case enough => exact Nat.lt_succ_of_le (Nat.sub_le ..)
  case less =>
      intro state middle _ turned goes
      refine ⟨trivial, ?_⟩
      have pos := geometry.erase_pos
      have turn := readTurn len state
      rw [turned] at turn
      cases turn with
      | skip inside bad =>
          dsimp only
          omega
      | part inside good size least =>
          have missing : (state.buffer ++ state.dev.flash.read state.dev.offset size).length < len :=
            of_decide_eq_true goes
          rw [List.length_append, length_read] at missing
          have small := Nat.mod_lt state.dev.offset pos
          dsimp only
          omega

/-- `alislsto_read` gives the bytes at the positions from the offset on, as far as there are any. -/
theorem alislstoRead_all (dev : Dev geometry) (len : Nat) :
    ∃ offset, dev.alislstoRead len = some ((List.range
      (min len (dev.capacity - dev.position dev.offset))).map (fun i =>
        dev.flash.content (dev.address (dev.position dev.offset + i))), { dev with offset }) ∧
      dev.position offset = dev.position dev.offset +
        min len (dev.capacity - dev.position dev.offset) := by
  rcases readLoop_terminates len dev with ⟨after, ran⟩
  rcases readLoop_fetches ran with ⟨count, fetched, room⟩
  have moved : dev.position after.dev.offset = dev.position dev.offset + count := fetched.moved
  have count_ : count = min len (dev.capacity - dev.position dev.offset) := by
    have most : count ≤ len := fetched.most
    have below : 0 < count → dev.position dev.offset + count ≤ dev.capacity := room
    rcases fetched.complete with all | over_
    · replace all : count = len := all
      omega
    · have beyond : dev.capacity ≤ dev.position after.dev.offset :=
        Blocks.capacity_le_logical geometry.erase_pos over_
      omega
  have bytes := fetched.bytes
  rw [List.nil_append] at bytes
  refine ⟨after.dev.offset, ?_, ?_⟩
  · rw [Dev.alislstoRead, ran, Option.map_some, bytes, fetched.dev, ← count_]
  · rw [← count_]
    exact moved

theorem alislstoRead_spec (dev : Dev geometry) (len : Nat)
    (room : len = 0 ∨ dev.position dev.offset + len ≤ dev.capacity) :
    ∃ offset, dev.alislstoRead len = some ((List.range len).map (fun i =>
      dev.flash.content (dev.address (dev.position dev.offset + i))), { dev with offset }) ∧
      dev.position offset = dev.position dev.offset + len := by
  have whole : min len (dev.capacity - dev.position dev.offset) = len := by omega
  have read := alislstoRead_all dev len
  rwa [whole] at read

end

end Alisl.Storage.Nand
