import Alisl.Storage.Erase
import Alisl.Storage.LogicalFile
import Alisl.Upgrade.Writter

/-! What a run of the flash writer leaves in the partitions: the storage calls it made, carried out on
the flash of each partition. No erase fails here; blocks may be bad from the start. The partition
`sflash` is a NOR flash, which has no bad blocks. -/

namespace Alisl.Upgrade.Burn

open Alisl.Base
open Alisl.Storage.Nand hiding Call
open Alisl.Upgrade.Writter (patchBootParam patchBootParam_length isBoot)

/-! ### The partitions -/

/-- The mtd device of a partition, and how often it is open. -/
structure Partition where
  geometry : EraseGeometry
  dev : Dev geometry.toGeometry
  openCnt : Nat

abbrev Partitions := String → Option Partition

namespace Partition

/-- `alislsto_mtd_open`: an open device is shared. -/
def mtdOpen (part : Partition) : Partition :=
  if part.openCnt = 0 then
    { part with dev := Dev.opened part.geometry.toGeometry part.dev.flash .block, openCnt := 1 }
  else { part with openCnt := part.openCnt + 1 }

/-- `alislsto_mtd_close`. -/
def mtdClose (part : Partition) : Partition := { part with openCnt := part.openCnt - 1 }

def lseek (part : Partition) (offset : Nat) : Partition :=
  { part with dev := (part.dev.alislstoLseek (BitVec.ofNat 32 offset) .seekSet).2 }

def read (part : Partition) (len : Nat) : Option (List Byte × Partition) :=
  (part.dev.alislstoRead len).map (fun result => (result.1, { part with dev := result.2 }))

def erase (part : Partition) (start len : Nat) : Option Partition :=
  (part.dev.alislstoErase sure.toErasure start len).map (fun state => { part with dev := state.dev })

def write (part : Partition) (data : List Byte) : Option Partition :=
  (part.dev.alislstoWrite sure.toErasure data).map (fun result => { part with dev := result.2 })

end Partition

/-- A call on the partition of a handle; the functions refuse the handle NULL. -/
def onHandle (parts : Partitions) (handle : Option String) (act : Partition → Option Partition) :
    Option Partitions :=
  match handle with
  | none => some parts
  | some partName =>
      match parts partName with
      | none => some parts
      | some part => (act part).map (fun after => Function.update parts partName (some after))

def perform (parts : Partitions) : StoCall → Option Partitions
  | .mtdOpenByName partName => onHandle parts (some partName) (fun part => some part.mtdOpen)
  | .lseek handle offset => onHandle parts handle (fun part => some (part.lseek offset))
  | .read handle len => onHandle parts handle (fun part => (part.read len).map Prod.snd)
  | .erase handle offset len => onHandle parts handle (fun part => part.erase offset len)
  | .write handle data => onHandle parts handle (fun part => part.write data)
  | .mtdClose handle => onHandle parts handle (fun part => some part.mtdClose)

def performAll : Partitions → List StoCall → Option Partitions
  | parts, [] => some parts
  | parts, call :: calls => (perform parts call).bind (fun parts => performAll parts calls)

theorem performAll_append (parts : Partitions) (front back : List StoCall) :
    performAll parts (front ++ back) =
      (performAll parts front).bind (fun parts => performAll parts back) := by
  induction front generalizing parts with
  | nil => rfl
  | cons call front ih =>
      rw [List.cons_append, performAll, performAll, Option.bind_assoc]
      congr 1
      funext parts
      exact ih parts

theorem onHandle_some {parts : Partitions} {partName : String} {part after : Partition}
    {act : Partition → Option Partition} (there : parts partName = some part)
    (acted : act part = some after) :
    onHandle parts (some partName) act = some (Function.update parts partName (some after)) := by
  rw [onHandle]
  simp only [there, acted, Option.map_some]

/-! ### The calls of a run -/

abbrev HandedTurn := WritterEnv × Chunk

/-- The calls between two elements. -/
def opening (env : WritterEnv) (elem : Elem) : List StoCall :=
  .mtdOpenByName elem.partName ::
    (if isBoot elem.partName then
      [.lseek (some elem.partName) (scsHashLevel1Len + scsSigLen),
        .read (some elem.partName) bootParamTotalSize, .lseek (some elem.partName) 0]
    else []) ++
    [.erase (some elem.partName) 0
        (if elem.partName = sflashName then elem.imgSize else env.partSize),
      .lseek (some elem.partName) 0]

/-- The first data of an element as it is written. -/
def firstData (turn : HandedTurn) : List Byte :=
  if isBoot turn.2.elem.partName then patchBootParam turn.1.bootParam turn.2.data else turn.2.data

def turnCalls (elemOld : Option Nat) (turn : HandedTurn) : List StoCall :=
  if elemOld = some turn.2.elem.addr then [.write (some turn.2.elem.partName) turn.2.data]
  else opening turn.1 turn.2.elem ++ [.write (some turn.2.elem.partName) (firstData turn)]

def runCalls : Option Nat → List HandedTurn → List StoCall
  | _, [] => []
  | elemOld, turn :: turns => turnCalls elemOld turn ++ runCalls (some turn.2.elem.addr) turns

/-- The first piece for a boot partition holds its boot parameters whole. -/
def Whole : Option Nat → List HandedTurn → Prop
  | _, [] => True
  | elemOld, turn :: turns =>
      (elemOld ≠ some turn.2.elem.addr → isBoot turn.2.elem.partName →
        scsHashLevel1Len + scsSigLen + bootParamTotalSize ≤ turn.2.data.length) ∧
      Whole (some turn.2.elem.addr) turns

/-- Every chunk was taken. -/
def Taken : Outcome → Prop
  | .polling _ => True
  | .left _ pending => pending = []
  | .fault _ => False

/-- Every chunk was taken, and without an error. -/
structure Clean (outcome : Outcome) : Prop where
  quiet : outcome.writter.error = .none
  taken : Taken outcome

section Loop

open Writter hiding write

/-- What the element that was written last means for the handle. -/
def Follows (writter : Writter) (elem : Elem) : Prop :=
  writter.elemOld = some elem.addr → writter.mtdHandle = some elem.partName

theorem prepare_calls (env : WritterEnv) (chunk : Chunk) (writter : Writter)
    (follows : Follows writter chunk.elem) (quiet : (prepare env chunk writter).1.error = .none) :
    (Writter.write (prepare env chunk writter).2 (prepare env chunk writter).1).calls =
        writter.calls ++ turnCalls writter.elemOld (env, chunk) ∧
      (prepare env chunk writter).1.elemOld = some chunk.elem.addr ∧
      (prepare env chunk writter).1.mtdHandle = some chunk.elem.partName := by
  have silent := prepare_error env chunk writter quiet
  rw [turnCalls]
  unfold prepare at quiet ⊢
  by_cases same : writter.elemOld = some chunk.elem.addr
  · simp [same, Writter.write, call, follows same]
  · simp only [if_neg same] at quiet ⊢
    by_cases opened : env.opened
    · by_cases boot : isBoot chunk.elem.partName
      · by_cases room : chunk.data.length < scsHashLevel1Len + scsSigLen + bootParamTotalSize
        · simp [opened, boot, room, backupBootParam, call] at quiet
        · by_cases allocated : env.allocated
          · simp [opened, boot, room, allocated, backupBootParam, call, silent, erasePart,
              Writter.write, opening, firstData]
          · simp [opened, boot, room, allocated, backupBootParam, call] at quiet
      · simp [opened, boot, call, silent, erasePart, Writter.write, opening, firstData]
    · simp [opened, call] at quiet

theorem prepare_whole (env : WritterEnv) (chunk : Chunk) (writter : Writter)
    (quiet : (prepare env chunk writter).1.error = .none)
    (other : writter.elemOld ≠ some chunk.elem.addr) (boot : isBoot chunk.elem.partName) :
    scsHashLevel1Len + scsSigLen + bootParamTotalSize ≤ chunk.data.length := by
  by_contra short
  unfold prepare at quiet
  by_cases opened : env.opened
  · simp [other, opened, boot, Nat.lt_of_not_le short, backupBootParam, call] at quiet
  · simp [other, opened, call] at quiet

theorem settle_place (progressScale : Int) (percent : Nat) (late : UpgErr) (writter : Writter) :
    (settle progressScale percent late writter).elemOld = writter.elemOld ∧
      (settle progressScale percent late writter).mtdHandle = writter.mtdHandle := by
  unfold settle report raise
  by_cases same : late = .none
  · simp only [same, if_true]
    split <;> simp [signal]
  · simp only [same, if_false]
    split <;> simp [signal]

/-- One turn of a run that ends without an error. -/
theorem turn_taken (progressScale : Int) (total : Nat) (turn : HandedTurn) (rest : List HandedTurn)
    (writter : Writter) (follows : Follows writter turn.2.elem)
    (quiet : (upgradeWritterLoop progressScale total (turn :: rest) writter).writter.error = .none)
    (taken : Taken (upgradeWritterLoop progressScale total (turn :: rest) writter)) :
    ∃ after : Writter, after.calls = writter.calls ++ turnCalls writter.elemOld turn ∧
      after.elemOld = some turn.2.elem.addr ∧ after.mtdHandle = some turn.2.elem.partName ∧
      (writter.elemOld ≠ some turn.2.elem.addr → isBoot turn.2.elem.partName →
        scsHashLevel1Len + scsSigLen + bootParamTotalSize ≤ turn.2.data.length) ∧
      (upgradeWritterLoop progressScale total (turn :: rest) writter =
          .left after.finish (rest.map Prod.snd) ∨
        upgradeWritterLoop progressScale total (turn :: rest) writter =
          upgradeWritterLoop progressScale total rest after) := by
  obtain ⟨env, chunk⟩ := turn
  have loop := upgradeWritterLoop.eq_2 progressScale total writter env chunk rest
  have refused {stopped : Writter} {pending : List Chunk} (loud : stopped.error ≠ .none)
      (left_ : upgradeWritterLoop progressScale total ((env, chunk) :: rest) writter =
        .left stopped.signal.finish pending) : False := by
    rw [left_] at quiet
    exact loud quiet
  by_cases top : (writter.raise env.raised).error = .none
  · rw [raise_none writter env.raised top] at loop top
    simp only [top, ne_eq, not_true_eq_false, if_false] at loop
    by_cases ready : (prepare env chunk writter).1.error = .none
    · obtain ⟨calls, old, handle⟩ := prepare_calls env chunk writter follows ready
      simp only [ready, not_true_eq_false, if_false] at loop
      cases percentage : progress total
          (Writter.write (prepare env chunk writter).2 (prepare env chunk writter).1).totalwrite with
      | none =>
          rw [percentage] at loop
          rw [loop] at taken
          cases taken
      | some percent =>
          rw [percentage] at loop
          obtain ⟨after, same⟩ : ∃ after, settle progressScale percent env.raisedLate
              (Writter.write (prepare env chunk writter).2 (prepare env chunk writter).1) = after :=
            ⟨_, rfl⟩
          have frame := settle_frame progressScale percent env.raisedLate
            (Writter.write (prepare env chunk writter).2 (prepare env chunk writter).1)
          have place := settle_place progressScale percent env.raisedLate
            (Writter.write (prepare env chunk writter).2 (prepare env chunk writter).1)
          rw [same] at frame place
          simp only [same] at loop
          refine ⟨after, frame.2.2.2.trans calls, place.1.trans old, place.2.trans handle,
            prepare_whole env chunk writter ready, ?_⟩
          by_cases ends : after.descPercent = 100 ∨ ¬ after.error = .none
          · rw [if_pos ends] at loop
            exact .inl loop
          · rw [if_neg ends] at loop
            exact .inr loop
    · simp only [ready, not_false_eq_true, if_true] at loop
      exact absurd loop (refused ready)
  · simp only [top, ne_eq, not_false_eq_true, if_true] at loop
    exact absurd loop (refused top)

theorem loop_calls (progressScale : Int) (total : Nat) (turns : List HandedTurn) (writter : Writter)
    (follows : ∀ turn ∈ turns, Follows writter turn.2.elem)
    (alike : ∀ one ∈ turns, ∀ other ∈ turns, one.2.elem.addr = other.2.elem.addr →
      one.2.elem.partName = other.2.elem.partName)
    (quiet : (upgradeWritterLoop progressScale total turns writter).writter.error = .none)
    (taken : Taken (upgradeWritterLoop progressScale total turns writter)) :
    ∃ closing, (upgradeWritterLoop progressScale total turns writter).writter.calls =
        writter.calls ++ runCalls writter.elemOld turns ++ closing ∧
      (closing = [] ∨ ∃ turn ∈ turns, closing = [.mtdClose (some turn.2.elem.partName)]) ∧
      Whole writter.elemOld turns := by
  induction turns generalizing writter with
  | nil =>
      refine ⟨[], ?_, .inl rfl, trivial⟩
      rw [upgradeWritterLoop, runCalls, List.append_nil, List.append_nil]
      rfl
  | cons turn rest ih =>
      obtain ⟨after, calls, old, handle, whole, goes⟩ :=
        turn_taken progressScale total turn rest writter (follows turn List.mem_cons_self) quiet taken
      rcases goes with stopped | onward
      · rw [stopped] at taken ⊢
        have none_ : rest = [] := List.map_eq_nil_iff.mp taken
        refine ⟨[.mtdClose (some turn.2.elem.partName)], ?_, .inr ⟨turn, List.mem_cons_self, rfl⟩,
          whole, ?_⟩
        · rw [none_, runCalls, runCalls, List.append_nil, ← calls, ← handle]
          rfl
        · rw [none_, Whole]
          trivial
      · rw [onward] at quiet taken ⊢
        have further : ∀ next ∈ rest, Follows after next.2.elem := by
          intro next member same
          rw [handle]
          congr 1
          apply alike turn List.mem_cons_self next (List.mem_cons_of_mem _ member)
          exact Option.some.inj (old.symm.trans same)
        obtain ⟨closing, all, closes, more⟩ := ih after further
          (fun one member other inside => alike one (List.mem_cons_of_mem _ member) other
            (List.mem_cons_of_mem _ inside)) quiet taken
        refine ⟨closing, ?_, ?_, whole, ?_⟩
        · rw [all, calls, old, runCalls, List.append_assoc writter.calls]
        · rcases closes with none_ | ⟨last, member, same⟩
          · exact .inl none_
          · exact .inr ⟨last, List.mem_cons_of_mem _ member, same⟩
        · rw [← old]
          exact more

end Loop

/-! ### One partition -/

section Device

variable {geometry : EraseGeometry} {dev : Dev geometry.toGeometry}

/-- Erasing takes no block into the table when no erase fails. -/
theorem eraseLoop_sure {addrLogic length eraseNum fuel : Nat}
    {state after : Erasing geometry.toGeometry}
    (ran : (eraseLoop sure.toErasure addrLogic length eraseNum geometry.eraseSize).run fuel state =
      some after) : ∀ block, state.eraseStart = block * geometry.eraseSize → Sound state.dev →
        Sound after.dev ∧ after.dev.flash.bad = state.dev.flash.bad := by
  refine DoWhile.ends (fun state after : Erasing geometry.toGeometry =>
    ∀ block, state.eraseStart = block * geometry.eraseSize → Sound state.dev →
      Sound after.dev ∧ after.dev.flash.bad = state.dev.flash.bad) ?leave ?last ?next ran
  case leave =>
      intro state after turned block start sound
      have turn := eraseTurn sure.toErasure addrLogic length eraseNum start
      rw [turned] at turn
      cases turn with
      | done all => exact ⟨sound, rfl⟩
      | whole more beyond device => exact ⟨sound, rfl⟩
      | over_ more beyond device => exact ⟨sound, rfl⟩
  case last =>
      intro state after turned done
      cases done
  case next =>
      intro state middle after turned _ rest block start sound
      have turn := eraseTurn sure.toErasure addrLogic length eraseNum start
      rw [turned] at turn
      cases turn with
      | skip more inside bad => exact rest (block + 1) rfl sound
      | fail more inside good fails marked updated => cases fails
      | erase more inside good works => exact rest (block + 1) rfl (sound.rewritten _ rfl)

theorem erase_sure (sound : Sound dev) (length : Nat) :
    ∃ state, dev.alislstoErase sure.toErasure 0 length = some state ∧ Sound state.dev ∧
      state.dev.flash.bad = dev.flash.bad := by
  rw [Dev.alislstoErase]
  by_cases unaligned : 0 % geometry.eraseSize ≠ 0 ∨ length % geometry.eraseSize ≠ 0
  · exact ⟨_, if_pos unaligned, sound, rfl⟩
  · have unit : dev.unitSize = geometry.eraseSize := by rw [Dev.unitSize, sound.block]
    have start : (0 : Nat) = 0 * geometry.eraseSize := (Nat.zero_mul _).symm
    rw [if_neg unaligned, sound.records.getLogicAddr (Nat.zero_le _)]
    simp only [unit]
    obtain ⟨state, ran⟩ := eraseLoop_terminates sure.toErasure (dev.position 0) length
      (length / geometry.eraseSize) 0 ⟨dev, 0, 0, [], .none⟩ start
    exact ⟨state, ran, eraseLoop_sure ran 0 start sound⟩

/-- The file begins with the bytes, and the handle stands behind them. -/
structure Burning (dev : Dev geometry.toGeometry) (bytes : List Byte) : Prop where
  rested : Rested dev
  pos : dev.flat.pos = bytes.length
  written : dev.flat.file.take bytes.length = bytes

theorem lseek_to {geometry : Geometry} {dev : Dev geometry} {offset : BitVec 32} {whence : Whence}
    {place : Nat} (addr : seekAddr geometry.size dev.offset offset whence = some place) :
    (dev.alislstoLseek offset whence).2 = { dev with offset := place } := by
  rw [Dev.alislstoLseek, addr]

theorem burning_start (sound : Sound dev) (some_ : 0 < dev.capacity) :
    Burning (dev.alislstoLseek (BitVec.ofNat 32 0) .seekSet).2 [] := by
  have size : 0 < geometry.size := Nat.lt_of_lt_of_le some_ (capacity_le dev)
  have addr : seekAddr geometry.size dev.offset (BitVec.ofNat 32 0) .seekSet = some 0 := by
    rw [seekAddr, if_neg (by simpa using Nat.ne_of_gt size), if_pos (by decide)]
    rfl
  rw [lseek_to addr]
  refine ⟨⟨sound.moved 0, Nat.zero_le _, fun _ => Nat.zero_mod _⟩, ?_, List.take_zero⟩
  show Blocks.logical geometry.eraseSize dev.flash.Good 0 = 0
  rw [Blocks.logical, Nat.zero_div, Nat.count_zero, Nat.zero_mul, Nat.zero_mod]

theorem Burning.write {bytes : List Byte} (burning : Burning dev bytes) (data : List Byte)
    (room : bytes.length + data.length ≤ dev.capacity) :
    ∃ count after, dev.alislstoWrite sure.toErasure data = some (count, after) ∧
      Burning after (bytes ++ data) ∧ after.flash.bad = dev.flash.bad := by
  have fits : dev.flat.pos + data.length ≤ dev.flat.file.length := by
    rw [burning.pos, length_flat]
    exact room
  have moved : dev.flat.step (.write data) = some (.count data.length,
      ⟨overlay dev.flat.file dev.flat.pos data, dev.flat.pos + data.length⟩) := by
    rw [Flat.step, if_pos fits]
  obtain ⟨after, performed, refines⟩ := burning.rested.write moved
  obtain ⟨⟨count, last⟩, wrote, same⟩ := Option.map_eq_some_iff.mp performed
  cases same
  refine ⟨data.length, last, wrote, ⟨refines.rested, ?_, ?_⟩, refines.spares.bad⟩
  · rw [refines.flat, List.length_append, burning.pos]
  · rw [refines.flat, List.length_append, overlay, burning.pos, burning.written, ← List.length_append]
    exact List.take_left

theorem Burning.room {bytes : List Byte} (burning : Burning dev bytes) :
    bytes.length ≤ dev.capacity := by
  have length := congrArg List.length burning.written
  rw [List.length_take, length_flat] at length
  omega

/-- What was burnt is read back by whoever opens the partition. -/
theorem Burning.read {bytes : List Byte} (burning : Burning dev bytes) :
    ∃ final, (Dev.opened geometry.toGeometry dev.flash .block).alislstoRead bytes.length =
      some (bytes, final) := by
  have room := burning.room
  have start : (Dev.opened geometry.toGeometry dev.flash .block).position 0 = 0 := by
    rw [Dev.position, Blocks.logical, Nat.zero_div, Nat.count_zero, Nat.zero_mul, Nat.zero_mod]
  obtain ⟨offset, read, _⟩ := alislstoRead_spec (Dev.opened geometry.toGeometry dev.flash .block)
    bytes.length (.inr (by
      show Dev.position _ 0 + _ ≤ dev.capacity
      rw [start, Nat.zero_add]
      exact room))
  have part := file_part dev (show 0 + bytes.length ≤ dev.capacity by omega)
  rw [List.drop_zero, burning.written] at part
  have same : (List.range bytes.length).map (fun i => dev.flash.content
      ((Dev.opened geometry.toGeometry dev.flash .block).address
        ((Dev.opened geometry.toGeometry dev.flash .block).position 0 + i))) = bytes := by
    rw [start]
    exact part.symm
  exact ⟨_, read.trans (congrArg (fun data => some (data, _)) same)⟩

end Device

/-! ### Whole images -/

/-- An element and the pieces its image is handed over in. -/
structure Image where
  elem : Elem
  env : WritterEnv
  first : List Byte
  rest : List (WritterEnv × List Byte)

namespace Image

def firstTurn (image : Image) : HandedTurn := (image.env, ⟨image.elem, image.first⟩)

def turns (image : Image) : List HandedTurn :=
  image.firstTurn :: image.rest.map (fun part => (part.1, ⟨image.elem, part.2⟩))

/-- The image as it is written. -/
def bytes (image : Image) : List Byte :=
  firstData image.firstTurn ++ image.rest.flatMap Prod.snd

def calls (image : Image) : List StoCall :=
  opening image.env image.elem ++ .write (some image.elem.partName) (firstData image.firstTurn) ::
    image.rest.map (fun part => .write (some image.elem.partName) part.2)

end Image

theorem runCalls_same (elem : Elem) (rest : List (WritterEnv × List Byte)) (more : List HandedTurn) :
    runCalls (some elem.addr) (rest.map (fun part => (part.1, ⟨elem, part.2⟩)) ++ more) =
      rest.map (fun part => .write (some elem.partName) part.2) ++ runCalls (some elem.addr) more := by
  induction rest with
  | nil => rfl
  | cons part rest ih =>
      rw [List.map_cons, List.cons_append, runCalls, turnCalls, if_pos rfl, ih]
      rfl

/-- Without repetitions the rest of a list is apart from its head. -/
theorem apart_head {Item Key : Type} {key : Item → Key} {head : Item} {tail : List Item}
    (nodup : ((head :: tail).map key).Nodup) : ∀ next ∈ tail, key next ≠ key head := by
  intro next member same
  rw [List.map_cons, List.nodup_cons] at nodup
  apply nodup.1
  rw [← same]
  exact List.mem_map_of_mem member

/-- After an image its element is the old one, and the images behind it are for others. -/
theorem fresh_tail {image : Image} {images : List Image}
    (addrs : ((image :: images).map (fun image => image.elem.addr)).Nodup) :
    ∀ next ∈ images, some image.elem.addr ≠ some next.elem.addr := by
  intro next member same
  exact apart_head addrs next member (Option.some.inj same).symm

theorem runCalls_images (images : List Image) (elemOld : Option Nat)
    (fresh : ∀ image ∈ images, elemOld ≠ some image.elem.addr)
    (addrs : (images.map (fun image => image.elem.addr)).Nodup) :
    runCalls elemOld (images.flatMap Image.turns) = images.flatMap Image.calls := by
  induction images generalizing elemOld with
  | nil => rfl
  | cons image images ih =>
      rw [List.forall_mem_cons] at fresh
      have later := fresh_tail addrs
      rw [List.map_cons, List.nodup_cons] at addrs
      have own : turnCalls elemOld image.firstTurn = opening image.env image.elem ++
          [.write (some image.elem.partName) (firstData image.firstTurn)] := if_neg fresh.1
      rw [List.flatMap_cons, List.flatMap_cons, Image.turns, List.cons_append, runCalls, own]
      show _ ++ runCalls (some image.elem.addr) _ = _
      rw [runCalls_same, ih _ later addrs.2, Image.calls, List.append_assoc, List.append_assoc]
      rfl

theorem whole_same (elem : Elem) (rest : List (WritterEnv × List Byte)) (more : List HandedTurn) :
    Whole (some elem.addr) (rest.map (fun part => (part.1, ⟨elem, part.2⟩)) ++ more) →
      Whole (some elem.addr) more := by
  induction rest with
  | nil => exact id
  | cons part rest ih =>
      intro whole
      rw [List.map_cons, List.cons_append, Whole] at whole
      exact ih whole.2

theorem whole_images (images : List Image) (elemOld : Option Nat)
    (fresh : ∀ image ∈ images, elemOld ≠ some image.elem.addr)
    (addrs : (images.map (fun image => image.elem.addr)).Nodup)
    (whole : Whole elemOld (images.flatMap Image.turns)) :
    ∀ image ∈ images, isBoot image.elem.partName →
      scsHashLevel1Len + scsSigLen + bootParamTotalSize ≤ image.first.length := by
  induction images generalizing elemOld with
  | nil => exact List.forall_mem_nil _
  | cons image images ih =>
      rw [List.forall_mem_cons] at fresh ⊢
      have later := fresh_tail addrs
      rw [List.map_cons, List.nodup_cons] at addrs
      rw [List.flatMap_cons, Image.turns, List.cons_append, Whole] at whole
      refine ⟨whole.1 fresh.1, ih _ later addrs.2 ?_⟩
      exact whole_same image.elem image.rest _ whole.2

section Perform

variable {parts : Partitions} {partName : String}

theorem onHandle_update {part after : Partition} {act : Partition → Option Partition}
    (acted : act part = some after) :
    onHandle (Function.update parts partName (some part)) (some partName) act =
      some (Function.update parts partName (some after)) := by
  rw [onHandle_some (Function.update_self ..) acted, Function.update_idem]

/-- Writing on, piece by piece. -/
theorem performAll_writes {geometry : EraseGeometry} {dev : Dev geometry.toGeometry} (openCnt : Nat)
    {bytes : List Byte} (burning : Burning dev bytes) (datas : List (List Byte))
    (room : bytes.length + datas.flatten.length ≤ dev.capacity) :
    ∃ after : Dev geometry.toGeometry,
      performAll (Function.update parts partName (some ⟨geometry, dev, openCnt⟩))
          (datas.map (StoCall.write (some partName))) =
        some (Function.update parts partName (some ⟨geometry, after, openCnt⟩)) ∧
      Burning after (bytes ++ datas.flatten) := by
  induction datas generalizing dev bytes with
  | nil =>
      refine ⟨dev, rfl, ?_⟩
      rw [List.flatten_nil, List.append_nil]
      exact burning
  | cons data datas ih =>
      rw [List.flatten_cons, List.length_append] at room
      obtain ⟨count, middle, wrote, burnt, bad⟩ := burning.write data (by omega)
      obtain ⟨after, performed, done⟩ := ih burnt (by
        rw [List.length_append, capacity_same bad]
        omega)
      refine ⟨after, ?_, ?_⟩
      · have acted : Partition.write ⟨geometry, dev, openCnt⟩ data =
            some ⟨geometry, middle, openCnt⟩ := by
          rw [Partition.write, wrote, Option.map_some]
        rw [List.map_cons, performAll, perform, onHandle_update acted, Option.bind_some]
        exact performed
      · rw [List.flatten_cons, ← List.append_assoc]
        exact done

/-- A seek changes the offset alone. -/
theorem onHandle_lseek {geometry : EraseGeometry} (dev : Dev geometry.toGeometry) (openCnt offset : Nat) :
    perform (Function.update parts partName (some ⟨geometry, dev, openCnt⟩))
        (.lseek (some partName) offset) =
      some (Function.update parts partName
        (some ⟨geometry, (dev.alislstoLseek (BitVec.ofNat 32 offset) .seekSet).2, openCnt⟩)) :=
  onHandle_update rfl

theorem lseek_flash {geometry : Geometry} (dev : Dev geometry) (offset : BitVec 32) (whence : Whence) :
    (dev.alislstoLseek offset whence).2.flash = dev.flash := by
  rw [Dev.alislstoLseek]
  split
  · rfl
  · rfl

/-- Reading the boot parameters leaves the flash alone. -/
theorem performAll_backup {geometry : EraseGeometry} {dev : Dev geometry.toGeometry} (openCnt : Nat)
    (sound : Sound dev) (front len : Nat) :
    ∃ after : Dev geometry.toGeometry,
      performAll (Function.update parts partName (some ⟨geometry, dev, openCnt⟩))
          [.lseek (some partName) front, .read (some partName) len, .lseek (some partName) 0] =
        some (Function.update parts partName (some ⟨geometry, after, openCnt⟩)) ∧
      Sound after ∧ after.flash = dev.flash := by
  have sought := sound.lseek (BitVec.ofNat 32 front) .seekSet
  obtain ⟨offset, read, _⟩ := alislstoRead_all
    (dev.alislstoLseek (BitVec.ofNat 32 front) .seekSet).2 len
  have acted : (Partition.read ⟨geometry, (dev.alislstoLseek (BitVec.ofNat 32 front) .seekSet).2,
      openCnt⟩ len).map Prod.snd = some ⟨geometry,
        { (dev.alislstoLseek (BitVec.ofNat 32 front) .seekSet).2 with offset }, openCnt⟩ := by
    rw [Partition.read, read]
    rfl
  refine ⟨_, ?_, (sought.moved offset).lseek (BitVec.ofNat 32 0) .seekSet, ?_⟩
  · rw [performAll, onHandle_lseek, Option.bind_some, performAll, perform, onHandle_update acted,
      Option.bind_some, performAll, onHandle_lseek, Option.bind_some, performAll]
  · rw [lseek_flash]
    exact lseek_flash dev _ _

/-- Behind the opening calls the partition is open, and writing begins at its front. -/
theorem performAll_opening {part : Partition} (there : parts partName = some part)
    (closed : part.openCnt = 0) (some_ : 0 < part.dev.capacity) (env : WritterEnv) {elem : Elem}
    (named : elem.partName = partName) :
    ∃ dev : Dev part.geometry.toGeometry, performAll parts (opening env elem) =
        some (Function.update parts partName (some ⟨part.geometry, dev, 1⟩)) ∧
      Burning dev [] ∧ dev.flash.bad = part.dev.flash.bad := by
  subst named
  have sound := (rested_opened part.geometry.toGeometry part.dev.flash).sound
  have opened : perform parts (.mtdOpenByName elem.partName) = some (Function.update parts
      elem.partName (some ⟨part.geometry, Dev.opened _ part.dev.flash .block, 1⟩)) := by
    apply onHandle_some there
    rw [Partition.mtdOpen, if_pos closed]
  obtain ⟨backed, backup, held, kept⟩ : ∃ backed : Dev part.geometry.toGeometry,
      performAll (Function.update parts elem.partName
          (some ⟨part.geometry, Dev.opened _ part.dev.flash .block, 1⟩))
        (if isBoot elem.partName then
          [.lseek (some elem.partName) (scsHashLevel1Len + scsSigLen),
            .read (some elem.partName) bootParamTotalSize, .lseek (some elem.partName) 0]
        else []) = some (Function.update parts elem.partName
          (some ⟨part.geometry, backed, 1⟩)) ∧ Sound backed ∧ backed.flash = part.dev.flash := by
    by_cases boot : isBoot elem.partName
    · rw [if_pos boot]
      exact performAll_backup 1 sound _ _
    · rw [if_neg boot]
      exact ⟨_, rfl, sound, rfl⟩
  obtain ⟨erased, erase, still, bad⟩ := erase_sure held
    (if elem.partName = sflashName then elem.imgSize else env.partSize)
  have same : erased.dev.flash.bad = part.dev.flash.bad := bad.trans (congrArg Flash.bad kept)
  have acted : Partition.erase ⟨part.geometry, backed, 1⟩ 0
      (if elem.partName = sflashName then elem.imgSize else env.partSize) =
        some ⟨part.geometry, erased.dev, 1⟩ := by
    rw [Partition.erase, erase, Option.map_some]
  have room : 0 < erased.dev.capacity := by
    rw [capacity_same same]
    exact some_
  refine ⟨_, ?_, burning_start still room, ?_⟩
  · rw [opening, performAll_append, performAll, opened, Option.bind_some, backup, Option.bind_some,
      performAll, perform, onHandle_update acted, Option.bind_some, performAll, onHandle_lseek,
      Option.bind_some, performAll]
  · rw [lseek_flash]
    exact same

theorem performAll_image {part : Partition} (image : Image)
    (there : parts image.elem.partName = some part) (closed : part.openCnt = 0)
    (some_ : 0 < part.dev.capacity) (room : image.bytes.length ≤ part.dev.capacity) :
    ∃ dev : Dev part.geometry.toGeometry, performAll parts image.calls =
        some (Function.update parts image.elem.partName (some ⟨part.geometry, dev, 1⟩)) ∧
      Burning dev image.bytes := by
  obtain ⟨dev, opened, burning, bad⟩ := performAll_opening there closed some_ image.env rfl
  have datas : image.bytes = (firstData image.firstTurn :: image.rest.map Prod.snd).flatten := by
    rw [List.flatten_cons, Image.bytes, List.flatMap_def]
  obtain ⟨after, wrote, burnt⟩ := @performAll_writes parts image.elem.partName _ _ 1 _ burning
    (firstData image.firstTurn :: image.rest.map Prod.snd) (by
      rw [← datas, capacity_same bad, List.length_nil, Nat.zero_add]
      exact room)
  rw [List.nil_append, ← datas] at burnt
  refine ⟨after, ?_, burnt⟩
  rw [Image.calls, performAll_append, opened, Option.bind_some]
  rw [List.map_cons, List.map_map] at wrote
  exact wrote

/-- The image stands at the front of its partition. -/
def Burnt (before after : Partitions) (image : Image) : Prop :=
  ∃ part last, before image.elem.partName = some part ∧ after image.elem.partName = some last ∧
    last.geometry = part.geometry ∧ Burning last.dev image.bytes

/-- The images one after the other. -/
theorem performAll_images (images : List Image) (parts : Partitions)
    (names : (images.map (fun image => image.elem.partName)).Nodup)
    (room : ∀ image ∈ images, ∃ part, parts image.elem.partName = some part ∧ part.openCnt = 0 ∧
      0 < part.dev.capacity ∧ image.bytes.length ≤ part.dev.capacity) :
    ∃ after, performAll parts (images.flatMap Image.calls) = some after ∧
      (∀ image ∈ images, Burnt parts after image) ∧
      ∀ name, (∀ image ∈ images, image.elem.partName ≠ name) → after name = parts name := by
  induction images generalizing parts with
  | nil => exact ⟨parts, rfl, List.forall_mem_nil _, fun _ _ => rfl⟩
  | cons image images ih =>
      rw [List.forall_mem_cons] at room
      have apart := apart_head names
      rw [List.map_cons, List.nodup_cons] at names
      obtain ⟨part, there, closed, some_, fits⟩ := room.1
      obtain ⟨dev, performed, burnt⟩ := performAll_image image there closed some_ fits
      obtain ⟨after, rest, burns, others⟩ := ih
        (Function.update parts image.elem.partName (some ⟨part.geometry, dev, 1⟩)) names.2 (by
          intro next member
          rw [Function.update_of_ne (apart next member)]
          exact room.2 next member)
      refine ⟨after, ?_, ?_, ?_⟩
      · rw [List.flatMap_cons, performAll_append, performed, Option.bind_some, rest]
      · rw [List.forall_mem_cons]
        refine ⟨⟨part, ⟨part.geometry, dev, 1⟩, there, ?_, rfl, burnt⟩, ?_⟩
        · rw [others _ apart, Function.update_self]
        · intro next member
          obtain ⟨before, last, known, rest⟩ := burns next member
          rw [Function.update_of_ne (apart next member)] at known
          exact ⟨before, last, known, rest⟩
      · intro name none_
        rw [List.forall_mem_cons] at none_
        rw [others name none_.2, Function.update_of_ne (Ne.symm none_.1)]

end Perform

/-! ### The boot parameters -/

/-- The boot parameters that whoever opens the partition reads. -/
def Partition.bootParam (part : Partition) : Option (List Byte) :=
  (((Dev.opened part.geometry.toGeometry part.dev.flash .block).alislstoLseek
    (BitVec.ofNat 32 (scsHashLevel1Len + scsSigLen)) .seekSet).2.alislstoRead
      bootParamTotalSize).map Prod.fst

theorem firstData_length (turn : HandedTurn) : (firstData turn).length = turn.2.data.length := by
  rw [firstData]
  split
  · exact patchBootParam_length _ _
  · rfl

/-- Reading behind the front of the first good block. -/
theorem read_behind {geometry : Geometry} (dev : Dev geometry) {front len : Nat}
    (wide : front < geometry.eraseSize) (narrow : front < 2 ^ 31) (some_ : 0 < len)
    (room : front + len ≤ dev.capacity) :
    (((Dev.opened geometry dev.flash .block).alislstoLseek (BitVec.ofNat 32 front)
        .seekSet).2.alislstoRead len).map Prod.fst =
      some ((dev.flat.file.drop front).take len) := by
  have sized := capacity_le dev
  have low : (BitVec.ofNat 32 front).toNat = front := by
    rw [BitVec.toNat_ofNat]
    omega
  have signed : 0 ≤ (BitVec.ofNat 32 front).toInt := by
    rw [BitVec.toInt_eq_toNat_cond, low]
    omega
  have addr (current : Nat) :
      seekAddr geometry.size current (BitVec.ofNat 32 front) .seekSet = some front := by
    rw [seekAddr, low, if_neg (by omega), if_pos signed]
  have first (dev : Dev geometry) : dev.position front = front := by
    rw [Dev.position, Blocks.logical, Nat.div_eq_of_lt wide, Nat.mod_eq_of_lt wide, Nat.count_zero,
      Nat.zero_mul, Nat.zero_add]
  obtain ⟨offset, read, _⟩ := alislstoRead_spec
    ({ Dev.opened geometry dev.flash .block with offset := front } : Dev geometry) len (.inr (by
      rw [first]
      exact room))
  rw [first] at read
  rw [lseek_to (addr _), read, file_part dev room]
  rfl

/-- They lie behind the hash and the signature, in the first good block. -/
theorem bootParam_file {part : Partition}
    (wide : scsHashLevel1Len + scsSigLen < part.geometry.eraseSize)
    (room : scsHashLevel1Len + scsSigLen + bootParamTotalSize ≤ part.dev.capacity) :
    part.bootParam = some ((part.dev.flat.file.drop (scsHashLevel1Len + scsSigLen)).take
      bootParamTotalSize) :=
  read_behind part.dev wide (by decide) (by decide) room

theorem Burning.bootParam {part : Partition} {bytes : List Byte} (burning : Burning part.dev bytes)
    (wide : scsHashLevel1Len + scsSigLen < part.geometry.eraseSize)
    (long : scsHashLevel1Len + scsSigLen + bootParamTotalSize ≤ bytes.length) :
    part.bootParam = some ((bytes.drop (scsHashLevel1Len + scsSigLen)).take bootParamTotalSize) := by
  have room : bytes.length ≤ part.dev.capacity := burning.room
  rw [bootParam_file wide (long.trans room), ← congrArg (List.drop _) burning.written,
    List.drop_take, List.take_take, Nat.min_eq_left (by omega)]

/-- The patch puts the parameters where they are read. -/
theorem bootParam_patched {turn : HandedTurn} (boot : isBoot turn.2.elem.partName)
    (long : scsHashLevel1Len + scsSigLen + bootParamTotalSize ≤ turn.2.data.length)
    (rest : List Byte) :
    ((firstData turn ++ rest).drop (scsHashLevel1Len + scsSigLen)).take bootParamTotalSize =
      (List.range bootParamTotalSize).map turn.1.bootParam := by
  rw [firstData, if_pos boot]
  apply List.ext_getElem?
  intro i
  by_cases less : i < bootParamTotalSize
  · rw [List.getElem?_take_of_lt less, List.getElem?_drop, List.getElem?_append_left (by
      rw [patchBootParam_length]
      omega), List.getElem?_map, List.getElem?_range less, patchBootParam, List.getElem?_mapIdx,
      List.getElem?_eq_getElem (by omega), Option.map_some, Option.map_some,
      if_pos ⟨Nat.le_add_right _ _, by omega⟩, Nat.add_sub_cancel_left]
  · rw [List.getElem?_eq_none (by
      rw [List.length_take]
      omega), List.getElem?_eq_none (by
      rw [List.length_map, List.length_range]
      omega)]

/-! ### The run -/

/-- Only the count of a partition changes when it is closed. -/
theorem performAll_closing {parts : Partitions} {partName : String} {part : Partition}
    (there : parts partName = some part) :
    performAll parts [.mtdClose (some partName)] =
      some (Function.update parts partName (some part.mtdClose)) := by
  have acted : (fun part : Partition => some part.mtdClose) part = some part.mtdClose := rfl
  rw [performAll, perform, onHandle_some there acted, Option.bind_some, performAll]

theorem mem_turns {image : Image} {turn : HandedTurn} (member : turn ∈ image.turns) :
    turn.2.elem = image.elem := by
  rw [Image.turns, List.mem_cons, List.mem_map] at member
  rcases member with first | ⟨part, _, later⟩
  · rw [first]
    rfl
  · rw [← later]

/-- The last call closes a partition that was written, or there is none. -/
theorem closing_keeps {images : List Image} {before parts : Partitions} {closing : List StoCall}
    (burns : ∀ image ∈ images, Burnt before parts image)
    (closes : closing = [] ∨ ∃ turn ∈ images.flatMap Image.turns,
      closing = [.mtdClose (some turn.2.elem.partName)]) :
    ∃ after, performAll parts closing = some after ∧
      (∀ image ∈ images, Burnt before after image) ∧
      ∀ name, (∀ image ∈ images, image.elem.partName ≠ name) → after name = parts name := by
  rcases closes with none_ | ⟨turn, member, closed⟩
  · rw [none_]
    exact ⟨parts, rfl, burns, fun _ _ => rfl⟩
  · obtain ⟨last, inside, own⟩ := List.mem_flatMap.mp member
    obtain ⟨_, part, _, named, _⟩ := burns last inside
    rw [← mem_turns own] at named
    refine ⟨_, (congrArg (performAll parts) closed).trans (performAll_closing named), ?_, ?_⟩
    · intro image among
      by_cases same : image.elem.partName = turn.2.elem.partName
      · obtain ⟨first, other, known, there, geometry, burning⟩ := burns image among
        have shared : other = part := Option.some.inj (there.symm.trans (same ▸ named))
        subst shared
        refine ⟨first, other.mtdClose, known, ?_, geometry, burning⟩
        rw [same, Function.update_self]
      · obtain ⟨first, other, known, there, rest⟩ := burns image among
        refine ⟨first, other, known, ?_, rest⟩
        rw [Function.update_of_ne same]
        exact there
    · intro name none_
      apply Function.update_of_ne
      intro same
      apply none_ last inside
      rw [← mem_turns own, same]

section Run

variable (progressScale : Int) (total : Nat) (images : List Image) (elemOld : Option Nat)
  (parts : Partitions)

/-- The run over the images. -/
def burn : Outcome :=
  upgradeWritterLoop progressScale total (images.flatMap Image.turns) (Writter.start elemOld)

/-- Each image is for a partition of its own, one that is closed and has room for it, and follows
another image. -/
structure Placed : Prop where
  fresh : ∀ image ∈ images, elemOld ≠ some image.elem.addr
  addrs : (images.map (fun image => image.elem.addr)).Nodup
  names : (images.map (fun image => image.elem.partName)).Nodup
  room : ∀ image ∈ images, ∃ part, parts image.elem.partName = some part ∧ part.openCnt = 0 ∧
    0 < part.dev.capacity ∧ image.bytes.length ≤ part.dev.capacity

variable {progressScale total images elemOld parts}

theorem burn_performs (placed : Placed images elemOld parts)
    (clean : Clean (burn progressScale total images elemOld)) :
    Whole elemOld (images.flatMap Image.turns) ∧
      ∃ after, performAll parts (burn progressScale total images elemOld).writter.calls =
          some after ∧
        (∀ image ∈ images, Burnt parts after image) ∧
        ∀ name, (∀ image ∈ images, image.elem.partName ≠ name) → after name = parts name := by
  have follows : ∀ turn ∈ images.flatMap Image.turns,
      Follows (Writter.start elemOld) turn.2.elem := by
    intro turn member same
    obtain ⟨image, inside, own⟩ := List.mem_flatMap.mp member
    rw [mem_turns own] at same
    exact absurd same (placed.fresh image inside)
  have alike : ∀ one ∈ images.flatMap Image.turns, ∀ other ∈ images.flatMap Image.turns,
      one.2.elem.addr = other.2.elem.addr → one.2.elem.partName = other.2.elem.partName := by
    intro one oneIn other otherIn same
    obtain ⟨front, inFront, ofFront⟩ := List.mem_flatMap.mp oneIn
    obtain ⟨back, inBack, ofBack⟩ := List.mem_flatMap.mp otherIn
    rw [mem_turns ofFront, mem_turns ofBack] at same ⊢
    rw [List.inj_on_of_nodup_map placed.addrs inFront inBack same]
  obtain ⟨closing, calls, closes, whole⟩ :=
    loop_calls progressScale total _ (Writter.start elemOld) follows alike clean.quiet clean.taken
  obtain ⟨burnt, performed, burns, others⟩ := performAll_images images parts placed.names placed.room
  obtain ⟨after, closed, kept, rest⟩ := closing_keeps burns closes
  have start : (Writter.start elemOld).calls = [] ∧ (Writter.start elemOld).elemOld = elemOld :=
    ⟨rfl, rfl⟩
  rw [start.2] at whole
  refine ⟨whole, after, ?_, kept, ?_⟩
  · calc performAll parts (burn progressScale total images elemOld).writter.calls
        = performAll parts (images.flatMap Image.calls ++ closing) := by
          rw [burn, calls, start.1, start.2, List.nil_append,
            runCalls_images images elemOld placed.fresh placed.addrs]
      _ = (performAll parts (images.flatMap Image.calls)).bind
            (fun parts => performAll parts closing) := performAll_append ..
      _ = some after := by rw [performed, Option.bind_some, closed]
  · intro name none_
    rw [rest name none_, others name none_]

/-- Of a run of the writter that takes every piece without an error, the calls carried out on the
flash leave each image to whoever opens its partition next, and every other partition as it was. -/
theorem writter_burns (placed : Placed images elemOld parts)
    (clean : Clean (burn progressScale total images elemOld)) :
    ∃ after, performAll parts (burn progressScale total images elemOld).writter.calls =
        some after ∧
      (∀ image ∈ images, ∃ part, after image.elem.partName = some part ∧ ∃ final,
        (Dev.opened part.geometry.toGeometry part.dev.flash .block).alislstoRead image.bytes.length =
          some (image.bytes, final)) ∧
      ∀ name, (∀ image ∈ images, image.elem.partName ≠ name) → after name = parts name := by
  obtain ⟨_, after, performed, burns, others⟩ := burn_performs placed clean
  refine ⟨after, performed, ?_, others⟩
  intro image member
  obtain ⟨_, part, _, there, _, burning⟩ := burns image member
  exact ⟨part, there, burning.read⟩

/-- Three blocks of 32 bytes, of which the first is bad. -/
def threeBlocks : EraseGeometry where
  eraseSize := 32
  blocks := 3
  erase_pos := by decide
  fits := by decide
  several := by decide
  narrow := by decide

def badFront : Flash := ⟨fun _ => 9, fun block => block == 0, []⟩

def kernelAndRootfs : Partitions := fun name =>
  if name = "kernel" ∨ name = "rootfs" then
    some ⟨threeBlocks, Dev.opened threeBlocks.toGeometry badFront .block, 0⟩
  else none

def calm : WritterEnv := ⟨.none, true, true, fun _ => 0, 96, .none⟩

/-- A kernel in two pieces and a root file system in one. -/
def twoImages : List Image :=
  [⟨⟨1, "kernel", 60, 0⟩, calm, List.replicate 20 1, [(calm, List.replicate 40 2)]⟩,
    ⟨⟨2, "rootfs", 40, 60⟩, calm, List.replicate 40 3, []⟩]

theorem writter_burns_two :
    ∃ after, performAll kernelAndRootfs (burn 1 100 twoImages none).writter.calls = some after ∧
      (∀ image ∈ twoImages, ∃ part, after image.elem.partName = some part ∧ ∃ final,
        (Dev.opened part.geometry.toGeometry part.dev.flash .block).alislstoRead image.bytes.length =
          some (image.bytes, final)) ∧
      ∀ name, (∀ image ∈ twoImages, image.elem.partName ≠ name) →
        after name = kernelAndRootfs name := by
  have all : burn 1 100 twoImages none =
      .left (burn 1 100 twoImages none).writter [] := by decide +kernel
  have clean : Clean (burn 1 100 twoImages none) := by
    refine ⟨by decide +kernel, ?_⟩
    rw [all]
    rfl
  have placed : Placed twoImages none kernelAndRootfs := by
    refine ⟨by decide, by decide, by decide, ?_⟩
    rw [twoImages, List.forall_mem_cons, List.forall_mem_singleton]
    exact ⟨⟨_, rfl, rfl, by decide +kernel, by decide +kernel⟩,
      ⟨_, rfl, rfl, by decide +kernel, by decide +kernel⟩⟩
  exact writter_burns placed clean

/-- What the boot partition is patched with is what stood in it, when the read of the writter
answered with what it found there: the run leaves the boot parameters as they were. -/
theorem bootParam_survives (placed : Placed images elemOld parts)
    (clean : Clean (burn progressScale total images elemOld)) {image : Image}
    (member : image ∈ images) (boot : isBoot image.elem.partName) {part : Partition}
    (there : parts image.elem.partName = some part)
    (wide : scsHashLevel1Len + scsSigLen < part.geometry.eraseSize)
    (heard : ∀ data, part.bootParam = some data →
      data = (List.range data.length).map image.env.bootParam) :
    ∃ after, performAll parts (burn progressScale total images elemOld).writter.calls =
        some after ∧
      ∃ last, after image.elem.partName = some last ∧ last.bootParam = part.bootParam ∧
        ∃ data, part.bootParam = some data ∧ data.length = bootParamTotalSize := by
  obtain ⟨whole, after, performed, burns, _⟩ := burn_performs placed clean
  have long := whole_images images elemOld placed.fresh placed.addrs whole image member boot
  obtain ⟨first, last, known, left_, geometry, burning⟩ := burns image member
  cases known.symm.trans there
  obtain ⟨before, found, _, _, fits⟩ := placed.room image member
  cases found.symm.trans there
  have all : image.first.length ≤ image.bytes.length := by
    rw [Image.bytes, List.length_append, firstData_length]
    exact Nat.le_add_right _ _
  have old := bootParam_file wide (by omega : _ ≤ part.dev.capacity)
  have size : ((part.dev.flat.file.drop (scsHashLevel1Len + scsSigLen)).take
      bootParamTotalSize).length = bootParamTotalSize := by
    rw [List.length_take, List.length_drop, length_flat]
    omega
  have own := heard _ old
  rw [size] at own
  have same : last.bootParam = part.bootParam :=
    calc last.bootParam
        = some ((image.bytes.drop (scsHashLevel1Len + scsSigLen)).take bootParamTotalSize) :=
          burning.bootParam (geometry ▸ wide) (by omega)
      _ = some ((List.range bootParamTotalSize).map image.env.bootParam) := by
          rw [Image.bytes, bootParam_patched boot long]
          rfl
      _ = part.bootParam := by rw [old, own]
  exact ⟨after, performed, last, left_, same, _, old, size⟩

/-- Five blocks of 1024 bytes, of which the second is bad. -/
def fiveBlocks : EraseGeometry where
  eraseSize := 1024
  blocks := 5
  erase_pos := by decide
  fits := by decide
  several := by decide
  narrow := by decide

def bootFlash : Flash := ⟨fun _ => 5, fun block => block == 1, []⟩

def bootPart : Partition := ⟨fiveBlocks, Dev.opened fiveBlocks.toGeometry bootFlash .block, 0⟩

def bootOnly : Partitions := fun name => if name = bootName then some bootPart else none

/-- The boot image of `size` bytes, in one piece. -/
def bootImage (size : Nat) : Image :=
  ⟨⟨1, bootName, size, 0⟩, { calm with bootParam := fun _ => 5 }, List.replicate size 1, []⟩

theorem burn_bootImage {size : Nat}
    (long : scsHashLevel1Len + scsSigLen + bootParamTotalSize ≤ size) :
    Clean (burn 1 size [bootImage size] none) := by
  have boot : isBoot bootName = true := by decide
  constructor <;> simp [burn, bootImage, Image.turns, Image.firstTurn, calm, upgradeWritterLoop,
    Writter.raise, Writter.prepare, Writter.start, Writter.call, boot, Nat.not_lt_of_le long,
    Outcome.writter, Writter.backupBootParam, Writter.erasePart, Writter.write, patchBootParam_length,
    Writter.progress, Writter.settle, Writter.report, Writter.signal, Writter.finish, Taken]

theorem length_bootImage (size : Nat) : (bootImage size).bytes.length = size := by
  rw [Image.bytes, List.length_append, firstData_length]
  exact List.length_replicate

theorem bootParam_survives_bad_block :
    ∃ after, performAll bootOnly (burn 1 2048 [bootImage 2048] none).writter.calls = some after ∧
      ∃ last, after bootName = some last ∧ last.bootParam = bootPart.bootParam ∧
        ∃ data, bootPart.bootParam = some data ∧ data.length = bootParamTotalSize := by
  have whole : scsHashLevel1Len + scsSigLen + bootParamTotalSize ≤ 2048 := by decide
  have room : 2048 ≤ bootPart.dev.capacity := by decide +kernel
  have placed : Placed [bootImage 2048] none bootOnly := by
    refine ⟨by decide, List.nodup_singleton _, List.nodup_singleton _, ?_⟩
    rw [List.forall_mem_singleton, length_bootImage]
    exact ⟨bootPart, rfl, rfl, by decide +kernel, room⟩
  have heard : ∀ data, bootPart.bootParam = some data →
      data = (List.range data.length).map (bootImage 2048).env.bootParam := by
    intro data same
    have found := @bootParam_file bootPart (by decide) (whole.trans room)
    rw [file_part _ (whole.trans room)] at found
    have read := Option.some.inj (found.symm.trans same)
    rw [← read, List.length_map, List.length_range]
    have held (x : Nat) : bootPart.dev.flash.content x = 5 := rfl
    have told (size i : Nat) : (bootImage size).env.bootParam i = 5 := rfl
    apply List.map_congr_left
    intro i _
    rw [told]
    exact held _
  have member : bootImage 2048 ∈ [bootImage 2048] := List.mem_singleton_self _
  have boot : isBoot (bootImage 2048).elem.partName := by decide
  have there : bootOnly (bootImage 2048).elem.partName = some bootPart := rfl
  exact bootParam_survives placed (burn_bootImage whole) member boot there (by decide) heard

end Run

end Alisl.Upgrade.Burn
