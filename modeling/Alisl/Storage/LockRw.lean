import Alisl.Storage.StoStore

/-! `alislsto_lock_read` and `alislsto_lock_write`: a seek and a transfer under `seekmutex`. -/

namespace Alisl.Storage.Nand

open Alisl.Base

/-- `alislsto_rw_param_t`, with the device that its handle points to. -/
structure RwParam where
  handle : Option StoDev
  size : Nat
  offset : Int
  whenence : Whence
  idx : Int
  flag : Bool

/-- What a transfer returns, and what it leaves in the buffer of a read. -/
structure Moved where
  actualSize : Nat
  buffer : List (Option Byte)
  dev : StoDev

/-- What a call returns, `actual_size` where it is set, and the offset its transfer began at. -/
structure RwResult where
  err : StoRetcode
  actualSize : Option Nat
  start : Option Int
  buffer : List (Option Byte)
  handle : Option StoDev

/-- `err`, `cur_offset` and the device behind the seek. -/
structure Sought where
  err : StoRetcode
  curOffset : Int
  dev : StoDev

namespace StoDev

def alislstoSetOffset (dev : StoDev) (offset : Int) (flag : Bool) : StoDev :=
  if flag then { dev with offset := offset } else dev

/-- The seek of a call: the offset of `alislsto_lseek` is an `int`. -/
def lockSeek (geometry : NandGeometry) (dev : StoDev) (para : RwParam) : Sought :=
  if para.idx = -1 then
    let sought := dev.alislstoLseek geometry (BitVec.ofInt 32 para.offset) para.whenence
    ⟨.none, sought.1, sought.2⟩
  else if para.whenence = .seekCur ∧ para.offset = 0 then ⟨.none, 0, dev⟩
  else
    let sought := dev.alislstoLseekExt geometry para.idx para.offset
    ⟨sought.1, 0, sought.2⟩

end StoDev

/-- The frame of the two functions; `none` is a call that waits for the mutex, or whose transfer does
not return. -/
def lockTransfer (geometry : NandGeometry) (transfer : StoDev → Option Moved) (para : RwParam)
    (buf : Bool) : Option RwResult :=
  match para.handle with
  | none => some ⟨.invalidHandle, none, none, [], none⟩
  | some dev =>
      if buf = false then some ⟨.invalidHandle, none, none, [], some dev⟩
      else if dev.seekmutex then none
      else
        let sought := { dev with seekmutex := true }.lockSeek geometry para
        let leave (dev' : StoDev) : StoDev :=
          { dev'.alislstoSetOffset dev.offset para.flag with seekmutex := false }
        if sought.err ≠ .none ∨ sought.curOffset = -1 then
          some ⟨sought.err, none, none, [], some (leave sought.dev)⟩
        else if para.size = 0 then some ⟨.none, some 0, none, [], some (leave sought.dev)⟩
        else
          (transfer sought.dev).map (fun moved =>
            ⟨if moved.actualSize ≠ para.size then .mem else .none, some moved.actualSize,
              some sought.dev.offset, moved.buffer, some (leave moved.dev)⟩)

/-- `alislsto_lock_read`; `buf` says that there is a buffer. -/
def alislstoLockRead (geometry : NandGeometry) (driver : Driver) (fuel : Nat) (para : RwParam)
    (buf : Bool) : Option RwResult :=
  lockTransfer geometry (fun dev =>
    (dev.alislstoRead geometry driver fuel para.size).map (fun read =>
      ⟨read.1.length, read.1, read.2⟩)) para buf

/-- `alislsto_lock_write`, of the bytes that `buf` points to. -/
def alislstoLockWrite (geometry : NandGeometry) (driver : Driver) (fuel : Nat) (para : RwParam)
    (buf : Option (Nat → Byte)) : Option RwResult :=
  lockTransfer geometry (fun dev =>
    (dev.alislstoWriteNoErase geometry driver fuel
      ((List.range para.size).map (buf.getD (fun _ => 0)))).map (fun written =>
        ⟨written.1, [], written.2⟩)) para buf.isSome

/-! ### What a call is to do -/

/-- `clamped` from any offset. -/
def clampedFrom (size : Nat) (pos offset : Int) : Whence → Option Int
  | .seekSet => some (if offset < 0 then pos else if size ≤ offset then size - 1 else offset)
  | .seekCur => some (max 0 (min (pos + offset) (size - 1)))
  | .seekEnd => some (if 0 < offset then pos else max 0 (size - 1 + offset))
  | .other => none

/-- The position that `idx`, `offset` and `whenence` designate: on the device for -1, else in a
partition of the table. -/
def RwParam.designated (geometry : NandGeometry) (para : RwParam) (dev : StoDev) : Option Int :=
  if para.idx = -1 then clampedFrom geometry.size dev.offset para.offset para.whenence
  else if para.whenence = .seekCur ∧ para.offset = 0 then some dev.offset
  else if 0 ≤ para.idx then
    dev.attr.bind (fun map => map.entries[para.idx.toNat]?.map (fun entry =>
      entry.offset + para.offset))
  else none

/-- A success has moved all the bytes from the position designated, the mutex is released, and the
offset is restored where it is to be. -/
structure RwLaw (geometry : NandGeometry) (para : RwParam)
    (right : StoDev → List (Option Byte) → Flash → Int → Prop) (result : RwResult) : Prop where
  success : result.err = .none → ∃ dev after, para.handle = some dev ∧ result.handle = some after ∧
    result.actualSize = some para.size ∧ (0 < para.size → ∃ start : Int,
      result.start = some start ∧ para.designated geometry dev = some start ∧ 0 ≤ start ∧
      right dev result.buffer after.flash start)
  released : result.handle = para.handle ∨ ∃ after, result.handle = some after ∧
    after.seekmutex = false
  restored : para.flag = true →
    result.handle.map StoDev.offset = para.handle.map StoDev.offset

/-- The bytes of a read are those from an offset on. -/
def ReadRight (geometry : NandGeometry) (size : Nat) (dev : StoDev)
    (buffer : List (Option Byte)) (_ : Flash) (start : Int) : Prop :=
  buffer = (List.range size).map (fun i =>
    some (dev.flash.content (dev.byteAt geometry start i)))

/-- The bytes of a write are programmed from an offset on, and no other byte is. -/
def WrittenRight (geometry : NandGeometry) (size : Nat) (buf : Nat → Byte) (dev : StoDev)
    (_ : List (Option Byte)) (flash : Flash) (start : Int) : Prop :=
  (∀ i < size, flash.content (dev.byteAt geometry start i) =
    dev.flash.content (dev.byteAt geometry start i) &&& buf i) ∧
  ∀ x, (∀ i < size, x ≠ dev.byteAt geometry start i) → flash.content x = dev.flash.content x

/-! ### When a call does so -/

/-- Where the seek of a call leads, none if it leads to an error. -/
def StoDev.heading (geometry : NandGeometry) (dev : StoDev) (para : RwParam) : Option Int :=
  if para.idx = -1 then
    if dev.valid then
      seekPlace geometry.size dev.offset (BitVec.ofInt 32 para.offset) para.whenence
    else some dev.offset
  else if para.whenence = .seekCur ∧ para.offset = 0 then some dev.offset
  else if dev.pmi = false ∨ dev.valid = false then none
  else
    dev.attr.bind (fun map =>
      let entry := map.get para.idx
      if (entry.size ≠ 0 ∧ (entry.size : Int) < para.offset) ∨
          (geometry.size : Int) < entry.offset + para.offset then none
      else some (entry.offset + para.offset))

/-- The seek of the whole device does not return -1, and bytes that fit in are at the position
designated and can be moved. -/
structure RwParam.Sound (geometry : NandGeometry) (para : RwParam)
    (fits faultless : StoDev → Int → Prop) (dev : StoDev) : Prop where
  found : para.idx = -1 → dev.valid = true →
    ∃ place, dev.heading geometry para = some place ∧ place % 2 ^ 32 ≠ 2 ^ 32 - 1
  leads : 0 < para.size → ∀ place, dev.heading geometry para = some place → fits dev place →
    para.designated geometry dev = some place ∧ 0 ≤ place ∧ faultless dev place

/-- All the bytes of a read can be read. -/
def Readable (geometry : NandGeometry) (driver : Driver) (size : Nat) (dev : StoDev) (start : Int) :
    Prop :=
  ∀ i < size, driver.unreadable (dev.byteAt geometry start i) = false

/-- A write from an offset counts all its bytes. -/
def Writable (geometry : NandGeometry) (driver : Driver) (size : Nat) (dev : StoDev) (start : Int) :
    Prop :=
  dev.Enough geometry start size ∧ start % geometry.writeSize = 0 ∧
    ∀ i < size, driver.unwritable (dev.byteAt geometry start i) = false

section

variable {geometry : NandGeometry}

@[simp] theorem alislstoSetOffset_flash (dev : StoDev) (offset : Int) (flag : Bool) :
    (dev.alislstoSetOffset offset flag).flash = dev.flash := by
  cases flag <;> rfl

theorem alislstoSetOffset_offset (dev : StoDev) (offset : Int) {flag : Bool} (set : flag = true) :
    (dev.alislstoSetOffset offset flag).offset = offset := by
  rw [set]
  rfl

theorem toInt_ofInt_neg_one (place : Int) :
    (BitVec.ofInt 32 place).toInt = -1 ↔ place % 2 ^ 32 = 2 ^ 32 - 1 := by
  rw [BitVec.toInt_ofInt, Int.bmod]
  omega

/-- The seek of a call with the mutex held. -/
inductive SeekTurn (geometry : NandGeometry) (dev : StoDev) (para : RwParam) : Sought → Prop where
  | fails (err : StoRetcode) (error : err ≠ .none) (table : para.idx ≠ -1)
      (nowhere : dev.heading geometry para = none) :
      SeekTurn geometry dev para ⟨err, 0, { dev with seekmutex := true }⟩
  | lost (whole : para.idx = -1) (valid : dev.valid = true)
      (nowhere : dev.heading geometry para = none) :
      SeekTurn geometry dev para ⟨.none, -1, { dev with seekmutex := true }⟩
  | found (place margin curOffset : Int) (leads : dev.heading geometry para = some place)
      (lost : curOffset = -1 ↔ para.idx = -1 ∧ dev.valid = true ∧ place % 2 ^ 32 = 2 ^ 32 - 1) :
      SeekTurn geometry dev para
        ⟨.none, curOffset, { dev with offset := place, margin := margin, seekmutex := true }⟩

theorem lseekTurn (dev : StoDev) {para : RwParam} (whole : para.idx = -1) :
    SeekTurn geometry dev para
      ({ dev with seekmutex := true }.lockSeek geometry para) := by
  rw [StoDev.lockSeek, if_pos whole, StoDev.alislstoLseek]
  dsimp only
  by_cases valid : dev.valid = true
  · have heading : dev.heading geometry para =
        seekPlace geometry.size dev.offset (BitVec.ofInt 32 para.offset) para.whenence := by
      rw [StoDev.heading, if_pos whole, if_pos valid]
    rw [if_pos valid]
    cases moved : seekPlace geometry.size dev.offset (BitVec.ofInt 32 para.offset) para.whenence with
    | none => exact .lost whole valid (heading.trans moved)
    | some place =>
        apply SeekTurn.found place dev.margin _ (heading.trans moved)
        rw [toInt_ofInt_neg_one]
        exact ⟨fun last => ⟨whole, valid, last⟩, fun all => all.2.2⟩
  · have heading : dev.heading geometry para = some dev.offset := by
      rw [StoDev.heading, if_pos whole, if_neg valid]
    rw [if_neg valid]
    apply SeekTurn.found dev.offset dev.margin _ heading
    have closed : invalidHandleCode ≠ -1 := by decide
    exact iff_of_false closed (fun all => valid all.2.1)

theorem lseekExtTurn (dev : StoDev) {para : RwParam} (table : para.idx ≠ -1)
    (moves : ¬ (para.whenence = .seekCur ∧ para.offset = 0)) :
    SeekTurn geometry dev para
      ({ dev with seekmutex := true }.lockSeek geometry para) := by
  rw [StoDev.lockSeek, if_neg table, if_neg moves, StoDev.alislstoLseekExt]
  dsimp only
  have heading : dev.heading geometry para =
      if dev.pmi = false ∨ dev.valid = false then none
      else dev.attr.bind (fun map =>
        if ((map.get para.idx).size ≠ 0 ∧ ((map.get para.idx).size : Int) < para.offset) ∨
            (geometry.size : Int) < (map.get para.idx).offset + para.offset then none
        else some ((map.get para.idx).offset + para.offset)) := by
    rw [StoDev.heading, if_neg table, if_neg moves]
  by_cases pmi : dev.pmi = false
  · rw [if_pos pmi]
    rw [if_pos (.inl pmi)] at heading
    exact .fails .driver (by decide) table heading
  rw [if_neg pmi]
  by_cases valid : dev.valid = false
  · rw [if_pos valid]
    rw [if_pos (.inr valid)] at heading
    exact .fails .invalidHandle (by decide) table heading
  rw [if_neg valid]
  rw [if_neg (not_or.mpr ⟨pmi, valid⟩)] at heading
  cases attr : dev.attr with
  | none =>
      rw [attr, Option.bind_none] at heading
      have fails : SeekTurn geometry dev para ⟨.noLayoutMap, 0, { dev with seekmutex := true }⟩ :=
        .fails .noLayoutMap (by decide) table heading
      rw [attr] at fails
      exact fails
  | some map =>
      rw [attr, Option.bind_some] at heading
      dsimp only
      by_cases overflow : ((map.get para.idx).size ≠ 0 ∧
          ((map.get para.idx).size : Int) < para.offset) ∨
            (geometry.size : Int) < (map.get para.idx).offset + para.offset
      · rw [if_pos overflow]
        rw [if_pos overflow] at heading
        have fails : SeekTurn geometry dev para ⟨.overflow, 0, { dev with seekmutex := true }⟩ :=
          .fails .overflow (by decide) table heading
        rw [attr] at fails
        exact fails
      · rw [if_neg overflow]
        rw [if_neg overflow] at heading
        have found (margin : Int) : SeekTurn geometry dev para ⟨.none, 0, { dev with
            offset := (map.get para.idx).offset + para.offset
            margin := margin
            seekmutex := true }⟩ :=
          .found _ margin 0 heading (iff_of_false (by decide) (fun all => table all.1))
        rw [attr] at found
        exact found _

theorem seekTurn (dev : StoDev) (para : RwParam) :
    SeekTurn geometry dev para
      ({ dev with seekmutex := true }.lockSeek geometry para) := by
  by_cases whole : para.idx = -1
  · exact lseekTurn dev whole
  by_cases stays : para.whenence = .seekCur ∧ para.offset = 0
  · have heading : dev.heading geometry para = some dev.offset := by
      rw [StoDev.heading, if_neg whole, if_pos stays]
    rw [StoDev.lockSeek, if_neg whole, if_pos stays]
    apply SeekTurn.found dev.offset dev.margin _ heading
    apply iff_of_false (by decide)
    exact fun all => whole all.1
  · exact lseekExtTurn dev whole stays

/-- What leaving a call makes of the device. -/
def RwParam.leave (para : RwParam) (dev dev' : StoDev) : StoDev :=
  { dev'.alislstoSetOffset dev.offset para.flag with seekmutex := false }

theorem RwParam.leave_offset (para : RwParam) (dev dev' : StoDev) (set : para.flag = true) :
    (para.leave dev dev').offset = dev.offset :=
  alislstoSetOffset_offset dev' dev.offset set

theorem RwParam.leave_flash (para : RwParam) (dev dev' : StoDev) :
    (para.leave dev dev').flash = dev'.flash :=
  alislstoSetOffset_flash dev' dev.offset para.flag

/-- The device a transfer begins on: only the offset, the margin and the mutex have changed. -/
def StoDev.Ready (dev start : StoDev) : Prop :=
  start = { dev with offset := start.offset, margin := start.margin, seekmutex := true }

/-- How a call with a buffer and a device returns. -/
inductive LockTurn (geometry : NandGeometry) (transfer : StoDev → Option Moved) (para : RwParam)
    (dev : StoDev) : RwResult → Prop where
  | fails (err : StoRetcode) (error : err ≠ .none) (dev' : StoDev) (table : para.idx ≠ -1)
      (nowhere : dev.heading geometry para = none) :
      LockTurn geometry transfer para dev ⟨err, none, none, [], some (para.leave dev dev')⟩
  | lost (whole : para.idx = -1) (valid : dev.valid = true) (dev' : StoDev)
      (last : ∀ place, dev.heading geometry para = some place → place % 2 ^ 32 = 2 ^ 32 - 1) :
      LockTurn geometry transfer para dev ⟨.none, none, none, [], some (para.leave dev dev')⟩
  | empty (place : Int) (leads : dev.heading geometry para = some place)
      (kept : para.idx = -1 → dev.valid = true → place % 2 ^ 32 ≠ 2 ^ 32 - 1)
      (none_ : para.size = 0) (dev' : StoDev) :
      LockTurn geometry transfer para dev ⟨.none, some 0, none, [], some (para.leave dev dev')⟩
  | moves (start : StoDev) (ready : dev.Ready start)
      (leads : dev.heading geometry para = some start.offset)
      (kept : para.idx = -1 → dev.valid = true → start.offset % 2 ^ 32 ≠ 2 ^ 32 - 1)
      (some_ : 0 < para.size) (moved : Moved) (ran : transfer start = some moved) :
      LockTurn geometry transfer para dev
        ⟨if moved.actualSize ≠ para.size then .mem else .none, some moved.actualSize,
          some start.offset, moved.buffer, some (para.leave dev moved.dev)⟩

theorem lockTurn {transfer : StoDev → Option Moved} {para : RwParam} {dev : StoDev}
    {result : RwResult} (here : para.handle = some dev)
    (ran : lockTransfer geometry transfer para true = some result) :
    LockTurn geometry transfer para dev result := by
  rw [lockTransfer, here] at ran
  dsimp only at ran
  rw [if_neg (by decide)] at ran
  by_cases held : dev.seekmutex = true
  · rw [if_pos held] at ran
    cases ran
  rw [if_neg held] at ran
  have turn : SeekTurn geometry dev para ({ dev with seekmutex := true }.lockSeek geometry para) :=
    seekTurn dev para
  generalize ({ dev with seekmutex := true } : StoDev).lockSeek geometry para = sought at ran turn
  cases turn with
  | fails err error table nowhere =>
      rw [if_pos (.inl error)] at ran
      cases ran
      exact .fails err error _ table nowhere
  | lost whole valid nowhere =>
      rw [if_pos (.inr rfl)] at ran
      cases ran
      apply LockTurn.lost whole valid
      intro place leads
      rw [nowhere] at leads
      cases leads
  | found place margin curOffset leads lost =>
      by_cases last : curOffset = -1
      · rw [if_pos (.inr last)] at ran
        cases ran
        obtain ⟨whole, valid, bound⟩ := lost.mp last
        apply LockTurn.lost whole valid
        intro other there
        rw [leads] at there
        cases there
        exact bound
      have kept : para.idx = -1 → dev.valid = true → place % 2 ^ 32 ≠ 2 ^ 32 - 1 :=
        fun whole valid bound => last (lost.mpr ⟨whole, valid, bound⟩)
      rw [if_neg (not_or.mpr ⟨not_not.mpr rfl, last⟩)] at ran
      by_cases none_ : para.size = 0
      · rw [if_pos none_] at ran
        cases ran
        exact .empty place leads kept none_ _
      · rw [if_neg none_] at ran
        obtain ⟨moved, transferred, result_⟩ := Option.map_eq_some_iff.mp ran
        cases result_
        exact .moves { dev with offset := place, margin := margin, seekmutex := true } rfl leads kept
          (Nat.pos_of_ne_zero none_) moved transferred

/-- A refused call leaves the device alone. -/
theorem lockTransfer_refused {transfer : StoDev → Option Moved} {para : RwParam} {buf : Bool}
    {result : RwResult} (refused : para.handle = none ∨ buf = false)
    (ran : lockTransfer geometry transfer para buf = some result) :
    result = ⟨.invalidHandle, none, none, [], para.handle⟩ := by
  rw [lockTransfer] at ran
  cases handle : para.handle with
  | none =>
      rw [handle] at ran
      cases ran
      rfl
  | some dev =>
      rw [handle] at ran
      dsimp only at ran
      have missing : buf = false := refused.resolve_left (by rw [handle]; exact Option.some_ne_none dev)
      rw [if_pos missing] at ran
      cases ran
      rfl

/-- The mutex is released and the offset restored, however the call with a device returns. -/
theorem LockTurn.kept {transfer : StoDev → Option Moved} {para : RwParam} {dev : StoDev}
    {result : RwResult} (turn : LockTurn geometry transfer para dev result) :
    ∃ dev', result.handle = some (para.leave dev dev') := by
  cases turn with
  | fails err error dev' table nowhere => exact ⟨dev', rfl⟩
  | lost whole valid dev' last => exact ⟨dev', rfl⟩
  | empty place leads kept none_ dev' => exact ⟨dev', rfl⟩
  | moves start ready leads kept some_ moved ran => exact ⟨moved.dev, rfl⟩

theorem LockTurn.law_iff {transfer : StoDev → Option Moved} {para : RwParam} {dev : StoDev}
    {right : StoDev → List (Option Byte) → Flash → Int → Prop}
    {fits faultless : StoDev → Int → Prop} {result : RwResult}
    (turn : LockTurn geometry transfer para dev result) (here : para.handle = some dev)
    (moves : ∀ start moved, dev.Ready start → 0 < para.size → transfer start = some moved →
      (moved.actualSize = para.size ↔ fits dev start.offset) ∧
      (fits dev start.offset →
        (right dev moved.buffer moved.dev.flash start.offset ↔ faultless dev start.offset))) :
    RwLaw geometry para right result ↔ para.Sound geometry fits faultless dev := by
  obtain ⟨dev', left_⟩ := turn.kept
  have released : result.handle = para.handle ∨ ∃ after, result.handle = some after ∧
      after.seekmutex = false := .inr ⟨_, left_, rfl⟩
  have restored : para.flag = true →
      result.handle.map StoDev.offset = para.handle.map StoDev.offset := by
    intro set
    rw [left_, here, Option.map_some, Option.map_some, para.leave_offset dev dev' set]
  cases turn with
  | fails err error dev' table nowhere =>
      apply iff_of_true
      · exact ⟨fun none_ => absurd none_ error, released, restored⟩
      · constructor
        case found => exact fun whole => absurd whole table
        case leads =>
            intro _ place leads
            rw [nowhere] at leads
            cases leads
  | lost whole valid dev' last =>
      apply iff_of_false
      · intro law
        obtain ⟨_, _, _, _, unset, _⟩ := law.success rfl
        cases unset
      · intro sound
        obtain ⟨place, leads, kept⟩ := sound.found whole valid
        exact kept (last place leads)
  | empty place leads kept none_ dev' =>
      apply iff_of_true
      · refine ⟨fun _ => ⟨dev, _, here, rfl, ?_, ?_⟩, released, restored⟩
        · rw [none_]
        · intro some_
          omega
      · constructor
        case found => exact fun whole valid => ⟨place, leads, kept whole valid⟩
        case leads =>
            intro some_
            omega
  | moves start ready leads kept some_ moved ran =>
      obtain ⟨all, rightly⟩ := moves start moved ready some_ ran
      constructor
      · intro law
        constructor
        case found => exact fun whole valid => ⟨start.offset, leads, kept whole valid⟩
        case leads =>
            intro _ place there fits
            rw [leads] at there
            cases there
            have none_ : (if moved.actualSize ≠ para.size then StoRetcode.mem else .none) = .none := by
              rw [if_neg (not_not.mpr (all.mpr fits))]
            obtain ⟨_, after, dev_, after_, _, bytes⟩ := law.success none_
            rw [here] at dev_
            cases dev_
            cases after_
            obtain ⟨place, begun, designated, inside, moved_⟩ := bytes some_
            cases begun
            rw [para.leave_flash] at moved_
            exact ⟨designated, inside, (rightly fits).mp moved_⟩
      · intro sound
        refine ⟨?_, released, restored⟩
        intro none_
        have counted : moved.actualSize = para.size := by
          by_contra short
          rw [if_pos short] at none_
          cases none_
        have fits := all.mp counted
        obtain ⟨designated, inside, faultless_⟩ := sound.leads some_ _ leads fits
        refine ⟨dev, _, here, rfl, congrArg some counted, ?_⟩
        intro _
        refine ⟨start.offset, rfl, designated, inside, ?_⟩
        rw [para.leave_flash]
        exact (rightly fits).mpr faultless_

theorem refused_law {para : RwParam} {right : StoDev → List (Option Byte) → Flash → Int → Prop} :
    RwLaw geometry para right ⟨.invalidHandle, none, none, [], para.handle⟩ where
  success := by
    intro none_
    cases none_
  released := .inl rfl
  restored := fun _ => rfl

theorem lockTransfer_iff {transfer : StoDev → Option Moved} {para : RwParam} {buf : Bool}
    {right : StoDev → List (Option Byte) → Flash → Int → Prop}
    {fits faultless : StoDev → Int → Prop} {result : RwResult}
    (ran : lockTransfer geometry transfer para buf = some result)
    (moves : ∀ dev start moved, dev.Ready start → 0 < para.size → transfer start = some moved →
      (moved.actualSize = para.size ↔ fits dev start.offset) ∧
      (fits dev start.offset →
        (right dev moved.buffer moved.dev.flash start.offset ↔ faultless dev start.offset))) :
    RwLaw geometry para right result ↔
      (buf = true → ∀ dev, para.handle = some dev → para.Sound geometry fits faultless dev) := by
  by_cases refused : para.handle = none ∨ buf = false
  · rw [lockTransfer_refused refused ran]
    apply iff_of_true refused_law
    intro present dev here
    rcases refused with missing | missing
    · rw [here] at missing
      cases missing
    · rw [present] at missing
      cases missing
  rw [not_or, Bool.not_eq_false] at refused
  obtain ⟨dev, here⟩ := Option.ne_none_iff_exists'.mp refused.1
  rw [refused.2] at ran
  rw [(lockTurn here ran).law_iff here (moves dev)]
  constructor
  · intro sound _ other there
    rw [here] at there
    cases there
    exact sound
  · intro sound
    exact sound refused.2 dev here

theorem lockRead_iff {driver : Driver} {fuel : Nat} {para : RwParam} {buf : Bool}
    {result : RwResult} (ran : alislstoLockRead geometry driver fuel para buf = some result) :
    RwLaw geometry para (ReadRight geometry para.size) result ↔
      (buf = true → ∀ dev, para.handle = some dev → para.Sound geometry
        (fun dev start => dev.Enough geometry start para.size)
        (Readable geometry driver para.size) dev) := by
  apply lockTransfer_iff ran
  intro dev start moved ready some_ transferred
  obtain ⟨⟨buffer, after⟩, read, same⟩ := Option.map_eq_some_iff.mp transferred
  cases same
  have all := stoRead_all some_ read
  rw [ready] at all
  exact all

theorem lockWrite_iff {driver : Driver} {fuel : Nat} {para : RwParam} {buf : Option (Nat → Byte)}
    {result : RwResult} (ran : alislstoLockWrite geometry driver fuel para buf = some result) :
    RwLaw geometry para (WrittenRight geometry para.size (buf.getD (fun _ => 0))) result ↔
      (buf.isSome = true → ∀ dev, para.handle = some dev → para.Sound geometry
        (Writable geometry driver para.size) (fun _ _ => True) dev) := by
  apply lockTransfer_iff ran
  intro dev start moved ready some_ transferred
  obtain ⟨⟨count, after⟩, written, same⟩ := Option.map_eq_some_iff.mp transferred
  cases same
  generalize data : (List.range para.size).map (buf.getD (fun _ => 0)) = bytes at written
  have length : bytes.length = para.size := by
    rw [← data, List.length_map, List.length_range]
  have found : ∀ i < para.size, bytes.getD i 0xff = buf.getD (fun _ => 0) i := by
    intro i less
    rw [← data, List.getD_eq_getElem?_getD, List.getElem?_map, List.getElem?_range less]
    rfl
  obtain ⟨counted, content⟩ := stoWrite_all (by omega) written
  rw [length] at counted content
  rw [ready] at counted content
  refine ⟨counted, ?_⟩
  intro fits
  apply iff_of_true _ trivial
  obtain ⟨placed, kept⟩ := content (counted.mpr fits)
  refine ⟨?_, kept⟩
  intro i less
  rw [← found i less]
  exact placed i less

end

/-- When a read and a write under the mutex keep to their contract. -/
theorem lock_rw_keeps_iff (geometry : NandGeometry) (driver : Driver) (fuel : Nat) (para : RwParam)
    (present : Bool) (buf : Option (Nat → Byte)) :
    (∀ result, alislstoLockRead geometry driver fuel para present = some result →
      (RwLaw geometry para (ReadRight geometry para.size) result ↔
        (present = true → ∀ dev, para.handle = some dev → para.Sound geometry
          (fun dev start => dev.Enough geometry start para.size)
          (Readable geometry driver para.size) dev))) ∧
    (∀ result, alislstoLockWrite geometry driver fuel para buf = some result →
      (RwLaw geometry para (WrittenRight geometry para.size (buf.getD (fun _ => 0))) result ↔
        (buf.isSome = true → ∀ dev, para.handle = some dev → para.Sound geometry
          (Writable geometry driver para.size) (fun _ _ => True) dev))) :=
  ⟨fun _ ran => lockRead_iff ran, fun _ ran => lockWrite_iff ran⟩

/-- An open NAND flash of four good blocks. -/
def openNand : StoDev where
  nand := true
  valid := true
  pmi := false
  attr := none
  flash := ⟨fun _ => 0xff, fun _ => false, []⟩
  offset := 0
  margin := 0
  seekmutex := false

def firstByteFails : Driver := ⟨fun address => address == 0, fun _ => false, fun _ => 0⟩

def firstByte (whenence : Whence) : RwParam := ⟨some openNand, 1, 0, whenence, -1, false⟩

theorem lock_rw_keeps_first :
    ∃ result, alislstoLockRead fourBlocks firstByteFails 2 (firstByte .seekSet) true = some result ∧
      (RwLaw fourBlocks (firstByte .seekSet) (ReadRight fourBlocks 1) result ↔
        (true = true → ∀ dev, some openNand = some dev → (firstByte .seekSet).Sound fourBlocks
          (fun dev start => dev.Enough fourBlocks start 1)
          (Readable fourBlocks firstByteFails 1) dev)) :=
  ⟨_, rfl, (lock_rw_keeps_iff fourBlocks firstByteFails 2 (firstByte .seekSet) true none).1 _ rfl⟩

/-- A `whenence` that does not exist is no error, with nothing read and `actual_size` not set; neither
is a read that fails, of which the buffer is not touched. -/
theorem lock_read_succeeds_wrongly :
    (∃ result, alislstoLockRead fourBlocks firstByteFails 2 (firstByte .other) true = some result ∧
      result.err = .none ∧ result.actualSize = none ∧
      ¬ RwLaw fourBlocks (firstByte .other) (ReadRight fourBlocks 1) result) ∧
    ∃ result, alislstoLockRead fourBlocks firstByteFails 2 (firstByte .seekSet) true = some result ∧
      result.err = .none ∧ result.actualSize = some 1 ∧ result.buffer = [none] ∧
      ¬ RwLaw fourBlocks (firstByte .seekSet) (ReadRight fourBlocks 1) result := by
  constructor
  · refine ⟨_, rfl, rfl, rfl, ?_⟩
    intro law
    obtain ⟨_, _, _, _, set, _⟩ := law.success rfl
    cases set
  · refine ⟨_, rfl, rfl, rfl, rfl, ?_⟩
    intro law
    obtain ⟨_, _, _, _, _, bytes⟩ := law.success rfl
    obtain ⟨_, _, _, _, right⟩ := bytes (by decide)
    have first := congrArg List.head? right
    cases first

end Alisl.Storage.Nand
