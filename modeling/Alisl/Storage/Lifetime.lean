import Alisl.Base.Heap
import Mathlib.Logic.Function.Basic

/-! The devices of `alislsto_open` and `alislsto_close`, with the memory and the descriptors behind
them. The users of the library share one NOR and one NAND device and count their opens. -/

namespace Alisl.Storage.Lifetime

open Alisl.Base

/-- `STO_TYPE_NOR` and `STO_TYPE_NAND`. -/
inductive StoType where
  | nor
  | nand
  deriving DecidableEq, Repr

inductive StoRet where
  | none
  | invalidHandle
  | invalidParam
  | mem
  deriving DecidableEq, Repr

/-- `alislsto_dev_t`: its blocks, the type and the number of opens, which is 1 at least. -/
structure Dev where
  stoType : StoType
  openCnt : Nat
  priv : Nat
  devName : Nat
  info : Option Nat
  infoLogic : Option Nat
  badMap : Option Nat

/-- What the system answers during one open: whether memory is there for `mtd_dev_path`, the device,
its private part, `info`, `info_logic`, `bad_map` and the PMI buffer of `storage_parse`, whether the
partition is found and opened, and what `MEMGETINFO` says. -/
structure Answers where
  path : Bool
  device : Bool
  priv : Bool
  found : Bool
  opened : Bool
  info : Bool
  infoLogic : Bool
  getInfo : Bool
  nandFlash : Bool
  badMap : Bool
  pmi : Bool

/-- `nor_handle` and `nand_handle` are `handles`; a handle is the block of its device. The open
descriptors are counted, and `lost` records the maps of devices that are no more. -/
structure Sto where
  heap : Heap
  devices : Nat → Option Dev
  handles : StoType → Option Nat
  fds : Nat
  lost : List Nat

def Sto.start : Sto := ⟨Heap.empty, fun _ => none, fun _ => none, 0, []⟩

def Sto.setDev (sto : Sto) (handle : Nat) (dev : Option Dev) : Sto :=
  { sto with devices := Function.update sto.devices handle dev }

@[simp] theorem setDev_self (sto : Sto) (handle : Nat) (dev : Option Dev) :
    (sto.setDev handle dev).devices handle = dev :=
  Function.update_self ..

@[simp] theorem setDev_ne (sto : Sto) {handle other : Nat} (dev : Option Dev)
    (apart : other ≠ handle) : (sto.setDev handle dev).devices other = sto.devices other :=
  Function.update_of_ne apart ..

/-- The device becomes that of its type, with the descriptor of its partition. -/
def Sto.attach (sto : Sto) (heap : Heap) (handle : Nat) (dev : Dev) : Sto :=
  { sto.setDev handle (some dev) with
    heap := heap
    handles := Function.update sto.handles dev.stoType (some handle)
    fds := sto.fds + 1 }

/-- The device is gone, and with it what knew its map. -/
def Sto.detach (sto : Sto) (heap : Heap) (handle : Nat) (dev : Dev) : Sto :=
  { sto.setDev handle none with
    heap := heap
    handles := Function.update sto.handles dev.stoType none
    fds := sto.fds - 1
    lost := dev.badMap.toList ++ sto.lost }

/-! ### Opening -/

/-- The blocks of a new device and of its private part. -/
structure NewDev where
  handle : Nat
  priv : Nat

/-- `alislsto_construct`. -/
def construct (answers : Answers) (heap : Heap) : Option (Heap × Option NewDev) :=
  if answers.device then
    if answers.priv then some (heap.alloc.alloc, some ⟨heap.next, heap.alloc.next⟩)
    else (heap.alloc.free heap.next).map (fun heap => (heap, none))
  else some (heap, none)

/-- `info`, `info_logic` and `bad_map` after `show_flash_info`. -/
structure FlashInfo where
  info : Option Nat
  infoLogic : Option Nat
  badMap : Option Nat

/-- `show_flash_info`. When there is no memory for `info_logic`, `info` is freed and stays set. -/
def showFlashInfo (answers : Answers) (heap : Heap) : Option (Heap × FlashInfo) :=
  let info := heap.next
  let infoLogic := heap.alloc.next
  let driverErr := (heap.alloc.alloc.freeAll [info, infoLogic]).map
    (fun heap => (heap, (⟨none, none, none⟩ : FlashInfo)))
  if answers.info = false then some (heap, ⟨none, none, none⟩)
  else if answers.infoLogic = false then
    (heap.alloc.free info).map (fun heap => (heap, ⟨some info, none, none⟩))
  else if answers.getInfo = false then driverErr
  else if answers.nandFlash = false then
    some (heap.alloc.alloc, ⟨some info, some infoLogic, none⟩)
  else if answers.badMap = false then driverErr
  else some (heap.alloc.alloc.alloc, ⟨some info, some infoLogic, some heap.alloc.alloc.next⟩)

/-- `storage_parse` reads `info`, unless it gets no memory. -/
def parses (answers : Answers) (stoType : StoType) (heap : Heap) (info : Option Nat) : Bool :=
  decide (stoType = .nor) || !answers.pmi || info.all (fun block => decide (block ∈ heap.live))

/-- A device that is not open yet. -/
def openNew (stoType : StoType) (answers : Answers) (sto : Sto) :
    Option (Sto × StoRet × Option Nat) :=
  if answers.path = false then some (sto, .mem, none)
  else
    let path := sto.heap.next
    (construct answers sto.heap.alloc).bind (fun (heap, made) =>
      made.elim
        ((heap.free path).map (fun heap => ({ sto with heap }, .invalidHandle, none)))
        (fun dev =>
          if (stoType = .nor ∧ answers.found = false) ∨ answers.opened = false then
            (heap.freeAll [dev.priv, dev.handle, path]).map
              (fun heap => ({ sto with heap }, .invalidHandle, none))
          else
            (showFlashInfo answers heap).bind (fun (heap, flash) =>
              if parses answers stoType heap flash.info then
                some (sto.attach heap dev.handle
                  ⟨stoType, 1, dev.priv, path, flash.info, flash.infoLogic, flash.badMap⟩,
                  .none, some dev.handle)
              else none)))

/-- `alislsto_open`: what it returns and `*handle`. Other types than the two are refused. A handle
whose device is freed must not be used. -/
def alislstoOpen (stoType : Option StoType) (answers : Answers) (sto : Sto) :
    Option (Sto × StoRet × Option Nat) :=
  stoType.elim (some (sto, .invalidParam, none)) (fun stoType =>
    (sto.handles stoType).elim (openNew stoType answers sto) (fun handle =>
      (sto.devices handle).map (fun dev =>
        (sto.setDev handle (some { dev with openCnt := dev.openCnt + 1 }), .none, some handle))))

/-! ### Closing -/

/-- What the last close frees; `bad_map` is not among it. -/
def Dev.freed (dev : Dev) (handle : Nat) : List Nat :=
  dev.info.toList ++ dev.infoLogic.toList ++ [dev.devName, dev.priv, handle]

/-- `alislsto_close`. -/
def alislstoClose (handle : Nat) (sto : Sto) : Option Sto :=
  (sto.devices handle).bind (fun dev =>
    if dev.openCnt - 1 ≠ 0 then
      some (sto.setDev handle (some { dev with openCnt := dev.openCnt - 1 }))
    else
      (sto.heap.freeAll (dev.freed handle)).map (fun heap => sto.detach heap handle dev))

/-! ### The users -/

/-- The library and the handles its users have. -/
structure Users where
  sto : Sto
  held : List Nat

/-- An open, or a close of the handle at a place among those that are held; where none is, nothing is
closed. -/
inductive Call where
  | open_ (stoType : Option StoType) (answers : Answers)
  | close (place : Nat)

def Users.call (users : Users) : Call → Option Users
  | .open_ stoType answers =>
      (alislstoOpen stoType answers users.sto).map (fun (sto, _, handle) =>
        ⟨sto, handle.toList ++ users.held⟩)
  | .close place =>
      users.held[place]?.elim (some users) (fun handle =>
        (alislstoClose handle users.sto).map (fun sto => ⟨sto, users.held.erase handle⟩))

/-- The calls of all threads, one after the other under `m_mutex`. -/
def Users.run : Users → List Call → Option Users
  | users, [] => some users
  | users, call :: calls => (users.call call).bind (fun users => run users calls)

def Users.start : Users := ⟨Sto.start, []⟩

/-- The first open of a type gets as far as `info_logic`, and no memory for it. -/
def Answers.dangling (stoType : StoType) (answers : Answers) : Bool :=
  answers.path && answers.device && answers.priv &&
    (decide (stoType = .nand) || answers.found) && answers.opened &&
    answers.info && !answers.infoLogic

def Call.Calm : Call → Prop
  | .open_ (some stoType) answers => answers.dangling stoType = false
  | _ => True

/-! ### Accounts -/

/-- The blocks behind a handle. -/
def Sto.blocks (sto : Sto) (stoType : StoType) : List Nat :=
  (sto.handles stoType).elim [] (fun handle =>
    (sto.devices handle).elim [] (fun dev => dev.badMap.toList ++ dev.freed handle))

def Sto.allBlocks (sto : Sto) : List Nat := sto.blocks .nor ++ sto.blocks .nand ++ sto.lost

def StoType.other : StoType → StoType
  | .nor => .nand
  | .nand => .nor

/-- The open devices are those with handles, each counts the handles its users hold, and the memory is
that of the open devices and the maps that were lost. -/
structure Accounts (users : Users) : Prop where
  counts : ∀ stoType handle, users.sto.handles stoType = some handle →
    ∃ dev, users.sto.devices handle = some dev ∧ dev.stoType = stoType ∧
      dev.openCnt = users.held.count handle ∧ 0 < dev.openCnt
  held : ∀ handle ∈ users.held, ∃ stoType, users.sto.handles stoType = some handle
  owned : users.sto.heap.Owned users.sto.allBlocks
  fds : users.sto.fds =
    (users.sto.handles .nor).toList.length + (users.sto.handles .nand).toList.length

theorem accounts_start : Accounts Users.start := by
  refine ⟨?_, List.forall_mem_nil _, Heap.owned_empty, rfl⟩
  intro stoType handle shared
  cases shared

section Devices

variable {users : Users} {sto : Sto} {stoType : StoType} {handle : Nat} {dev : Dev}

theorem allBlocks_perm (sto : Sto) (stoType : StoType) :
    sto.allBlocks.Perm (sto.blocks stoType ++ (sto.blocks stoType.other ++ sto.lost)) := by
  rw [List.perm_iff_count, Sto.allBlocks]
  intro block
  cases stoType with
  | nor => simp only [List.count_append, StoType.other]; omega
  | nand => simp only [List.count_append, StoType.other]; omega

theorem blocks_open (shared : sto.handles stoType = some handle)
    (there : sto.devices handle = some dev) :
    sto.blocks stoType = dev.badMap.toList ++ dev.freed handle := by
  rw [Sto.blocks, shared, Option.elim_some, there, Option.elim_some]

theorem blocks_closed (none_ : sto.handles stoType = none) : sto.blocks stoType = [] := by
  rw [Sto.blocks, none_, Option.elim_none]

/-- A handle is that of one type. -/
theorem Accounts.apart (accounts : Accounts users) {other : StoType}
    (one : users.sto.handles stoType = some handle) (two : users.sto.handles other = some handle) :
    other = stoType := by
  obtain ⟨first, thereFirst, ofFirst, _⟩ := accounts.counts _ _ one
  obtain ⟨second, thereSecond, ofSecond, _⟩ := accounts.counts _ _ two
  cases thereFirst.symm.trans thereSecond
  exact ofSecond.symm.trans ofFirst

theorem Accounts.mem_blocks (accounts : Accounts users)
    (shared : users.sto.handles stoType = some handle) : handle ∈ users.sto.allBlocks := by
  obtain ⟨dev, there, _⟩ := accounts.counts _ _ shared
  rw [(allBlocks_perm users.sto stoType).mem_iff, blocks_open shared there, Dev.freed]
  simp

/-- The memory may be another one with the same blocks. -/
theorem Accounts.reheap {held : List Nat} (accounts : Accounts ⟨sto, held⟩) {heap : Heap}
    (owned : heap.Owned sto.allBlocks) : Accounts ⟨{ sto with heap }, held⟩ :=
  ⟨accounts.counts, accounts.held, owned, accounts.fds⟩

theorem blocks_recount (there : sto.devices handle = some dev) (openCnt : Nat) (other : StoType) :
    (sto.setDev handle (some { dev with openCnt })).blocks other = sto.blocks other := by
  rw [Sto.blocks, Sto.blocks]
  show (sto.handles other).elim [] _ = _
  cases sto.handles other with
  | none => rfl
  | some place =>
      rw [Option.elim_some, Option.elim_some]
      by_cases same : place = handle
      · rw [same, setDev_self, there]
        rfl
      · rw [setDev_ne sto _ same]

/-- One more handle of a device that is open, or one less. -/
theorem Accounts.recount {held : List Nat} (accounts : Accounts users)
    (shared : users.sto.handles stoType = some handle)
    (there : users.sto.devices handle = some dev) (some_ : 0 < held.count handle)
    (others : ∀ other, other ≠ handle → held.count other = users.held.count other) :
    Accounts ⟨users.sto.setDev handle (some { dev with openCnt := held.count handle }), held⟩ := by
  refine ⟨?counts, ?held, ?owned, accounts.fds⟩
  case counts =>
      intro other place found
      obtain ⟨last, thereLast, ofLast, counted, positive⟩ := accounts.counts other place found
      by_cases same : place = handle
      · subst same
        cases thereLast.symm.trans there
        exact ⟨_, setDev_self .., ofLast, rfl, some_⟩
      · refine ⟨last, ?_, ofLast, ?_, positive⟩
        · exact (setDev_ne users.sto _ same).trans thereLast
        · rw [counted, others place same]
  case held =>
      intro place member
      by_cases same : place = handle
      · exact ⟨stoType, same ▸ shared⟩
      · apply accounts.held place
        rw [← List.count_pos_iff, ← others place same, List.count_pos_iff]
        exact member
  case owned =>
      have blocks : (users.sto.setDev handle
          (some { dev with openCnt := held.count handle })).allBlocks = users.sto.allBlocks := by
        rw [Sto.allBlocks, blocks_recount there, blocks_recount there]
        rfl
      rw [blocks]
      exact accounts.owned

end Devices

section Attach

variable {sto : Sto} {held : List Nat} {stoType : StoType} {handle : Nat} {dev : Dev} {heap : Heap}

theorem blocks_congr {after : Sto} (handles : after.handles stoType = sto.handles stoType)
    (devices : ∀ place, sto.handles stoType = some place →
      after.devices place = sto.devices place) : after.blocks stoType = sto.blocks stoType := by
  rw [Sto.blocks, Sto.blocks, handles]
  cases found : sto.handles stoType with
  | none => rfl
  | some place => rw [Option.elim_some, Option.elim_some, devices place found]

theorem other_ne (stoType : StoType) : stoType.other ≠ stoType := by
  cases stoType <;> decide

/-- The descriptors that belong to the open devices. -/
theorem fds_split (handles : StoType → Option Nat) (stoType : StoType) :
    (handles .nor).toList.length + (handles .nand).toList.length =
      (handles stoType).toList.length + (handles stoType.other).toList.length := by
  cases stoType with
  | nor => rfl
  | nand => exact Nat.add_comm _ _

section Fields

variable (sto : Sto) (heap : Heap) (handle : Nat) (dev : Dev)

theorem attach_handles_self : (sto.attach heap handle dev).handles dev.stoType = some handle :=
  Function.update_self ..

theorem attach_handles_ne (apart : stoType ≠ dev.stoType) :
    (sto.attach heap handle dev).handles stoType = sto.handles stoType :=
  Function.update_of_ne apart ..

theorem attach_devices_self : (sto.attach heap handle dev).devices handle = some dev :=
  setDev_self ..

theorem attach_devices_ne {place : Nat} (apart : place ≠ handle) :
    (sto.attach heap handle dev).devices place = sto.devices place :=
  setDev_ne sto _ apart

theorem detach_handles_self : (sto.detach heap handle dev).handles dev.stoType = none :=
  Function.update_self ..

theorem detach_handles_ne (apart : stoType ≠ dev.stoType) :
    (sto.detach heap handle dev).handles stoType = sto.handles stoType :=
  Function.update_of_ne apart ..

theorem detach_devices_ne {place : Nat} (apart : place ≠ handle) :
    (sto.detach heap handle dev).devices place = sto.devices place :=
  setDev_ne sto _ apart

end Fields

/-- The blocks of the new device come to those that were there. -/
theorem allBlocks_attach (none_ : sto.handles dev.stoType = none)
    (away : ∀ place, sto.handles dev.stoType.other = some place → place ≠ handle) :
    (sto.attach heap handle dev).allBlocks.Perm
      (dev.badMap.toList ++ dev.freed handle ++ sto.allBlocks) := by
  have before := allBlocks_perm sto dev.stoType
  rw [blocks_closed none_, List.nil_append] at before
  have own : (sto.attach heap handle dev).blocks dev.stoType =
      dev.badMap.toList ++ dev.freed handle :=
    blocks_open (attach_handles_self ..) (attach_devices_self ..)
  have rest : (sto.attach heap handle dev).blocks dev.stoType.other =
      sto.blocks dev.stoType.other :=
    blocks_congr (attach_handles_ne _ _ _ _ (other_ne _))
      (fun place found => attach_devices_ne _ _ _ _ (away place found))
  calc (sto.attach heap handle dev).allBlocks
    _ |>.Perm ((sto.attach heap handle dev).blocks dev.stoType ++
        ((sto.attach heap handle dev).blocks dev.stoType.other ++ sto.lost)) :=
      allBlocks_perm _ dev.stoType
    _ = dev.badMap.toList ++ dev.freed handle ++ (sto.blocks dev.stoType.other ++ sto.lost) := by
      rw [own, rest]
    _ |>.Perm (dev.badMap.toList ++ dev.freed handle ++ sto.allBlocks) :=
      before.symm.append_left _

/-- The map of the device that is gone stays. -/
theorem allBlocks_detach
    (away : ∀ place, sto.handles dev.stoType.other = some place → place ≠ handle) :
    (sto.detach heap handle dev).allBlocks.Perm
      (dev.badMap.toList ++ (sto.blocks dev.stoType.other ++ sto.lost)) := by
  have own : (sto.detach heap handle dev).blocks dev.stoType = [] :=
    blocks_closed (detach_handles_self ..)
  have rest : (sto.detach heap handle dev).blocks dev.stoType.other =
      sto.blocks dev.stoType.other :=
    blocks_congr (detach_handles_ne _ _ _ _ (other_ne _))
      (fun place found => detach_devices_ne _ _ _ _ (away place found))
  calc (sto.detach heap handle dev).allBlocks
    _ |>.Perm ((sto.detach heap handle dev).blocks dev.stoType ++
        ((sto.detach heap handle dev).blocks dev.stoType.other ++
          (dev.badMap.toList ++ sto.lost))) :=
      allBlocks_perm _ dev.stoType
    _ = sto.blocks dev.stoType.other ++ dev.badMap.toList ++ sto.lost := by
      rw [own, rest, List.nil_append, List.append_assoc]
    _ |>.Perm (dev.badMap.toList ++ sto.blocks dev.stoType.other ++ sto.lost) :=
      List.perm_append_comm.append_right _
    _ = dev.badMap.toList ++ (sto.blocks dev.stoType.other ++ sto.lost) := List.append_assoc ..

/-- A device is there that was not. -/
theorem Accounts.adopt (accounts : Accounts ⟨sto, held⟩)
    (none_ : sto.handles dev.stoType = none) (one : dev.openCnt = 1)
    (fresh : handle ∉ sto.allBlocks)
    (owned : heap.Owned (dev.badMap.toList ++ dev.freed handle ++ sto.allBlocks)) :
    Accounts ⟨sto.attach heap handle dev, handle :: held⟩ := by
  have away {other : StoType} {place : Nat} (found : sto.handles other = some place) :
      place ≠ handle := by
    rintro rfl
    exact fresh (accounts.mem_blocks found)
  have unheld : handle ∉ held := by
    intro member
    obtain ⟨other, found⟩ := accounts.held handle member
    exact away found rfl
  have shared := attach_handles_self sto heap handle dev
  refine ⟨?counts, ?held, ?owned, ?fds⟩
  case counts =>
      intro other place found
      by_cases same : other = dev.stoType
      · subst same
        cases shared.symm.trans found
        refine ⟨dev, attach_devices_self .., rfl, ?_, one ▸ Nat.one_pos⟩
        rw [one, List.count_cons_self, List.count_eq_zero_of_not_mem unheld]
      · have old : sto.handles other = some place := (attach_handles_ne _ _ _ _ same).symm.trans found
        obtain ⟨last, before, ofLast, counted, positive⟩ := accounts.counts other place old
        refine ⟨last, (attach_devices_ne _ _ _ _ (away old)).trans before, ofLast, ?_, positive⟩
        rw [counted, List.count_cons_of_ne (away old).symm]
  case held =>
      rw [List.forall_mem_cons]
      refine ⟨⟨dev.stoType, shared⟩, ?_⟩
      intro place member
      obtain ⟨other, found⟩ := accounts.held place member
      refine ⟨other, (attach_handles_ne _ _ _ _ ?_).trans found⟩
      rintro rfl
      cases none_.symm.trans found
  case owned => exact owned.perm (allBlocks_attach none_ (fun _ => away)).symm
  case fds =>
      have counted := accounts.fds
      rw [fds_split _ dev.stoType] at counted ⊢
      rw [shared, attach_handles_ne _ _ _ _ (other_ne _)]
      rw [none_] at counted
      show sto.fds + 1 = _
      simp only [Option.toList_none, Option.toList_some, List.length_nil, List.length_singleton] at *
      omega

/-- A device is gone whose handle is held once. -/
theorem Accounts.release (accounts : Accounts ⟨sto, held⟩)
    (shared : sto.handles dev.stoType = some handle) (there : sto.devices handle = some dev)
    (last : held.count handle = 1)
    (owned : heap.Owned
      (dev.badMap.toList ++ (sto.blocks dev.stoType.other ++ sto.lost))) :
    Accounts ⟨sto.detach heap handle dev, held.erase handle⟩ := by
  have away {other : StoType} {place : Nat} (found : sto.handles other = some place)
      (apart : other ≠ dev.stoType) : place ≠ handle := by
    rintro rfl
    exact apart (accounts.apart shared found)
  have gone := detach_handles_self sto heap handle dev
  refine ⟨?counts, ?held, ?owned, ?fds⟩
  case counts =>
      intro other place found
      have apart : other ≠ dev.stoType := by
        rintro rfl
        cases gone.symm.trans found
      have old : sto.handles other = some place := (detach_handles_ne _ _ _ _ apart).symm.trans found
      obtain ⟨kept, before, ofKept, counted, positive⟩ := accounts.counts other place old
      refine ⟨kept, ?_, ofKept, ?_, positive⟩
      · exact (detach_devices_ne _ _ _ _ (away old apart)).trans before
      · rw [counted, List.count_erase_of_ne (away old apart)]
  case held =>
      intro place member
      have apart : place ≠ handle := by
        rintro rfl
        have counted := List.count_pos_iff.mpr member
        rw [List.count_erase_self, last] at counted
        omega
      obtain ⟨other, found⟩ := accounts.held place (List.mem_of_mem_erase member)
      refine ⟨other, (detach_handles_ne _ _ _ _ ?_).trans found⟩
      rintro rfl
      exact apart (Option.some.inj (found.symm.trans shared))
  case owned =>
      exact owned.perm (allBlocks_detach (fun _ found => away found (other_ne _))).symm
  case fds =>
      have counted := accounts.fds
      rw [fds_split _ dev.stoType] at counted ⊢
      rw [gone, detach_handles_ne _ _ _ _ (other_ne _)]
      rw [shared] at counted
      show sto.fds - 1 = _
      simp only [Option.toList_none, Option.toList_some, List.length_nil, List.length_singleton] at *
      omega

end Attach

/-! ### The calls -/

section Opening

variable {answers : Answers} {heap : Heap} {blocks : List Nat}

theorem construct_owned (answers : Answers) (owned : heap.Owned blocks) :
    (∃ after, construct answers heap = some (after, none) ∧ after.Owned blocks) ∨
      ∃ priv, (answers.device = true ∧ answers.priv = true) ∧
        construct answers heap = some (heap.alloc.alloc, some ⟨heap.next, priv⟩) ∧
        heap.alloc.alloc.Owned (priv :: heap.next :: blocks) := by
  rw [construct]
  by_cases device : answers.device
  · rw [if_pos device]
    by_cases priv : answers.priv
    · rw [if_pos priv]
      exact .inr ⟨_, ⟨device, priv⟩, rfl, owned.alloc.alloc⟩
    · rw [if_neg priv]
      obtain ⟨after, freed, rest, _⟩ := owned.alloc.free
      exact .inl ⟨after, by rw [freed, Option.map_some], rest⟩
  · rw [if_neg device]
    exact .inl ⟨heap, rfl, owned⟩

/-- The blocks of the three pointers. -/
def FlashInfo.taken (flash : FlashInfo) : List Nat :=
  flash.badMap.toList ++ (flash.info.toList ++ flash.infoLogic.toList)

theorem showFlashInfo_owned (owned : heap.Owned blocks)
    (calm : answers.info = true → answers.infoLogic = true) :
    ∃ after flash, showFlashInfo answers heap = some (after, flash) ∧
      after.Owned (flash.taken ++ blocks) := by
  have both : heap.alloc.alloc.Owned ([heap.next, heap.alloc.next] ++ blocks) :=
    owned.alloc.alloc.perm (.swap _ _ _)
  obtain ⟨dropped, freed, rest, _⟩ := both.freeAll
  have failed : (heap.alloc.alloc.freeAll [heap.next, heap.alloc.next]).map
      (fun heap => (heap, (⟨none, none, none⟩ : FlashInfo))) = some (dropped, ⟨none, none, none⟩) := by
    rw [freed, Option.map_some]
  rw [showFlashInfo, failed]
  cases info : answers.info with
  | false => exact ⟨heap, _, rfl, owned⟩
  | true =>
      rw [calm info]
      cases answers.getInfo with
      | false => exact ⟨dropped, _, rfl, rest⟩
      | true =>
          cases answers.nandFlash with
          | false => exact ⟨_, _, rfl, both⟩
          | true =>
              cases answers.badMap with
              | false => exact ⟨dropped, _, rfl, rest⟩
              | true => exact ⟨_, _, rfl, both.alloc⟩

/-- The header can be read where nothing is left dangling. -/
theorem parses_owned {stoType : StoType} {flash : FlashInfo}
    (owned : heap.Owned (flash.taken ++ blocks)) : parses answers stoType heap flash.info = true := by
  cases found : flash.info with
  | none => simp [parses]
  | some block =>
      have live : block ∈ heap.live := by
        rw [owned.all.mem_iff, FlashInfo.taken, found]
        simp
      simp [parses, live]

end Opening

section Calls

variable {users : Users} {stoType : StoType} {handle : Nat}

/-- A device is opened for the first time, or the open fails and leaves nothing behind. -/
theorem openNew_accounts (accounts : Accounts users) (none_ : users.sto.handles stoType = none)
    {answers : Answers} (calm : answers.dangling stoType = false) :
    ∃ sto ret made, openNew stoType answers users.sto = some (sto, ret, made) ∧
      Accounts ⟨sto, made.toList ++ users.held⟩ := by
  obtain ⟨sto, held⟩ := users
  have owned := accounts.owned
  rw [openNew]
  cases path : answers.path with
  | false => exact ⟨sto, _, _, if_pos rfl, accounts⟩
  | true =>
      rw [if_neg (by decide)]
      dsimp only
      rcases construct_owned answers owned.alloc with
        ⟨after, failed, rest⟩ | ⟨priv, memory, made, rest⟩
      · obtain ⟨last, freed, left_, _⟩ := rest.free
        refine ⟨{ sto with heap := last }, .invalidHandle, none, ?_, accounts.reheap left_⟩
        rw [failed, Option.bind_some]
        show (after.free sto.heap.next).map _ = _
        rw [freed, Option.map_some]
      · rw [made, Option.bind_some]
        dsimp only [Option.elim_some]
        by_cases missing : (stoType = .nor ∧ answers.found = false) ∨ answers.opened = false
        · have front : Heap.Owned _
              ([priv, sto.heap.alloc.next, sto.heap.next] ++ sto.allBlocks) := rest
          obtain ⟨last, freed, left_, _⟩ := front.freeAll
          refine ⟨{ sto with heap := last }, .invalidHandle, none, ?_, accounts.reheap left_⟩
          rw [if_pos missing, freed, Option.map_some]
        · have both : answers.info = true → answers.infoLogic = true := by
            simp only [not_or, not_and, Bool.not_eq_false] at missing
            have found : (decide (stoType = .nand) || answers.found) = true := by
              cases stoType with
              | nor => exact missing.1 rfl
              | nand => rfl
            simpa [Answers.dangling, path, memory, found, missing.2] using calm
          obtain ⟨last, flash, shown, all⟩ := showFlashInfo_owned rest both
          rw [if_neg missing, shown, Option.bind_some]
          dsimp only
          rw [if_pos (parses_owned all)]
          refine ⟨_, _, _, rfl, accounts.adopt none_ rfl ?_ (all.perm ?_)⟩
          · intro member
            exact absurd (owned.below _ member) (by simp [Heap.alloc])
          · rw [List.perm_iff_count]
            intro block
            simp only [FlashInfo.taken, Dev.freed, List.count_append, List.count_cons,
              List.count_nil]
            omega

/-- The last close frees the device but for its map. -/
theorem last_close_accounts (accounts : Accounts users) {dev : Dev}
    (shared : users.sto.handles dev.stoType = some handle)
    (there : users.sto.devices handle = some dev) (last : users.held.count handle = 1)
    (one : dev.openCnt = 1) :
    ∃ sto, alislstoClose handle users.sto = some sto ∧
      Accounts ⟨sto, users.held.erase handle⟩ := by
  have all := accounts.owned.perm (allBlocks_perm users.sto dev.stoType)
  rw [blocks_open shared there] at all
  have front : users.sto.heap.Owned (dev.freed handle ++
      (dev.badMap.toList ++ (users.sto.blocks dev.stoType.other ++ users.sto.lost))) := by
    refine all.perm ?_
    rw [List.perm_iff_count]
    intro block
    simp only [List.count_append]
    omega
  obtain ⟨heap, freed, rest, _⟩ := front.freeAll
  refine ⟨users.sto.detach heap handle dev, ?_, accounts.release shared there last rest⟩
  rw [alislstoClose, there, Option.bind_some, one]
  rw [if_neg (by decide), freed, Option.map_some]

/-- A close of a handle that is held. -/
theorem close_accounts (accounts : Accounts users) (member : handle ∈ users.held) :
    ∃ sto, alislstoClose handle users.sto = some sto ∧
      Accounts ⟨sto, users.held.erase handle⟩ := by
  obtain ⟨stoType, shared⟩ := accounts.held handle member
  obtain ⟨dev, there, ofType, counted, positive⟩ := accounts.counts _ _ shared
  subst ofType
  by_cases last : dev.openCnt = 1
  · exact last_close_accounts accounts shared there (counted.symm.trans last) last
  · have fewer : (users.held.erase handle).count handle = dev.openCnt - 1 := by
      rw [List.count_erase_self, counted]
    have more : dev.openCnt - 1 ≠ 0 := by omega
    have after := accounts.recount shared there (by omega)
      (fun other apart => List.count_erase_of_ne apart)
    rw [fewer] at after
    refine ⟨_, ?_, after⟩
    rw [alislstoClose, there, Option.bind_some, if_pos more]

/-- An open of a type. One that is open already is counted, whatever the answers are. -/
theorem open_accounts (accounts : Accounts users) {answers : Answers}
    (calm : users.sto.handles stoType = none → answers.dangling stoType = false) :
    ∃ sto ret made, alislstoOpen (some stoType) answers users.sto = some (sto, ret, made) ∧
      Accounts ⟨sto, made.toList ++ users.held⟩ := by
  rw [alislstoOpen, Option.elim_some]
  cases shared : users.sto.handles stoType with
  | none =>
      rw [Option.elim_none]
      exact openNew_accounts accounts shared (calm shared)
  | some handle =>
      obtain ⟨dev, there, ofType, counted, positive⟩ := accounts.counts _ _ shared
      have more : (handle :: users.held).count handle = dev.openCnt + 1 := by
        rw [List.count_cons_self, counted]
      have after := accounts.recount shared there (more ▸ Nat.succ_pos _)
        (fun other apart => List.count_cons_of_ne apart.symm)
      rw [more] at after
      refine ⟨_, .none, some handle, ?_, after⟩
      rw [Option.elim_some, there, Option.map_some]

theorem call_open_accounts (accounts : Accounts users) {answers : Answers}
    (calm : users.sto.handles stoType = none → answers.dangling stoType = false) :
    ∃ after, users.call (.open_ (some stoType) answers) = some after ∧ Accounts after := by
  obtain ⟨sto, ret, made, opened, after⟩ := open_accounts accounts calm
  refine ⟨_, ?_, after⟩
  rw [Users.call, opened, Option.map_some]

theorem call_close_accounts (accounts : Accounts users) (place : Nat) :
    ∃ after, users.call (.close place) = some after ∧ Accounts after := by
  rw [Users.call]
  cases found : users.held[place]? with
  | none => exact ⟨users, rfl, accounts⟩
  | some handle =>
      obtain ⟨sto, closed, after⟩ := close_accounts accounts (List.mem_of_getElem? found)
      refine ⟨_, ?_, after⟩
      rw [Option.elim_some, closed, Option.map_some]

/-- One call keeps the accounts. -/
theorem call_accounts (accounts : Accounts users) (call : Call) (calm : call.Calm) :
    ∃ after, users.call call = some after ∧ Accounts after := by
  cases call with
  | open_ stoType answers =>
      cases stoType with
      | none => exact ⟨_, rfl, accounts⟩
      | some stoType => exact call_open_accounts accounts (fun _ => calm)
  | close place => exact call_close_accounts accounts place

/-- A whole run keeps the accounts. -/
theorem run_accounts (accounts : Accounts users) (calls : List Call)
    (calm : ∀ call ∈ calls, call.Calm) :
    ∃ after, users.run calls = some after ∧ Accounts after := by
  induction calls generalizing users with
  | nil => exact ⟨users, rfl, accounts⟩
  | cons call calls ih =>
      rw [List.forall_mem_cons] at calm
      obtain ⟨middle, called, kept⟩ := call_accounts accounts call calm.1
      obtain ⟨after, ran, all⟩ := ih kept calm.2
      refine ⟨after, ?_, all⟩
      rw [Users.run, called, Option.bind_some, ran]

/-- What is left when nobody holds a handle. -/
theorem Accounts.all_closed (accounts : Accounts users) (nobody : users.held = []) :
    (∀ stoType, users.sto.handles stoType = none) ∧ users.sto.heap.live.Perm users.sto.lost ∧
      users.sto.fds = 0 := by
  have none_ (stoType : StoType) : users.sto.handles stoType = none := by
    rw [Option.eq_none_iff_forall_ne_some]
    intro handle shared
    obtain ⟨dev, there, ofType, counted, positive⟩ := accounts.counts _ _ shared
    rw [counted, nobody] at positive
    exact absurd positive (Nat.lt_irrefl 0)
  refine ⟨none_, ?_, ?_⟩
  · have all := accounts.owned.all
    rwa [Sto.allBlocks, blocks_closed (none_ .nor), blocks_closed (none_ .nand)] at all
  · rw [accounts.fds, none_, none_]
    rfl

/-- The users' opens and closes neither free a block twice nor use one that is freed, each device is
counted as often as it is held, and once every handle is closed only bad-block maps are left, as long
as no first open misses the memory of `info_logic`. -/
theorem users_accounted (calls : List Call) (calm : ∀ call ∈ calls, call.Calm) :
    ∃ users, Users.start.run calls = some users ∧ Accounts users ∧
      (users.held = [] → (∀ stoType, users.sto.handles stoType = none) ∧
        users.sto.heap.live.Perm users.sto.lost ∧ users.sto.fds = 0) := by
  obtain ⟨users, ran, accounts⟩ := run_accounts accounts_start calls calm
  exact ⟨users, ran, accounts, accounts.all_closed⟩

/-- Two opens of a NOR flash that share the device, and their closes. -/
def sharedOpens : List Call :=
  let answers : Answers := ⟨true, true, true, true, true, true, true, true, false, false, false⟩
  [.open_ (some .nor) answers, .open_ (some .nor) answers, .close 0, .close 0]

theorem users_accounted_shared :
    (∀ call ∈ sharedOpens, call.Calm) ∧ ∃ users, Users.start.run sharedOpens = some users ∧
      Accounts users ∧ (users.held = [] → (∀ stoType, users.sto.handles stoType = none) ∧
        users.sto.heap.live.Perm users.sto.lost ∧ users.sto.fds = 0) := by
  have calm : ∀ call ∈ sharedOpens, call.Calm := by
    simp [sharedOpens, Call.Calm, Answers.dangling]
  exact ⟨calm, users_accounted sharedOpens calm⟩

/-! ### The memory for `info_logic` -/

theorem showFlashInfo_dangling {answers : Answers} {heap : Heap} {blocks : List Nat}
    (owned : heap.Owned blocks) (info : answers.info = true) (missing : answers.infoLogic = false) :
    ∃ after, showFlashInfo answers heap = some (after, ⟨some heap.next, none, none⟩) ∧
      after.Owned blocks := by
  obtain ⟨after, freed, rest, _⟩ := owned.alloc.free
  refine ⟨after, ?_, rest⟩
  rw [showFlashInfo, if_neg (by rw [info]; decide), if_pos missing, freed, Option.map_some]

/-- The last close frees `info` although it is freed. -/
theorem close_dangling {sto : Sto} {dev : Dev} {block : Nat} {blocks : List Nat}
    (there : sto.devices handle = some dev) (one : dev.openCnt = 1) (info : dev.info = some block)
    (owned : sto.heap.Owned blocks) (freed : block ∉ blocks) : alislstoClose handle sto = none := by
  have fault : sto.heap.freeAll (dev.freed handle) = none := by
    rw [Dev.freed, info]
    show (sto.heap.free block).bind _ = none
    rw [owned.free_fault freed, Option.bind_none]
  rw [alislstoClose, there, Option.bind_some, one, if_neg (by decide), fault, Option.map_none]

/-- Such an open leaves `info` freed and set, unless `storage_parse` has read it already. -/
theorem openNew_dangling {sto : Sto} {answers : Answers} {blocks : List Nat}
    (owned : sto.heap.Owned blocks) (dangling : answers.dangling stoType = true) :
    openNew stoType answers sto = none ∨
      ∃ heap dev block others, openNew stoType answers sto =
          some (sto.attach heap sto.heap.alloc.next dev, .none, some sto.heap.alloc.next) ∧
        dev.openCnt = 1 ∧ dev.info = some block ∧ heap.Owned others ∧ block ∉ others := by
  simp only [Answers.dangling, Bool.and_eq_true, Bool.or_eq_true, decide_eq_true_eq,
    Bool.not_eq_true'] at dangling
  obtain ⟨⟨⟨⟨⟨⟨path, device⟩, priv⟩, found⟩, opened⟩, info⟩, missing⟩ := dangling
  have reached : ¬((stoType = .nor ∧ answers.found = false) ∨ answers.opened = false) := by
    rintro (⟨rfl, lost⟩ | closed)
    · rcases found with other | there
      · cases other
      · cases there.symm.trans lost
    · cases opened.symm.trans closed
  have made : construct answers sto.heap.alloc = some (sto.heap.alloc.alloc.alloc,
      some ⟨sto.heap.alloc.next, sto.heap.alloc.alloc.next⟩) := by
    rw [construct, if_pos device, if_pos priv]
  have before := owned.alloc.alloc.alloc
  obtain ⟨after, shown, rest⟩ := showFlashInfo_dangling before info missing
  rw [openNew, if_neg (by rw [path]; decide)]
  dsimp only
  rw [made, Option.bind_some]
  dsimp only [Option.elim_some]
  rw [if_neg reached, shown, Option.bind_some]
  by_cases parsed : parses answers stoType after (some sto.heap.alloc.alloc.alloc.next)
  · refine .inr ⟨after, _, _, _, if_pos parsed, rfl, rfl, rest, ?_⟩
    exact fun member => Nat.lt_irrefl _ (before.below _ member)
  · exact .inl (if_neg parsed)

/-- It is read or freed again. -/
theorem dangling_faults (accounts : Accounts users) {answers : Answers}
    (none_ : users.sto.handles stoType = none) (dangling : answers.dangling stoType = true) :
    users.run [.open_ (some stoType) answers, .close 0] = none := by
  rw [Users.run, Users.call, alislstoOpen, Option.elim_some, none_, Option.elim_none]
  rcases openNew_dangling accounts.owned dangling with
    fault | ⟨heap, dev, block, others, opened, one, info, owned, freed⟩
  · rw [fault]
    rfl
  · have closed : alislstoClose users.sto.heap.alloc.next
        (users.sto.attach heap users.sto.heap.alloc.next dev) = none :=
      close_dangling (setDev_self ..) one info owned freed
    rw [opened, Option.map_some, Option.bind_some, Users.run]
    show ((alislstoClose users.sto.heap.alloc.next _).map _).bind _ = none
    rw [closed]
    rfl

/-- After any run without one, an open and a close go wrong exactly where the open is the first of its
type and misses the memory of `info_logic`. -/
theorem open_close_faults_iff (calls : List Call) (calm : ∀ call ∈ calls, call.Calm)
    (ran : Users.start.run calls = some users) (stoType : StoType) (answers : Answers) :
    users.run [.open_ (some stoType) answers, .close 0] = none ↔
      users.sto.handles stoType = none ∧ answers.dangling stoType = true := by
  obtain ⟨reached, same, accounts⟩ := run_accounts accounts_start calls calm
  cases same.symm.trans ran
  constructor
  · intro faults
    by_contra apart
    have calm : users.sto.handles stoType = none → answers.dangling stoType = false := by
      simpa using apart
    obtain ⟨middle, opened, kept⟩ := call_open_accounts accounts calm
    obtain ⟨after, closed, _⟩ := call_close_accounts kept 0
    rw [Users.run, opened, Option.bind_some, Users.run, closed, Option.bind_some, Users.run] at faults
    cases faults
  · intro both
    exact dangling_faults accounts both.1 both.2

end Calls

theorem open_close_faults_iff_first :
    Users.start.run [.open_ (some .nor) ⟨true, true, true, true, true, true, false, true, false,
        false, false⟩, .close 0] = none ↔
      Users.start.sto.handles .nor = none ∧ Answers.dangling .nor ⟨true, true, true, true, true, true,
        false, true, false, false, false⟩ = true :=
  open_close_faults_iff [] (List.forall_mem_nil _) rfl .nor _

end Alisl.Storage.Lifetime
