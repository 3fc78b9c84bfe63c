import Alisl.Base.Machine
import Alisl.Base.Circular

/-! The network cache of the NET plugin: `write_data` fills it from the transfer
thread, `url_read_cache` empties it from the source thread, each in one critical
section of `cache_mutex`.

The buffer is any memory, so that a copy that leaves it has something to read.
What follows such a copy is undefined, and a run ends there. -/

namespace Alisl.Upgrade.Net

open Alisl.Base

def cacheBufSize : Nat := 100 * 1024

inductive Method where
  | pieceByPiece
  | oneShot
  deriving DecidableEq, Repr

structure NetCache where
  cacheBuff : Memory
  cacheSize : Nat
  unreadDataLen : Nat
  rdPos : Nat
  wrPos : Nat
  fileOffset : Nat

/-- The part of `cache_buff` that one memcpy touches. -/
structure CacheCopy where
  offset : Nat
  len : Nat
  deriving DecidableEq, Repr

def CacheCopy.Inside (size : Nat) (copy : CacheCopy) : Prop := copy.offset + copy.len ≤ size

instance (size : Nat) (copy : CacheCopy) : Decidable (copy.Inside size) :=
  inferInstanceAs (Decidable (_ ≤ _))

/-- `write_data` behind its wait for room. -/
def NetCache.writeData (nci : NetCache) (data : List Byte) : NetCache × List CacheCopy :=
  let dataSize := data.length
  let filled := { nci with unreadDataLen := nci.unreadDataLen + dataSize }
  if nci.rdPos ≤ nci.wrPos then
    let lenToEnd := nci.cacheSize - nci.wrPos
    if dataSize ≤ lenToEnd then
      ({ filled with
          cacheBuff := store nci.cacheBuff nci.wrPos data
          wrPos := nci.wrPos + dataSize },
        [⟨nci.wrPos, dataSize⟩])
    else
      ({ filled with
          cacheBuff :=
            store (store nci.cacheBuff nci.wrPos (data.take lenToEnd)) 0 (data.drop lenToEnd)
          wrPos := dataSize - lenToEnd },
        [⟨nci.wrPos, lenToEnd⟩, ⟨0, dataSize - lenToEnd⟩])
  else
    ({ filled with
        cacheBuff := store nci.cacheBuff nci.wrPos data
        wrPos := nci.wrPos + dataSize },
      [⟨nci.wrPos, dataSize⟩])

/-- `url_read_cache` behind its wait for data. -/
def NetCache.urlReadCache (nci : NetCache) (size : Nat) :
    NetCache × List Byte × List CacheCopy :=
  let emptied := { nci with
    unreadDataLen := nci.unreadDataLen - size
    fileOffset := nci.fileOffset + size }
  if nci.rdPos ≤ nci.wrPos then
    ({ emptied with rdPos := nci.rdPos + size },
      slice nci.cacheBuff nci.rdPos size, [⟨nci.rdPos, size⟩])
  else
    let lenToEnd := nci.cacheSize - nci.rdPos
    if size ≤ lenToEnd then
      ({ emptied with rdPos := nci.rdPos + size },
        slice nci.cacheBuff nci.rdPos size, [⟨nci.rdPos, size⟩])
    else
      ({ emptied with rdPos := size - lenToEnd },
        slice nci.cacheBuff nci.rdPos lenToEnd ++ slice nci.cacheBuff 0 (size - lenToEnd),
        [⟨nci.rdPos, lenToEnd⟩, ⟨0, size - lenToEnd⟩])

/-- The fields of `alislupg_desc_t` that `write_data` uses. -/
structure Desc where
  method : Method
  percent : Int
  deriving DecidableEq, Repr

structure Transfer where
  cache : NetCache
  urlFileSize : Int
  urlAbort : Bool
  desc : Option Desc
  netDownloadFinish : Bool

inductive WriteResult where
  | abort
  | poll
  | divideByZero
  | accept (net : Transfer) (copies : List CacheCopy)

/-- The message of the one shot mode; a length below 100 has no percent. -/
def Transfer.progress (net : Transfer) : Option Transfer :=
  match net.desc with
  | some ⟨.oneShot, _⟩ =>
      let totalSize := net.urlFileSize
      let unread : Int := net.cache.unreadDataLen
      if totalSize = 0 then some net
      else if totalSize ≤ unread then
        some { net with desc := some ⟨.oneShot, 100⟩, netDownloadFinish := true }
      else if totalSize.tdiv 100 = 0 then none
      else some { net with desc := some ⟨.oneShot, unread.tdiv (totalSize.tdiv 100)⟩ }
  | _ => some net

def Transfer.writeData (net : Transfer) (data : List Byte) : WriteResult :=
  if net.urlAbort then .abort
  else if net.cache.cacheSize < data.length + net.cache.unreadDataLen then .poll
  else
    let (cache, copies) := net.cache.writeData data
    match { net with cache }.progress with
    | none => .divideByZero
    | some net => .accept net copies

inductive ReadResult where
  | invalidParam
  | poll
  | got (net : Transfer) (bytes : List Byte) (copies : List CacheCopy)

def Transfer.urlReadCache (net : Transfer) (size : Nat) : ReadResult :=
  if size = 0 then .invalidParam
  else if net.cache.unreadDataLen < size then .poll
  else
    let (cache, bytes, copies) := net.cache.urlReadCache size
    .got { net with cache } bytes copies

/-- What `url_open` leaves behind, over its own buffer or over the one it was
switched to. -/
def NetCache.opened (cacheBuff : Memory) (cacheSize : Nat) : NetCache :=
  ⟨cacheBuff, cacheSize, 0, 0, 0, 0⟩

/-- The cache with the history of its bytes and of its copies. -/
structure State where
  net : Transfer
  accepted : List Byte
  returned : List Byte
  copies : List CacheCopy

inductive Label where
  | write (data : List Byte)
  | read (size : Nat)
  | setFileSize (length : Int)
  | setAbort (abort : Bool)

def State.AllInside (state : State) : Prop :=
  ∀ copy ∈ state.copies, copy.Inside state.net.cache.cacheSize

instance (state : State) : Decidable state.AllInside :=
  inferInstanceAs (Decidable (∀ _ ∈ _, _))

def act (state : State) : Label → Option State
  | .write data =>
      match state.net.writeData data with
      | .abort => some state
      | .poll => none
      | .divideByZero => none
      | .accept net copies =>
          some { state with
            net
            accepted := state.accepted ++ data
            copies := state.copies ++ copies }
  | .read size =>
      match state.net.urlReadCache size with
      | .invalidParam => some state
      | .poll => none
      | .got net bytes copies =>
          some { state with
            net
            returned := state.returned ++ bytes
            copies := state.copies ++ copies }
  | .setFileSize length => some { state with net := { state.net with urlFileSize := length } }
  | .setAbort abort => some { state with net := { state.net with urlAbort := abort } }

def machine : Machine State Label where
  Initial state :=
    ∃ cacheBuff cacheSize desc finish, 0 < cacheSize ∧
      state = ⟨⟨NetCache.opened cacheBuff cacheSize, 0, false, desc, finish⟩, [], [], []⟩
  next state label := if state.AllInside then act state label else none

/-- What leaves the cache is the beginning of what came in, and no copy touched
a byte outside of the buffer. -/
structure Fifo (state : State) : Prop where
  ordered : state.returned <+: state.accepted
  inside : state.AllInside

/-- The cache is exactly full with both positions in one place, and the read
goes beyond the end of the buffer. -/
def Overruns (nci : NetCache) (size : Nat) : Prop :=
  nci.wrPos = nci.rdPos ∧ nci.unreadDataLen = nci.cacheSize ∧ nci.cacheSize < nci.rdPos + size

instance (nci : NetCache) (size : Nat) : Decidable (Overruns nci size) :=
  inferInstanceAs (Decidable (_ ∧ _ ∧ _))

def Meets (state : State) : Label → Prop
  | .read size => ¬ Overruns state.net.cache size
  | _ => True

instance (state : State) (label : Label) : Decidable (Meets state label) :=
  match label with
  | .write _ => inferInstanceAs (Decidable True)
  | .read _ => inferInstanceAs (Decidable (¬ _))
  | .setFileSize _ => inferInstanceAs (Decidable True)
  | .setAbort _ => inferInstanceAs (Decidable True)

/-- The cache as a queue: the unread window holds the pending bytes. -/
structure Queued (nci : NetCache) (pending : List Byte) : Prop where
  rdInside : nci.rdPos ≤ nci.cacheSize
  wrInside : nci.wrPos ≤ nci.cacheSize
  bounded : nci.unreadDataLen ≤ nci.cacheSize
  position : nci.rdPos + nci.unreadDataLen = nci.wrPos ∨
    nci.rdPos + nci.unreadDataLen = nci.wrPos + nci.cacheSize
  contents : window nci.cacheBuff nci.cacheSize nci.rdPos nci.unreadDataLen = pending

theorem Queued.length {nci : NetCache} {pending : List Byte} (queued : Queued nci pending) :
    nci.unreadDataLen = pending.length := by
  rw [← queued.contents, window_length]

theorem queued_opened (cacheBuff : Memory) (cacheSize : Nat) :
    Queued (NetCache.opened cacheBuff cacheSize) [] where
  rdInside := Nat.zero_le _
  wrInside := Nat.zero_le _
  bounded := Nat.zero_le _
  position := .inl rfl
  contents := rfl

/-- The window behind the unread bytes starts at the write position. -/
theorem Queued.window_behind {nci : NetCache} {pending : List Byte} (queued : Queued nci pending)
    (memory : Memory) (len : Nat) :
    window memory nci.cacheSize (nci.rdPos + nci.unreadDataLen) len =
      window memory nci.cacheSize nci.wrPos len := by
  rcases queued.position with plain | wrapped
  · rw [plain]
  · rw [wrapped, window_add_size]

/-- A copy to the write position that ends inside the buffer. -/
theorem Queued.store_fits {nci : NetCache} {pending data : List Byte} (queued : Queued nci pending)
    (room : data.length + nci.unreadDataLen ≤ nci.cacheSize)
    (fits : nci.wrPos + data.length ≤ nci.cacheSize) :
    Queued { nci with
      unreadDataLen := nci.unreadDataLen + data.length
      cacheBuff := store nci.cacheBuff nci.wrPos data
      wrPos := nci.wrPos + data.length } (pending ++ data) := by
  have rdInside := queued.rdInside
  have position := queued.position
  constructor
  case rdInside => exact rdInside
  case wrInside => exact fits
  case bounded =>
      simp only
      omega
  case position =>
      simp only
      omega
  case contents =>
      have kept : window (store nci.cacheBuff nci.wrPos data) nci.cacheSize nci.rdPos
          nci.unreadDataLen = pending := by
        rw [window_store_apart _ _ _ _ _ _ rdInside queued.bounded (by omega) (by omega)]
        exact queued.contents
      simp only [window_add, kept, queued.window_behind]
      rw [window_fits _ _ _ _ fits, slice_store]

/-- A copy to the write position that is split at the end of the buffer. -/
theorem Queued.store_wraps {nci : NetCache} {pending data : List Byte} (queued : Queued nci pending)
    (room : data.length + nci.unreadDataLen ≤ nci.cacheSize)
    (wraps : nci.cacheSize < nci.wrPos + data.length) :
    Queued { nci with
      unreadDataLen := nci.unreadDataLen + data.length
      cacheBuff :=
        store (store nci.cacheBuff nci.wrPos (data.take (nci.cacheSize - nci.wrPos))) 0
          (data.drop (nci.cacheSize - nci.wrPos))
      wrPos := data.length - (nci.cacheSize - nci.wrPos) } (pending ++ data) := by
  have rdInside := queued.rdInside
  have wrInside := queued.wrInside
  have position := queued.position
  have front : (data.take (nci.cacheSize - nci.wrPos)).length = nci.cacheSize - nci.wrPos := by
    rw [List.length_take]
    omega
  have back : (data.drop (nci.cacheSize - nci.wrPos)).length =
      data.length - (nci.cacheSize - nci.wrPos) := List.length_drop
  constructor
  case rdInside => exact rdInside
  case wrInside =>
      simp only
      omega
  case bounded =>
      simp only
      omega
  case position =>
      simp only
      omega
  case contents =>
      simp only [window_add, queued.window_behind]
      congr 1
      · rw [window_store_apart _ _ _ _ _ _ rdInside queued.bounded (by omega) (by omega),
          window_store_apart _ _ _ _ _ _ rdInside queued.bounded (by omega) (by omega)]
        exact queued.contents
      · rw [window_wraps _ _ _ _ wrInside (by omega) (by omega),
          slice_store_of_length _ _ _ _ back, slice_store_apart _ _ _ _ _ (by omega),
          slice_store_of_length _ _ _ _ front, List.take_append_drop]

theorem Queued.writeData {nci : NetCache} {pending : List Byte} (queued : Queued nci pending)
    (data : List Byte) (room : data.length + nci.unreadDataLen ≤ nci.cacheSize) :
    Queued (nci.writeData data).1 (pending ++ data) ∧
      ∀ copy ∈ (nci.writeData data).2, copy.Inside nci.cacheSize := by
  have rdInside := queued.rdInside
  have wrInside := queued.wrInside
  have position := queued.position
  unfold NetCache.writeData
  by_cases ahead : nci.rdPos ≤ nci.wrPos
  · by_cases fits : data.length ≤ nci.cacheSize - nci.wrPos
    · simp only [ahead, fits, if_true]
      constructor
      · exact queued.store_fits room (by omega)
      · simp only [List.mem_singleton, forall_eq, CacheCopy.Inside]
        omega
    · simp only [ahead, fits, if_true, if_false]
      constructor
      · exact queued.store_wraps room (by omega)
      · simp only [List.mem_cons, List.not_mem_nil, or_false, forall_eq_or_imp, forall_eq,
          CacheCopy.Inside]
        omega
  · -- behind the reader, the room ends before the read position
    simp only [ahead, if_false]
    constructor
    · exact queued.store_fits room (by omega)
    · simp only [List.mem_singleton, forall_eq, CacheCopy.Inside]
      omega

/-- Splitting the unread window at a read. -/
theorem Queued.contents_split {nci : NetCache} {pending : List Byte} (queued : Queued nci pending)
    (size : Nat) (enough : size ≤ nci.unreadDataLen) :
    window nci.cacheBuff nci.cacheSize nci.rdPos size = pending.take size ∧
      window nci.cacheBuff nci.cacheSize (nci.rdPos + size) (nci.unreadDataLen - size) =
        pending.drop size := by
  have whole := queued.contents
  have length : nci.unreadDataLen = size + (nci.unreadDataLen - size) := by omega
  rw [length, window_add] at whole
  rw [← whole]
  constructor
  · rw [List.take_left' (window_length _ _ _ _)]
  · rw [List.drop_left' (window_length _ _ _ _)]

theorem Queued.read_fits {nci : NetCache} {pending : List Byte} (queued : Queued nci pending)
    (size : Nat) (enough : size ≤ nci.unreadDataLen) (fits : nci.rdPos + size ≤ nci.cacheSize) :
    Queued { nci with
        unreadDataLen := nci.unreadDataLen - size
        fileOffset := nci.fileOffset + size
        rdPos := nci.rdPos + size } (pending.drop size) ∧
      slice nci.cacheBuff nci.rdPos size = pending.take size := by
  have position := queued.position
  have bounded := queued.bounded
  rcases queued.contents_split size enough with ⟨read, left⟩
  constructor
  · constructor
    case rdInside => exact fits
    case wrInside => exact queued.wrInside
    case bounded =>
        simp only
        omega
    case position =>
        simp only
        omega
    case contents => exact left
  · rw [← window_fits _ _ _ _ fits]
    exact read

theorem Queued.read_wraps {nci : NetCache} {pending : List Byte} (queued : Queued nci pending)
    (size : Nat) (enough : size ≤ nci.unreadDataLen) (wraps : nci.cacheSize < nci.rdPos + size) :
    Queued { nci with
        unreadDataLen := nci.unreadDataLen - size
        fileOffset := nci.fileOffset + size
        rdPos := size - (nci.cacheSize - nci.rdPos) } (pending.drop size) ∧
      slice nci.cacheBuff nci.rdPos (nci.cacheSize - nci.rdPos) ++
          slice nci.cacheBuff 0 (size - (nci.cacheSize - nci.rdPos)) = pending.take size := by
  have rdInside := queued.rdInside
  have wrInside := queued.wrInside
  have position := queued.position
  have bounded := queued.bounded
  have around : nci.rdPos + size = size - (nci.cacheSize - nci.rdPos) + nci.cacheSize := by omega
  rcases queued.contents_split size enough with ⟨read, left⟩
  constructor
  · constructor
    case rdInside =>
        simp only
        omega
    case wrInside => exact wrInside
    case bounded =>
        simp only
        omega
    case position =>
        simp only
        omega
    case contents =>
        rw [around, window_add_size] at left
        exact left
  · rw [← window_wraps _ _ _ _ rdInside (by omega) (by omega)]
    exact read

theorem Queued.urlReadCache {nci : NetCache} {pending : List Byte} (queued : Queued nci pending)
    (size : Nat) (enough : size ≤ nci.unreadDataLen) (meets : ¬ Overruns nci size) :
    Queued (nci.urlReadCache size).1 (pending.drop size) ∧
      (nci.urlReadCache size).2.1 = pending.take size ∧
      ∀ copy ∈ (nci.urlReadCache size).2.2, copy.Inside nci.cacheSize := by
  have rdInside := queued.rdInside
  have wrInside := queued.wrInside
  have bounded := queued.bounded
  have position := queued.position
  unfold NetCache.urlReadCache
  by_cases ahead : nci.rdPos ≤ nci.wrPos
  · -- here a read passes the end only out of an exactly full cache
    have fits : nci.rdPos + size ≤ nci.cacheSize := by
      by_contra beyond
      exact meets ⟨by omega, by omega, by omega⟩
    rcases queued.read_fits size enough fits with ⟨after, bytes⟩
    simp only [ahead, if_true, List.mem_singleton, forall_eq]
    exact ⟨after, bytes, fits⟩
  · by_cases fits : size ≤ nci.cacheSize - nci.rdPos
    · have fits' : nci.rdPos + size ≤ nci.cacheSize := by omega
      rcases queued.read_fits size enough fits' with ⟨after, bytes⟩
      simp only [ahead, fits, if_true, if_false, List.mem_singleton, forall_eq]
      exact ⟨after, bytes, fits'⟩
    · rcases queued.read_wraps size enough (by omega) with ⟨after, bytes⟩
      simp only [ahead, fits, if_false, List.mem_cons, List.not_mem_nil, or_false,
        forall_eq_or_imp, forall_eq, CacheCopy.Inside]
      exact ⟨after, bytes, by omega, by omega⟩

/-- A read that overruns is one copy from the read position on. -/
theorem urlReadCache_overruns {nci : NetCache} {size : Nat} (overruns : Overruns nci size) :
    ¬ ∀ copy ∈ (nci.urlReadCache size).2.2, copy.Inside nci.cacheSize := by
  rcases overruns with ⟨same, _, beyond⟩
  have ahead : nci.rdPos ≤ nci.wrPos := by omega
  simp only [NetCache.urlReadCache, ahead, if_true, List.mem_singleton, forall_eq,
    CacheCopy.Inside]
  omega

theorem writeData_cacheSize (nci : NetCache) (data : List Byte) :
    (nci.writeData data).1.cacheSize = nci.cacheSize := by
  simp only [NetCache.writeData]
  split
  · split <;> rfl
  · rfl

theorem urlReadCache_cacheSize (nci : NetCache) (size : Nat) :
    (nci.urlReadCache size).1.cacheSize = nci.cacheSize := by
  simp only [NetCache.urlReadCache]
  split
  · rfl
  · split <;> rfl

/-- The progress message does not touch the cache. -/
theorem progress_cache {net after : Transfer} (reported : net.progress = some after) :
    after.cache = net.cache := by
  simp only [Transfer.progress] at reported
  split at reported
  · split_ifs at reported <;> cases reported <;> rfl
  · cases reported
    rfl

theorem writeData_accept {net after : Transfer} {data : List Byte} {copies : List CacheCopy}
    (accepted : net.writeData data = .accept after copies) :
    data.length + net.cache.unreadDataLen ≤ net.cache.cacheSize ∧
      after.cache = (net.cache.writeData data).1 ∧ copies = (net.cache.writeData data).2 := by
  unfold Transfer.writeData at accepted
  by_cases aborted : net.urlAbort = true
  · simp [aborted] at accepted
  · by_cases full : net.cache.cacheSize < data.length + net.cache.unreadDataLen
    · simp [aborted, full] at accepted
    · simp only [aborted, full, if_false, Bool.false_eq_true] at accepted
      split at accepted
      · cases accepted
      case h_2 reported =>
          cases accepted
          exact ⟨by omega, progress_cache reported, rfl⟩

theorem urlReadCache_got {net after : Transfer} {size : Nat} {bytes : List Byte}
    {copies : List CacheCopy} (read : net.urlReadCache size = .got after bytes copies) :
    size ≠ 0 ∧ size ≤ net.cache.unreadDataLen ∧ after.cache = (net.cache.urlReadCache size).1 ∧
      bytes = (net.cache.urlReadCache size).2.1 ∧ copies = (net.cache.urlReadCache size).2.2 := by
  unfold Transfer.urlReadCache at read
  by_cases empty : size = 0
  · simp [empty] at read
  · by_cases few : net.cache.unreadDataLen < size
    · simp [empty, few] at read
    · simp only [empty, few, if_false] at read
      cases read
      exact ⟨empty, by omega, rfl, rfl, rfl⟩

theorem urlReadCache_fileOffset (nci : NetCache) (size : Nat) :
    (nci.urlReadCache size).1.fileOffset = nci.fileOffset + size := by
  simp only [NetCache.urlReadCache]
  split
  · rfl
  · split <;> rfl

theorem writeData_fileOffset (nci : NetCache) (data : List Byte) :
    (nci.writeData data).1.fileOffset = nci.fileOffset := by
  simp only [NetCache.writeData]
  split
  · split <;> rfl
  · rfl

/-- A read that returns takes bytes of its size off the cache. -/
theorem act_read {state after : State} {size : Nat} (some_ : size ≠ 0)
    (moved : act state (.read size) = some after) :
    size ≤ state.net.cache.unreadDataLen ∧
      after.net.cache = (state.net.cache.urlReadCache size).1 ∧
      after.returned = state.returned ++ (state.net.cache.urlReadCache size).2.1 ∧
      after.accepted = state.accepted := by
  simp only [act] at moved
  cases result : state.net.urlReadCache size with
  | invalidParam =>
      simp only [Transfer.urlReadCache, some_, if_false] at result
      split at result <;> cases result
  | poll => simp [result] at moved
  | got net bytes copies =>
      simp only [result] at moved
      cases moved
      rcases urlReadCache_got result with ⟨_, enough, cache, read, _⟩
      exact ⟨enough, cache, by rw [read], rfl⟩

theorem act_write {state after : State} {data : List Byte}
    (moved : act state (.write data) = some after) :
    after.returned = state.returned ∧
      after.net.cache.fileOffset = state.net.cache.fileOffset ∧
      (after.accepted = state.accepted ∨ after.accepted = state.accepted ++ data) := by
  simp only [act] at moved
  cases result : state.net.writeData data with
  | abort =>
      simp only [result] at moved
      cases moved
      exact ⟨rfl, rfl, .inl rfl⟩
  | poll => simp [result] at moved
  | divideByZero => simp [result] at moved
  | accept net copies =>
      simp only [result] at moved
      cases moved
      rcases writeData_accept result with ⟨_, cache, _⟩
      exact ⟨rfl, by rw [cache, writeData_fileOffset], .inr rfl⟩

/-- Invariant: the cache holds what was accepted and not yet returned. -/
structure Holding (state : State) : Prop where
  queue : ∃ pending, Queued state.net.cache pending ∧ state.accepted = state.returned ++ pending
  inside : state.AllInside

theorem Holding.fifo {state : State} (holding : Holding state) : Fifo state := by
  rcases holding.queue with ⟨pending, _, split⟩
  exact ⟨⟨pending, split.symm⟩, holding.inside⟩

theorem holding_initial (state : State) (start : machine.Initial state) : Holding state := by
  rcases start with ⟨cacheBuff, cacheSize, desc, finish, _, rfl⟩
  constructor
  case queue => exact ⟨[], queued_opened cacheBuff cacheSize, rfl⟩
  case inside =>
      intro copy member
      cases member

/-- New copies inside, and a buffer of the same size, keep all copies inside. -/
theorem allInside_append {state : State} {net : Transfer} {copies : List CacheCopy}
    (inside : state.AllInside) (same : net.cache.cacheSize = state.net.cache.cacheSize)
    (added : ∀ copy ∈ copies, copy.Inside state.net.cache.cacheSize) (copy : CacheCopy)
    (member : copy ∈ state.copies ++ copies) : copy.Inside net.cache.cacheSize := by
  rw [same]
  rcases List.mem_append.mp member with old | new
  · exact inside copy old
  · exact added copy new

theorem holding_write {state after : State} {data : List Byte} (holding : Holding state)
    (moved : act state (.write data) = some after) : Holding after := by
  simp only [act] at moved
  cases result : state.net.writeData data with
  | abort =>
      simp only [result] at moved
      cases moved
      exact holding
  | poll => simp [result] at moved
  | divideByZero => simp [result] at moved
  | accept net copies =>
      simp only [result] at moved
      cases moved
      rcases writeData_accept result with ⟨room, cache, copied⟩
      rcases holding.queue with ⟨pending, queued, split⟩
      rcases queued.writeData data room with ⟨queued', added⟩
      constructor
      case queue =>
          apply Exists.intro (pending ++ data)
          constructor
          · simp only [cache]
            exact queued'
          · simp only [split, List.append_assoc]
      case inside =>
          apply allInside_append holding.inside
          · rw [cache, writeData_cacheSize]
          · rw [copied]
            exact added

theorem holding_read {state after : State} {size : Nat} (holding : Holding state)
    (meets : ¬ Overruns state.net.cache size) (moved : act state (.read size) = some after) :
    Holding after := by
  simp only [act] at moved
  cases result : state.net.urlReadCache size with
  | invalidParam =>
      simp only [result] at moved
      cases moved
      exact holding
  | poll => simp [result] at moved
  | got net bytes copies =>
      simp only [result] at moved
      cases moved
      rcases urlReadCache_got result with ⟨_, enough, cache, read, copied⟩
      rcases holding.queue with ⟨pending, queued, split⟩
      rcases queued.urlReadCache size enough meets with ⟨queued', taken, added⟩
      constructor
      case queue =>
          apply Exists.intro (pending.drop size)
          constructor
          · simp only [cache]
            exact queued'
          · simp only [split, read, taken, List.append_assoc, List.take_append_drop]
      case inside =>
          apply allInside_append holding.inside
          · rw [cache, urlReadCache_cacheSize]
          · rw [copied]
            exact added

theorem machine_next {state after : State} {label : Label}
    (moved : machine.next state label = some after) :
    state.AllInside ∧ act state label = some after := by
  by_cases inside : state.AllInside
  · simp only [machine, inside, if_true] at moved
    exact ⟨inside, moved⟩
  · simp [machine, inside] at moved

theorem holding_step {state after : State} {label : Label} (holding : Holding state)
    (meets : Meets state label) (moved : act state label = some after) : Holding after := by
  cases label with
  | write data => exact holding_write holding moved
  | read size => exact holding_read holding meets moved
  | setFileSize length =>
      cases moved
      exact ⟨holding.queue, holding.inside⟩
  | setAbort abort =>
      cases moved
      exact ⟨holding.queue, holding.inside⟩

/-- A read that overruns leaves a copy outside behind. -/
theorem outside_of_overruns {state after : State} {label : Label} (holding : Holding state)
    (overruns : ¬ Meets state label) (moved : act state label = some after) :
    ¬ after.AllInside := by
  cases label with
  | read size =>
      have overrun : Overruns state.net.cache size := Classical.not_not.mp overruns
      simp only [act] at moved
      cases result : state.net.urlReadCache size with
      | invalidParam =>
          have zero : size = 0 := by
            by_contra some
            simp only [Transfer.urlReadCache, some, if_false] at result
            split at result <;> cases result
          rcases holding.queue with ⟨_, queued, _⟩
          have inside := queued.rdInside
          have beyond := overrun.2.2
          omega
      | poll => simp [result] at moved
      | got net bytes copies =>
          simp only [result] at moved
          cases moved
          rcases urlReadCache_got result with ⟨_, _, cache, _, copied⟩
          intro inside
          apply urlReadCache_overruns overrun
          intro copy member
          rw [← urlReadCache_cacheSize state.net.cache size, ← cache]
          apply inside
          rw [List.mem_append, copied]
          exact .inr member
  | write data => exact absurd trivial overruns
  | setFileSize length => exact absurd trivial overruns
  | setAbort abort => exact absurd trivial overruns

/-- As long as no copy has left the buffer the cache is a queue. -/
theorem reachable_holding (state : State) (reachable : machine.Reachable state) :
    state.AllInside → Holding state := by
  revert state
  apply Machine.Reachable.always
  · intro state start _
    exact holding_initial state start
  · intro state label after _ ih moved insideAfter
    rcases machine_next moved with ⟨inside, acted⟩
    by_cases meets : Meets state label
    · exact holding_step (ih inside) meets acted
    · exact absurd insideAfter (outside_of_overruns (ih inside) meets acted)

/-- Runs without an overrunning read are FIFO and stay inside the buffer, and
an overrunning read is not. -/
theorem net_cache_fifo_of_meets (state : State) :
    ((machine.restrict Meets).Reachable state → Fifo state) ∧
      ∀ label after, machine.Reachable state → machine.next state label = some after →
        ¬ Meets state label → ¬ Fifo after := by
  constructor
  · intro reachable
    have holding : Holding state := by
      refine Machine.Reachable.always ?_ ?_ state reachable
      · exact holding_initial
      · intro state label after _ holding moved
        rcases Machine.restrict_next.mp moved with ⟨meets, next⟩
        exact holding_step holding meets (machine_next next).2
    exact holding.fifo
  · intro label after reachable moved overruns fifo
    rcases machine_next moved with ⟨inside, acted⟩
    exact outside_of_overruns (reachable_holding state reachable inside) overruns acted fifo.inside

def start (cacheSize : Nat) : State :=
  ⟨⟨NetCache.opened (fun _ => 0) cacheSize, 0, false, none, false⟩, [], [], []⟩

theorem initial_start (cacheSize : Nat) (some : 0 < cacheSize) :
    machine.Initial (start cacheSize) :=
  ⟨fun _ => 0, cacheSize, none, false, some, rfl⟩

def wrapRun : List Label := [.write [1, 2, 3], .read 2, .write [4, 5, 6], .read 2, .read 2]

theorem net_cache_fifo_wrap :
    ∃ state, (machine.restrict Meets).run (start 4) wrapRun = some state ∧
      state.returned = [1, 2, 3, 4, 5, 6] ∧ Fifo state := by
  have ran : ∃ state, (machine.restrict Meets).run (start 4) wrapRun = some state ∧
      state.returned = [1, 2, 3, 4, 5, 6] := ⟨_, rfl, rfl⟩
  rcases ran with ⟨state, ran, returned⟩
  have begun : (machine.restrict Meets).Initial (start 4) := initial_start 4 (by decide)
  have reachable := Machine.reachable_of_run (.initial begun) ran
  exact ⟨state, ran, returned, (net_cache_fifo_of_meets state).1 reachable⟩

/-- The cache is filled, the byte read out of it is replaced, and the whole
cache is read. -/
def fullRun (data : List Byte) : List Label :=
  [.write data, .read 1, .write [0], .read data.length]

theorem copies_fullRun (data : List Byte) (several : 1 < data.length) :
    (machine.run (start data.length) (fullRun data)).map
        (fun after => (after.net.cache.cacheSize, after.copies)) =
      some (data.length,
        [⟨0, data.length⟩, ⟨0, 1⟩, ⟨data.length, 0⟩, ⟨0, 1⟩, ⟨1, data.length⟩]) := by
  have one : 1 ≤ data.length := by omega
  have some_ : data ≠ [] := List.ne_nil_of_length_pos (by omega)
  simp [Machine.run, fullRun, start, machine, act, Transfer.writeData, Transfer.progress,
    Transfer.urlReadCache, NetCache.writeData, NetCache.urlReadCache, NetCache.opened,
    State.AllInside, CacheCopy.Inside, one, some_]

theorem net_cache_overrun :
    ¬ ∀ state, machine.Reachable state → Fifo state := by
  intro always
  have full : (List.replicate cacheBufSize (0 : Byte)).length = cacheBufSize :=
    List.length_replicate
  have copied := copies_fullRun (List.replicate cacheBufSize 0) (by rw [full]; decide)
  rcases Option.map_eq_some_iff.mp copied with ⟨state, ran, result⟩
  rw [full, Prod.mk.injEq] at result
  have begun := initial_start (List.replicate cacheBufSize (0 : Byte)).length (by rw [full]; decide)
  have fifo := always state (Machine.reachable_of_run (.initial begun) ran)
  have inside : 1 + cacheBufSize ≤ state.net.cache.cacheSize :=
    fifo.inside ⟨1, cacheBufSize⟩ (by simp [result.2])
  rw [result.1] at inside
  exact absurd inside (by decide)

end Alisl.Upgrade.Net
