import Alisl.Upgrade.Source.Services
import Alisl.Upgrade.PieceRead.Stream

/-! The three sources at work: the file of the USB plugin, the cache of the NET
plugin with the transfer thread filling it, and the piece buffer of the OTA
plugin with its download thread, each read by its loop. -/

namespace Alisl.Upgrade.Source

open Alisl.Base

/-- What was handed over is the beginning of the plan; the loop is over without
an error only behind all of it, and with one only if something failed. -/
structure HandsOver (plan handed : List Chunk) (outcome : Option Bool) (failed : Bool) : Prop where
  ordered : handed <+: plan
  complete : outcome = some true → handed = plan
  spurious : outcome = some false → failed = true

/-- How the loop ended, if it has. -/
def ended {Call : Type} {Answer : Call → Type} : Client Call Answer Chunk → Option Bool
  | .stop ok => some ok
  | _ => none

theorem HandsOver.of_onPlan {Call : Type} {Answer : Call → Type} {service : Service Call Answer}
    {client : Client Call Answer Chunk} {plan handed : List Chunk} {place : service.Place}
    {failed : Bool} (onPlan : client.OnPlan service plan handed place)
    (reported : service.Failed place → failed = true) :
    HandsOver plan handed (ended client) failed := by
  constructor
  case ordered => exact onPlan.inOrder
  case complete =>
      intro stopped
      cases client with
      | stop ok =>
          cases stopped
          exact onPlan.complete
      | call request next => cases stopped
      | hand item next => cases stopped
  case spurious =>
      intro stopped
      cases client with
      | stop ok =>
          cases stopped
          rcases onPlan with ⟨_, _, _, failed⟩
          exact reported (failed rfl)
      | call request next => cases stopped
      | hand item next => cases stopped

/-! USB. -/

structure UsbState where
  client : UsbClient
  handed : List Chunk
  failed : Bool

inductive UsbLabel where
  | test (error : Bool)
  | open (opened : Bool)
  | read
  | hand

/-- The file, or the buffer the file was read into. -/
inductive UsbFile where
  | stream (bytes : List Byte)
  | usbBuf (memory : Memory)

def UsbFile.fread : UsbFile → Nat → Nat → List Byte
  | .stream bytes, offset, size => (bytes.drop offset).take size
  | .usbBuf memory, offset, size => slice memory offset size

def UsbFile.method : UsbFile → Net.Method
  | .stream _ => .pieceByPiece
  | .usbBuf _ => .oneShot

def UsbFile.Carries (bytes : List Byte) : UsbFile → Prop
  | .stream content => content = bytes
  | .usbBuf memory => slice memory 0 bytes.length = bytes

def usbNext (file : UsbFile) (state : UsbState) (label : UsbLabel) : Option UsbState :=
  match state.client, label with
  | .call .raised next, .test error =>
      some { state with client := next error, failed := state.failed || error }
  | .call .fopen next, .open opened =>
      some { state with client := next opened, failed := state.failed || !opened }
  | .call (.fread offset size) next, .read =>
      some { state with client := next (file.fread offset size) }
  | .hand chunk next, .hand =>
      some { state with client := next, handed := state.handed ++ [chunk] }
  | _, _ => none

def usbMachine (package : Package) (file : UsbFile) : Machine UsbState UsbLabel where
  Initial state := ∃ buf, state =
    ⟨usbObjLoop file.method package.bytes.length package.elems buf, [], false⟩
  next := usbNext file

theorem UsbFile.Carries.fread {bytes : List Byte} {file : UsbFile} (carries : file.Carries bytes)
    (offset size : Nat) (inside : offset + size ≤ bytes.length) :
    file.fread offset size = part bytes offset size := by
  cases file with
  | stream content =>
      rw [UsbFile.fread, show content = bytes from carries, part]
  | usbBuf memory =>
      have whole : slice memory 0 bytes.length = bytes := carries
      have length : bytes.length = offset + (size + (bytes.length - (offset + size))) := by omega
      rw [UsbFile.fread, part]
      rw [length, slice_add, Nat.zero_add, slice_add] at whole
      rw [← whole, List.drop_left' (slice_length _ _ _), List.take_left' (slice_length _ _ _)]

theorem usb_onPlan (package : Package) (file : UsbFile) (carries : file.Carries package.bytes)
    (state : UsbState) (reachable : (usbMachine package file).Reachable state) :
    ∃ pos, state.client.OnPlan (usbService package.bytes) package.plan state.handed
      ⟨pos, state.failed⟩ := by
  revert state
  apply Machine.Reachable.always
  · intro state start
    rcases start with ⟨buf, rfl⟩
    exact ⟨0, (usb_fulfils package file.method buf).onPlan⟩
  · intro state label after _ onPlan moved
    rcases onPlan with ⟨pos, onPlan⟩
    rcases state with ⟨client, handed, failed⟩
    simp only [usbMachine, usbNext] at moved
    split at moved
    case h_1 =>
        cases moved
        exact ⟨pos, onPlan.answered rfl⟩
    case h_2 =>
        cases moved
        exact ⟨pos, onPlan.answered rfl⟩
    case h_3 offset size next _ =>
        cases moved
        have content := carries.fread offset size onPlan.asks
        exact ⟨offset + size, onPlan.answered ⟨content, rfl⟩⟩
    case h_4 =>
        cases moved
        exact ⟨pos, onPlan.next⟩
    case h_5 => cases moved

/-! NET. -/

structure NetState where
  cache : Net.State
  client : NetClient
  handed : List Chunk
  failed : Bool

inductive NetLabel where
  | test (error : Bool)
  | open (opened : Bool)
  | offset
  | read
  | expire
  | hand
  | transfer (data : List Byte)

/-- The transfer thread writes what follows in the file. A read expires when the
bytes it waits for have not come in time. -/
def netNext (bytes : List Byte) (state : NetState) (label : NetLabel) : Option NetState :=
  match state.client, label with
  | _, .transfer data =>
      if state.cache.accepted ++ data <+: bytes then
        (Net.machine.next state.cache (.write data)).map (fun cache => { state with cache })
      else none
  | .call .raised next, .test error =>
      some { state with client := next error, failed := state.failed || error }
  | .call .urlOpen next, .open opened =>
      some { state with client := next opened, failed := state.failed || !opened }
  | .call .fileOffset next, .offset =>
      some { state with client := next state.cache.net.cache.fileOffset }
  | .call (.readCache size) next, .read =>
      (Net.machine.next state.cache (.read size)).map (fun cache =>
        { state with
          cache
          client := next (some (cache.returned.drop state.cache.returned.length)) })
  | .call (.readCache size) next, .expire =>
      if state.cache.net.cache.unreadDataLen < size then
        some { state with client := next none, failed := true }
      else none
  | .hand chunk next, .hand =>
      some { state with client := next, handed := state.handed ++ [chunk] }
  | _, _ => none

/-- The cache as the loop finds it: opened empty, or holding the whole package
with the read position reset. -/
def NetCacheStart (bytes : List Byte) : Net.Method → Net.State → Prop
  | .pieceByPiece, cache =>
      ∃ cacheBuff desc finish, cache =
        ⟨⟨Net.NetCache.opened cacheBuff Net.cacheBufSize, 0, false, desc, finish⟩, [], [], []⟩
  | .oneShot, cache =>
      ∃ cacheBuff cacheSize fileSize abort desc finish, bytes.length ≤ cacheSize ∧
        slice cacheBuff 0 bytes.length = bytes ∧ cache =
          ⟨⟨⟨cacheBuff, cacheSize, bytes.length, 0, bytes.length, 0⟩, fileSize, abort, desc, finish⟩,
            bytes, [], []⟩

def netMachine (package : Package) (method : Net.Method) : Machine NetState NetLabel where
  Initial state := ∃ cache buf, NetCacheStart package.bytes method cache ∧ state =
    ⟨cache, netObjLoop method package.bytes.length package.elems buf, [], false⟩
  next := netNext package.bytes

/-- The next read of the cache overruns it. -/
def overrunsNext (state : NetState) : Bool :=
  match state.client with
  | .call (.readCache size) _ => decide (Net.Overruns state.cache.net.cache size)
  | _ => false

def NetMeets (state : NetState) : NetLabel → Prop
  | .read => overrunsNext state = false
  | _ => True

instance (state : NetState) (label : NetLabel) : Decidable (NetMeets state label) :=
  match label with
  | .read => inferInstanceAs (Decidable (_ = _))
  | .test _ | .open _ | .offset | .expire | .hand | .transfer _ =>
      inferInstanceAs (Decidable True)

structure NetHolds (package : Package) (state : NetState) : Prop where
  holding : Net.Holding state.cache
  transferred : state.cache.accepted <+: package.bytes
  offset : state.cache.net.cache.fileOffset = state.cache.returned.length
  onPlan : state.client.OnPlan (netService package.bytes) package.plan state.handed
    ⟨state.cache.returned.length, state.failed⟩

theorem cacheStart_holding {bytes : List Byte} {method : Net.Method} {cache : Net.State}
    (start : NetCacheStart bytes method cache) :
    Net.Holding cache ∧ cache.accepted <+: bytes ∧ cache.returned = [] ∧
      cache.net.cache.fileOffset = 0 := by
  cases method with
  | pieceByPiece =>
      rcases start with ⟨cacheBuff, desc, finish, rfl⟩
      have initial := Net.holding_initial _
        ⟨cacheBuff, Net.cacheBufSize, desc, finish, by decide, rfl⟩
      exact ⟨initial, List.nil_prefix, rfl, rfl⟩
  | oneShot =>
      rcases start with ⟨cacheBuff, cacheSize, fileSize, abort, desc, finish, room, content, rfl⟩
      refine ⟨⟨⟨bytes, ?_, rfl⟩, ?_⟩, List.prefix_refl _, rfl, rfl⟩
      · constructor
        case rdInside => exact Nat.zero_le _
        case wrInside => exact room
        case bounded => exact room
        case position => exact .inl (Nat.zero_add _)
        case contents =>
            rw [window_fits _ _ _ _ (by simpa using room)]
            exact content
      · intro copy member
        cases member

/-- A read served while the cache is a queue gives the bytes that follow in the
package. -/
theorem NetHolds.read {package : Package} {state : NetState} {cache : Net.State} {size : Nat}
    (holds : NetHolds package state) (some_ : 1 ≤ size)
    (meets : ¬ Net.Overruns state.cache.net.cache size)
    (moved : Net.act state.cache (.read size) = some cache) :
    cache.returned = state.cache.returned ++
        part package.bytes state.cache.returned.length size ∧
      state.cache.returned.length + size ≤ package.bytes.length ∧
      cache.accepted = state.cache.accepted ∧
      cache.net.cache.fileOffset = state.cache.returned.length + size := by
  rcases Net.act_read (by omega) moved with ⟨enough, after, returned, accepted⟩
  rcases holds.holding.queue with ⟨pending, queued, split⟩
  rcases queued.urlReadCache size enough meets with ⟨_, taken, _⟩
  rcases holds.transferred with ⟨behind, whole⟩
  have length := queued.length
  have content : part package.bytes state.cache.returned.length size = pending.take size := by
    rw [part, ← whole, split, List.append_assoc, List.drop_left' rfl,
      List.take_append_of_le_length (by omega)]
  refine ⟨?_, ?_, accepted, ?_⟩
  · rw [returned, taken, content]
  · rw [← whole, split]
    simp only [List.length_append]
    omega
  · rw [after, Net.urlReadCache_fileOffset, holds.offset]

theorem net_holds_step {package : Package} {state after : NetState} {label : NetLabel}
    (holds : NetHolds package state) (meets : NetMeets state label)
    (moved : netNext package.bytes state label = some after) : NetHolds package after := by
  rcases state with ⟨cache, client, handed, failed⟩
  have onPlan := holds.onPlan
  simp only [netNext] at moved
  split at moved
  case h_1 data =>
      split at moved
      case isTrue following =>
          rcases Option.map_eq_some_iff.mp moved with ⟨filled, next, rfl⟩
          have acted := (Net.machine_next next).2
          rcases Net.act_write acted with ⟨returned, offset, accepted⟩
          constructor
          case holding => exact Net.holding_write holds.holding acted
          case transferred =>
              rcases accepted with same | grown
              · rw [same]
                exact holds.transferred
              · rw [grown]
                exact following
          case offset => rw [offset, returned, holds.offset]
          case onPlan =>
              simp only [returned]
              exact onPlan
      case isFalse => cases moved
  case h_2 =>
      cases moved
      exact ⟨holds.holding, holds.transferred, holds.offset, onPlan.answered rfl⟩
  case h_3 =>
      cases moved
      exact ⟨holds.holding, holds.transferred, holds.offset, onPlan.answered rfl⟩
  case h_4 =>
      cases moved
      exact ⟨holds.holding, holds.transferred, holds.offset, onPlan.answered ⟨holds.offset, rfl⟩⟩
  case h_5 size next =>
      rcases Option.map_eq_some_iff.mp moved with ⟨emptied, acted, rfl⟩
      have acted := (Net.machine_next acted).2
      have inside : ¬ Net.Overruns cache.net.cache size := of_decide_eq_false meets
      rcases holds.read onPlan.asks.1 inside acted with ⟨returned, within, accepted, offset⟩
      have length := part_length package.bytes cache.returned.length size within
      constructor
      case holding => exact Net.holding_read holds.holding inside acted
      case transferred =>
          simp only [accepted]
          exact holds.transferred
      case offset => simp only [returned, offset, List.length_append, length]
      case onPlan =>
          simp only [returned, List.drop_left' rfl, List.length_append, length]
          exact onPlan.answered (.inl ⟨rfl, rfl⟩)
  case h_6 =>
      split at moved
      · cases moved
        exact ⟨holds.holding, holds.transferred, holds.offset, onPlan.answered (.inr ⟨rfl, rfl⟩)⟩
      · cases moved
  case h_7 =>
      cases moved
      exact ⟨holds.holding, holds.transferred, holds.offset, onPlan.next⟩
  case h_8 => cases moved

theorem net_holds (package : Package) (method : Net.Method) (state : NetState)
    (reachable : ((netMachine package method).restrict NetMeets).Reachable state) :
    NetHolds package state := by
  revert state
  apply Machine.Reachable.always
  · intro state start
    rcases start with ⟨cache, buf, begun, rfl⟩
    rcases cacheStart_holding begun with ⟨holding, transferred, empty, offset⟩
    constructor
    case holding => exact holding
    case transferred => exact transferred
    case offset => rw [offset, empty, List.length_nil]
    case onPlan =>
        simp only [empty, List.length_nil]
        exact (net_fulfils package method buf).onPlan
  · intro state label after _ holds moved
    rcases Machine.restrict_next.mp moved with ⟨meets, next⟩
    exact net_holds_step holds meets next

/-! OTA. -/

structure OtaState where
  piece : PieceRead.State
  client : OtaClient
  handed : List Chunk
  failed : Bool

inductive OtaLabel where
  | test (error : Bool)
  | act (act : PieceRead.Act)
  | hand

/-- A piece that verifies carries what was sent. -/
def Carries (payloads : List (List Byte)) (state : PieceRead.State) : PieceRead.Act → Prop
  | .download .complete => state.rest ≠ [] → state.crcMatches (state.rest.headD 0) = true →
      state.received (state.rest.headD 0) = payloads.getD state.payloads.length []
  | _ => True

instance (payloads : List (List Byte)) (state : PieceRead.State) (act : PieceRead.Act) :
    Decidable (Carries payloads state act) :=
  match act with
  | .download .complete => inferInstanceAs (Decidable (_ → _ → _))
  | .download .fail | .download (.section _ _) | .download .step | .reader _ =>
      inferInstanceAs (Decidable True)

/-- Calls of `ota_file_read` are those of the loop. -/
def asked : OtaClient → PieceRead.Act → Bool
  | .call (.otaFileRead size) _, .reader (.call argument) => size == argument
  | _, .reader (.call _) => false
  | _, _ => true

/-- The loop goes on once `ota_file_read` has returned. -/
def resume (client : OtaClient) : List PieceRead.Result → OtaClient
  | [] => client
  | result :: _ =>
      match client with
      | .call (.otaFileRead _) next => next (result.ret, result.out)
      | client => client

def broken (results : List PieceRead.Result) : Bool := results.any (fun result => result.ret < 0)

def otaNext (layout : PieceRead.Layout) (payloads : List (List Byte)) (state : OtaState)
    (label : OtaLabel) : Option OtaState :=
  match state.client, label with
  | client, .act act =>
      if Carries payloads state.piece act ∧ asked client act = true then
        (PieceRead.next layout state.piece act).map (fun piece =>
          let returned := piece.results.drop state.piece.results.length
          { state with
            piece
            client := resume client returned
            failed := state.failed || broken returned })
      else none
  | .call .raised next, .test error =>
      some { state with client := next error, failed := state.failed || error }
  | .hand chunk next, .hand =>
      some { state with client := next, handed := state.handed ++ [chunk] }
  | _, _ => none

def otaMachine (package : Package) (layout : PieceRead.Layout) (payloads : List (List Byte)) :
    Machine OtaState OtaLabel where
  Initial state := ∃ piece buf, PieceRead.Initial layout piece ∧ state =
    ⟨piece, otaObjLoop package.bytes.length package.elems buf, [], false⟩
  next := otaNext layout payloads

/-- No call of `ota_file_read` is made while `p_ota_valid` is NULL. -/
def OtaMeets (state : OtaState) : OtaLabel → Prop
  | .act act => PieceRead.CallsValid state.piece act
  | _ => True

instance (state : OtaState) (label : OtaLabel) : Decidable (OtaMeets state label) :=
  match label with
  | .act _ => inferInstanceAs (Decidable (PieceRead.CallsValid _ _))
  | .test _ | .hand => inferInstanceAs (Decidable True)

def requested (results : List PieceRead.Result) : Nat := (results.map PieceRead.Result.size).sum

structure OtaHolds (package : Package) (layout : PieceRead.Layout) (payloads : List (List Byte))
    (state : OtaState) : Prop where
  inv : PieceRead.Inv layout state.piece
  sound : PieceRead.Sound state.piece
  verified : state.piece.payloads <+: payloads
  returned : broken state.piece.results = false →
    ∀ result ∈ state.piece.results, result.ret = result.size ∧ result.out.length = result.size
  dead : broken state.piece.results = true → state.piece.failed = true
  calling : state.piece.reader.pc.calling = true → broken state.piece.results = false ∧
    ∃ next, state.client = .call (.otaFileRead state.piece.reader.size) next
  onPlan : state.client.OnPlan (otaService package.bytes) package.plan state.handed
    ⟨requested state.piece.results, state.failed, broken state.piece.results⟩

section

variable {package : Package} {pieceSize : Nat} {payloads : List (List Byte)}
  {fits : ∀ payload ∈ payloads, payload.length + 4 ≤ pieceSize}

/-- The results of the reads are the beginning of the package. -/
theorem results_prefix {bytes : List Byte} {piece : PieceRead.State} (sound : PieceRead.Sound piece)
    (verified : piece.payloads <+: payloads) (sent : payloads.flatten = bytes) :
    (piece.results.map PieceRead.Result.out).flatten <+: bytes := by
  have copied : (piece.results.map PieceRead.Result.out).flatten <+: piece.stream :=
    (List.prefix_append _ _).trans sound.copied
  rcases verified with ⟨later, whole⟩
  apply copied.trans
  apply Exists.intro later.flatten
  rw [PieceRead.State.stream, ← List.flatten_append, whole, sent]

/-- A step that returns nothing leaves the loop where it is. -/
theorem ota_silent {layout : PieceRead.Layout} {state : OtaState} {piece : PieceRead.State}
    (holds : OtaHolds package layout payloads state) (inv : PieceRead.Inv layout piece)
    (sound : PieceRead.Sound piece) (verified : piece.payloads <+: payloads)
    (results : piece.results = state.piece.results)
    (failed : state.piece.failed = true → piece.failed = true)
    (calling : piece.reader.pc.calling = true → broken state.piece.results = false ∧
      ∃ next, state.client = .call (.otaFileRead piece.reader.size) next) :
    OtaHolds package layout payloads { state with piece } := by
  constructor
  case inv => exact inv
  case sound => exact sound
  case verified => exact verified
  case returned =>
      simp only [results]
      exact holds.returned
  case dead =>
      intro dead
      simp only [results] at dead
      exact failed (holds.dead dead)
  case calling =>
      simp only [results]
      exact calling
  case onPlan =>
      simp only [results]
      exact holds.onPlan

theorem broken_append (results : List PieceRead.Result) (result : PieceRead.Result) :
    broken (results ++ [result]) = (broken results || decide (result.ret < 0)) := by
  simp [broken]

theorem requested_append (results : List PieceRead.Result) (result : PieceRead.Result) :
    requested (results ++ [result]) = requested results + result.size := by
  simp [requested]

/-- The bytes of a read in full are those that follow in the package. -/
theorem result_content {bytes : List Byte} {results : List PieceRead.Result}
    {result : PieceRead.Result}
    (front : ((results ++ [result]).map PieceRead.Result.out).flatten <+: bytes)
    (full : ∀ earlier ∈ results, earlier.out.length = earlier.size)
    (length : result.out.length = result.size) :
    result.out = part bytes (requested results) result.size := by
  rcases front with ⟨behind, whole⟩
  have before : (results.map PieceRead.Result.out).flatten.length = requested results :=
    PieceRead.sum_sizes results full
  simp only [List.map_append, List.map_cons, List.map_nil, List.flatten_append, List.flatten_cons,
    List.flatten_nil, List.append_nil, List.append_assoc] at whole
  rw [part, ← whole, List.drop_left' before, List.take_left' length]

/-- A call that returns hands its answer to the loop. -/
theorem ota_returned {layout : PieceRead.Layout} {state : OtaState} {piece : PieceRead.State}
    {result : PieceRead.Result} (sent : payloads.flatten = package.bytes)
    (holds : OtaHolds package layout payloads state)
    (inv : PieceRead.Inv layout piece) (sound : PieceRead.Sound piece)
    (verified : piece.payloads <+: payloads)
    (results : piece.results = state.piece.results ++ [result])
    (size : result.size = state.piece.reader.size)
    (calling : state.piece.reader.pc.calling = true) (idle : piece.reader.pc.calling = false)
    (answer : result.ret = result.size ∧ result.out.length = result.size ∨
      result.ret < 0 ∧ piece.failed = true) :
    OtaHolds package layout payloads { state with
      piece
      client := resume state.client [result]
      failed := state.failed || broken [result] } := by
  rcases holds.calling calling with ⟨whole, next, client⟩
  have returned := holds.returned whole
  have onPlan := holds.onPlan
  rw [client, whole] at onPlan
  have brokenAfter : broken piece.results = broken [result] := by
    rw [results, broken_append, whole, Bool.false_or]
    simp [broken]
  constructor
  case inv => exact inv
  case sound => exact sound
  case verified => exact verified
  case returned =>
      intro fine other member
      simp only [brokenAfter] at fine
      simp only [results, List.mem_append, List.mem_singleton] at member
      rcases member with old | new
      · exact returned other old
      · rcases answer with full | ⟨negative, _⟩
        · rw [new]
          exact full
        · simp [broken, negative] at fine
  case dead =>
      intro dead
      simp only [brokenAfter] at dead
      rcases answer with ⟨exact_, _⟩ | ⟨_, failed⟩
      · simp only [broken, List.any_cons, List.any_nil, Bool.or_false, decide_eq_true_eq] at dead
        omega
      · exact failed
  case calling =>
      intro busy
      simp only at busy
      rw [idle] at busy
      cases busy
  case onPlan =>
      simp only [resume, client, brokenAfter]
      rw [results, requested_append, size]
      apply onPlan.answered
      apply And.intro rfl
      rcases answer with ⟨exact_, length⟩ | ⟨negative, _⟩
      · apply Or.inl
        have full : ∀ earlier ∈ state.piece.results, earlier.out.length = earlier.size :=
          fun earlier member => (returned earlier member).2
        have front := results_prefix sound verified sent
        rw [results] at front
        have content := result_content front full length
        rw [size] at exact_ content
        have fine : broken [result] = false := by
          simp only [broken, List.any_cons, List.any_nil, Bool.or_false, decide_eq_false_iff_not]
          omega
        rw [fine, Bool.or_false, exact_, content]
        exact ⟨rfl, rfl⟩
      · have dead : broken [result] = true := by simp [broken, negative]
        rw [dead, Bool.or_true]
        exact .inr ⟨negative, rfl, rfl⟩

theorem asked_call {client : OtaClient} {size : Nat}
    (mine : asked client (.reader (.call size)) = true) :
    ∃ next, client = .call (.otaFileRead size) next := by
  cases client with
  | stop ok => cases mine
  | hand chunk next => cases mine
  | call request next =>
      cases request with
      | raised => cases mine
      | otaFileRead argument =>
          have same : argument = size := eq_of_beq mine
          subst same
          exact ⟨next, rfl⟩

/-- Steps of the loop itself: no call is in progress there. -/
theorem OtaHolds.loop_step {layout : PieceRead.Layout} {state : OtaState} {client : OtaClient}
    {handed : List Chunk} {failed : Bool} (holds : OtaHolds package layout payloads state)
    (away : ∀ size next, state.client ≠ .call (.otaFileRead size) next)
    (onPlan : client.OnPlan (otaService package.bytes) package.plan handed
      ⟨requested state.piece.results, failed, broken state.piece.results⟩) :
    OtaHolds package layout payloads { state with client, handed, failed } := by
  constructor
  case inv => exact holds.inv
  case sound => exact holds.sound
  case verified => exact holds.verified
  case returned => exact holds.returned
  case dead => exact holds.dead
  case calling =>
      intro busy
      rcases holds.calling busy with ⟨_, next, calls⟩
      exact absurd calls (away _ next)
  case onPlan => exact onPlan

theorem ota_holds_act {state after : OtaState} {act : PieceRead.Act}
    (sent : payloads.flatten = package.bytes)
    (holds : OtaHolds package (PieceRead.layoutOf pieceSize payloads fits) payloads state)
    (valid : PieceRead.CallsValid state.piece act)
    (moved : otaNext (PieceRead.layoutOf pieceSize payloads fits) payloads state (.act act) =
      some after) :
    OtaHolds package (PieceRead.layoutOf pieceSize payloads fits) payloads after := by
  rcases state with ⟨piece, client, handed, failed⟩
  simp only [otaNext] at moved
  by_cases allowed : Carries payloads piece act ∧ asked client act = true
  case neg =>
      rw [if_neg allowed] at moved
      cases moved
  rw [if_pos allowed] at moved
  rcases Option.map_eq_some_iff.mp moved with ⟨piece', stepped, rfl⟩
  cases act with
  | download act =>
      have step := PieceRead.download_step piece piece' act stepped
      rcases step.reader_kept with ⟨reader, results, _⟩
      have quiet : piece'.results.drop piece.results.length = [] := by
        rw [results]
        exact List.drop_length
      have verified : piece'.payloads <+: payloads := by
        apply step.payloads_prefix holds.inv _ holds.verified
        intro len rest first crc complete
        subst complete
        have carried := allowed.1
        simp only [Carries, first, List.headD_cons] at carried
        exact carried (List.cons_ne_nil _ _) crc
      have kept : piece.failed = true → piece'.failed = true := by
        intro already
        cases step with
        | fail => rfl
        | _ => exact already
      simp only [quiet, resume, broken, List.any_nil, Bool.or_false]
      apply ota_silent holds (step.inv holds.inv) (step.sound holds.sound) verified results kept
      rw [reader]
      exact holds.calling
  | reader act =>
      have step := PieceRead.reader_step _ piece piece' act stepped
      have inv := step.inv holds.inv
      have sound := step.sound holds.inv valid holds.sound
      have verified : piece'.payloads <+: payloads := by
        cases step <;> exact holds.verified
      have calls : ∀ size, act = .call size → ∃ next, client = .call (.otaFileRead size) next := by
        intro size called
        subst called
        exact asked_call allowed.2
      have positive : ∀ size, act = .call size → 1 ≤ size := by
        intro size called
        rcases calls size called with ⟨next, asking⟩
        have onPlan := holds.onPlan
        simp only [asking] at onPlan
        exact onPlan.asks.1
      rcases step.effect holds.inv valid positive with
        ⟨results, same, calling⟩ | ⟨calling, idle, same, ret, out, results, answer⟩
      · have quiet : piece'.results.drop piece.results.length = [] := by
          rw [results]
          exact List.drop_length
        simp only [quiet, resume, broken, List.any_nil, Bool.or_false]
        apply ota_silent holds inv sound verified results (fun already => same.trans already)
        intro busy
        rcases calling busy with ⟨before, size⟩ | ⟨called, alive⟩
        · rw [size]
          exact holds.calling before
        · constructor
          · by_contra dead
            have failed := holds.dead (Bool.eq_true_of_not_eq_false dead)
            simp only [alive] at failed
            cases failed
          · exact calls _ called
      · have returned : piece'.results.drop piece.results.length =
            [⟨piece.reader.size, ret, out, piece.failed⟩] := by
          rw [results]
          exact List.drop_left' rfl
        simp only [returned]
        apply ota_returned sent holds inv sound verified results rfl calling idle
        rcases answer with full | ⟨negative, failed⟩
        · exact .inl full
        · exact .inr ⟨negative, same.trans failed⟩

theorem ota_holds (sent : payloads.flatten = package.bytes) (state : OtaState)
    (reachable : ((otaMachine package (PieceRead.layoutOf pieceSize payloads fits)
      payloads).restrict OtaMeets).Reachable state) :
    OtaHolds package (PieceRead.layoutOf pieceSize payloads fits) payloads state := by
  revert state
  apply Machine.Reachable.always
  · intro state start
    rcases start with ⟨piece, buf, initial, rfl⟩
    have empty := initial.results
    constructor
    case inv => exact PieceRead.initial_inv _ piece initial
    case sound => exact PieceRead.initial_sound _ piece initial
    case verified =>
        simp only [initial.payloads]
        exact List.nil_prefix
    case returned => simp [empty]
    case dead => simp [empty, broken]
    case calling => simp [initial.reader.1, PieceRead.ReaderPc.calling]
    case onPlan =>
        simp only [empty]
        exact (ota_fulfils package buf).onPlan
  · intro state label after _ holds moved
    rcases Machine.restrict_next.mp moved with ⟨meets, next⟩
    cases label with
    | act act => exact ota_holds_act sent holds meets next
    | test error =>
        rcases state with ⟨piece, client, handed, failed⟩
        cases client with
        | call request resumed =>
            cases request with
            | raised =>
                cases next
                exact holds.loop_step (by simp) (holds.onPlan.answered rfl)
            | otaFileRead size => cases next
        | stop ok => cases next
        | hand chunk rest => cases next
    | hand =>
        rcases state with ⟨piece, client, handed, failed⟩
        cases client with
        | hand chunk rest =>
            cases next
            exact holds.loop_step (by simp) holds.onPlan.next
        | call request resumed => cases request <;> cases next
        | stop ok => cases next

/-- A call in progress does not wait for a download thread that is gone. -/
theorem OtaHolds.live {state : OtaState}
    (holds : OtaHolds package (PieceRead.layoutOf pieceSize payloads fits) payloads state)
    (sent : payloads.flatten = package.bytes) (quiet : state.piece.failed = false)
    (calling : state.piece.reader.pc.calling = true) :
    state.piece.pc = .receive ∨ (∃ after, PieceRead.downloadNext state.piece .step = some after) ∨
      ∃ after, PieceRead.readerNext (PieceRead.layoutOf pieceSize payloads fits) state.piece .step =
        some after := by
  rcases holds.calling calling with ⟨fine, next, client⟩
  have delivered : PieceRead.Delivered payloads state.piece :=
    ⟨quiet, holds.sound, holds.verified, holds.returned fine⟩
  have onPlan := holds.onPlan
  rw [client, fine] at onPlan
  rcases onPlan.asks with ⟨_, dead | within⟩
  · cases dead
  have enough : state.piece.requested ≤ payloads.flatten.length := by
    rw [PieceRead.State.requested, if_pos calling, sent]
    exact within
  exact PieceRead.calling_live holds.inv delivered (by simp [PieceRead.layoutOf]) calling enough

end

end Alisl.Upgrade.Source
