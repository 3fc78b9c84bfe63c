import Alisl.Upgrade.Source.Media

/-! The three sources hand over the same chunks. -/

namespace Alisl.Upgrade.Source

open Alisl.Base

/-- A loop that is not over can go on. -/
def UsbLive (file : UsbFile) (state : UsbState) : Prop :=
  ended state.client = none → ∃ label after, usbNext file state label = some after

/-- A read that has to wait waits for bytes that are still to be transferred, and
the cache has room for them. -/
def NetLive (package : Package) (state : NetState) : Prop :=
  ∀ size next, state.client = .call (.readCache size) next →
    size ≤ state.cache.net.cache.unreadDataLen ∨
      state.cache.accepted ≠ package.bytes ∧ state.cache.net.cache.unreadDataLen < 10240

/-- As long as no piece fails, a call in progress can go on or the download
thread can. -/
def OtaLive (layout : PieceRead.Layout) (state : OtaState) : Prop :=
  state.piece.failed = false → state.piece.reader.pc.calling = true →
    state.piece.pc = .receive ∨ (∃ after, PieceRead.downloadNext state.piece .step = some after) ∨
      ∃ after, PieceRead.readerNext layout state.piece .step = some after

theorem usb_live (file : UsbFile) (state : UsbState) : UsbLive file state := by
  intro running
  rcases state with ⟨client, handed, failed⟩
  cases client with
  | stop ok => cases running
  | hand chunk next => exact ⟨.hand, _, rfl⟩
  | call request next =>
      cases request with
      | raised => exact ⟨.test false, _, rfl⟩
      | fopen => exact ⟨.open true, _, rfl⟩
      | fread offset size => exact ⟨.read, _, rfl⟩

theorem NetHolds.live {package : Package} {state : NetState} (holds : NetHolds package state) :
    NetLive package state := by
  intro size next client
  have onPlan := holds.onPlan
  rw [client] at onPlan
  rcases onPlan.asks with ⟨_, small, within⟩
  rcases holds.holding.queue with ⟨pending, queued, split⟩
  have length := queued.length
  rcases Nat.lt_or_ge state.cache.net.cache.unreadDataLen size with short | enough
  · apply Or.inr
    constructor
    · intro all
      rw [← all, split, List.length_append] at within
      simp only at within
      omega
    · omega
  · exact .inl enough

def oneElem : Elem := ⟨1, "kernel", 1, headerSize⟩

/-- A header and one image of one byte. -/
def onePackage : Package where
  bytes := List.replicate headerSize 0 ++ [7]
  elems := [oneElem]
  positive := by simp [oneElem]
  contiguous := ⟨rfl, trivial⟩
  length := by simp [oneElem]

theorem onePackage_length : onePackage.bytes.length = headerSize + 1 := by
  simp [onePackage]

theorem onePackage_read : (onePackage.bytes.drop headerSize).take 1 = [7] := by
  rw [onePackage, List.drop_left' (List.length_replicate)]
  rfl

def usbStart : UsbState :=
  ⟨usbObjLoop .pieceByPiece onePackage.bytes.length onePackage.elems (fun _ => 0), [], false⟩

theorem usb_one_run :
    (usbMachine onePackage (.stream onePackage.bytes)).run usbStart
      [.open true, .test false, .read, .hand] = some ⟨.stop true, [⟨oneElem, [7]⟩], false⟩ := by
  have single : slice (store (fun _ => 0) 0 [7]) 0 1 = [7] := slice_store _ _ _
  have elems : onePackage.elems = [oneElem] := rfl
  simp [Machine.run, usbMachine, usbNext, usbStart, usbObjLoop, onePackage_length, objLoop, rounds,
    UsbFile.fread, usbRead, shrinkGuarded, upgBufSize, elems, oneElem, onePackage_read, single]

/-- A cache read out of in one piece, without an end of the buffer between. -/
structure Plain (cache : Net.State) (memory : Memory) (accepted : List Byte) (rdPos wrPos : Nat) :
    Prop where
  net : cache.net.cache = ⟨memory, Net.cacheBufSize, wrPos - rdPos, rdPos, wrPos, rdPos⟩
  free : cache.net.urlAbort = false
  silent : cache.net.desc = none
  accepted : cache.accepted = accepted
  inside : cache.AllInside

theorem Plain.read {cache : Net.State} {memory : Memory} {accepted : List Byte}
    {rdPos wrPos size : Nat} (plain : Plain cache memory accepted rdPos wrPos) (some_ : 1 ≤ size)
    (fits : rdPos + size ≤ wrPos) (room : wrPos ≤ Net.cacheBufSize) :
    ∃ after, Net.machine.next cache (.read size) = some after ∧
      after.returned = cache.returned ++ slice memory rdPos size ∧
      Plain after memory accepted (rdPos + size) wrPos := by
  have nonzero : size ≠ 0 := by omega
  have enough : ¬ wrPos - rdPos < size := by omega
  have ahead : rdPos ≤ wrPos := by omega
  rcases cache with ⟨⟨nci, fileSize, abort, desc, finish⟩, accepted', returned, copies⟩
  rcases plain with ⟨rfl, free, silent, rfl, inside⟩
  simp only [Net.machine, inside, if_true, Net.act, Net.Transfer.urlReadCache, nonzero, if_false,
    enough, Net.NetCache.urlReadCache, ahead]
  refine ⟨_, rfl, rfl, ?_⟩
  constructor
  case net =>
      simp only [Net.NetCache.mk.injEq, true_and, and_true]
      omega
  case free => exact free
  case silent => exact silent
  case accepted => rfl
  case inside =>
      intro copy member
      rcases List.mem_append.mp member with old | new
      · exact inside copy old
      · rw [List.mem_singleton.mp new]
        simp only [Net.CacheCopy.Inside]
        omega

theorem urlReadLoop_ask {size perSize fuel : Nat} {next : Option (List Byte) → NetClient}
    {down : List Byte} (some_ : 1 ≤ perSize) (within : down.length + perSize ≤ size) :
    urlReadLoop size perSize next (fuel + 1) down = .call (.readCache perSize) (fun
      | none => next none
      | some bytes => urlReadLoop size perSize next fuel (down ++ bytes)) := by
  have more : down.length < size := by omega
  have asks : (if perSize ≤ size - down.length then perSize else size - down.length) = perSize :=
    if_pos (by omega)
  rw [urlReadLoop, if_pos more]
  simp only
  -- the type of the continuation depends on the size asked for
  generalize (if perSize ≤ size - down.length then perSize else size - down.length) = ask at asks ⊢
  subst asks
  rfl

/-- Some reads of one size within `url_read`. -/
theorem reads_run (size perSize : Nat) (some_ : 1 ≤ perSize)
    (next : Option (List Byte) → NetClient) (memory : Memory) (accepted : List Byte)
    (handed : List Chunk) (failed : Bool) (wrPos : Nat) (room : wrPos ≤ Net.cacheBufSize)
    (package : Package) (method : Net.Method)
    (count fuel rdPos : Nat) (down : List Byte) (cache : Net.State)
    (plain : Plain cache memory accepted rdPos wrPos)
    (fits : rdPos + count * perSize ≤ wrPos) (within : down.length + count * perSize ≤ size) :
    ∃ after, (netMachine package method).run
        ⟨cache, urlReadLoop size perSize next (fuel + count) down, handed, failed⟩
        (List.replicate count .read) =
        some ⟨after, urlReadLoop size perSize next fuel
          (down ++ slice memory rdPos (count * perSize)), handed, failed⟩ ∧
      Plain after memory accepted (rdPos + count * perSize) wrPos := by
  induction count generalizing rdPos down cache with
  | zero => exact ⟨cache, by simp [Machine.run, slice], by simpa using plain⟩
  | succ count ih =>
      rw [Nat.succ_mul] at fits within
      rcases plain.read some_ (by omega) room with ⟨middle, read, returned, plain'⟩
      rcases ih (rdPos + perSize) (down ++ slice memory rdPos perSize) middle plain' (by omega)
        (by rw [List.length_append, slice_length]; omega) with ⟨after, ran, plain''⟩
      apply Exists.intro after
      constructor
      · rw [List.replicate_succ, Machine.run, ← Nat.add_assoc, urlReadLoop_ask some_ (by omega)]
        simp only [netMachine, netNext, read, Option.map_some, Option.bind_some,
          returned, List.drop_left' rfl]
        rw [List.append_assoc, ← slice_add, Nat.add_comm perSize, ← Nat.succ_mul] at ran
        exact ran
      · rw [Nat.add_assoc, Nat.add_comm perSize, ← Nat.succ_mul] at plain''
        exact plain''

theorem reachable_reads {package : Package} {method : Net.Method} {cache : Net.State}
    {size perSize : Nat} {next : Option (List Byte) → NetClient} {memory : Memory}
    {accepted : List Byte} {handed : List Chunk} {failed : Bool} {rdPos wrPos fuel : Nat}
    {down : List Byte} (count : Nat)
    (reachable : (netMachine package method).Reachable
      ⟨cache, urlReadLoop size perSize next (fuel + count) down, handed, failed⟩)
    (plain : Plain cache memory accepted rdPos wrPos) (some_ : 1 ≤ perSize)
    (room : wrPos ≤ Net.cacheBufSize) (fits : rdPos + count * perSize ≤ wrPos)
    (within : down.length + count * perSize ≤ size) :
    ∃ after, (netMachine package method).Reachable ⟨after, urlReadLoop size perSize next fuel
        (down ++ slice memory rdPos (count * perSize)), handed, failed⟩ ∧
      Plain after memory accepted (rdPos + count * perSize) wrPos := by
  rcases reads_run size perSize some_ next memory accepted handed failed wrPos room package method
    count fuel rdPos down cache plain fits within with ⟨after, ran, plain'⟩
  exact ⟨after, Machine.reachable_of_run reachable ran, plain'⟩

/-- One round of `url_seek`. -/
theorem reachable_seek {package : Package} {method : Net.Method} {cache : Net.State}
    {offset fuel curOffset : Nat} {next : Bool → NetClient} {memory : Memory}
    {accepted : List Byte} {handed : List Chunk} {failed : Bool} {rdPos wrPos : Nat} (ask : Nat)
    (reachable : (netMachine package method).Reachable
      ⟨cache, urlSeekLoop offset next (fuel + 1) curOffset, handed, failed⟩)
    (plain : Plain cache memory accepted rdPos wrPos) (more : curOffset < offset)
    (asks : (if seekBufSize ≤ offset - curOffset then seekBufSize else offset - curOffset) = ask)
    (some_ : 1 ≤ ask) (small : ask < 10240) (room : wrPos ≤ Net.cacheBufSize)
    (fits : rdPos + ask ≤ wrPos) :
    ∃ after, (netMachine package method).Reachable
        ⟨after, urlSeekLoop offset next fuel (curOffset + ask), handed, failed⟩ ∧
      Plain after memory accepted (rdPos + ask) wrPos := by
  rw [urlSeekLoop, if_pos more, asks, urlRead, if_neg (by omega), if_pos small] at reachable
  rcases reachable_reads 1 reachable plain some_ room (by omega) (by simp) with
    ⟨after, reachable', plain'⟩
  rw [Nat.one_mul] at plain' reachable'
  apply Exists.intro after
  constructor
  · obtain ⟨less, rfl⟩ : ∃ less, ask = less + 1 := ⟨ask - 1, by omega⟩
    rw [urlReadLoop, List.nil_append, slice_length, if_neg (by omega)] at reachable'
    simpa only [slice_length] using reachable'
  · exact plain'

def zeros (count : Nat) : List Byte := List.replicate count 0

theorem zeros_length (count : Nat) : (zeros count).length = count := List.length_replicate

theorem zeros_append (front count : Nat) : zeros front ++ zeros count = zeros (front + count) :=
  List.replicate_append_replicate

theorem zeros_prefix (count total : Nat) (short : count ≤ total) : zeros count <+: zeros total := by
  apply Exists.intro (zeros (total - count))
  rw [zeros_append, Nat.add_sub_cancel' short]

def wideElem : Elem := ⟨1, "kernel", 102400, headerSize⟩

def wideLength : Nat := headerSize + 194560

/-- Two images of zeros, the first as long as the cache. -/
def widePackage : Package where
  bytes := zeros wideLength
  elems := [wideElem, ⟨2, "rootfs", 92160, headerSize + 102400⟩]
  positive := by simp [wideElem]
  contiguous := ⟨rfl, rfl, trivial⟩
  length := by
    rw [zeros_length]
    rfl

theorem widePackage_bytes : widePackage.bytes = zeros wideLength := rfl

/-- Nothing the loop should read is a 1, but what lies behind the cache is. -/
def wideCache : Net.State :=
  ⟨⟨Net.NetCache.opened (fun _ => 1) Net.cacheBufSize, 0, false, none, false⟩, [], [], []⟩

/-- The first write fills the cache. -/
theorem wide_filled (data : List Byte) (full : data.length = Net.cacheBufSize) :
    ∃ cache, Net.machine.next wideCache (.write data) = some cache ∧
      Plain cache (store (fun _ => 1) 0 data) data 0 Net.cacheBufSize := by
  have inside : wideCache.AllInside := by
    intro copy member
    cases member
  simp only [Net.machine]
  rw [if_pos inside]
  simp only [Net.act, Net.Transfer.writeData, wideCache, Net.NetCache.opened, full, Nat.add_zero,
    lt_irrefl, if_false, Bool.false_eq_true, Net.NetCache.writeData, le_refl, if_true, Nat.sub_zero,
    Net.Transfer.progress]
  refine ⟨_, rfl, ?_⟩
  constructor
  case net =>
      simp only [Nat.zero_add, Nat.sub_zero]
  case free => rfl
  case silent => rfl
  case accepted => rfl
  case inside =>
      intro copy member
      rw [List.mem_singleton.mp member]
      simp only [Net.CacheCopy.Inside]
      omega

/-- The loop at its first element: a test of the error, the read, the chunk. -/
theorem objLoop_first {Call : Type} {Answer : Call → Type}
    (raised : (Bool → Client Call Answer Chunk) → Client Call Answer Chunk)
    (read : Memory → Nat → Nat → (Option Memory → Client Call Answer Chunk) →
      Client Call Answer Chunk)
    (shrink : Nat → Nat → Nat → Nat) (total fuel : Nat) (elem : Elem) (rest : List Elem)
    (buf : Memory) (some_ : 0 < total) (small : elem.imgSize < upgBufSize) :
    ∃ next : Option Memory → Client Call Answer Chunk,
      (∀ filled, ∃ later, next (some filled) = .hand ⟨elem, slice filled 0 elem.imgSize⟩ later) ∧
      objLoop raised read shrink total (fuel + 1) (elem :: rest) buf 0 upgBufSize 0 =
        raised (fun error =>
          if error then .stop false else read buf elem.imgOffset elem.imgSize next) := by
  rw [objLoop, if_pos some_]
  simp only [small, if_true, Nat.add_zero]
  exact ⟨_, fun filled => ⟨_, rfl⟩, rfl⟩

/-- The loop has read the header and the first 92160 bytes of the image. -/
theorem wide_reads : ∃ cache next, (∀ bytes, ∃ later, next (some bytes) =
      .hand ⟨wideElem, slice (store (fun _ => 0) 0 bytes) 0 102400⟩ later) ∧
    (netMachine widePackage .pieceByPiece).Reachable
      ⟨cache, urlReadLoop 102400 10240 next 102392
        (slice (store (fun _ => 1) 0 (zeros Net.cacheBufSize)) headerSize (9 * 10240)), [], false⟩ ∧
    Plain cache (store (fun _ => 1) 0 (zeros Net.cacheBufSize)) (zeros Net.cacheBufSize)
      (headerSize + 9 * 10240) Net.cacheBufSize := by
  have begun : (netMachine widePackage .pieceByPiece).Reachable
      ⟨wideCache, netObjLoop .pieceByPiece widePackage.bytes.length widePackage.elems (fun _ => 0),
        [], false⟩ :=
    .initial ⟨wideCache, fun _ => 0, ⟨fun _ => 1, none, false, rfl⟩, rfl⟩
  have opened := begun.move (.open true) rfl
  have sought := opened.move .offset rfl
  rcases wide_filled (zeros Net.cacheBufSize) (zeros_length _) with ⟨full, written, plain⟩
  have following : wideCache.accepted ++ zeros Net.cacheBufSize <+: widePackage.bytes :=
    zeros_prefix Net.cacheBufSize wideLength (by decide)
  have filled := sought.move (.transfer (zeros Net.cacheBufSize)) (by
    simp only [netMachine, netNext]
    rw [if_pos following, written]
    rfl)
  rcases reachable_seek 1024 filled plain (by decide) (by decide) (by decide) (by decide)
    (by decide) (by decide) with ⟨cache, reachable, plain⟩
  rcases reachable_seek 1024 reachable plain (by decide) (by decide) (by decide) (by decide)
    (by decide) (by decide) with ⟨cache, reachable, plain⟩
  rcases reachable_seek 28 reachable plain (by decide) (by decide) (by decide) (by decide)
    (by decide) (by decide) with ⟨cache, reachable, plain⟩
  have amount : widePackage.bytes.length - headerSize = 194560 := by
    rw [widePackage_bytes, zeros_length]
    rfl
  rw [urlSeekLoop, if_neg (by decide), if_pos rfl, amount] at reachable
  rcases objLoop_first (fun next => Client.call NetCall.raised next) netRead shrinkGuarded 194560
    (194560 + 2) wideElem [⟨2, "rootfs", 92160, headerSize + 102400⟩] (fun _ => 0) (by decide)
    (by decide) with ⟨next, hands, loop⟩
  have first : (netMachine widePackage .pieceByPiece).Reachable
      ⟨cache, .call .raised (fun (error : Bool) => if error then .stop false
        else netRead (fun _ => 0) wideElem.imgOffset wideElem.imgSize next), [], false⟩ := by
    rw [← loop]
    exact reachable
  have tested := first.move (.test false) rfl
  have located := tested.move .offset rfl
  have offset : cache.net.cache.fileOffset = headerSize := by
    rw [plain.net]
    rfl
  simp only [offset] at located
  rw [urlSeekLoop, if_neg (by decide), if_pos rfl, urlRead, if_neg (by decide),
    if_neg (by decide)] at located
  have rounds_ : wideElem.imgSize + 1 = 102392 + 9 := by decide
  rw [rounds_] at located
  have fits : 0 + 1024 + 1024 + 28 + 9 * 10240 ≤ Net.cacheBufSize := by norm_num [Net.cacheBufSize]
  have within : ([] : List Byte).length + 9 * 10240 ≤ wideElem.imgSize := by norm_num [wideElem]
  rcases reachable_reads 9 located plain (by decide) (le_refl _) fits within with
    ⟨cache, reachable, plain⟩
  have place : 0 + 1024 + 1024 + 28 = headerSize := rfl
  have size : wideElem.imgSize = 102400 := rfl
  rw [place] at plain reachable
  rw [size, List.nil_append] at reachable
  rw [size] at hands
  refine ⟨cache, _, ?_, reachable, plain⟩
  intro bytes
  exact hands (store (fun _ => 0) 0 bytes)

/-- A write up to the read position: the cache is exactly full. -/
theorem Plain.fill {cache : Net.State} {memory : Memory} {accepted : List Byte} {rdPos : Nat}
    (plain : Plain cache memory accepted rdPos Net.cacheBufSize) (data : List Byte)
    (some_ : 1 ≤ rdPos) (inside : rdPos ≤ Net.cacheBufSize) (length : data.length = rdPos) :
    ∃ after, Net.machine.next cache (.write data) = some after ∧
      after.net.cache = ⟨store (store memory Net.cacheBufSize []) 0 data, Net.cacheBufSize,
        Net.cacheBufSize, rdPos, rdPos, rdPos⟩ ∧ after.AllInside := by
  rcases cache with ⟨⟨nci, fileSize, abort, desc, finish⟩, accepted', returned, copies⟩
  rcases plain with ⟨rfl, free, silent, rfl, tidy⟩
  simp only at free silent
  have room : ¬ Net.cacheBufSize < rdPos + (Net.cacheBufSize - rdPos) := by omega
  have beyond : ¬ rdPos ≤ 0 := by omega
  have total : Net.cacheBufSize - rdPos + rdPos = Net.cacheBufSize := by omega
  simp only [Net.machine]
  rw [if_pos tidy]
  simp only [Net.act, Net.Transfer.writeData, free, Bool.false_eq_true, if_false, room,
    Net.NetCache.writeData, inside, if_true, Nat.sub_self, beyond, Net.Transfer.progress, silent,
    List.take_zero, List.drop_zero, Nat.sub_zero, total, length]
  refine ⟨_, rfl, rfl, ?_⟩
  intro copy member
  rcases List.mem_append.mp member with old | new
  · exact tidy copy old
  · simp only [List.mem_cons, List.not_mem_nil, or_false] at new
    rcases new with rfl | rfl
    · simp only [Net.CacheCopy.Inside]
      omega
    · simp only [Net.CacheCopy.Inside]
      omega

theorem read_full {cache : Net.State} {memory : Memory} {rdPos : Nat} (size : Nat)
    (some_ : 1 ≤ size) (short : size ≤ Net.cacheBufSize) (tidy : cache.AllInside)
    (full : cache.net.cache =
      ⟨memory, Net.cacheBufSize, Net.cacheBufSize, rdPos, rdPos, rdPos⟩) :
    ∃ after, Net.machine.next cache (.read size) = some after ∧
      after.returned = cache.returned ++ slice memory rdPos size := by
  rcases cache with ⟨⟨nci, fileSize, abort, desc, finish⟩, accepted, returned, copies⟩
  simp only at full
  subst full
  have nonzero : size ≠ 0 := by omega
  have enough : ¬ Net.cacheBufSize < size := by omega
  simp only [Net.machine]
  rw [if_pos tidy]
  simp only [Net.act, Net.Transfer.urlReadCache, nonzero, if_false, enough,
    Net.NetCache.urlReadCache, le_refl, if_true]
  exact ⟨_, rfl, rfl⟩

theorem mem_of_mem_plan {bytes : List Byte} {elems : List Elem} {chunk : Chunk}
    (member : chunk ∈ planOf bytes elems) (byte : Byte) (inside : byte ∈ chunk.data) :
    byte ∈ bytes := by
  rcases List.mem_flatMap.mp member with ⟨elem, _, cutOff⟩
  rcases List.mem_map.mp cutOff with ⟨piece, piece_mem, rfl⟩
  have whole : byte ∈ (cut upgBufSize (image bytes elem)).flatten :=
    List.mem_flatten.mpr ⟨piece, piece_mem, inside⟩
  rw [cut_flatten upgBufSize upgBufSize_positive] at whole
  exact List.mem_of_mem_drop (List.mem_of_mem_take whole)

/-- The chunk handed over ends in bytes from behind the cache. -/
theorem wide_overrun : ∃ state chunk, (netMachine widePackage .pieceByPiece).Reachable state ∧
    state.handed = [chunk] ∧ (1 : Byte) ∈ chunk.data := by
  rcases wide_reads with ⟨cache, next, hands, reachable, plain⟩
  have position : headerSize + 9 * 10240 = 94236 := rfl
  rw [position] at plain
  rcases plain.fill (zeros 94236) (by norm_num) (by norm_num [Net.cacheBufSize])
    (zeros_length _) with ⟨full, written, counters, tidy⟩
  have following : cache.accepted ++ zeros 94236 <+: widePackage.bytes := by
    rw [plain.accepted, zeros_append]
    exact zeros_prefix _ wideLength (by decide)
  rcases read_full 10240 (by norm_num) (by norm_num [Net.cacheBufSize]) tidy counters with
    ⟨after, read, returned⟩
  have filled := reachable.move (.transfer (zeros 94236)) (by
    simp only [netMachine, netNext]
    rw [if_pos following, written]
    rfl)
  have content := hands
    (slice (store (fun _ => 1) 0 (zeros Net.cacheBufSize)) headerSize (9 * 10240) ++
      slice (store (store (store (fun _ => 1) 0 (zeros Net.cacheBufSize)) Net.cacheBufSize []) 0
        (zeros 94236)) 94236 10240)
  generalize front_ :
    slice (store (fun _ => 1) 0 (zeros Net.cacheBufSize)) headerSize (9 * 10240) = front
    at filled content
  have length : front.length = 92160 := by
    rw [← front_, slice_length]
  rcases content with ⟨later, hand⟩
  rw [urlReadLoop_ask (by norm_num) (by rw [length])] at filled
  have taken := filled.move .read (by
    simp only [netMachine, netNext, read, Option.map_some, returned, List.drop_left' rfl]
    rfl)
  have ends : (front ++ slice (store (store (store (fun _ => 1) 0 (zeros Net.cacheBufSize))
      Net.cacheBufSize []) 0 (zeros 94236)) 94236 10240).length = 102400 := by
    rw [List.length_append, length, slice_length]
  rw [urlReadLoop, ends, if_neg (lt_irrefl _), hand] at taken
  have given := taken.move .hand rfl
  refine ⟨_, _, given, rfl, ?_⟩
  rw [slice_store_of_length _ _ _ _ ends]
  apply List.mem_append_right
  apply List.mem_of_getElem?
  rw [slice_getElem? _ _ _ 10239 (by norm_num), store_after _ _ _ _ (by rw [zeros_length]; norm_num),
    store_after _ _ _ _ (by norm_num [Net.cacheBufSize]),
    store_after _ _ _ _ (by rw [zeros_length]; norm_num [Net.cacheBufSize])]

end Alisl.Upgrade.Source
