import Alisl.Base.Buffer
import Alisl.Base.Cut
import Alisl.Dmx.Calls

/-! `alisldmx_channel_read`: packets that begin with a marker are taken out of the
buffer in place. -/

namespace Alisl.Dmx

open Alisl.Base

/-- The first bytes of a packet that is removed. -/
def marker : List Byte := [0x32, 0x32, 0x32, 0x32]

/-- An unsigned long. -/
def ulong (value : Nat) : Nat := value % 4294967296

/-- One `memmove` of the loop, with the length of the data when it is called. -/
structure Move where
  num : Nat
  length : Nat
  remaining : Nat
  deriving DecidableEq, Repr

/-- The calls of `memmove` and, where the loop ends, the buffer and `*p_read`. -/
structure Removal where
  moves : List Move
  result : Option (List Byte × Nat)
  deriving DecidableEq

def Removal.after (removal : Removal) (moves : List Move) : Removal :=
  { removal with moves := moves ++ removal.moves }

/-- The loop over the packets of a buffer and the store to `*p_read` behind it. The
loop goes up to the length that was read, also when packets have been removed. -/
def removeLoop (lenRead : Nat) : Nat → List Byte → Nat → Nat → Removal
  | 0, _, _, _ => ⟨[], none⟩
  | fuel + 1, buf, num, i =>
      if num < lenRead then
        match matchesAt buf num marker with
        | none => ⟨[], none⟩
        | some false => removeLoop lenRead fuel buf (ulong (num + 188)) i
        | some true =>
            let length := ulongSub (ulongSub lenRead num) (ulong (188 * (i + 1)))
            let move : Move := ⟨num, length, ulongSub lenRead (ulong (188 * i))⟩
            match moveWithin buf num (num + 188) length with
            | none => ⟨[move], none⟩
            | some moved =>
                (removeLoop lenRead fuel moved (ulong (ulongSub num 188 + 188)) (i + 1)).after [move]
      else ⟨[], some (buf, ulongSub lenRead (ulong (188 * i)))⟩

inductive ReadRet where
  | ok
  | nullDev
  | chType
  | noCh
  | status
  | inval
  | failed
  deriving DecidableEq, Repr

/-- What a call is given and what the system answers: `answer` are the bytes that
`read` stores, `none` is −1. -/
structure ReadCall where
  nullHandle : Bool
  channelid : Nat
  statfs : Bool
  ready : Bool
  answer : Option (List Byte)

/-- What `read` leaves in the buffer and returns. -/
def ReadCall.filled (call : ReadCall) (buf : List Byte) : List Byte × Nat :=
  match call.answer with
  | none => (buf, 4294967295)
  | some bytes => (bytes ++ buf.drop bytes.length, bytes.length)

def Device.channelRead (dev : Device) (callback : ChType → Nat → Callback) (call : ReadCall)
    (buf : List Byte) (pRead fuel : Nat) : Option (ReadRet × Removal) :=
  let left : Removal := ⟨[], some (buf, pRead)⟩
  if call.nullHandle then some (.nullDev, left)
  else match ChType.ofCode (chid2Type call.channelid) with
    | none => some (.chType, left)
    | some type =>
        (dev.findChannel type call.channelid).map (fun
          | none => (.noCh, left)
          | some ch =>
              if (dev.channel type ch).status ≠ .enable then (.status, left)
              else if !call.statfs then (.inval, left)
              else if (callback type ch).requestBuffer.isSome ∨
                  (callback type ch).updateBuffer.isSome then (.failed, left)
              else if call.ready then
                let filled := call.filled buf
                (.ok, removeLoop filled.2 fuel filled.1 0 0)
              else (.ok, left))

/-- The packets of a byte string without those that begin with the marker. -/
def unmarked (packets : List (List Byte)) : List Byte :=
  (packets.filter (fun packet => ¬ marker <+: packet)).flatten

/-! What lies in the buffer while the loop runs: the packets it has kept, those ahead
of it but the last, then the last one and a stale copy of it for each one removed. -/

def laid (kept : List Byte) (ahead : List (List Byte)) (last : List Byte) (i : Nat)
    (tail : List Byte) : List Byte :=
  kept ++ ahead.flatten ++ (List.replicate (i + 1) last).flatten ++ tail

structure Fits (lenRead : Nat) (kept : List Byte) (ahead : List (List Byte)) (last : List Byte)
    (i : Nat) : Prop where
  packets : ∀ packet ∈ ahead, packet.length = 188
  last : last.length = 188
  length : lenRead = kept.length + 188 * (ahead.length + 1 + i)
  small : lenRead < 4294967296

theorem ulong_of_lt {value : Nat} (small : value < 4294967296) : ulong value = value :=
  Nat.mod_eq_of_lt small

/-- Subtracting a packet and adding it again leaves the position. -/
theorem ulong_back {num : Nat} (small : num < 4294967296) :
    ulong (ulongSub num 188 + 188) = num := by
  rw [ulong, ulongSub]
  split
  case isTrue above => omega
  case isFalse below => omega

theorem ulongSub_of_le {left right : Nat} (fits : right ≤ left) :
    ulongSub left right = left - right :=
  if_pos fits

theorem matchesAt_marker (kept packet more : List Byte) (length : packet.length = 188) :
    matchesAt (kept ++ packet ++ more) kept.length marker = some (decide (marker <+: packet)) :=
  matchesAt_append kept packet more marker (by rw [length]; decide)

/-- A packet without the marker is passed. -/
theorem removeLoop_keep {lenRead fuel i : Nat} (kept packet more : List Byte)
    (length : packet.length = 188) (here : kept.length + 188 ≤ lenRead)
    (small : lenRead < 4294967296) (plain : ¬ marker <+: packet) :
    removeLoop lenRead (fuel + 1) (kept ++ packet ++ more) kept.length i =
      removeLoop lenRead fuel (kept ++ packet ++ more) (kept ++ packet).length i := by
  have next : ulong (kept.length + 188) = (kept ++ packet).length := by
    rw [ulong_of_lt (by omega), List.length_append, length]
  have tested : matchesAt (kept ++ packet ++ more) kept.length marker = some false := by
    rw [matchesAt_marker kept packet more length, decide_eq_false plain]
  rw [removeLoop, if_pos (by omega), tested, ← next]

/-- A packet with the marker is removed; the last packet stays behind as a copy. -/
theorem removeLoop_remove {lenRead fuel i : Nat} (kept packet moved last back : List Byte)
    (length : packet.length = 188) (lastLength : last.length = 188)
    (read : lenRead = kept.length + 188 + (moved ++ last).length + 188 * i)
    (small : lenRead < 4294967296) (marked : marker <+: packet) :
    removeLoop lenRead (fuel + 1) (kept ++ packet ++ (moved ++ last) ++ back) kept.length i =
      (removeLoop lenRead fuel (kept ++ (moved ++ last) ++ (last ++ back)) kept.length
        (i + 1)).after [⟨kept.length, (moved ++ last).length, lenRead - 188 * i⟩] := by
  have tested : matchesAt (kept ++ packet ++ (moved ++ last) ++ back) kept.length marker =
      some true := by
    rw [List.append_assoc (kept ++ packet), matchesAt_marker kept packet _ length,
      decide_eq_true marked]
  have asked : ulongSub (ulongSub lenRead kept.length) (ulong (188 * (i + 1))) =
      (moved ++ last).length := by
    have behind : ulongSub lenRead kept.length = lenRead - kept.length := ulongSub_of_le (by omega)
    rw [behind, ulong_of_lt (by omega), ulongSub_of_le (by omega)]
    omega
  have remaining : ulongSub lenRead (ulong (188 * i)) = lenRead - 188 * i := by
    rw [ulong_of_lt (by omega), ulongSub_of_le (by omega)]
  have done := moveWithin_gap kept packet moved last back (lastLength.trans length.symm)
  rw [length] at done
  rw [removeLoop, if_pos (by omega), tested]
  simp only [asked, remaining, done]
  rw [ulong_back (by omega)]

theorem Removal.after_nil (removal : Removal) : removal.after [] = removal := rfl

theorem Removal.after_after (removal : Removal) (moves more : List Move) :
    (removal.after more).after moves = removal.after (moves ++ more) := by
  rw [Removal.after, Removal.after, Removal.after, List.append_assoc]

/-- A move that stays in the data. -/
def Move.Inside (move : Move) : Prop := move.length ≤ move.remaining

theorem flatten_replicate_succ (i : Nat) (last : List Byte) :
    (List.replicate (i + 1) last).flatten = last ++ (List.replicate i last).flatten := by
  rw [List.replicate_succ, List.flatten_cons]

theorem length_flatten_packets {packets : List (List Byte)}
    (lengths : ∀ packet ∈ packets, packet.length = 188) :
    packets.flatten.length = 188 * packets.length := by
  have each : ∀ length ∈ packets.map List.length, length = 188 := by
    simpa using lengths
  rw [List.length_flatten, List.sum_eq_card_nsmul _ 188 each, List.length_map, smul_eq_mul,
    Nat.mul_comm]

/-! One packet of those before the last one. -/

section Step

variable {lenRead : Nat} {kept packet last : List Byte} {ahead : List (List Byte)} {i : Nat}

theorem Fits.rest (fits : Fits lenRead kept (packet :: ahead) last i) :
    ∀ other ∈ ahead, other.length = 188 :=
  fun other member => fits.packets other (List.mem_cons_of_mem _ member)

theorem Fits.keep (fits : Fits lenRead kept (packet :: ahead) last i) :
    Fits lenRead (kept ++ packet) ahead last i := by
  have length := fits.packets packet List.mem_cons_self
  have read := fits.length
  rw [List.length_cons] at read
  refine ⟨fits.rest, fits.last, ?_, fits.small⟩
  rw [List.length_append]
  omega

theorem Fits.remove (fits : Fits lenRead kept (packet :: ahead) last i) :
    Fits lenRead kept ahead last (i + 1) := by
  have read := fits.length
  rw [List.length_cons] at read
  exact ⟨fits.rest, fits.last, by omega, fits.small⟩

theorem removeLoop_laid_keep (tail : List Byte)
    (fits : Fits lenRead kept (packet :: ahead) last i) (plain : ¬ marker <+: packet) (fuel : Nat) :
    removeLoop lenRead (fuel + 1) (laid kept (packet :: ahead) last i tail) kept.length i =
      removeLoop lenRead fuel (laid (kept ++ packet) ahead last i tail) (kept ++ packet).length i := by
  have length := fits.packets packet List.mem_cons_self
  have read := fits.length
  have before : laid kept (packet :: ahead) last i tail = kept ++ packet ++
      (ahead.flatten ++ (List.replicate (i + 1) last).flatten ++ tail) := by
    rw [laid, List.flatten_cons]
    simp only [List.append_assoc]
  have behind : laid (kept ++ packet) ahead last i tail = kept ++ packet ++
      (ahead.flatten ++ (List.replicate (i + 1) last).flatten ++ tail) := by
    rw [laid]
    simp only [List.append_assoc]
  rw [before, behind, removeLoop_keep kept packet _ length (by omega) fits.small plain]

theorem removeLoop_laid_remove (tail : List Byte)
    (fits : Fits lenRead kept (packet :: ahead) last i) (marked : marker <+: packet) :
    ∃ move : Move, move.Inside ∧ ∀ fuel,
      removeLoop lenRead (fuel + 1) (laid kept (packet :: ahead) last i tail) kept.length i =
        (removeLoop lenRead fuel (laid kept ahead last (i + 1) tail) kept.length (i + 1)).after
          [move] := by
  have length := fits.packets packet List.mem_cons_self
  have read := fits.length
  rw [List.length_cons] at read
  have total : (ahead.flatten ++ last).length = 188 * (ahead.length + 1) := by
    rw [List.length_append, length_flatten_packets fits.rest, fits.last, Nat.mul_succ]
  have before : laid kept (packet :: ahead) last i tail = kept ++ packet ++
      (ahead.flatten ++ last) ++ ((List.replicate i last).flatten ++ tail) := by
    rw [laid, flatten_replicate_succ, List.flatten_cons]
    simp only [List.append_assoc]
  have behind : laid kept ahead last (i + 1) tail = kept ++ (ahead.flatten ++ last) ++
      (last ++ ((List.replicate i last).flatten ++ tail)) := by
    rw [laid, flatten_replicate_succ, flatten_replicate_succ]
    simp only [List.append_assoc]
  refine ⟨⟨kept.length, (ahead.flatten ++ last).length, lenRead - 188 * i⟩, ?_, ?_⟩
  · rw [Move.Inside, total]
    show 188 * (ahead.length + 1) ≤ lenRead - 188 * i
    omega
  · intro fuel
    rw [before, behind]
    exact removeLoop_remove kept packet ahead.flatten last _ length fits.last (by omega) fits.small
      marked

end Step

/-- How the packets before the last one go by: the ones without the marker are kept,
each of the others leaves a copy of the last one behind. -/
theorem removeLoop_walk {lenRead : Nat} {last : List Byte} (tail : List Byte)
    (ahead : List (List Byte)) (kept : List Byte) (i : Nat) (fits : Fits lenRead kept ahead last i) :
    ∃ moves removed, (∀ move ∈ moves, move.Inside) ∧
      Fits lenRead (kept ++ unmarked ahead) [] last (i + removed) ∧
      ∀ fuel, removeLoop lenRead (fuel + ahead.length) (laid kept ahead last i tail) kept.length i =
        (removeLoop lenRead fuel (laid (kept ++ unmarked ahead) [] last (i + removed) tail)
          (kept ++ unmarked ahead).length (i + removed)).after moves := by
  induction ahead generalizing kept i with
  | nil =>
      refine ⟨[], 0, by simp, ?_, ?_⟩
      · rw [unmarked, List.filter_nil, List.flatten_nil, List.append_nil]
        exact fits
      · intro fuel
        rw [unmarked, List.filter_nil, List.flatten_nil, List.append_nil, Removal.after_nil]
        rfl
  | cons packet ahead ih =>
      by_cases marked : marker <+: packet
      · have same : unmarked (packet :: ahead) = unmarked ahead := by
          rw [unmarked, List.filter_cons_of_neg (by simpa using marked), unmarked]
        rcases removeLoop_laid_remove tail fits marked with ⟨move, short, step⟩
        rcases ih kept (i + 1) fits.remove with ⟨moves, removed, inside, ended, ran⟩
        have reordered : i + (removed + 1) = i + 1 + removed := by omega
        refine ⟨move :: moves, removed + 1, ?_, ?_, ?_⟩
        · rw [List.forall_mem_cons]
          exact ⟨short, inside⟩
        · rw [same, reordered]
          exact ended
        · intro fuel
          rw [List.length_cons, ← Nat.add_assoc, step, ran, Removal.after_after, same, reordered,
            List.singleton_append]
      · have same : kept ++ unmarked (packet :: ahead) = (kept ++ packet) ++ unmarked ahead := by
          rw [unmarked, List.filter_cons_of_pos (by simpa using marked), List.flatten_cons, unmarked,
            List.append_assoc]
        rcases ih (kept ++ packet) i fits.keep with ⟨moves, removed, inside, ended, ran⟩
        refine ⟨moves, removed, inside, ?_, ?_⟩
        · rw [same]
          exact ended
        · intro fuel
          rw [List.length_cons, ← Nat.add_assoc, removeLoop_laid_keep tail fits marked, ran, same]

/-- Copies of a last packet without the marker are passed. -/
theorem removeLoop_stale {lenRead i : Nat} {last : List Byte} (tail : List Byte)
    (length : last.length = 188) (plain : ¬ marker <+: last) (copies : Nat) (kept : List Byte)
    (read : lenRead = kept.length + 188 * copies) (small : lenRead < 4294967296)
    (removed : 188 * i ≤ lenRead) (fuel : Nat) :
    removeLoop lenRead (fuel + 1 + copies) (kept ++ (List.replicate copies last).flatten ++ tail)
        kept.length i =
      ⟨[], some (kept ++ (List.replicate copies last).flatten ++ tail, lenRead - 188 * i)⟩ := by
  induction copies generalizing kept with
  | zero =>
      rw [Nat.add_zero, removeLoop, if_neg (by omega), ulong_of_lt (by omega),
        ulongSub_of_le removed]
  | succ copies ih =>
      have split : kept ++ (List.replicate (copies + 1) last).flatten ++ tail =
          kept ++ last ++ ((List.replicate copies last).flatten ++ tail) := by
        rw [flatten_replicate_succ]
        simp only [List.append_assoc]
      have rest := ih (kept ++ last) (by rw [List.length_append]; omega)
      rw [List.append_assoc (kept ++ last)] at rest
      rw [← Nat.add_assoc, split, removeLoop_keep kept last _ length (by omega) small plain, rest]

/-- One round of the loop faults, ends it, or leads to the next one. -/
theorem removeLoop_round (lenRead : Nat) (buf : List Byte) (num i : Nat) :
    (∀ fuel, (removeLoop lenRead (fuel + 1) buf num i).result = none) ∨
      (∀ fuel, (removeLoop lenRead (fuel + 1) buf num i).result =
        some (buf, ulongSub lenRead (ulong (188 * i)))) ∨
      ∃ after next removed, ∀ fuel, (removeLoop lenRead (fuel + 1) buf num i).result =
        (removeLoop lenRead fuel after next removed).result := by
  by_cases here : num < lenRead
  · cases tested : matchesAt buf num marker with
    | none => exact .inl (fun fuel => by simp [removeLoop, here, tested])
    | some found =>
        cases found with
        | false =>
            exact .inr (.inr ⟨buf, ulong (num + 188), i, fun fuel => by
              simp [removeLoop, here, tested]⟩)
        | true =>
            cases moved : moveWithin buf num (num + 188)
                (ulongSub (ulongSub lenRead num) (ulong (188 * (i + 1)))) with
            | none => exact .inl (fun fuel => by simp [removeLoop, here, tested, moved])
            | some after =>
                refine .inr (.inr ⟨after, ulong (ulongSub num 188 + 188), i + 1, fun fuel => ?_⟩)
                simp only [removeLoop, if_pos here, tested, moved]
                rfl
  · exact .inr (.inl (fun fuel => by simp [removeLoop, here]))

/-- More fuel finds the same result. -/
theorem removeLoop_more {lenRead : Nat} (fuel : Nat) {buf : List Byte} {num i : Nat}
    {result : List Byte × Nat} (ended : (removeLoop lenRead fuel buf num i).result = some result)
    (more : Nat) : (removeLoop lenRead (fuel + more) buf num i).result = some result := by
  induction fuel generalizing buf num i with
  | zero => simp [removeLoop] at ended
  | succ fuel ih =>
      rw [Nat.add_right_comm]
      rcases removeLoop_round lenRead buf num i with fault | done | ⟨after, next, removed, step⟩
      · rw [fault] at ended
        exact absurd ended (by simp)
      · rw [done] at ended ⊢
        exact ended
      · rw [step] at ended ⊢
        exact ih ended

/-- What `*p_read` is, whatever was read. -/
theorem removeLoop_read {lenRead : Nat} (fuel : Nat) {buf after : List Byte} {num i read : Nat}
    (ended : (removeLoop lenRead fuel buf num i).result = some (after, read)) :
    ∃ removed, read = ulongSub lenRead (ulong (188 * removed)) := by
  induction fuel generalizing buf num i with
  | zero => simp [removeLoop] at ended
  | succ fuel ih =>
      rcases removeLoop_round lenRead buf num i with fault | done | ⟨moved, next, removed, step⟩
      · rw [fault] at ended
        exact absurd ended (by simp)
      · rw [done, Option.some.injEq, Prod.mk.injEq] at ended
        exact ⟨i, ended.2.symm⟩
      · rw [step] at ended
        exact ih ended

/-- After −1 from `read`, an odd number is stored to `*p_read`. -/
theorem removeLoop_failed {fuel : Nat} {buf after : List Byte} {num i read : Nat}
    (ended : (removeLoop 4294967295 fuel buf num i).result = some (after, read)) : read ≠ 0 := by
  rcases removeLoop_read fuel ended with ⟨removed, rfl⟩
  rw [ulongSub, ulong]
  split
  case isTrue fits => omega
  case isFalse above => omega

/-- Removing a last packet with the marker, of no bytes behind it, is followed by a move
of −188 bytes. -/
theorem removeLoop_marked {lenRead i : Nat} {kept last : List Byte} (tail : List Byte)
    (fits : Fits lenRead kept [] last i) (marked : marker <+: last)
    (within : (laid kept [] last i tail).length < 4294967296) (fuel : Nat) :
    (removeLoop lenRead fuel (laid kept [] last i tail) kept.length i).result = none := by
  have read := fits.length
  have small := fits.small
  have split : laid kept [] last i tail =
      kept ++ last ++ ((List.replicate i last).flatten ++ tail) := by
    rw [laid, flatten_replicate_succ, List.flatten_nil, List.append_nil]
    simp only [List.append_assoc]
  have tested : matchesAt (laid kept [] last i tail) kept.length marker = some true := by
    rw [split, matchesAt_marker kept last _ fits.last, decide_eq_true marked]
  have long : kept.length + 188 ≤ (laid kept [] last i tail).length := by
    rw [split, List.length_append, List.length_append, fits.last]
    omega
  rw [List.length_nil] at read
  have behind : ulongSub lenRead kept.length = 188 * (i + 1) := by
    rw [ulongSub_of_le (by omega)]
    omega
  have nothing : ulongSub (188 * (i + 1)) (ulong (188 * (i + 1))) = 0 := by
    rw [ulong_of_lt (by omega), ulongSub_of_le (by omega), Nat.sub_self]
  have negative : ulongSub (188 * (i + 1)) (ulong (188 * (i + 1 + 1))) = 4294967108 := by
    rw [ulongSub, ulong]
    split
    case isTrue wrapped => omega
    case isFalse above => omega
  have still := moveWithin_zero (laid kept [] last i tail) kept.length (kept.length + 188)
    (by omega) long
  have outside := moveWithin_beyond (laid kept [] last i tail) kept.length (kept.length + 188)
    4294967108 (by omega)
  -- The first round moves nothing, so the second one finds the same packet.
  rcases fuel with _ | _ | fuel
  · rfl
  · rw [removeLoop, if_pos (by omega), tested]
    simp only [behind, nothing, still]
    rfl
  · rw [removeLoop, if_pos (by omega), tested]
    simp only [behind, nothing, still]
    rw [ulong_back (by omega), removeLoop, if_pos (by omega), tested]
    simp only [behind, negative, outside]
    rfl

/-- What the loop has to leave of the packets that were read. -/
structure Delivered (packets : List (List Byte)) (moves : List Move) (after : List Byte)
    (read : Nat) : Prop where
  data : unmarked packets <+: after
  length : read = (unmarked packets).length
  moves : ∀ move ∈ moves, move.Inside

theorem unmarked_append (front back : List (List Byte)) :
    unmarked (front ++ back) = unmarked front ++ unmarked back := by
  rw [unmarked, List.filter_append, List.flatten_append, unmarked, unmarked]

theorem laid_length {lenRead i : Nat} {kept last : List Byte} {ahead : List (List Byte)}
    (tail : List Byte) (fits : Fits lenRead kept ahead last i) :
    (laid kept ahead last i tail).length = lenRead + tail.length := by
  have copies : (List.replicate (i + 1) last).flatten.length = 188 * (i + 1) := by
    rw [length_flatten_packets (fun packet member =>
      (List.eq_of_mem_replicate member).symm ▸ fits.last), List.length_replicate]
  have read := fits.length
  rw [laid, List.length_append, List.length_append, List.length_append, copies,
    length_flatten_packets fits.packets]
  omega

/-- Where the last packet stays, the loop ends. -/
theorem removeLoop_delivered {lenRead : Nat} {ahead : List (List Byte)} {last : List Byte}
    (tail : List Byte) (fits : Fits lenRead [] ahead last 0) (plain : ¬ marker <+: last) :
    ∃ fuel moves after read, removeLoop lenRead fuel (laid [] ahead last 0 tail) 0 0 =
      ⟨moves, some (after, read)⟩ ∧ Delivered (ahead ++ [last]) moves after read := by
  rcases removeLoop_walk tail ahead [] 0 fits with ⟨moves, removed, inside, ended, ran⟩
  rw [List.nil_append, Nat.zero_add] at ended ran
  rw [List.length_nil] at ran
  have read := ended.length
  rw [List.length_nil] at read
  have same : laid (unmarked ahead) [] last removed tail =
      unmarked ahead ++ (List.replicate (removed + 1) last).flatten ++ tail := by
    rw [laid, List.flatten_nil, List.append_nil]
  have rest := removeLoop_stale (i := removed) tail ended.last plain (removed + 1) (unmarked ahead)
    (by omega) ended.small (by omega) 0
  have left : unmarked (ahead ++ [last]) = unmarked ahead ++ last := by
    rw [unmarked_append, unmarked, unmarked, List.filter_cons_of_pos (by simpa using plain),
      List.filter_nil, List.flatten_singleton]
  refine ⟨0 + 1 + (removed + 1) + ahead.length, moves, laid (unmarked ahead) [] last removed tail,
    lenRead - 188 * removed, ?_, ?_⟩
  · rw [ran, same, rest, Removal.after, List.append_nil]
  · constructor
    case data =>
        rw [left, same, flatten_replicate_succ]
        simp only [List.append_assoc]
        rw [← List.append_assoc]
        exact List.prefix_append _ _
    case length =>
        rw [left, List.length_append, ended.last]
        omega
    case moves => exact inside

/-- Where the last packet has the marker, the loop never gets to its end. -/
theorem removeLoop_faults {lenRead : Nat} {ahead : List (List Byte)} {last : List Byte}
    (tail : List Byte) (fits : Fits lenRead [] ahead last 0) (marked : marker <+: last)
    (within : lenRead + tail.length < 4294967296) (fuel : Nat) :
    (removeLoop lenRead fuel (laid [] ahead last 0 tail) 0 0).result = none := by
  rcases removeLoop_walk tail ahead [] 0 fits with ⟨moves, removed, _, ended, ran⟩
  rw [List.nil_append, Nat.zero_add] at ended ran
  rw [List.length_nil] at ran
  cases found : (removeLoop lenRead fuel (laid [] ahead last 0 tail) 0 0).result with
  | none => rfl
  | some result =>
      have more := removeLoop_more fuel found ahead.length
      have short : (laid (unmarked ahead) [] last removed tail).length < 4294967296 := by
        rw [laid_length tail ended]
        exact within
      rw [ran, Removal.after, removeLoop_marked tail ended marked short fuel] at more
      exact absurd more (by simp)

/-- The last packet of a whole number of them. -/
theorem cut_last {bytes : List Byte} (some : bytes ≠ []) (whole : 188 ∣ bytes.length) :
    ∃ ahead, cut 188 bytes = ahead ++ [bytes.drop (bytes.length - 188)] ∧
      ahead.flatten ++ bytes.drop (bytes.length - 188) = bytes ∧
      ∀ packet ∈ cut 188 bytes, packet.length = 188 := by
  have lengths := length_of_mem_cut 188 (by decide) bytes whole
  have joined := cut_flatten 188 (by decide) bytes
  rcases List.eq_nil_or_concat' (cut 188 bytes) with empty | ⟨ahead, last, split⟩
  · rw [empty, List.flatten_nil] at joined
    exact absurd joined.symm some
  · rw [split, List.flatten_concat] at joined
    have lastLength : last.length = 188 := by
      apply lengths last
      rw [split]
      exact List.mem_append_right _ (List.mem_singleton.mpr rfl)
    have size : bytes.length - 188 = ahead.flatten.length := by
      rw [← joined, List.length_append, lastLength, Nat.add_sub_cancel]
    have dropped : bytes.drop (bytes.length - 188) = last := by
      rw [size, ← joined, List.drop_left]
    exact ⟨ahead, by rw [dropped, split], by rw [dropped, joined], lengths⟩

/-- The loop over a whole number of packets does what it should exactly where the last
of them stays. -/
theorem removeLoop_delivered_iff (bytes tail : List Byte) (whole : 188 ∣ bytes.length)
    (within : (bytes ++ tail).length < 4294967296) :
    (∃ fuel moves after read, removeLoop bytes.length fuel (bytes ++ tail) 0 0 =
      ⟨moves, some (after, read)⟩ ∧ Delivered (cut 188 bytes) moves after read) ↔
      (bytes = [] ∨ ¬ marker <+: bytes.drop (bytes.length - 188)) := by
  by_cases none : bytes = []
  · subst none
    apply iff_of_true _ (.inl rfl)
    refine ⟨1, [], tail, 0, rfl, ?_⟩
    exact ⟨List.nil_prefix, rfl, by simp⟩
  · rcases cut_last none whole with ⟨ahead, split, joined, lengths⟩
    rw [or_iff_right none, split]
    generalize bytes.drop (bytes.length - 188) = last at split joined ⊢
    rw [split, List.forall_mem_append, List.forall_mem_singleton] at lengths
    rw [List.length_append] at within
    have read : bytes.length = ([] : List Byte).length + 188 * (ahead.length + 1 + 0) := by
      rw [← joined, List.length_append, length_flatten_packets lengths.1, lengths.2,
        List.length_nil]
      omega
    have fits : Fits bytes.length [] ahead last 0 := ⟨lengths.1, lengths.2, read, by omega⟩
    have start : bytes ++ tail = laid [] ahead last 0 tail := by
      rw [laid, flatten_replicate_succ, List.replicate_zero, List.flatten_nil, List.append_nil,
        List.nil_append, joined]
    rw [start]
    constructor
    · intro delivered marked
      rcases delivered with ⟨fuel, moves, after, read, looped, _⟩
      have fault := removeLoop_faults tail fits marked within fuel
      rw [looped] at fault
      exact absurd fault (by simp)
    · exact removeLoop_delivered tail fits

/-- The call gets as far as `read`. -/
structure Reaches (dev : Device) (callback : ChType → Nat → Callback) (call : ReadCall) :
    Prop where
  handle : call.nullHandle = false
  channel : ∃ type ch, ChType.ofCode (chid2Type call.channelid) = some type ∧
    dev.findChannel type call.channelid = some (some ch) ∧
    (dev.channel type ch).status = .enable ∧
    (callback type ch).requestBuffer = none ∧ (callback type ch).updateBuffer = none
  statfs : call.statfs = true
  ready : call.ready = true

theorem Reaches.channelRead {dev : Device} {callback : ChType → Nat → Callback} {call : ReadCall}
    (reaches : Reaches dev callback call) (buf : List Byte) (pRead fuel : Nat) :
    dev.channelRead callback call buf pRead fuel =
      some (.ok, removeLoop (call.filled buf).2 fuel (call.filled buf).1 0 0) := by
  rcases reaches.channel with ⟨type, ch, typed, found, enabled, request, update⟩
  rw [Device.channelRead, reaches.handle, typed]
  simp [found, enabled, request, update, reaches.statfs, reaches.ready]

/-- The call returns, with the packets in the buffer, or with `*p_read` 0 after −1. -/
def Device.ReadsRight (dev : Device) (callback : ChType → Nat → Callback) (call : ReadCall)
    (buf : List Byte) (pRead : Nat) : Prop :=
  ∃ fuel moves after read, dev.channelRead callback call buf pRead fuel =
      some (.ok, ⟨moves, some (after, read)⟩) ∧
    call.answer.elim (read = 0) (fun bytes => Delivered (cut 188 bytes) moves after read)

theorem readsRight_some_iff {dev : Device} {callback : ChType → Nat → Callback} {call : ReadCall}
    {buf bytes : List Byte} (reaches : Reaches dev callback call)
    (answer : call.answer = some bytes) (whole : 188 ∣ bytes.length)
    (inside : bytes.length ≤ buf.length) (length : buf.length < 4294967296) (pRead : Nat) :
    dev.ReadsRight callback call buf pRead ↔
      (bytes = [] ∨ ¬ marker <+: bytes.drop (bytes.length - 188)) := by
  have within : (bytes ++ buf.drop bytes.length).length < 4294967296 := by
    rw [List.length_append, List.length_drop]
    omega
  simp only [← removeLoop_delivered_iff bytes _ whole within, Device.ReadsRight, answer,
    Option.elim_some, reaches.channelRead, ReadCall.filled, Option.some.injEq, Prod.mk.injEq,
    true_and]

/-- After −1 from `read` no call returns with `*p_read` 0. -/
theorem not_readsRight_none {dev : Device} {callback : ChType → Nat → Callback} {call : ReadCall}
    (reaches : Reaches dev callback call) (answer : call.answer = none) (buf : List Byte)
    (pRead : Nat) : ¬ dev.ReadsRight callback call buf pRead := by
  intro right
  rcases right with ⟨fuel, moves, after, read, returned, zero⟩
  rw [answer, Option.elim_none] at zero
  rw [reaches.channelRead, ReadCall.filled, answer, Option.some.injEq, Prod.mk.injEq] at returned
  exact removeLoop_failed (congrArg Removal.result returned.2) zero

/-- A read call does what it should exactly where the driver delivers no packet, or a
last one without the marker. -/
theorem channelRead_readsRight_iff {dev : Device} {callback : ChType → Nat → Callback}
    {call : ReadCall} {buf : List Byte} (reaches : Reaches dev callback call)
    (length : buf.length < 4294967296)
    (driver : ∀ bytes, call.answer = some bytes → 188 ∣ bytes.length ∧ bytes.length ≤ buf.length)
    (pRead : Nat) :
    dev.ReadsRight callback call buf pRead ↔
      ∃ bytes, call.answer = some bytes ∧
        (bytes = [] ∨ ¬ marker <+: bytes.drop (bytes.length - 188)) := by
  cases answer : call.answer with
  | none =>
      apply iff_of_false (not_readsRight_none reaches answer buf pRead)
      intro delivered
      rcases delivered with ⟨bytes, given, _⟩
      exact absurd given (by simp)
  | some bytes =>
      rcases driver bytes answer with ⟨whole, inside⟩
      simp only [readsRight_some_iff reaches answer whole inside length, Option.some.injEq,
        exists_eq_left']

/-- A record channel that is allocated and enabled is read. -/
theorem exists_reaches (answer : Option (List Byte)) :
    ∃ dev, Reaches dev (fun _ _ => ⟨none, none, 0⟩) ⟨false, 0x20000, true, true, answer⟩ := by
  have ran : (((pool.run (.opened 0 0 0 0 false) [⟨false, .allocateChannel 2⟩]).map (fun dev =>
      dev.setChannel .records 0 { dev.channel .records 0 with status := .enable })).bind
        (fun dev => dev.findChannel .records 0x20000)) = some (some 0) := by
    decide +kernel
  rcases Option.bind_eq_some_iff.mp ran with ⟨dev, opened, found⟩
  rcases Option.map_eq_some_iff.mp opened with ⟨before, _, rfl⟩
  refine ⟨before.setChannel .records 0 { before.channel .records 0 with status := .enable }, rfl,
    ?_, rfl, rfl⟩
  have typed : ChType.ofCode (chid2Type 0x20000) = some .records := by decide +kernel
  exact ⟨.records, 0, typed, found, by simp, rfl, rfl⟩

theorem channelRead_readsRight_one_packet :
    ∃ dev : Device, dev.ReadsRight (fun _ _ => ⟨none, none, 0⟩)
      ⟨false, 0x20000, true, true, some (List.replicate 188 0x47)⟩ (List.replicate 200 0) 0 := by
  rcases exists_reaches (some (List.replicate 188 0x47)) with ⟨dev, reaches⟩
  refine ⟨dev, (channelRead_readsRight_iff reaches ?_ ?_ 0).mpr ?_⟩
  · rw [List.length_replicate]
    decide
  · intro bytes given
    rw [← Option.some.inj given, List.length_replicate, List.length_replicate]
    decide
  · exact ⟨_, rfl, .inr (by decide +kernel)⟩

/-- One packet with the marker: after its removal it is found again, and the length of
the move is −188. -/
theorem last_packet_marked :
    ∃ dev : Device, Reaches dev (fun _ _ => ⟨none, none, 0⟩)
        ⟨false, 0x20000, true, true, some (marker ++ List.replicate 184 0)⟩ ∧
      ¬ dev.ReadsRight (fun _ _ => ⟨none, none, 0⟩)
        ⟨false, 0x20000, true, true, some (marker ++ List.replicate 184 0)⟩
        (List.replicate 188 0) 0 ∧
      (removeLoop 188 2 (marker ++ List.replicate 184 0) 0 0).moves =
        [⟨0, 0, 188⟩, ⟨0, 4294967108, 0⟩] := by
  rcases exists_reaches (some (marker ++ List.replicate 184 0)) with ⟨dev, reaches⟩
  refine ⟨dev, reaches, ?_, by decide +kernel⟩
  have short : (List.replicate 188 (0 : Byte)).length < 4294967296 := by decide +kernel
  rw [readsRight_some_iff reaches rfl (by decide +kernel) (by decide +kernel) short]
  decide +kernel

end Alisl.Dmx
