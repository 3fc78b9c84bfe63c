import Alisl.Base.Bytes
import Alisl.Base.Cut

/-! Sections in transport stream packets, `gen_ts_stream` of aliota.cpp. -/

namespace Alisl.Upgrade

open Alisl.Base

/-- The continuity counter of a packet, and the static `c_c` behind it. -/
def continuity (cc : Nat) : Nat × Nat := if 0xf < cc then (0, 1) else (cc, cc + 1)

/-- Payload only, and not scrambled. -/
def tsHeader (pid : Nat) (start : Bool) (counter : Nat) : List Byte :=
  [0x47, byteOf ((if start then 0x40 else 0) ||| ((0x1f00 &&& pid) >>> 8)), byteOf (0x00ff &&& pid),
    byteOf (0x10 + counter)]

/-- The first packet of a section has a pointer field. -/
def tsCapacity (start : Bool) : Nat := if start then 183 else 184

def tsPacket (pid : Nat) (start : Bool) (counter : Nat) (part : List Byte) : List Byte :=
  tsHeader pid start counter ++ (if start then [0] else []) ++ part ++
    List.replicate (tsCapacity start - part.length) 0xff

/-- What each turn of the loop puts, and `c_c` at the end. -/
def tsLoop (pid : Nat) : Nat → Bool → Nat → List Byte → List (List Byte) × Nat
  | 0, _, cc, _ => ([], cc)
  | fuel + 1, start, cc, secBuf =>
      if 0 < secBuf.length then
        let (counter, next) := continuity cc
        let (packets, last) := tsLoop pid fuel false next (secBuf.drop (tsCapacity start))
        (tsPacket pid start counter (secBuf.take (tsCapacity start)) :: packets, last)
      else ([], cc)

def genTsStream (pid cc : Nat) (secBuf : List Byte) : List (List Byte) × Nat :=
  tsLoop pid secBuf.length true cc secBuf

/-- Calls one after the other. -/
def genTsStreams (pid : Nat) : Nat → List (List Byte) → List (List Byte) × Nat
  | cc, [] => ([], cc)
  | cc, secBuf :: secBufs =>
      let (packets, next) := genTsStream pid cc secBuf
      let (more, last) := genTsStreams pid next secBufs
      (packets ++ more, last)

/-- The file after these calls, the first ones of the tool. -/
def tsFile (pid : Nat) (secBufs : List (List Byte)) : List Byte :=
  (genTsStreams pid 3 secBufs).1.flatten

/-! A packet as a receiver reads it. -/

def tsPid (packet : List Byte) : Nat :=
  (packet.getD 1 0).toNat % 32 * 256 + (packet.getD 2 0).toNat

def tsStart (packet : List Byte) : Bool := decide ((packet.getD 1 0).toNat / 64 % 2 = 1)

def tsCounter (packet : List Byte) : Nat := (packet.getD 3 0).toNat % 16

/-- The payload without the pointer field. -/
def tsPayload (packet : List Byte) : List Byte := packet.drop (if tsStart packet then 5 else 4)

/-- A section in its packets; stuffing follows. -/
structure Carries (secBuf : List Byte) (packets : List (List Byte)) : Prop where
  starts : ∃ first rest, packets = first :: rest ∧ tsStart first = true ∧ first[4]? = some 0 ∧
    ∀ packet ∈ rest, tsStart packet = false
  bytes : ∃ stuffing, packets.flatMap tsPayload = secBuf ++ List.replicate stuffing 0xff

theorem continuity_counter {cc : Nat} (small : cc ≤ 16) :
    (continuity cc).1 = cc % 16 ∧ (continuity cc).2 ≤ 16 ∧
      (continuity cc).2 % 16 = (cc + 1) % 16 := by
  unfold continuity
  split
  · refine ⟨?_, ?_, ?_⟩
    · omega
    · omega
    · omega
  · refine ⟨?_, ?_, ?_⟩
    · omega
    · dsimp only
      omega
    · rfl

/-- The second byte: the start indicator above the high bits of the PID. -/
theorem tsHeader_second (pid : Nat) (start : Bool) :
    ((if start then 0x40 else 0) ||| ((0x1f00 &&& pid) >>> 8)) =
      (if start then 64 else 0) + pid / 256 % 32 := by
  have high : (0x1f00 &&& pid) >>> 8 = pid / 256 % 32 := by
    rw [Nat.shiftRight_and_distrib, Nat.and_comm, Nat.shiftRight_eq_div_pow]
    exact Nat.and_two_pow_sub_one_eq_mod (pid / 2 ^ 8) 5
  have small : pid / 256 % 32 < 2 ^ 6 := by omega
  rw [high]
  cases start with
  | false => simp
  | true => exact (Nat.two_pow_add_eq_or_of_lt small 1).symm

section Packet

variable (pid : Nat) (start : Bool) (counter : Nat) (part : List Byte)

theorem tsPacket_eq : tsPacket pid start counter part =
    0x47 :: byteOf ((if start then 64 else 0) + pid / 256 % 32) :: byteOf (pid % 256) ::
      byteOf (16 + counter) :: ((if start then [0] else []) ++ part ++
        List.replicate (tsCapacity start - part.length) 0xff) := by
  have low : 0x00ff &&& pid = pid % 256 := by
    rw [Nat.and_comm]
    exact Nat.and_two_pow_sub_one_eq_mod pid 8
  rw [tsPacket, tsHeader, tsHeader_second, low]
  rfl

theorem tsPacket_length (fits : part.length ≤ tsCapacity start) :
    (tsPacket pid start counter part).length = 188 := by
  rw [tsPacket_eq]
  simp only [List.length_cons, List.length_append, List.length_replicate]
  unfold tsCapacity at fits ⊢
  cases start with
  | false =>
      simp only [Bool.false_eq_true, if_false, List.length_nil] at fits ⊢
      omega
  | true =>
      simp only [if_true, List.length_singleton] at fits ⊢
      omega

@[simp] theorem tsPacket_sync : (tsPacket pid start counter part)[0]? = some 0x47 := rfl

@[simp] theorem tsStart_tsPacket : tsStart (tsPacket pid start counter part) = start := by
  rw [tsPacket_eq, tsStart]
  simp only [List.getD_cons_succ, List.getD_cons_zero, byteOf_toNat]
  cases start with
  | false =>
      simp only [Bool.false_eq_true, if_false]
      exact decide_eq_false (by omega)
  | true =>
      simp only [if_true]
      exact decide_eq_true (by omega)

@[simp] theorem tsPid_tsPacket : tsPid (tsPacket pid start counter part) = pid % 8192 := by
  rw [tsPacket_eq, tsPid]
  simp only [List.getD_cons_succ, List.getD_cons_zero, byteOf_toNat]
  cases start with
  | false =>
      simp only [Bool.false_eq_true, if_false]
      omega
  | true =>
      simp only [if_true]
      omega

theorem tsCounter_tsPacket (small : counter < 16) :
    tsCounter (tsPacket pid start counter part) = counter := by
  rw [tsPacket_eq, tsCounter]
  simp only [List.getD_cons_succ, List.getD_cons_zero, byteOf_toNat]
  omega

@[simp] theorem tsPayload_tsPacket : tsPayload (tsPacket pid start counter part) =
    part ++ List.replicate (tsCapacity start - part.length) 0xff := by
  rw [tsPayload, tsStart_tsPacket, tsPacket_eq]
  cases start <;> rfl

end Packet

/-- What holds of every packet of the file. -/
structure Framed (pid : Nat) (packet : List Byte) : Prop where
  length : packet.length = 188
  sync : packet[0]? = some 0x47
  pid : tsPid packet = pid % 8192

/-- Packets that are numbered from one counter on to the next. -/
structure Numbered (pid cc : Nat) (packets : List (List Byte)) (last : Nat) : Prop where
  framed : ∀ packet ∈ packets, Framed pid packet
  counters : packets.map tsCounter = (List.range' cc packets.length).map (· % 16)
  small : last ≤ 16
  next : last % 16 = (cc + packets.length) % 16

theorem counters_congr {cc other : Nat} (same : cc % 16 = other % 16) (count : Nat) :
    (List.range' cc count).map (· % 16) = (List.range' other count).map (· % 16) := by
  induction count generalizing cc other with
  | zero => rfl
  | succ count ih =>
      have next : (cc + 1) % 16 = (other + 1) % 16 := by omega
      rw [List.range'_succ, List.range'_succ, List.map_cons, List.map_cons, same, ih next]

theorem Numbered.append {pid cc middle last : Nat} {front back : List (List Byte)}
    (first : Numbered pid cc front middle) (second : Numbered pid middle back last) :
    Numbered pid cc (front ++ back) last where
  framed := by
    intro packet member
    rcases List.mem_append.mp member with before | after
    · exact first.framed packet before
    · exact second.framed packet after
  counters := by
    rw [List.map_append, first.counters, second.counters, counters_congr first.next,
      ← List.map_append, List.length_append, List.range'_append_1]
  small := second.small
  next := by
    have same := first.next
    have whole := second.next
    rw [List.length_append]
    omega

theorem numbered_nil (pid : Nat) {cc : Nat} (small : cc ≤ 16) : Numbered pid cc [] cc where
  framed := by
    intro packet member
    cases member
  counters := rfl
  small := small
  next := rfl

/-- One turn of the loop. -/
theorem numbered_packet (pid : Nat) {cc : Nat} (small : cc ≤ 16) (start : Bool) (part : List Byte)
    (fits : part.length ≤ tsCapacity start) :
    Numbered pid cc [tsPacket pid start (continuity cc).1 part] (continuity cc).2 := by
  rcases continuity_counter small with ⟨counter, below, next⟩
  have less : (continuity cc).1 < 16 := by omega
  constructor
  case framed =>
      intro packet member
      rw [List.mem_singleton.mp member]
      exact ⟨tsPacket_length pid start _ part fits, rfl, tsPid_tsPacket pid start _ part⟩
  case counters =>
      rw [List.map_singleton, tsCounter_tsPacket pid start _ part less, counter]
      rfl
  case small => exact below
  case next => exact next

theorem tsLoop_numbered (pid : Nat) (fuel : Nat) (start : Bool) {cc : Nat} (small : cc ≤ 16)
    (secBuf : List Byte) :
    Numbered pid cc (tsLoop pid fuel start cc secBuf).1 (tsLoop pid fuel start cc secBuf).2 := by
  induction fuel generalizing start cc secBuf with
  | zero => exact numbered_nil pid small
  | succ fuel ih =>
      rw [tsLoop]
      split
      case isFalse => exact numbered_nil pid small
      case isTrue =>
        have fits : (secBuf.take (tsCapacity start)).length ≤ tsCapacity start :=
          List.length_take_le _ _
        have turn := numbered_packet pid small start _ fits
        exact turn.append (ih false turn.small (secBuf.drop (tsCapacity start)))

/-- A part with its stuffing in front of the rest: the last part is the only one that is filled up. -/
theorem stuffed_part (size stuffing : Nat) (secBuf : List Byte) :
    ∃ more, secBuf.take size ++ List.replicate (size - (secBuf.take size).length) 0xff ++
        (secBuf.drop size ++ List.replicate stuffing 0xff) =
      secBuf ++ List.replicate more (0xff : Byte) := by
  rcases Nat.le_total secBuf.length size with short | long
  · refine ⟨size - secBuf.length + stuffing, ?_⟩
    rw [List.take_of_length_le short, List.drop_eq_nil_of_le short, List.nil_append,
      List.append_assoc, List.replicate_append_replicate]
  · refine ⟨stuffing, ?_⟩
    have full : (secBuf.take size).length = size := List.length_take_of_le long
    rw [full, Nat.sub_self, List.replicate_zero, List.append_nil, ← List.append_assoc,
      List.take_append_drop]

/-- The packets behind the first carry the rest of the section. -/
theorem tsLoop_rest (pid fuel cc : Nat) (secBuf : List Byte) (enough : secBuf.length ≤ fuel) :
    (∀ packet ∈ (tsLoop pid fuel false cc secBuf).1, tsStart packet = false) ∧
      ∃ stuffing, (tsLoop pid fuel false cc secBuf).1.flatMap tsPayload =
        secBuf ++ List.replicate stuffing 0xff := by
  induction fuel generalizing cc secBuf with
  | zero =>
      have empty : secBuf = [] := List.eq_nil_of_length_eq_zero (Nat.le_zero.mp enough)
      rw [empty]
      exact ⟨fun packet member => absurd member List.not_mem_nil, 0, rfl⟩
  | succ fuel ih =>
      rw [tsLoop]
      split
      case isFalse none =>
        have empty : secBuf = [] := List.eq_nil_of_length_eq_zero (Nat.eq_zero_of_not_pos none)
        rw [empty]
        exact ⟨fun packet member => absurd member List.not_mem_nil, 0, rfl⟩
      case isTrue some =>
        have less : (secBuf.drop (tsCapacity false)).length ≤ fuel := by
          rw [List.length_drop, tsCapacity, if_neg Bool.false_ne_true]
          omega
        rcases ih (continuity cc).2 (secBuf.drop (tsCapacity false)) less with
          ⟨plain, stuffing, bytes⟩
        rcases stuffed_part (tsCapacity false) stuffing secBuf with ⟨more, whole⟩
        refine ⟨?_, more, ?_⟩
        · intro packet member
          rcases List.mem_cons.mp member with first | later
          · rw [first, tsStart_tsPacket]
          · exact plain packet later
        · rw [List.flatMap_cons, tsPayload_tsPacket, bytes, whole]

theorem genTsStream_carries (pid cc : Nat) (secBuf : List Byte) (some : 0 < secBuf.length) :
    Carries secBuf (genTsStream pid cc secBuf).1 := by
  obtain ⟨fuel, length⟩ := Nat.exists_eq_succ_of_ne_zero (Nat.ne_of_gt some)
  have less : (secBuf.drop (tsCapacity true)).length ≤ fuel := by
    rw [List.length_drop, tsCapacity, if_pos rfl]
    omega
  rcases tsLoop_rest pid fuel (continuity cc).2 (secBuf.drop (tsCapacity true)) less with
    ⟨plain, stuffing, bytes⟩
  rcases stuffed_part (tsCapacity true) stuffing secBuf with ⟨more, whole⟩
  rw [genTsStream, length, tsLoop, if_pos some]
  constructor
  case starts =>
      exact ⟨_, _, rfl, tsStart_tsPacket _ _ _ _, rfl, plain⟩
  case bytes =>
      refine ⟨more, ?_⟩
      rw [List.flatMap_cons, tsPayload_tsPacket, bytes, whole]

theorem genTsStreams_numbered (pid : Nat) {cc : Nat} (small : cc ≤ 16) (secBufs : List (List Byte)) :
    Numbered pid cc (genTsStreams pid cc secBufs).1 (genTsStreams pid cc secBufs).2 := by
  induction secBufs generalizing cc with
  | nil => exact numbered_nil pid small
  | cons secBuf secBufs ih =>
      have first := tsLoop_numbered pid secBuf.length true small secBuf
      exact first.append (ih first.small)

theorem genTsStreams_carries (pid cc : Nat) (secBufs : List (List Byte))
    (some : ∀ secBuf ∈ secBufs, 0 < secBuf.length) :
    ∃ groups, (genTsStreams pid cc secBufs).1 = groups.flatten ∧
      List.Forall₂ Carries secBufs groups := by
  induction secBufs generalizing cc with
  | nil => exact ⟨[], rfl, .nil⟩
  | cons secBuf secBufs ih =>
      have first := genTsStream_carries pid cc secBuf (some secBuf List.mem_cons_self)
      rcases ih (genTsStream pid cc secBuf).2
        (fun other member => some other (List.mem_cons_of_mem _ member)) with ⟨groups, rest, carried⟩
      refine ⟨(genTsStream pid cc secBuf).1 :: groups, ?_, .cons first carried⟩
      rw [List.flatten_cons, ← rest]
      rfl

/-- Whatever sections are put, the file is cut into packets with the PID, numbered through, in groups
of which each carries its section. -/
theorem tsFile_packets (pid : Nat) (secBufs : List (List Byte))
    (lengths : ∀ secBuf ∈ secBufs, 1 ≤ secBuf.length ∧ secBuf.length ≤ 4096) :
    (∀ packet ∈ cut 188 (tsFile pid secBufs), Framed pid packet) ∧
      (∀ i first second, (cut 188 (tsFile pid secBufs))[i]? = some first →
        (cut 188 (tsFile pid secBufs))[i + 1]? = some second →
          tsCounter second = (tsCounter first + 1) % 16) ∧
      ∃ groups, cut 188 (tsFile pid secBufs) = groups.flatten ∧
        List.Forall₂ Carries secBufs groups := by
  have numbered := genTsStreams_numbered pid (by decide : 3 ≤ 16) secBufs
  have packets : cut 188 (tsFile pid secBufs) = (genTsStreams pid 3 secBufs).1 := by
    refine cut_flatten_uniform 188 (by decide) _ (uniform_of_length _ ?_ (by decide))
    intro packet member
    exact (numbered.framed packet member).length
  rw [packets]
  refine ⟨numbered.framed, ?_, genTsStreams_carries pid 3 secBufs (fun secBuf member =>
    (lengths secBuf member).1)⟩
  intro i first second here next
  have count : ∀ j packet, (genTsStreams pid 3 secBufs).1[j]? = some packet →
      tsCounter packet = (3 + j) % 16 := by
    intro j packet found
    have inside := (List.getElem?_eq_some_iff.mp found).1
    have same := congrArg (fun counters => counters[j]?) numbered.counters
    simp only [List.getElem?_map, found, Option.map_some, List.getElem?_range' inside,
      Nat.one_mul, Option.some_inj] at same
    exact same
  rw [count i first here, count (i + 1) second next]
  omega

/-- One byte more than fits into the first packet, and a short section. -/
def twoSections : List (List Byte) := [List.replicate 184 7, [1]]

theorem tsFile_packets_two :
    (cut 188 (tsFile 0x1fff twoSections)).map tsCounter = [3, 4, 5] ∧
      (∀ packet ∈ cut 188 (tsFile 0x1fff twoSections), Framed 0x1fff packet) ∧
      ∃ groups, cut 188 (tsFile 0x1fff twoSections) = groups.flatten ∧
        List.Forall₂ Carries twoSections groups := by
  have lengths : ∀ secBuf ∈ twoSections, 1 ≤ secBuf.length ∧ secBuf.length ≤ 4096 := by
    intro secBuf member
    rcases List.mem_pair.mp member with rfl | rfl
    · rw [List.length_replicate]
      omega
    · rw [List.length_singleton]
      omega
  have packets := tsFile_packets 0x1fff twoSections lengths
  exact ⟨by decide +kernel, packets.1, packets.2.2⟩

end Alisl.Upgrade
