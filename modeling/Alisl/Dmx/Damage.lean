import Alisl.Base.Register
import Alisl.Dmx.WholeDispatch
import Alisl.Upgrade.CrcTable

/-! The CRC check of the demux on the sections of the pack tool: an intact section passes it, and one
damaged by a burst of at most 32 bits reaches nobody who asked for the check. -/

namespace Alisl.Dmx

open Alisl.Base
open Alisl.Upgrade (crcShift mgComputeCrc mgCrc32Ccitt mgFcsCoder mgTableDrivenCrc_eq mgFcsCoder_crc)

def ccittRegister : Register 32 where
  poly := mgCrc32Ccitt

/-- The bits of a byte as they are sent, the highest one first. -/
def byteBits (byte : Byte) : List Bool := (List.range 8).map (fun i => byte.toBitVec.getMsbD i)

def bitsOf (bytes : List Byte) : List Bool := bytes.flatMap byteBits

/-- The damage lies in 32 bits on end. -/
structure Burst (sent received : List Byte) : Prop where
  length : sent.length = received.length
  differ : sent ≠ received
  window : ∃ start, ∀ i, i < start ∨ start + 32 ≤ i → (bitsOf sent)[i]? = (bitsOf received)[i]?

/-! ### The CRC as a shift register -/

@[simp] theorem byteBits_length (byte : Byte) : (byteBits byte).length = 8 := by
  rw [byteBits, List.length_map, List.length_range]

theorem bitsOf_cons (byte : Byte) (bytes : List Byte) :
    bitsOf (byte :: bytes) = byteBits byte ++ bitsOf bytes := List.flatMap_cons

theorem byteBits_injective : Function.Injective byteBits := by
  intro left right same
  apply UInt8.toBitVec_inj.mp
  apply BitVec.eq_of_getMsbD_eq
  intro i inside
  have bit := congrArg (fun bits => bits[i]?) same
  simpa [byteBits, inside] using bit

theorem bitsOf_injective {left right : List Byte} (length : left.length = right.length)
    (same : bitsOf left = bitsOf right) : left = right := by
  induction left generalizing right with
  | nil => exact (List.eq_nil_of_length_eq_zero length.symm).symm
  | cons byte left ih =>
      cases right with
      | nil => cases length
      | cons byte' right =>
          rw [bitsOf_cons, bitsOf_cons] at same
          obtain ⟨front, back⟩ := List.append_inj same
            (by rw [byteBits_length, byteBits_length])
          rw [byteBits_injective front, ih (Nat.succ.inj length) back]

theorem bitsOf_length (bytes : List Byte) : (bitsOf bytes).length = 8 * bytes.length := by
  induction bytes with
  | nil => rfl
  | cons byte bytes ih =>
      rw [bitsOf_cons, List.length_append, ih, byteBits_length, List.length_cons]
      omega

theorem lead_byteBits (byte : Byte) :
    (lead (byteBits byte) : BitVec 32) = byte.toBitVec.setWidth 32 <<< 24 := by
  apply BitVec.eq_of_getMsbD_eq
  intro i inside
  rw [getMsbD_lead, decide_eq_true inside, Bool.true_and, BitVec.getMsbD_shiftLeft,
    BitVec.getMsbD_setWidth]
  by_cases low : i < 8
  · simp [byteBits, low]
  · have none_ : byte.toBitVec.getMsbD i = false := BitVec.getMsbD_of_ge _ _ (Nat.not_lt.mp low)
    simp [byteBits, low, none_]

theorem crcShift_register : crcShift = ccittRegister.shift := rfl

theorem mgComputeCrc_feed (crc : BitVec 32) (bytes : List Byte) :
    mgComputeCrc crc bytes = ccittRegister.feed crc (bitsOf bytes) := by
  induction bytes generalizing crc with
  | nil => rfl
  | cons byte bytes ih =>
      have short : (byteBits byte).length ≤ 32 := by
        rw [byteBits_length]
        decide
      calc
        mgComputeCrc crc (byte :: bytes) =
            ccittRegister.feed (crcShift^[8] (crc ^^^ (byte.toBitVec.setWidth 32 <<< 24)))
              (bitsOf bytes) := by
          rw [mgComputeCrc, ih]
        _ = ccittRegister.feed (ccittRegister.feed crc (byteBits byte)) (bitsOf bytes) := by
          rw [ccittRegister.feed_eq crc (byteBits byte) short, byteBits_length, lead_byteBits,
            crcShift_register]
        _ = ccittRegister.feed crc (bitsOf (byte :: bytes)) := by
          rw [bitsOf_cons, Register.feed_append]

/-- A burst changes the CRC. -/
theorem Burst.crc {sent received : List Byte} (burst : Burst sent received) (crc : BitVec 32) :
    mgComputeCrc crc sent ≠ mgComputeCrc crc received := by
  obtain ⟨start, outside⟩ := burst.window
  have long : (bitsOf sent).length = (bitsOf received).length := by
    rw [bitsOf_length, bitsOf_length, burst.length]
  have front : (bitsOf sent).take start = (bitsOf received).take start := by
    apply List.ext_getElem?
    intro i
    rw [List.getElem?_take, List.getElem?_take]
    split
    · exact outside i (.inl ‹_›)
    · rfl
  have back : (bitsOf sent).drop (start + 32) = (bitsOf received).drop (start + 32) := by
    apply List.ext_getElem?
    intro i
    rw [List.getElem?_drop, List.getElem?_drop]
    exact outside _ (.inr (Nat.le_add_right ..))
  have parts (bits : List Bool) :
      bits.take start ++ (bits.drop start).take 32 ++ bits.drop (start + 32) = bits := by
    rw [← List.drop_drop, List.append_assoc, List.take_append_drop, List.take_append_drop]
  have same : (((bitsOf sent).drop start).take 32).length =
      (((bitsOf received).drop start).take 32).length := by
    simp only [List.length_take, List.length_drop, long]
  have differ : ((bitsOf sent).drop start).take 32 ≠ ((bitsOf received).drop start).take 32 := by
    intro middle
    apply burst.differ
    apply bitsOf_injective burst.length
    rw [← parts (bitsOf sent), front, middle, back, parts]
  rw [mgComputeCrc_feed, mgComputeCrc_feed, ← parts (bitsOf sent), ← parts (bitsOf received), ← front,
    ← back]
  have short : (((bitsOf sent).drop start).take 32).length ≤ 32 := List.length_take_le ..
  exact Register.burst (by decide) crc same short differ

/-! ### The check -/

theorem calcCrc32_coded (bytes : List Byte) : calcCrc32 (mgFcsCoder bytes) = 0 := mgFcsCoder_crc bytes

theorem calcCrc32_damaged {bytes received : List Byte} (burst : Burst (mgFcsCoder bytes) received) :
    calcCrc32 received ≠ 0 := by
  intro zero
  apply burst.crc 0xFFFFFFFF#32
  rw [← mgTableDrivenCrc_eq, ← mgTableDrivenCrc_eq]
  exact (calcCrc32_coded bytes).trans zero.symm

/-- Where no filter of the list gets the section, the dispatch calls nobody and keeps everything. -/
theorem dispatch_silent {dev : Device} {lists : Lists} (linked : Linked dev lists) {ch : Nat}
    (live : ch ∈ lists.chs .sections) (enabled : (dev.channel .sections ch).status = .enable)
    {data : List Byte} (read : data ≠ [])
    (nobody : ∀ i ∈ lists.flts .sections ch, ¬ Gets dev data i) :
    ∃ after, dev.sectionDispatch ch true data = some (.quit, after) ∧ after.links = dev.links ∧
      after.flag = dev.flag ∧ ∀ i, (after.filter i).status = (dev.filter i).status := by
  obtain ⟨result, dispatched, halted⟩ := dispatch_halted linked live enabled read
  have oneShot : ∀ i, ¬ (i ∈ lists.flts .sections ch ∧ OneShot dev data i) := by
    rintro i ⟨member, gets, _⟩
    exact nobody i member gets
  have none_ : ¬ ∃ i ∈ lists.flts .sections ch, OneShot dev data i := by
    rintro ⟨i, both⟩
    exact oneShot i both
  cases halted with
  | quit along silent =>
      refine ⟨_, dispatched, along.links, ?_, ?_⟩
      · rw [along.flag, if_neg none_]
      · intro i
        rw [along.passed i List.not_mem_nil, if_neg (oneShot i)]
  | request split member reached ahead shorter registered =>
      exact absurd reached.gets (nobody _ member)
  | update split member reached ahead shorter without registered =>
      exact absurd reached.gets (nobody _ member)

/-- The check refuses no filter an intact section, and no filter with the check gets a damaged one. -/
theorem crc_check_guards {dev : Device} {lists : Lists} (linked : Linked dev lists) {ch : Nat}
    (live : ch ∈ lists.chs .sections) (enabled : (dev.channel .sections ch).status = .enable)
    (bytes : List Byte) :
    (∀ i, Gets dev (mgFcsCoder bytes) i ↔ (dev.filter i).status = .enable ∧
      (dev.filter i).waitClose = false ∧ sectionHit (dev.filter i) (mgFcsCoder bytes) = true) ∧
    ∀ received, Burst (mgFcsCoder bytes) received →
      (∀ i, (dev.filter i).crcCheck = true → ¬ Gets dev received i) ∧
      ((∀ i ∈ lists.flts .sections ch, (dev.filter i).crcCheck = true) →
        ∃ after, dev.sectionDispatch ch true received = some (.quit, after) ∧
          after.links = dev.links ∧ after.flag = dev.flag ∧
          ∀ i, (after.filter i).status = (dev.filter i).status) := by
  constructor
  · intro i
    simp [Gets, calcCrc32_coded]
  · intro received burst
    have refused : ∀ i, (dev.filter i).crcCheck = true → ¬ Gets dev received i := by
      intro i checks gets
      exact calcCrc32_damaged burst (gets.2.2.2 checks)
    refine ⟨refused, ?_⟩
    intro all
    have some_ : received ≠ [] := by
      intro none_
      have length := burst.length
      rw [none_, mgFcsCoder, List.length_append] at length
      cases length
    exact dispatch_silent linked live enabled some_ (fun i member => refused i (all i member))

/-- Both filters ask for the check, and the first byte of the section is damaged. -/
theorem crc_check_guards_two : ∃ (dev after : Device) (received : List Byte),
    Burst (mgFcsCoder [1]) received ∧
    dev.sectionDispatch 0 true received = some (.quit, after) ∧
    ∀ i, (after.filter i).status = (dev.filter i).status := by
  have ready : (pool.run (.opened 0 0 0 0 false) (twoFilters ++
      [⟨false, .setFilterCrcCheck 0 true⟩, ⟨false, .setFilterCrcCheck 1 true⟩])).map (fun dev =>
      ((dev.channel .sections 0).status, Sys.listed (dev.channelStart 0) 0,
        [0, 1].all (fun i => ((dev.channelStart 0).filter i).crcCheck))) =
      some (.disable, [0, 1], true) := by
    decide +kernel
  obtain ⟨dev, prepared, view⟩ := Option.map_eq_some_iff.mp ready
  simp only [Prod.mk.injEq] at view
  obtain ⟨disabled, listed, checks⟩ := view
  have begins := initial_atRest (by rw [prepared, Option.map_some, disabled]) prepared
  obtain ⟨⟨lists, linked⟩, _, _, _⟩ := begins
  have enabled : ((dev.channelStart 0).channel .sections 0).status = .enable := by
    simp [Device.channelStart]
  have live : 0 ∈ lists.chs .sections := by
    rw [linked.chLive]
    exact ⟨by decide, fun none_ => by cases enabled.symm.trans none_⟩
  have whole : lists.flts .sections 0 = [0, 1] := (linked.listed live).symm.trans listed
  have burst : Burst (mgFcsCoder [1]) (0 :: (mgFcsCoder [1]).tail) := by
    refine ⟨rfl, by decide, 0, ?_⟩
    intro i outside
    have behind : 8 ≤ i := by omega
    have split : mgFcsCoder [1] = 1 :: (mgFcsCoder [1]).tail := rfl
    rw [split, List.tail_cons, bitsOf_cons, bitsOf_cons, List.getElem?_append_right,
      List.getElem?_append_right]
    · rfl
    · exact behind
    · exact behind
  obtain ⟨after, quits, _, _, kept⟩ :=
    ((crc_check_guards linked live enabled [1]).2 _ burst).2 (by
      rw [whole]
      exact List.all_eq_true.mp checks)
  exact ⟨_, after, _, burst, quits, kept⟩

end Alisl.Dmx
