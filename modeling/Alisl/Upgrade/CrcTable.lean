import Alisl.Upgrade.SelfConsistent

/-! The table of fastCRC.c and the bitwise CRC it stands for. The pack tool fills
its table anew at each setup, the library only once. -/

namespace Alisl.Upgrade

open Alisl.Base

/-- The statics of fastCRC.c: `MG_CRC_Table` and `MG_CRC_Table_Initialized`. -/
structure CrcStatics where
  table : Vector (BitVec 32) 256
  initialized : Bool

/-- The statics at the start of the program. -/
def CrcStatics.zero : CrcStatics where
  table := Vector.replicate 256 0#32
  initialized := false

/-- `MG_Setup_CRC_Table` of the pack tool. -/
def mgFillCrcTable : Vector (BitVec 32) 256 :=
  Vector.ofFn (fun count => mgComputeCrc (BitVec.ofNat 32 count.val <<< 24) [0])

def mgSetupCrcTable (statics : CrcStatics) : CrcStatics :=
  if statics.initialized then statics
  else { table := mgFillCrcTable, initialized := true }

theorem crcIndex_lt (crc : BitVec 32) (byte : Byte) :
    (((crc >>> 24) &&& 0xff#32) ^^^ byte.toBitVec.setWidth 32).toNat < 256 := by
  rw [BitVec.toNat_xor]
  apply Nat.xor_lt_two_pow (n := 8)
  · rw [BitVec.toNat_and]
    exact Nat.lt_of_le_of_lt Nat.and_le_right (by decide)
  · rw [BitVec.toNat_setWidth]
    exact Nat.lt_of_le_of_lt (Nat.mod_le _ _) byte.toNat_lt

/-- One turn of the loop of `MG_Table_Driven_CRC`. -/
def crcTableStep (table : Vector (BitVec 32) 256) (crc : BitVec 32) (byte : Byte) : BitVec 32 :=
  table.get ⟨(((crc >>> 24) &&& 0xff#32) ^^^ byte.toBitVec.setWidth 32).toNat, crcIndex_lt crc byte⟩
    ^^^ (crc <<< 8)

/-- `MG_Table_Driven_CRC` of the library: an unset table is filled first. -/
def CrcStatics.tableDrivenCrc (statics : CrcStatics) (crc : BitVec 32) (bytes : List Byte) :
    CrcStatics × BitVec 32 :=
  let statics := if statics.initialized then statics else mgSetupCrcTable statics
  (statics, bytes.foldl (crcTableStep statics.table) crc)

/-- `MG_FCS_Coder`: four bytes behind the data, the last one first. -/
def CrcStatics.fcsCoder (statics : CrcStatics) (data : Memory) (len : Nat) : CrcStatics × Memory :=
  let result := statics.tableDrivenCrc 0xFFFFFFFF#32 (slice data 0 len)
  let fcs := result.2.toNat
  (result.1,
    store (store (store (store data
      (len + 3) [byteOf fcs]) (len + 2) [byteOf (fcs / 256)])
      (len + 1) [byteOf (fcs / 65536)]) len [byteOf (fcs / 16777216)])

inductive CrcCall where
  | setup
  | tableDriven (crc : BitVec 32) (bytes : List Byte)
  | coder (data : Memory) (len : Nat)

def CrcCall.run (statics : CrcStatics) : CrcCall → CrcStatics
  | .setup => mgSetupCrcTable statics
  | .tableDriven crc bytes => (statics.tableDrivenCrc crc bytes).1
  | .coder data len => (statics.fcsCoder data len).1

/-- The statics after any calls from the start of the program. -/
def CrcStatics.after (calls : List CrcCall) : CrcStatics := calls.foldl CrcCall.run .zero

/-! ### The shift is linear -/

theorem xor_cancel_right (left right word : BitVec 32) :
    (left ^^^ word) ^^^ (right ^^^ word) = left ^^^ right := by
  calc
    (left ^^^ word) ^^^ (right ^^^ word) = (left ^^^ word) ^^^ (word ^^^ right) := by
      rw [BitVec.xor_comm right word]
    _ = left ^^^ ((word ^^^ word) ^^^ right) := by
      rw [BitVec.xor_assoc left, ← BitVec.xor_assoc word]
    _ = left ^^^ right := by rw [BitVec.xor_self, BitVec.zero_xor]

theorem crcShift_xor (left right : BitVec 32) :
    crcShift (left ^^^ right) = crcShift left ^^^ crcShift right := by
  unfold crcShift
  rw [BitVec.msb_xor, BitVec.shiftLeft_xor_distrib]
  cases left.msb with
  | false =>
      cases right.msb with
      | false => rfl
      | true => exact BitVec.xor_assoc _ _ _
  | true =>
      cases right.msb with
      | false =>
          calc
            (left <<< 1 ^^^ right <<< 1) ^^^ mgCrc32Ccitt =
                left <<< 1 ^^^ (mgCrc32Ccitt ^^^ right <<< 1) := by
              rw [BitVec.xor_assoc, BitVec.xor_comm mgCrc32Ccitt]
            _ = (left <<< 1 ^^^ mgCrc32Ccitt) ^^^ right <<< 1 := (BitVec.xor_assoc _ _ _).symm
      | true => exact (xor_cancel_right _ _ _).symm

theorem crcShifts_xor (count : Nat) (left right : BitVec 32) :
    crcShift^[count] (left ^^^ right) = crcShift^[count] left ^^^ crcShift^[count] right := by
  induction count generalizing left right with
  | zero => rfl
  | succ count ih =>
      rw [Function.iterate_succ_apply, Function.iterate_succ_apply, Function.iterate_succ_apply,
        crcShift_xor, ih]

/-- A word with its top bits clear only moves up. -/
theorem crcShifts_small (count : Nat) (word : BitVec 32)
    (small : word.toNat * 2 ^ count < 2 ^ 32) : crcShift^[count] word = word <<< count := by
  induction count generalizing word with
  | zero => rw [Function.iterate_zero_apply, BitVec.shiftLeft_zero]
  | succ count ih =>
      have grown : word.toNat * 2 ^ (count + 1) = word.toNat * 2 * 2 ^ count := by
        rw [Nat.pow_succ']
        ring
      have half : word.toNat * 2 < 2 ^ 32 := by
        calc
          word.toNat * 2 ≤ word.toNat * 2 * 2 ^ count := Nat.le_mul_of_pos_right _ (by positivity)
          _ < 2 ^ 32 := grown ▸ small
      have clear : word.msb = false := by
        rw [BitVec.msb_eq_decide]
        simp only [decide_eq_false_iff_not, Nat.not_le]
        omega
      have moved : crcShift word = word <<< 1 := by
        unfold crcShift
        rw [clear]
        rfl
      have value : (word <<< 1).toNat = word.toNat * 2 := by
        rw [BitVec.toNat_shiftLeft, Nat.shiftLeft_eq, Nat.pow_one, Nat.mod_eq_of_lt half]
      rw [Function.iterate_succ_apply, moved, ih, ← BitVec.shiftLeft_add, Nat.add_comm]
      rw [value, ← grown]
      exact small

/-! ### One byte -/

theorem top_and (crc : BitVec 32) : (crc >>> 24) &&& 0xff#32 = crc >>> 24 := by
  apply BitVec.eq_of_toNat_eq
  have low : crc.toNat >>> 24 &&& 255 = crc.toNat >>> 24 % 256 :=
    Nat.and_two_pow_sub_one_eq_mod _ 8
  have bound := crc.isLt
  rw [BitVec.toNat_and, BitVec.toNat_ushiftRight]
  show crc.toNat >>> 24 &&& 255 = crc.toNat >>> 24
  rw [low, Nat.shiftRight_eq_div_pow]
  omega

/-- A word is its top byte and the rest. -/
theorem top_xor_rest (crc : BitVec 32) : ((crc >>> 24) <<< 24) ^^^ ((crc <<< 8) >>> 8) = crc := by
  apply BitVec.eq_of_getLsbD_eq
  intro i inside
  simp only [BitVec.getLsbD_xor, BitVec.getLsbD_shiftLeft, BitVec.getLsbD_ushiftRight]
  by_cases top : 24 ≤ i
  · have back : 24 + (i - 24) = i := by omega
    have shifted : ¬ 8 + i < 32 := by omega
    simp [inside, top, back, shifted]
  · have low : i < 24 := by omega
    have shifted : 8 + i < 32 := by omega
    simp [inside, low, shifted]

/-- Eight shifts of a word in terms of those of its top byte. -/
theorem crcShifts_eight (crc : BitVec 32) :
    crcShift^[8] crc = crcShift^[8] ((crc >>> 24) <<< 24) ^^^ (crc <<< 8) := by
  have small : ((crc <<< 8) >>> 8).toNat * 2 ^ 8 < 2 ^ 32 := by
    rw [BitVec.toNat_ushiftRight, Nat.shiftRight_eq_div_pow]
    have bound := (crc <<< 8).isLt
    omega
  have again : ((crc <<< 8) >>> 8) <<< 8 = crc <<< 8 := by
    apply BitVec.eq_of_toNat_eq
    simp only [BitVec.toNat_shiftLeft, BitVec.toNat_ushiftRight, Nat.shiftLeft_eq,
      Nat.shiftRight_eq_div_pow]
    omega
  calc
    crcShift^[8] crc = crcShift^[8] (((crc >>> 24) <<< 24) ^^^ ((crc <<< 8) >>> 8)) := by
      rw [top_xor_rest]
    _ = crcShift^[8] ((crc >>> 24) <<< 24) ^^^ crcShift^[8] ((crc <<< 8) >>> 8) :=
      crcShifts_xor 8 _ _
    _ = crcShift^[8] ((crc >>> 24) <<< 24) ^^^ (crc <<< 8) := by
      rw [crcShifts_small 8 _ small, again]

theorem mgCrcTable_eq (index : BitVec 32) : mgCrcTable index = crcShift^[8] (index <<< 24) := by
  have zero : (0 : Byte).toBitVec.setWidth 32 <<< 24 = 0#32 := by decide
  rw [mgCrcTable, mgComputeCrc, zero, BitVec.xor_zero, mgComputeCrc]

/-- One byte by the table and bit by bit. -/
theorem mgCrcTable_byte (crc : BitVec 32) (byte : Byte) :
    mgCrcTable (((crc >>> 24) &&& 0xff#32) ^^^ byte.toBitVec.setWidth 32) ^^^ (crc <<< 8) =
      crcShift^[8] (crc ^^^ (byte.toBitVec.setWidth 32 <<< 24)) := by
  have bound := byte.toNat_lt
  have value : (byte.toBitVec.setWidth 32).toNat = byte.toNat := by
    rw [BitVec.toNat_setWidth]
    exact Nat.mod_eq_of_lt (Nat.lt_trans bound (by decide))
  have kept : (byte.toBitVec.setWidth 32 <<< 24) >>> 24 = byte.toBitVec.setWidth 32 := by
    apply BitVec.eq_of_toNat_eq
    rw [BitVec.toNat_ushiftRight, BitVec.toNat_shiftLeft, value, Nat.shiftLeft_eq,
      Nat.shiftRight_eq_div_pow]
    omega
  have gone : (byte.toBitVec.setWidth 32 <<< 24) <<< 8 = 0#32 := by
    apply BitVec.eq_of_toNat_eq
    rw [BitVec.toNat_shiftLeft, BitVec.toNat_shiftLeft, value, Nat.shiftLeft_eq, Nat.shiftLeft_eq]
    show _ = 0
    omega
  rw [crcShifts_eight (crc ^^^ _), BitVec.ushiftRight_xor_distrib, kept,
    BitVec.shiftLeft_xor_distrib crc, gone, BitVec.xor_zero, mgCrcTable_eq, top_and]

theorem mgTableDrivenCrc_eq (crc : BitVec 32) (bytes : List Byte) :
    mgTableDrivenCrc crc bytes = mgComputeCrc crc bytes := by
  induction bytes generalizing crc with
  | nil => rfl
  | cons byte bytes ih => rw [mgTableDrivenCrc, mgComputeCrc, mgCrcTable_byte, ih]

/-! ### The table in memory -/

theorem mgFillCrcTable_get (index : BitVec 32) (inside : index.toNat < 256) :
    mgFillCrcTable.get ⟨index.toNat, inside⟩ = mgCrcTable index := by
  have same : BitVec.ofNat 32 index.toNat = index := by
    rw [BitVec.ofNat_toNat, BitVec.setWidth_eq]
  show mgFillCrcTable[index.toNat] = _
  rw [mgFillCrcTable, Vector.getElem_ofFn]
  show mgComputeCrc (BitVec.ofNat 32 index.toNat <<< 24) [0] = _
  rw [same, mgCrcTable]

theorem foldl_mgFillCrcTable (crc : BitVec 32) (bytes : List Byte) :
    bytes.foldl (crcTableStep mgFillCrcTable) crc = mgTableDrivenCrc crc bytes := by
  induction bytes generalizing crc with
  | nil => rfl
  | cons byte bytes ih =>
      rw [List.foldl_cons, mgTableDrivenCrc, ih, crcTableStep, mgFillCrcTable_get]

/-- A table that is marked is the filled one. -/
def CrcStatics.Sound (statics : CrcStatics) : Prop :=
  statics.initialized → statics.table = mgFillCrcTable

theorem CrcStatics.Sound.setup {statics : CrcStatics} (sound : statics.Sound) :
    mgSetupCrcTable statics = { table := mgFillCrcTable, initialized := true } := by
  unfold mgSetupCrcTable
  by_cases set : statics.initialized
  · rw [if_pos set]
    cases statics
    simp_all [Sound]
  · rw [if_neg set]

theorem CrcStatics.Sound.tableDrivenCrc {statics : CrcStatics} (sound : statics.Sound)
    (crc : BitVec 32) (bytes : List Byte) :
    statics.tableDrivenCrc crc bytes =
      ({ table := mgFillCrcTable, initialized := true }, mgTableDrivenCrc crc bytes) := by
  have ready : (if statics.initialized then statics else mgSetupCrcTable statics) =
      { table := mgFillCrcTable, initialized := true } := by
    rw [sound.setup]
    by_cases set : statics.initialized
    · rw [if_pos set, ← sound.setup, mgSetupCrcTable, if_pos set]
    · rw [if_neg set]
  unfold CrcStatics.tableDrivenCrc
  rw [ready]
  dsimp only
  rw [foldl_mgFillCrcTable]

theorem CrcStatics.Sound.run {statics : CrcStatics} (sound : statics.Sound) (call : CrcCall) :
    (call.run statics).Sound := by
  cases call with
  | setup =>
      rw [CrcCall.run, sound.setup]
      intro _
      rfl
  | tableDriven crc bytes =>
      rw [CrcCall.run, sound.tableDrivenCrc]
      intro _
      rfl
  | coder data len =>
      rw [CrcCall.run, CrcStatics.fcsCoder, sound.tableDrivenCrc]
      intro _
      rfl

theorem CrcStatics.after_sound (calls : List CrcCall) : (CrcStatics.after calls).Sound := by
  have kept : ∀ statics : CrcStatics, statics.Sound → (calls.foldl CrcCall.run statics).Sound := by
    induction calls with
    | nil =>
        intro statics sound
        exact sound
    | cons call calls ih =>
        intro statics sound
        exact ih _ (sound.run call)
  apply kept
  intro set
  cases set

/-! ### The coder -/

theorem fcsCoder_slice (statics : CrcStatics) (data : Memory) (len : Nat) :
    slice (statics.fcsCoder data len).2 0 (len + 4) =
      slice data 0 len ++ putBe32 (statics.tableDrivenCrc 0xFFFFFFFF#32 (slice data 0 len)).2.toNat := by
  generalize result : statics.tableDrivenCrc 0xFFFFFFFF#32 (slice data 0 len) = outcome
  unfold CrcStatics.fcsCoder
  rw [result]
  dsimp only
  rw [slice_add]
  congr 1
  · apply slice_eq_of_agree
    intro address _ before
    rw [store_before, store_before, store_before, store_before]
    all_goals omega
  · simp [slice, List.range_succ, store, putBe32]

/-- The table is the bitwise CRC whatever was called before, and the coder leaves
the CRC zero; the pack tool's table is the same one. -/
theorem crc_table_driven (calls : List CrcCall) (crc : BitVec 32) (bytes : List Byte)
    (data : Memory) (len : Nat) :
    ((mgSetupCrcTable (CrcStatics.after calls)).tableDrivenCrc crc bytes).2 = mgComputeCrc crc bytes ∧
    ((CrcStatics.after calls).tableDrivenCrc crc bytes).2 = mgComputeCrc crc bytes ∧
    bytes.foldl (crcTableStep mgFillCrcTable) crc = mgComputeCrc crc bytes ∧
    slice ((CrcStatics.after calls).fcsCoder data len).2 0 len = slice data 0 len ∧
    mgComputeCrc 0xFFFFFFFF#32
      (slice ((CrcStatics.after calls).fcsCoder data len).2 0 (len + 4)) = 0 ∧
    mgComputeCrc 0xFFFFFFFF#32 (mgFcsCoder bytes) = 0 := by
  have sound := CrcStatics.after_sound calls
  have again : (mgSetupCrcTable (CrcStatics.after calls)).Sound := sound.run .setup
  have coded := fcsCoder_slice (CrcStatics.after calls) data len
  rw [sound.tableDrivenCrc] at coded
  have front : slice ((CrcStatics.after calls).fcsCoder data len).2 0 len = slice data 0 len := by
    rw [slice_add] at coded
    exact (List.append_inj coded (by rw [slice_length, slice_length])).1
  have zero : mgComputeCrc 0xFFFFFFFF#32
      (slice ((CrcStatics.after calls).fcsCoder data len).2 0 (len + 4)) = 0 := by
    rw [coded, ← mgTableDrivenCrc_eq, mgTableDrivenCrc_append, mgTableDrivenCrc_own]
  constructor
  · rw [again.tableDrivenCrc, mgTableDrivenCrc_eq]
  constructor
  · rw [sound.tableDrivenCrc, mgTableDrivenCrc_eq]
  constructor
  · rw [foldl_mgFillCrcTable, mgTableDrivenCrc_eq]
  have tool : mgComputeCrc 0xFFFFFFFF#32 (mgFcsCoder bytes) = 0 := by
    rw [← mgTableDrivenCrc_eq, mgFcsCoder_crc]
  exact ⟨front, zero, tool⟩

end Alisl.Upgrade
