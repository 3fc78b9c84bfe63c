import Alisl.Upgrade.UpdatePmi

/-! `__upgrade_parse_configv1` of version 3, and the layout that a package leaves on the flash. -/

namespace Alisl.Upgrade.V3

open Alisl.Base Alisl.Storage.Nand

/-- `STO_PART_OFFSET` and `STO_PART_SIZE`. -/
inductive PartAttr where
  | offset
  | size

/-- `alislsto_tell_ext`, `map` being what `attr` points to. -/
def alislstoTellExt (nand : StoDev) (map : MapTable) (idx : Nat) (attr : PartAttr) : UInt32 :=
  if nand.pmi = false then 8
  else
    match attr with
    | .size => UInt32.ofNat (map.get idx).size
    | .offset => UInt32.ofInt (map.get idx).offset

/-- `__ba_2_ul`: `__machine_endian` compares with the other end of the number, so that a header is read
with its lowest byte first. -/
def ba2Ul (buf : List Byte) (at_ : Nat) : UInt32 := UInt32.ofNat (getWord buf at_)

/-- `UPG_INVALID_SIZE`. -/
def upgInvalidSize (size : UInt32) : Bool := size = 0 ∨ size = 0xffffffff

/-- `UPG_ALIGN_128K`. -/
def upgAlign128K (size : UInt32) : UInt32 := (size + 131071) &&& ~~~131071

abbrev upgOffsetPartstart : Nat := 260
abbrev upgOffsetImglen : Nat := 420
def defaultBootfiledataStart : UInt32 := 1024

/-- `upg_header_t`, as far as it is set here. -/
structure UpgHeader where
  elem : List UpgElem
  reqsz : UInt32
  mono : Bool
  upgdatasz : UInt32
  maxpartId : Nat
  sign : UInt32
  parts : UInt32
  pktsz : UInt32
  upgparts : UInt32
  upgdataOffset : UInt32
  bootfileSize : UInt32
  bootfileImgsz : UInt32
  ubootfileImgsz : UInt32
  fskeyStart : UInt32
  fskeyEnd : UInt32
  pagesz : UInt32
  pktname : List Char

/-- `upg_maplevel`, and what lies behind it in memory. -/
def upgMaplevel (behind : Nat → ElemLevel) (i : Nat) : ElemLevel :=
  [.none, .boot, .lowlevel, .lowlevel, .application, .application, .application, .application,
    .application, .application, .application, .application, .none, .none].getD i (behind i)

/-- The fields in front of the parts. -/
def UpgHeader.fill (hdr : UpgHeader) (buf : List Byte) (config : List Char) : UpgHeader :=
  let parts := ba2Ul buf 256
  let pktsz := ba2Ul buf 512
  let upgparts := ba2Ul buf 516
  let upgdataOffset := ba2Ul buf 520
  let bootfileImgsz := ba2Ul buf 524
  { hdr with
    sign := ba2Ul buf 12
    parts, pktsz, upgparts, upgdataOffset, bootfileImgsz
    bootfileSize := upgAlign128K bootfileImgsz
    ubootfileImgsz := ba2Ul buf 196
    fskeyStart := ba2Ul buf 688
    fskeyEnd := ba2Ul buf 692
    pagesz := ba2Ul buf 696
    upgdatasz := pktsz - upgdataOffset
    pktname := config
    mono := hdr.mono || parts == upgparts + 1 }

def UpgHeader.begun (hdr : UpgHeader) (buf : List Byte) (config : List Char) : UpgHeader :=
  { hdr.fill buf config with maxpartId := 0, reqsz := 0 }

section

variable (behind : Nat → ElemLevel) (nand : StoDev) (map : MapTable) (buf : List Byte)

/-- The element of the boot loader; `curUboot` is what the upgrade information says. -/
def ubootElem (curUboot : Bool) (hdr : UpgHeader) (elemoffset : UInt32) : UpgElem :=
  let partId := if curUboot then stoUboot else stoUbootBak
  { imgsz := hdr.ubootfileImgsz
    size := upgAlign128K (hdr.ubootfileImgsz + defaultBootfiledataStart) - defaultBootfiledataStart
    offset := (elemoffset + defaultBootfiledataStart).toInt32
    partId
    partsz := alislstoTellExt nand map partId .size
    dstoffset := (alislstoTellExt nand map partId .offset).toInt32
    level := .none
    privatePart := true
    inHeader := by
      intro shown
      cases shown }

/-- The loop over the parts. -/
structure Parts where
  hdr : UpgHeader
  elemoffset : UInt32
  base : UInt32

/-- `upgrade_parse_addelem` behind the check of the level. -/
def UpgHeader.addelem (hdr : UpgHeader) (elem : UpgElem) : UpgHeader :=
  if elem.level ≠ .none then { hdr with elem := hdr.elem ++ [elem] } else hdr

/-- A part is counted in `reqsz` and `maxpart_id`. -/
def UpgHeader.counted (hdr : UpgHeader) (partsz : UInt32) (partId : Nat) : UpgHeader :=
  { hdr with
    reqsz := hdr.reqsz + partsz
    maxpartId := if hdr.maxpartId < partId then partId else hdr.maxpartId }

/-- The element of a part. -/
def partElem (elemoffset : UInt32) (i : Fin upgMaxParts) (dstoffset : Int32) (partsz : UInt32) :
    UpgElem where
  size := upgAlign128K (ba2Ul buf (upgOffsetImglen + i * 4))
  offset := elemoffset.toInt32
  dstoffset := dstoffset
  level := upgMaplevel behind (i + 1)
  partsz := partsz
  imgsz := ba2Ul buf (upgOffsetImglen + i * 4)
  partId := i + 1
  privatePart := i.val = 0
  inHeader := fun _ => ⟨Nat.le_add_left 1 i.val, i.isLt⟩

/-- A turn of the loop; a part that is too large ends it. -/
def partTurn (state : Parts) (i : Fin upgMaxParts) : Except UpgHeader Parts :=
  let partsz := ba2Ul buf (upgOffsetPartstart + i * 8 + 4)
  let imgsz := ba2Ul buf (upgOffsetImglen + i * 4)
  let elemoffset := state.elemoffset +
    if i.val = 0 then state.hdr.bootfileSize else upgAlign128K imgsz
  if (upgInvalidSize partsz || upgInvalidSize imgsz) && decide (i.val ≠ 0) then
    .ok { state with elemoffset }
  else
    let partsz := partsz * 1024
    let hdr := state.hdr.counted partsz (i + 1)
    let elem := partElem behind buf state.elemoffset i
    if i.val = 0 then .ok ⟨hdr.addelem (elem 0 partsz), elemoffset, state.base⟩
    else if state.hdr.mono then
      .ok ⟨hdr.addelem (elem state.base.toInt32 partsz), elemoffset, state.base + partsz⟩
    else
      let partOff := alislstoTellExt nand map (i + 1) .offset
      let partSize := alislstoTellExt nand map (i + 1) .size
      if partSize < partsz then .error hdr
      else .ok ⟨hdr.addelem (elem partOff.toInt32 partSize), elemoffset, state.base⟩

/-- The boot loader comes first. -/
def UpgHeader.withUboot (curUboot : Bool) (hdr : UpgHeader) : UpgHeader :=
  if hdr.ubootfileImgsz > 0 then
    { hdr with elem := hdr.elem ++ [ubootElem nand map curUboot hdr hdr.upgdataOffset] }
  else hdr

/-- `__upgrade_parse_configv1`. -/
def upgradeParseConfigv1 (malloc curUboot : Bool) (config : List Char) (hdr : UpgHeader) :
    UpgErr × UpgHeader :=
  let base := alislstoTellExt nand map stoKernel .offset
  if malloc = false then (.other, hdr.fill buf config)
  else
    let hdr := (hdr.begun buf config).withUboot nand map curUboot
    match (List.finRange upgMaxParts).foldlM (partTurn behind nand map buf)
        ⟨hdr, hdr.upgdataOffset, base⟩ with
    | .error hdr => (.notEnoughSpace, hdr)
    | .ok state => (.none, state.hdr)

end

/-! ### What a package says -/

/-- The package has an image for the partition behind the `i`-th. -/
def inPacket (buf : List Byte) (i : Nat) : Bool :=
  !(upgInvalidSize (ba2Ul buf (upgOffsetPartstart + i * 8 + 4)) ||
    upgInvalidSize (ba2Ul buf (upgOffsetImglen + i * 4)))

def partBytes (buf : List Byte) (i : Nat) : UInt32 := ba2Ul buf (upgOffsetPartstart + i * 8 + 4) * 1024

def imageBytes (buf : List Byte) (i : Nat) : UInt32 := ba2Ul buf (upgOffsetImglen + i * 4)

/-- The partitions of the package in front of the `i`-th, without the private one. -/
def ahead (buf : List Byte) : Nat → UInt32
  | 0 => 0
  | i + 1 => ahead buf i + if i ≠ 0 ∧ inPacket buf i then partBytes buf i else 0

/-- The layout a package asks for: a whole upgrade puts its partitions one behind the other from the
start of the kernel on, any other upgrade only replaces images. -/
def packed (mono : Bool) (start : UInt32) (buf : List Byte) (old : Nat → LayoutEntry) (id : Nat) :
    LayoutEntry :=
  if inPacket buf (id - 1) then
    if mono then
      { offset := (start + ahead buf (id - 1)).toInt32.toInt
        size := (partBytes buf (id - 1)).toNat
        imgsz := (imageBytes buf (id - 1)).toNat }
    else { old id with imgsz := (imageBytes buf (id - 1)).toNat }
  else old id

/-- What `alislsto_tell_ext` says of partitions that begin and end with a sector. -/
structure Told (nand : StoDev) (map : MapTable) (sector : Nat) (old : Nat → LayoutEntry) : Prop where
  unit : sector = 512 ∨ sector = 1024
  offset : ∀ id, stoKernel ≤ id → id < stoUboot →
    (alislstoTellExt nand map id .offset).toInt32.toInt = (old id).offset
  size : ∀ id, stoKernel ≤ id → id < stoUboot →
    (alislstoTellExt nand map id .size).toNat = (old id).size
  wholeOffset : ∀ id, stoKernel ≤ id → id < stoUboot → (old id).offset % sector = 0
  wholeSize : ∀ id, stoKernel ≤ id → id < stoUboot → (old id).size % sector = 0

def layoutOf (sector : Nat) (old : Nat → LayoutEntry) (hdr : UpgHeader) : Nat → LayoutEntry :=
  hdr.elem.foldl (UpgElem.place sector) old

section

variable {behind : Nat → ElemLevel} {nand : StoDev} {map : MapTable} {buf : List Byte} {sector : Nat}
  {old : Nat → LayoutEntry}

theorem layoutOf_addelem_other (hdr : UpgHeader) {elem : UpgElem} {id : Nat}
    (other : elem.partId ≠ id ∨ elem.privatePart = false ∧ stoUboot ≤ id) :
    layoutOf sector old (hdr.addelem elem) id = layoutOf sector old hdr id := by
  unfold UpgHeader.addelem
  split
  · unfold layoutOf
    rw [List.foldl_append]
    unfold UpgElem.place
    dsimp only [List.foldl]
    split
    · rfl
    · rename_i own
      obtain differ | ⟨shown, boot⟩ := other
      · exact absurd differ own
      · rw [shown, if_neg Bool.false_ne_true, if_neg (fun part => absurd part.2 (Nat.not_lt.mpr boot))]
  · rfl

theorem layoutOf_addelem (hdr : UpgHeader) {elem : UpgElem} (level : elem.level ≠ .none)
    (shown : elem.privatePart = false) (first : stoKernel ≤ elem.partId)
    (part : elem.partId < stoUboot) :
    layoutOf sector old (hdr.addelem elem) elem.partId =
      { offset := elem.dstoffset.toInt - elem.dstoffset.toInt % sector
        size := elem.partsz.toNat - elem.partsz.toNat % sector
        imgsz := elem.imgsz.toNat } := by
  unfold UpgHeader.addelem layoutOf
  rw [if_pos level, List.foldl_append]
  dsimp only [List.foldl]
  unfold UpgElem.place
  rw [if_neg (not_not.mpr rfl), shown, if_neg Bool.false_ne_true, if_pos ⟨first, part⟩]

theorem upgMaplevel_part {id : Nat} (first : stoKernel ≤ id) (part : id < stoUboot) :
    upgMaplevel behind id ≠ .none := by
  interval_cases id <;> exact ElemLevel.noConfusion

theorem toInt32_word (value : UInt32) : value.toInt32.toInt = intOfWord value.toNat := by
  have same : BitVec.ofNat 32 value.toNat = value.toBitVec := BitVec.eq_of_toNat_eq (by simp)
  rw [intOfWord, same]
  rfl

/-- Whole sectors stay whole sectors as a number with a sign. -/
theorem intOfWord_whole {value : Nat} (unit : sector = 512 ∨ sector = 1024)
    (whole : value % sector = 0) : intOfWord value % sector = 0 := by
  have divides : (sector : Int) ∣ ((2 ^ 32 : Nat) : Int) := by
    obtain rfl | rfl := unit
    · exact ⟨8388608, rfl⟩
    · exact ⟨4194304, rfl⟩
  have self : (sector : Int) ∣ value :=
    Int.natCast_dvd_natCast.mpr (Nat.dvd_of_mod_eq_zero whole)
  have rest : (sector : Int) ∣ (value : Int).bmod (2 ^ 32) - value :=
    divides.trans Int.dvd_bmod_sub_self
  rw [intOfWord_bmod]
  apply Int.emod_eq_zero_of_dvd
  have both := dvd_add rest self
  rwa [Int.sub_add_cancel] at both

theorem add_whole {left right : UInt32} (unit : sector = 512 ∨ sector = 1024)
    (first : left.toNat % sector = 0) (second : right.toNat % sector = 0) :
    (left + right).toNat % sector = 0 := by
  rw [UInt32.toNat_add]
  obtain rfl | rfl := unit
  · omega
  · omega

theorem partBytes_whole (buf : List Byte) (unit : sector = 512 ∨ sector = 1024) (i : Nat) :
    (partBytes buf i).toNat % sector = 0 := by
  rw [partBytes, UInt32.toNat_mul]
  change _ * 1024 % 2 ^ 32 % sector = 0
  obtain rfl | rfl := unit
  · omega
  · omega

theorem ahead_whole (buf : List Byte) (unit : sector = 512 ∨ sector = 1024) (i : Nat) :
    (ahead buf i).toNat % sector = 0 := by
  induction i with
  | zero => exact Nat.zero_mod sector
  | succ i ih =>
      apply add_whole unit ih
      split
      · exact partBytes_whole buf unit i
      · exact Nat.zero_mod sector

/-- One turn: the entry of its own partition, and all others. -/
structure TurnDone (buf : List Byte) (sector : Nat) (old : Nat → LayoutEntry) (state : Parts)
    (i : Nat) (next : Parts) : Prop where
  mono : next.hdr.mono = state.hdr.mono
  base : next.base =
    if state.hdr.mono ∧ i ≠ 0 ∧ inPacket buf i then state.base + partBytes buf i else state.base
  other : ∀ id, (id ≠ i + 1 ∨ stoUboot ≤ id ∨ inPacket buf i = false) → stoKernel ≤ id →
    layoutOf sector old next.hdr id = layoutOf sector old state.hdr id
  own : stoKernel ≤ i + 1 → i + 1 < stoUboot → inPacket buf i = true →
    layoutOf sector old next.hdr (i + 1) =
      if state.hdr.mono then
        { offset := state.base.toInt32.toInt - state.base.toInt32.toInt % sector
          size := (partBytes buf i).toNat
          imgsz := (imageBytes buf i).toNat }
      else { old (i + 1) with imgsz := (imageBytes buf i).toNat }

theorem addelem_mono (hdr : UpgHeader) (elem : UpgElem) : (hdr.addelem elem).mono = hdr.mono := by
  unfold UpgHeader.addelem
  split
  · rfl
  · rfl

theorem layoutOf_counted (hdr : UpgHeader) (partsz : UInt32) (partId : Nat) :
    layoutOf sector old (hdr.counted partsz partId) = layoutOf sector old hdr := by
  unfold layoutOf
  rfl

theorem counted_mono (hdr : UpgHeader) (partsz : UInt32) (partId : Nat) :
    (hdr.counted partsz partId).mono = hdr.mono := rfl

/-- A part of the package with its element. -/
theorem layoutOf_partElem_other (hdr : UpgHeader) (elemoffset : UInt32) {i : Fin upgMaxParts}
    (later : i.val ≠ 0) (dstoffset : Int32) (partsz : UInt32) {id : Nat}
    (other : id ≠ i + 1 ∨ stoUboot ≤ id) :
    layoutOf sector old (hdr.addelem (partElem behind buf elemoffset i dstoffset partsz)) id =
      layoutOf sector old hdr id := by
  apply layoutOf_addelem_other
  obtain differ | boot := other
  · exact .inl (Ne.symm differ)
  · exact .inr ⟨decide_eq_false later, boot⟩

theorem layoutOf_partElem (hdr : UpgHeader) (elemoffset : UInt32) {i : Fin upgMaxParts}
    (dstoffset : Int32) (partsz : UInt32) (first : stoKernel ≤ i.val + 1)
    (part : i.val + 1 < stoUboot) :
    layoutOf sector old (hdr.addelem (partElem behind buf elemoffset i dstoffset partsz)) (i + 1) =
      { offset := dstoffset.toInt - dstoffset.toInt % sector
        size := partsz.toNat - partsz.toNat % sector
        imgsz := (imageBytes buf i).toNat } :=
  layoutOf_addelem hdr (upgMaplevel_part first part) (decide_eq_false (by lia)) first part

theorem partTurn_done (told : Told nand map sector old) {state next : Parts} {i : Fin upgMaxParts}
    (turned : partTurn behind nand map buf state i = .ok next) :
    TurnDone buf sector old state i next := by
  unfold partTurn at turned
  dsimp only at turned
  split at turned
  · rename_i skipped
    cases turned
    rw [Bool.and_eq_true] at skipped
    have absent : inPacket buf i = false := by rw [inPacket, skipped.1, Bool.not_true]
    refine ⟨rfl, (if_neg ?_).symm, fun _ _ _ => rfl, fun _ _ present => ?_⟩
    · rw [absent]
      exact fun whole => Bool.false_ne_true whole.2.2
    · rw [absent] at present
      cases present
  rename_i kept
  rw [Bool.and_eq_true, not_and_or, Bool.not_eq_true, decide_eq_true_eq, not_not] at kept
  split at turned
  · rename_i zero
    cases turned
    refine ⟨?_, (if_neg (fun whole => whole.2.1 zero)).symm, fun id _ first => ?_, fun first => ?_⟩
    · rw [addelem_mono, counted_mono]
    · rw [layoutOf_addelem_other, layoutOf_counted]
      left
      change i.val + 1 ≠ id
      lia
    · lia
  rename_i later
  have present : inPacket buf i = true := by
    rw [inPacket, kept.resolve_right later, Bool.not_false]
  split at turned
  · rename_i mono
    cases turned
    refine ⟨?_, (if_pos ⟨mono, later, present⟩).symm, fun id other _ => ?_, fun first part _ => ?_⟩
    · rw [addelem_mono, counted_mono]
    · rw [layoutOf_partElem_other _ _ later, layoutOf_counted]
      rw [present] at other
      simpa using other
    · rw [if_pos mono, layoutOf_partElem _ _ _ _ first part]
      have whole := partBytes_whole buf told.unit i
      rw [partBytes] at whole ⊢
      rw [whole, Nat.sub_zero]
  · rename_i mono
    split at turned
    · cases turned
    cases turned
    refine ⟨?_, (if_neg (fun whole => mono whole.1)).symm, fun id other _ => ?_,
      fun first part _ => ?_⟩
    · rw [addelem_mono, counted_mono]
    · rw [layoutOf_partElem_other _ _ later, layoutOf_counted]
      rw [present] at other
      simpa using other
    · rw [if_neg mono, layoutOf_partElem _ _ _ _ first part, told.offset _ first part,
        told.size _ first part, told.wholeOffset _ first part, told.wholeSize _ first part,
        Int.sub_zero, Nat.sub_zero]

/-- The loop with so many parts behind it. -/
structure Laid (buf : List Byte) (sector : Nat) (old first : Nat → LayoutEntry) (entire : Bool)
    (start : UInt32) (n : Nat) (state : Parts) : Prop where
  mono : state.hdr.mono = entire
  base : state.base = if entire then start + ahead buf n else start
  entry : ∀ id, stoKernel ≤ id → layoutOf sector old state.hdr id =
    if id < stoUboot ∧ id - 1 < n then packed entire start buf old id else first id

theorem Laid.turn {first : Nat → LayoutEntry} {mono : Bool} {start : UInt32} {n : Nat}
    {state next : Parts} {i : Fin upgMaxParts} (told : Told nand map sector old)
    (whole : start.toNat % sector = 0)
    (parts : ∀ id, stoKernel ≤ id → id < stoUboot → first id = old id)
    (laid : Laid buf sector old first mono start n state) (place : i.val = n)
    (turned : partTurn behind nand map buf state i = .ok next) :
    Laid buf sector old first mono start (n + 1) next := by
  have done := partTurn_done told turned
  rw [place] at done
  refine ⟨done.mono.trans laid.mono, ?_, fun id kernel => ?_⟩
  · have more : ahead buf (n + 1) =
        ahead buf n + if n ≠ 0 ∧ inPacket buf n then partBytes buf n else 0 := rfl
    rw [done.base, laid.mono, laid.base, more]
    cases mono with
    | true =>
        by_cases counted : n ≠ 0 ∧ inPacket buf n = true
        · rw [if_pos ⟨rfl, counted⟩, if_pos rfl, if_pos rfl, if_pos counted, UInt32.add_assoc]
        · rw [if_neg (fun both => counted both.2), if_pos rfl, if_pos rfl, if_neg counted,
            UInt32.add_zero]
    | false =>
        rw [if_neg (fun both => Bool.false_ne_true both.1), if_neg Bool.false_ne_true,
          if_neg Bool.false_ne_true]
  · by_cases own : id = n + 1 ∧ id < stoUboot
    · obtain ⟨rfl, part⟩ := own
      rw [if_pos ⟨part, by omega⟩, packed, Nat.add_sub_cancel]
      by_cases present : inPacket buf n = true
      · rw [if_pos present, done.own kernel part present, laid.mono]
        cases mono with
        | true =>
            have sectors := add_whole told.unit whole (ahead_whole buf told.unit n)
            have rest := intOfWord_whole told.unit sectors
            rw [← toInt32_word] at rest
            rw [if_pos rfl, if_pos rfl, laid.base, if_pos rfl, rest, Int.sub_zero]
        | false => rw [if_neg Bool.false_ne_true, if_neg Bool.false_ne_true]
      · rw [if_neg present, done.other _ (.inr (.inr (Bool.eq_false_of_not_eq_true present))) kernel,
          laid.entry _ kernel, if_neg (by omega), parts _ kernel part]
    · have other : id ≠ n + 1 ∨ stoUboot ≤ id ∨ inPacket buf n = false := by
        rw [not_and_or, Nat.not_lt] at own
        obtain differ | boot := own
        · exact .inl differ
        · exact .inr (.inl boot)
      rw [done.other id other kernel, laid.entry id kernel]
      congr 1
      apply propext
      constructor
      · exact fun both => ⟨both.1, by lia⟩
      · exact fun both => ⟨both.1, by lia⟩

/-- The whole loop. -/
theorem Laid.run {first : Nat → LayoutEntry} {mono : Bool} {start : UInt32}
    (told : Told nand map sector old) (whole : start.toNat % sector = 0)
    (parts : ∀ id, stoKernel ≤ id → id < stoUboot → first id = old id)
    {rest : List (Fin upgMaxParts)} {n : Nat} {state last : Parts}
    (places : ∀ k (less : k < rest.length), rest[k].val = n + k)
    (laid : Laid buf sector old first mono start n state)
    (ran : rest.foldlM (partTurn behind nand map buf) state = .ok last) :
    Laid buf sector old first mono start (n + rest.length) last := by
  induction rest generalizing n state with
  | nil =>
      cases ran
      exact laid
  | cons i rest ih =>
      rw [List.foldlM_cons] at ran
      cases turned : partTurn behind nand map buf state i with
      | error hdr =>
          rw [turned] at ran
          cases ran
      | ok next =>
          rw [turned] at ran
          have place : i.val = n := places 0 (Nat.zero_lt_succ _)
          rw [List.length_cons, ← Nat.add_assoc, Nat.add_right_comm]
          apply ih _ (laid.turn told whole parts place turned) ran
          intro k less
          have behind_ := places (k + 1) (Nat.succ_lt_succ less)
          rw [List.getElem_cons_succ] at behind_
          omega

/-- The boot loader of the package goes to the boot partition not in use. -/
def packedBoot (curUboot : Bool) (buf : List Byte) (old : Nat → LayoutEntry) (id : Nat) : LayoutEntry :=
  if ba2Ul buf 196 > 0 ∧ id = (if curUboot then stoUboot else stoUbootBak) then
    { old id with imgsz := (ba2Ul buf 196).toNat }
  else old id

/-- The package is for the whole flash. -/
def wholeUpgrade (buf : List Byte) : Bool := ba2Ul buf 256 == ba2Ul buf 516 + 1

def blankHeader : UpgHeader where
  elem := []
  reqsz := 0
  mono := false
  upgdatasz := 0
  maxpartId := 0
  sign := 0
  parts := 0
  pktsz := 0
  upgparts := 0
  upgdataOffset := 0
  bootfileSize := 0
  bootfileImgsz := 0
  ubootfileImgsz := 0
  fskeyStart := 0
  fskeyEnd := 0
  pagesz := 0
  pktname := []

theorem layoutOf_withUboot {hdr : UpgHeader} (fresh : hdr.elem = []) (curUboot : Bool) (id : Nat) :
    layoutOf sector old (hdr.withUboot nand map curUboot) id =
      if hdr.ubootfileImgsz > 0 ∧ id = (if curUboot then stoUboot else stoUbootBak) then
        { old id with imgsz := hdr.ubootfileImgsz.toNat }
      else old id := by
  unfold UpgHeader.withUboot
  split
  · rename_i image
    unfold layoutOf
    rw [fresh, List.nil_append]
    dsimp only [List.foldl]
    unfold UpgElem.place
    have own : (ubootElem nand map curUboot hdr hdr.upgdataOffset).partId =
        if curUboot then stoUboot else stoUbootBak := rfl
    have shown : (ubootElem nand map curUboot hdr hdr.upgdataOffset).privatePart = true := rfl
    rw [own, shown, if_pos (rfl : true = true)]
    by_cases here : id = if curUboot then stoUboot else stoUbootBak
    · have part : stoUboot ≤ id ∧ id < stoNandmax := by
        rw [here]
        cases curUboot <;> decide
      rw [if_neg (not_not.mpr here.symm), if_pos part, if_pos ⟨image, here⟩]
      rfl
    · rw [if_pos (Ne.symm here), if_neg (fun both => here both.2)]
  · rename_i missing
    rw [if_neg (fun both => missing both.1), layoutOf, fresh]
    rfl

theorem begun_fields (buf : List Byte) (config : List Char) :
    (blankHeader.begun buf config).elem = [] ∧
      (blankHeader.begun buf config).mono = wholeUpgrade buf ∧
      (blankHeader.begun buf config).ubootfileImgsz = ba2Ul buf 196 := by
  refine ⟨rfl, ?_, rfl⟩
  unfold UpgHeader.begun UpgHeader.fill blankHeader wholeUpgrade
  dsimp only
  rw [Bool.false_or]

theorem configv1_ok {curUboot : Bool} {config : List Char} {before hdr : UpgHeader}
    (parsed : upgradeParseConfigv1 behind nand map buf true curUboot config before = (.none, hdr)) :
    ∃ state, (List.finRange upgMaxParts).foldlM (partTurn behind nand map buf)
        ⟨(before.begun buf config).withUboot nand map curUboot,
          ((before.begun buf config).withUboot nand map curUboot).upgdataOffset,
          alislstoTellExt nand map stoKernel .offset⟩ = .ok state ∧ hdr = state.hdr := by
  unfold upgradeParseConfigv1 at parsed
  rw [if_neg (by decide)] at parsed
  dsimp only at parsed
  split at parsed
  · cases parsed
  · rename_i state ran
    cases parsed
    exact ⟨state, ran, rfl⟩

/-- What the elements of a package make of the layout. -/
theorem configv1_layout (told : Told nand map sector old)
    (start : (alislstoTellExt nand map stoKernel .offset).toNat % sector = 0) {curUboot : Bool}
    {config : List Char} {hdr : UpgHeader}
    (parsed : upgradeParseConfigv1 behind nand map buf true curUboot config blankHeader =
      (.none, hdr)) {id : Nat} (kernel : stoKernel ≤ id) :
    layoutOf sector old hdr id =
      if id < stoUboot then
        packed (wholeUpgrade buf) (alislstoTellExt nand map stoKernel .offset) buf old id
      else packedBoot curUboot buf old id := by
  obtain ⟨fresh, kind, boot⟩ := begun_fields buf config
  obtain ⟨state, ran, rfl⟩ := configv1_ok parsed
  generalize blankHeader.begun buf config = begun at *
  have laid : Laid buf sector old (packedBoot curUboot buf old) (wholeUpgrade buf)
      (alislstoTellExt nand map stoKernel .offset) 0
      ⟨begun.withUboot nand map curUboot, (begun.withUboot nand map curUboot).upgdataOffset,
        alislstoTellExt nand map stoKernel .offset⟩ := by
    refine ⟨?_, ?_, fun id kernel => ?_⟩
    · unfold UpgHeader.withUboot
      split
      · exact kind
      · exact kind
    · rw [ahead, UInt32.add_zero, ite_self]
    · rw [if_neg (fun both => absurd both.2 (Nat.not_lt_zero _)), layoutOf_withUboot fresh, boot,
        packedBoot]
  have parts : ∀ id, stoKernel ≤ id → id < stoUboot → packedBoot curUboot buf old id = old id := by
    intro id _ part
    refine if_neg (fun both => ?_)
    have boot := both.2
    cases curUboot with
    | true => exact absurd part (Nat.not_lt.mpr (by rw [boot]; decide))
    | false => exact absurd part (Nat.not_lt.mpr (by rw [boot]; decide))
  have done := laid.run told start parts (fun k less => by
    rw [List.getElem_finRange, Nat.zero_add]
    rfl) ran
  rw [List.length_finRange, Nat.zero_add] at done
  rw [done.entry id kernel]
  by_cases part : id < stoUboot
  · rw [if_pos ⟨part, by lia⟩, if_pos part]
  · rw [if_neg (fun both => part both.1), if_neg part]

end

/-! ### Partitions behind one another -/

/-- `ahead` without overflow. -/
def space (buf : List Byte) : Nat → Nat
  | 0 => 0
  | i + 1 => space buf i + if i ≠ 0 ∧ inPacket buf i then (partBytes buf i).toNat else 0

theorem space_le (buf : List Byte) {i j : Nat} (before : i ≤ j) : space buf i ≤ space buf j := by
  induction before with
  | refl => exact Nat.le_refl _
  | step _ ih => exact ih.trans (Nat.le_add_right _ _)

theorem space_part (buf : List Byte) {i : Nat} (later : i ≠ 0) (present : inPacket buf i = true) :
    space buf (i + 1) = space buf i + (partBytes buf i).toNat := by
  rw [space, if_pos ⟨later, present⟩]

/-- Parts that are not in the package take no space. -/
theorem space_gap (buf : List Byte) {i j : Nat} (before : i ≤ j)
    (absent : ∀ k, i ≤ k → k < j → inPacket buf k = false) : space buf j = space buf i := by
  induction before with
  | refl => rfl
  | @step j before ih =>
      have missing := absent j before (Nat.lt_succ_self j)
      rw [space, missing, if_neg (fun both => Bool.false_ne_true both.2), Nat.add_zero]
      exact ih (fun k low high => absent k low (Nat.lt_succ_of_lt high))

theorem ahead_toNat (buf : List Byte) {i : Nat} (fits : space buf i < 2 ^ 32) :
    (ahead buf i).toNat = space buf i := by
  induction i with
  | zero => rfl
  | succ i ih =>
      have before := ih ((space_le buf (Nat.le_succ i)).trans_lt fits)
      rw [space] at fits ⊢
      rw [ahead, UInt32.toNat_add, before]
      split at fits
      · rename_i counted
        rw [if_pos counted, if_pos counted, Nat.mod_eq_of_lt fits]
      · rename_i missing
        rw [if_neg missing, if_neg missing]
        exact Nat.mod_eq_of_lt fits

/-- The partitions of a whole upgrade that stays below two gigabytes. -/
theorem packed_place {buf : List Byte} {start : UInt32} (old : Nat → LayoutEntry)
    (fits : start.toNat + space buf (stoUboot - 1) < 2 ^ 31) {id : Nat} (part : id < stoUboot)
    (present : inPacket buf (id - 1) = true) :
    (packed true start buf old id).offset = start.toNat + space buf (id - 1) ∧
      (packed true start buf old id).size = (partBytes buf (id - 1)).toNat := by
  have less := space_le buf (show id - 1 ≤ stoUboot - 1 by lia)
  rw [packed, if_pos present, if_pos rfl]
  refine ⟨?_, rfl⟩
  rw [toInt32_word, UInt32.toNat_add, ahead_toNat buf (by omega), Nat.mod_eq_of_lt (by omega),
    intOfWord_of_lt (by omega), Nat.cast_add]

/-- No two of them overlap, and nothing is left between neighbours. -/
theorem packed_apart {buf : List Byte} {start : UInt32} {old : Nat → LayoutEntry}
    (fits : start.toNat + space buf (stoUboot - 1) < 2 ^ 31) {left right : Nat}
    (kernel : stoKernel ≤ left) (less : left < right) (part : right < stoUboot)
    (first : inPacket buf (left - 1) = true) (second : inPacket buf (right - 1) = true) :
    (packed true start buf old left).offset + (packed true start buf old left).size ≤
        (packed true start buf old right).offset ∧
      ((∀ id, left < id → id < right → inPacket buf (id - 1) = false) →
        (packed true start buf old left).offset + (packed true start buf old left).size =
          (packed true start buf old right).offset) := by
  obtain ⟨leftOffset, leftSize⟩ := packed_place old fits (less.trans part) first
  obtain ⟨rightOffset, _⟩ := packed_place old fits part second
  have next := space_part buf (by lia) first
  have step : left - 1 + 1 = left := by lia
  rw [step] at next
  rw [leftOffset, leftSize, rightOffset]
  refine ⟨?_, fun absent => ?_⟩
  · have order := space_le buf (show left ≤ right - 1 by omega)
    omega
  · have gap := space_gap buf (show left ≤ right - 1 by omega) (fun k low high => by
      have missing := absent (k + 1) (by omega) (by omega)
      rwa [Nat.add_sub_cancel] at missing)
    omega

/-! ### On the flash -/

section

variable {geometry : SysGeometry} {driver : PmiDriver}

/-- A flash as `alislsto_open` leaves it. -/
structure Opened (geometry : SysGeometry) (driver : PmiDriver) (nand : StoDev) (layout : StoLayout)
    (header : List Byte) (offset : Nat) : Prop where
  sees : Sees geometry driver nand header offset
  pmi : nand.pmi = true
  map : ∀ id, stoKernel ≤ id → id < stoNandmax → layout.map id = layoutEntry header id
  table : ∀ table, nand.attr = some table → table.entries = layout.table

theorem parseHeader_map (buf : List Byte) (size : Nat) (layout : StoLayout) {id : Nat}
    (kernel : stoKernel ≤ id) (last : id < stoNandmax) :
    (parseHeader buf size layout).map id = layoutEntry buf id := by
  dsimp only [parseHeader]
  rw [if_neg (by lia), if_neg (by lia), if_pos last]

theorem attr_of_parse {nand opened : StoDev} {before layout : StoLayout}
    (parsed : nand.storageParse geometry driver true before = (.none, layout, opened)) :
    opened.attr = nand.attr.map (fun map => { map with entries := layout.table }) := by
  obtain ⟨header, offset, nand', got⟩ := sees_of_parse (congrArg Prod.fst parsed)
  have there := getPmi_found (headerBuffer_blank geometry) got
  unfold StoDev.storageParse at parsed
  rw [if_neg (by decide)] at parsed
  dsimp only at parsed
  rw [got, if_neg (not_not.mpr rfl)] at parsed
  cases parsed
  rw [there.same]

theorem opened_of_parse {nand opened : StoDev} {before layout : StoLayout}
    (parsed : nand.storageParse geometry driver true before = (.none, layout, opened)) :
    ∃ header offset, Opened geometry driver opened layout header offset := by
  obtain ⟨header, offset, sees⟩ := sees_of_parse (congrArg Prod.fst parsed)
  obtain ⟨nand', got⟩ := sees
  have there := getPmi_found (headerBuffer_blank geometry) got
  have attr := attr_of_parse parsed
  unfold StoDev.storageParse at parsed
  rw [if_neg (by decide)] at parsed
  dsimp only at parsed
  rw [got, if_neg (not_not.mpr rfl)] at parsed
  cases parsed
  refine ⟨header, offset, ?_, ?_, ?_, ?_⟩
  · have found : Sees geometry driver nand header offset := ⟨nand', got⟩
    apply found.of_flash
    · rw [there.same]
    · rw [there.same]
  · rw [there.same]
  · exact fun id kernel last => parseHeader_map _ _ _ kernel last
  · intro table found
    obtain ⟨map, _, same⟩ := Option.map_eq_some_iff.mp (attr.symm.trans found)
    rw [← same]

theorem ofInt_toInt32 {value : Int} {word : Nat} (same : value = intOfWord word) :
    (UInt32.ofInt value).toInt32.toInt = value := by
  have low := (BitVec.ofNat 32 word).le_toInt
  have high := (BitVec.ofNat 32 word).toInt_lt
  rw [intOfWord] at same
  rw [toInt32_word, UInt32.ofInt, UInt32.toNat_ofNat', intOfWord_bmod, Nat.mod_eq_of_lt (by omega),
    Int.toNat_of_nonneg (by omega)]
  exact (Int.emod_bmod value (2 ^ 32)).trans (Int.bmod_eq_of_le (by omega) (by omega))

theorem Opened.entry {nand : StoDev} {layout : StoLayout} {header : List Byte} {offset : Nat}
    {table : MapTable} (opened : Opened geometry driver nand layout header offset)
    (attr : nand.attr = some table) {id : Nat} (last : id < stoNandmax) :
    table.get id = ⟨(layout.map id).offset, (layout.map id).size⟩ := by
  rw [MapTable.get, if_pos (Int.natCast_nonneg id), Int.toNat_natCast, opened.table table attr]
  unfold StoLayout.table
  rw [List.getD_eq_getElem?_getD, List.getElem?_map, List.getElem?_range last]
  rfl

/-- The entries of an open flash are in whole sectors. -/
theorem Opened.told {nand : StoDev} {layout : StoLayout} {header : List Byte} {offset : Nat}
    {table : MapTable} (opened : Opened geometry driver nand layout header offset)
    (attr : nand.attr = some table) :
    Told nand table (sectorSize header) layout.map := by
  have unit := sectorSize_or header
  have open_ : ¬ nand.pmi = false := by
    rw [opened.pmi]
    decide
  have entry (id : Nat) (kernel : stoKernel ≤ id) (part : id < stoUboot) :=
    (opened.map id kernel (by lia)).trans (layoutEntry_part header part)
  refine ⟨unit, ?_, ?_, ?_, ?_⟩
  · intro id kernel part
    rw [alislstoTellExt, if_neg open_, opened.entry attr (by lia), entry id kernel part]
    exact ofInt_toInt32 rfl
  · intro id kernel part
    rw [alislstoTellExt, if_neg open_, opened.entry attr (by lia), entry id kernel part]
    exact UInt32.toNat_ofNat_of_lt' (Nat.mod_lt _ (by decide))
  · intro id kernel part
    rw [entry id kernel part]
    exact intOfWord_whole unit (Nat.mul_mod_left _ _)
  · intro id kernel part
    rw [entry id kernel part]
    obtain half | whole := unit
    · rw [half]
      dsimp only
      omega
    · rw [whole]
      dsimp only
      omega

theorem Opened.start {nand : StoDev} {layout : StoLayout} {header : List Byte} {offset : Nat}
    {table : MapTable} (opened : Opened geometry driver nand layout header offset)
    (attr : nand.attr = some table) :
    alislstoTellExt nand table stoKernel .offset = UInt32.ofInt (layout.map stoKernel).offset ∧
      (UInt32.ofInt (layout.map stoKernel).offset).toNat % sectorSize header = 0 := by
  have whole := (opened.told attr).wholeOffset stoKernel (by decide) (by decide)
  have open_ : ¬ nand.pmi = false := by
    rw [opened.pmi]
    decide
  refine ⟨?_, ?_⟩
  · rw [alislstoTellExt, if_neg open_, opened.entry attr (by decide)]
  · rw [UInt32.ofInt, UInt32.toNat_ofNat']
    obtain half | full := sectorSize_or header
    · rw [half] at whole ⊢
      omega
    · rw [full] at whole ⊢
      omega

theorem entries_after_package (now : StoLayout) (writable : Writable geometry driver)
    {nand opened after : StoDev} {before layout : StoLayout} {table : MapTable} {behind : Nat → ElemLevel} {buf : List Byte}
    {curUboot : Bool} {config : List Char} {hdr : UpgHeader}
    (open_ : nand.storageParse geometry driver true before = (.none, layout, opened))
    (attr : opened.attr = some table)
    (parsed : upgradeParseConfigv1 behind opened table buf true curUboot config blankHeader =
      (.none, hdr))
    (updated : upgradeParseUpdatepmi geometry driver true true opened hdr.elem = (.inl .none, after)) :
    (after.storageParse geometry driver true now).1 = .none ∧
      ∀ id, stoKernel ≤ id → id < stoNandmax →
        (after.storageParse geometry driver true now).2.1.map id =
          if id < stoUboot then
            packed (wholeUpgrade buf) (UInt32.ofInt (layout.map stoKernel).offset) buf layout.map id
          else packedBoot curUboot buf layout.map id := by
  obtain ⟨header, offset, opened_⟩ := opened_of_parse open_
  obtain ⟨other, place, before_, there, _⟩ := updatepmi_sees writable updated
  cases before_.unique opened_.sees
  obtain ⟨start, whole⟩ := opened_.start attr
  have done := foldl_put before_.whole hdr.elem
  have told := opened_.told attr
  refine ⟨(there.parse now).1, fun id kernel last => ?_⟩
  have package := configv1_layout told (start ▸ whole) parsed kernel
  rw [start] at package
  calc
    (after.storageParse geometry driver true now).2.1.map id
      = layoutEntry (hdr.elem.foldl (UpgElem.put (sectorSize header)) header) id := by
        rw [(there.parse now).2, parseHeader_map _ _ _ kernel last]
    _ = hdr.elem.foldl (UpgElem.place (sectorSize header)) (layoutEntry header) id :=
        done.layout id kernel last
    _ = layoutOf (sectorSize header) layout.map hdr id :=
        foldl_place_congr _ _ (opened_.map id kernel last).symm
    _ = _ := package

/-- The layout an upgrade leaves behind is the one its package asks for, whichever kind of upgrade it
is and whatever else is on the flash; no two partitions of a whole upgrade that stays below two
gigabytes overlap, and neighbours touch. -/
theorem layout_after_package (writable : Writable geometry driver) {nand opened after : StoDev}
    {before layout now : StoLayout} {table : MapTable} {behind : Nat → ElemLevel} {buf : List Byte}
    {curUboot : Bool} {config : List Char} {hdr : UpgHeader}
    (open_ : nand.storageParse geometry driver true before = (.none, layout, opened))
    (attr : opened.attr = some table)
    (parsed : upgradeParseConfigv1 behind opened table buf true curUboot config blankHeader =
      (.none, hdr))
    (updated : upgradeParseUpdatepmi geometry driver true true opened hdr.elem = (.inl .none, after)) :
    (after.storageParse geometry driver true now).1 = .none ∧
      (∀ id, stoKernel ≤ id → id < stoNandmax →
        (after.storageParse geometry driver true now).2.1.map id =
          if id < stoUboot then
            packed (wholeUpgrade buf) (UInt32.ofInt (layout.map stoKernel).offset) buf layout.map id
          else packedBoot curUboot buf layout.map id) ∧
      (wholeUpgrade buf = true →
        (UInt32.ofInt (layout.map stoKernel).offset).toNat + space buf (stoUboot - 1) < 2 ^ 31 →
        ∀ left right, stoKernel ≤ left → left < right → right < stoUboot →
          inPacket buf (left - 1) = true → inPacket buf (right - 1) = true →
          ((after.storageParse geometry driver true now).2.1.map left).offset +
              ((after.storageParse geometry driver true now).2.1.map left).size ≤
            ((after.storageParse geometry driver true now).2.1.map right).offset ∧
          ((∀ id, left < id → id < right → inPacket buf (id - 1) = false) →
            ((after.storageParse geometry driver true now).2.1.map left).offset +
                ((after.storageParse geometry driver true now).2.1.map left).size =
              ((after.storageParse geometry driver true now).2.1.map right).offset)) := by
  obtain ⟨read, entries⟩ := entries_after_package now writable open_ attr parsed updated
  refine ⟨read, entries, fun entire fits left right kernel less part first second => ?_⟩
  rw [entries left kernel (by lia), entries right (by lia) (by lia), if_pos (less.trans part),
    if_pos part, entire]
  exact packed_apart fits kernel less part first second
end

/-! A whole upgrade of two partitions of one and of two kilobytes. -/

def twoParts : List Byte :=
  setWords (List.replicate 1024 0)
    [(256, 3), (516, 2), (272, 1), (424, 100), (280, 2), (428, 200)]

def nandFlash : StoDev := { headerAt 512 with attr := some ⟨[], fun _ => ⟨0, 0⟩⟩ }

theorem layout_after_package_two :
    let opened := (nandFlash.storageParse eightBlocks sound true noLayout).2.2
    let table : MapTable :=
      ⟨(nandFlash.storageParse eightBlocks sound true noLayout).2.1.table, fun _ => ⟨0, 0⟩⟩
    let hdr := (upgradeParseConfigv1 (fun _ => .none) opened table twoParts true true []
      blankHeader).2
    let after := (upgradeParseUpdatepmi eightBlocks sound true true opened hdr.elem).2
    (after.storageParse eightBlocks sound true noLayout).1 = .none ∧
      (after.storageParse eightBlocks sound true noLayout).2.1.map 3 = ⟨1024, 2048, 200⟩ := by
  intro opened table hdr after
  have fine : (nandFlash.storageParse eightBlocks sound true noLayout).1 = .none := by
    decide +kernel
  have open_ : nandFlash.storageParse eightBlocks sound true noLayout =
      (.none, (nandFlash.storageParse eightBlocks sound true noLayout).2.1, opened) := by
    rw [← fine]
  have taken : (upgradeParseConfigv1 (fun _ => .none) opened table twoParts true true []
      blankHeader).1 = .none := by decide +kernel
  have parsed : upgradeParseConfigv1 (fun _ => .none) opened table twoParts true true []
      blankHeader = (.none, hdr) := by rw [← taken]
  have written : (upgradeParseUpdatepmi eightBlocks sound true true opened hdr.elem).1 =
      .inl .none := by decide +kernel
  have updated : upgradeParseUpdatepmi eightBlocks sound true true opened hdr.elem =
      (.inl .none, after) := by rw [← written]
  have writable : Writable eightBlocks sound := ⟨by decide, fun _ _ _ _ => rfl⟩
  have result := @layout_after_package eightBlocks sound writable _ _ after _ _ noLayout _ _ _ _ _ _
    open_ (attr_of_parse open_) parsed updated
  refine ⟨result.1, ?_⟩
  rw [result.2.1 3 (by decide) (by decide)]
  decide +kernel

end Alisl.Upgrade.V3
