import Alisl.Storage.StoDevice
import Alisl.Storage.Sysinfo

/-! `alislsto_get_pmi` and `alislsto_set_pmi`: the PMI header in the first good one of four places, over
a driver whose reads, erases and writes can fail. -/

namespace Alisl.Storage.Nand

open Alisl.Base

/-- `pmi_info_t`. -/
structure PmiInfo where
  bufStart : List Byte
  offset : Nat
  length : Nat

/-- A driver whose `MEMERASE` of a block can fail, too. -/
structure PmiDriver extends Driver where
  unerasable : Nat → Bool

/-- A `read` into a buffer, which keeps its bytes where it fails. -/
def Driver.readInto (driver : Driver) (flash : Flash) (buffer : List Byte) (start size : Nat) :
    List Byte :=
  if (List.range size).any (fun i => driver.unreadable (start + i)) then buffer
  else overlay buffer 0 (flash.read start size)

def PmiInfo.tagged (info : PmiInfo) : Bool :=
  info.bufStart.getD 14 0 == 0x55 && info.bufStart.getD 15 0 == 0xaa

/-- The buffer after a `read` of its length. -/
def PmiInfo.filled (info : PmiInfo) (driver : Driver) (flash : Flash) (startOffset : Nat) : PmiInfo :=
  { info with bufStart := driver.readInto flash info.bufStart startOffset info.length }

section

variable (geometry : SysGeometry) (driver : PmiDriver)

/-- The places of `alislsto_get_pmi` one by one; the flag says that the loop was left. -/
def getPmiLoop (dev : StoDev) : List Nat → PmiInfo → Bool × PmiInfo
  | [], info => (false, info)
  | i :: places, info =>
      let startOffset := pmiStart geometry i
      if dev.getBadBlock geometry.toNandGeometry (startOffset + geometry.eraseSize : Nat) then
        getPmiLoop dev places info
      else if dev.getBadBlock geometry.toNandGeometry startOffset then getPmiLoop dev places info
      else if dev.valid = false then (true, info)
      else
        let read := info.filled driver.toDriver dev.flash startOffset
        if read.tagged then (true, { read with offset := startOffset })
        else getPmiLoop dev places read

namespace StoDev

/-- `alislsto_get_pmi`. -/
def alislstoGetPmi (dev : StoDev) (info : PmiInfo) : StoRetcode × PmiInfo × StoDev :=
  let found := getPmiLoop geometry driver dev (List.range 4) info
  (if found.1 then .none else .driver, found.2, { dev with pmi := found.1 })

/-- `alislsto_set_pmi`; `MEMERASE` refuses a start that is not that of a block. -/
def alislstoSetPmi (malloc : Bool) (dev : StoDev) (info : PmiInfo) : StoRetcode × StoDev :=
  if dev.pmi = false then (.driver, dev)
  else if malloc = false then (.mem, dev)
  else
    let dev := { dev with offset := (info.offset : Int) }
    if dev.getBadBlock geometry.toNandGeometry dev.offset then (.driver, dev)
    else if dev.valid = false then (.driver, dev)
    else
      let read := driver.readInto dev.flash (List.replicate geometry.eraseSize 0) info.offset
        geometry.eraseSize
      let wrbuf := overlay read 0 (info.bufStart.take info.length)
      if info.offset % geometry.eraseSize ≠ 0 then (.driver, dev)
      else if driver.unerasable (info.offset / geometry.eraseSize) then
        (.driver, { dev with
          flash := dev.flash.spoil geometry.toGeometry driver.left info.offset geometry.eraseSize })
      else
        let erased := dev.flash.erase geometry.toGeometry info.offset geometry.eraseSize
        let written :=
          if (List.range geometry.eraseSize).any (fun i => driver.unwritable (info.offset + i)) then
            erased.spoil geometry.toGeometry driver.left info.offset geometry.eraseSize
          else erased.write geometry.toGeometry info.offset wrbuf
        (.none, { dev with flash := written })

end StoDev

/-- The header is at a place, and can be read there. -/
def pmiHere (dev : StoDev) (length i : Nat) : Bool :=
  let startOffset := pmiStart geometry i
  !dev.getBadBlock geometry.toNandGeometry (startOffset + geometry.eraseSize : Nat) &&
    !dev.getBadBlock geometry.toNandGeometry startOffset &&
    !(List.range length).any (fun k => driver.unreadable (startOffset + k)) &&
    dev.flash.content (startOffset + 14) == 0x55 && dev.flash.content (startOffset + 15) == 0xaa

end

section

variable {geometry : SysGeometry} {driver : PmiDriver} {dev : StoDev}

theorem overlay_zero (buffer data : List Byte) (short : buffer.length ≤ data.length) :
    overlay buffer 0 data = data := by
  rw [overlay, List.take_zero, List.nil_append, Nat.zero_add, List.drop_eq_nil_of_le short,
    List.append_nil]

theorem getBadBlock_closed (closed : dev.valid = false) (offset : Int) :
    dev.getBadBlock geometry.toNandGeometry offset = true := by
  rw [StoDev.getBadBlock, closed, Bool.not_false, Bool.true_or, Bool.true_or, Bool.true_or]

theorem getD_read (flash : Flash) {start length k : Nat} (inside : k < length) :
    (flash.read start length).getD k 0 = flash.content (start + k) := by
  rw [Flash.read, List.getD_eq_getElem?_getD, List.getElem?_map, List.getElem?_range inside]
  rfl

/-- One place, with a buffer that shows no tag yet. -/
theorem getPmiLoop_cons {info : PmiInfo} (blank : info.tagged = false) (long : 16 ≤ info.length)
    (fits : info.bufStart.length = info.length) (i : Nat) (places : List Nat) :
    (pmiHere geometry driver dev info.length i = true ∧
      getPmiLoop geometry driver dev (i :: places) info =
        (true, ⟨dev.flash.read (pmiStart geometry i) info.length, pmiStart geometry i, info.length⟩)) ∨
    (pmiHere geometry driver dev info.length i = false ∧ ∃ next : PmiInfo, next.tagged = false ∧
      next.length = info.length ∧ next.bufStart.length = info.length ∧
      getPmiLoop geometry driver dev (i :: places) info =
        getPmiLoop geometry driver dev places next) := by
  have step : getPmiLoop geometry driver dev (i :: places) info =
      if dev.getBadBlock geometry.toNandGeometry
          (pmiStart geometry i + geometry.eraseSize : Nat) then
        getPmiLoop geometry driver dev places info
      else if dev.getBadBlock geometry.toNandGeometry (pmiStart geometry i) then
        getPmiLoop geometry driver dev places info
      else if dev.valid = false then (true, info)
      else if (info.filled driver.toDriver dev.flash (pmiStart geometry i)).tagged then
        (true, { info.filled driver.toDriver dev.flash (pmiStart geometry i) with
          offset := pmiStart geometry i })
      else getPmiLoop geometry driver dev places
        (info.filled driver.toDriver dev.flash (pmiStart geometry i)) := rfl
  rw [step]
  unfold pmiHere PmiInfo.filled
  dsimp only
  by_cases outer : dev.getBadBlock geometry.toNandGeometry
      (pmiStart geometry i + geometry.eraseSize : Nat) = true
  · rw [if_pos outer, outer]
    exact .inr ⟨rfl, info, blank, rfl, fits, rfl⟩
  rw [if_neg outer]
  by_cases inner : dev.getBadBlock geometry.toNandGeometry (pmiStart geometry i : Int) = true
  · rw [if_pos inner, inner, Bool.not_true, Bool.and_false]
    exact .inr ⟨rfl, info, blank, rfl, fits, rfl⟩
  rw [if_neg inner]
  have opened : ¬ dev.valid = false := fun closed => inner (getBadBlock_closed closed _)
  rw [if_neg opened, Bool.eq_false_of_not_eq_true outer, Bool.eq_false_of_not_eq_true inner]
  by_cases fails : (List.range info.length).any
      (fun k => driver.unreadable (pmiStart geometry i + k)) = true
  · have same : driver.readInto dev.flash info.bufStart (pmiStart geometry i) info.length =
        info.bufStart := if_pos fails
    rw [same, if_neg (by rw [PmiInfo.tagged] at blank ⊢; rw [blank]; exact Bool.false_ne_true), fails]
    exact .inr ⟨rfl, info, blank, rfl, fits, rfl⟩
  · have read : driver.readInto dev.flash info.bufStart (pmiStart geometry i) info.length =
        dev.flash.read (pmiStart geometry i) info.length := by
      rw [Driver.readInto, if_neg fails, overlay_zero]
      rw [length_read, fits]
    have first : (dev.flash.read (pmiStart geometry i) info.length).getD 14 0 =
        dev.flash.content (pmiStart geometry i + 14) := getD_read _ (by omega)
    have second : (dev.flash.read (pmiStart geometry i) info.length).getD 15 0 =
        dev.flash.content (pmiStart geometry i + 15) := getD_read _ (by omega)
    rw [read, Bool.eq_false_of_not_eq_true fails]
    by_cases tag : (dev.flash.content (pmiStart geometry i + 14) == 0x55 &&
        dev.flash.content (pmiStart geometry i + 15) == 0xaa) = true
    · left
      rw [PmiInfo.tagged, first, second, if_pos tag]
      refine ⟨?_, rfl⟩
      simpa using tag
    · right
      rw [PmiInfo.tagged, first, second, if_neg tag]
      refine ⟨?_, ⟨dev.flash.read (pmiStart geometry i) info.length, info.offset, info.length⟩, ?_, rfl,
        length_read .., rfl⟩
      · simpa using tag
      · rw [PmiInfo.tagged, first, second]
        exact Bool.eq_false_of_not_eq_true tag

/-- The header of the first place that has one is found, whatever the driver cannot read. -/
theorem getPmiLoop_find {info : PmiInfo} (blank : info.tagged = false) (long : 16 ≤ info.length)
    (fits : info.bufStart.length = info.length) (places : List Nat) :
    ((places.find? (pmiHere geometry driver dev info.length) = none ∧
      (getPmiLoop geometry driver dev places info).1 = false) ∨
    ∃ i, places.find? (pmiHere geometry driver dev info.length) = some i ∧
      getPmiLoop geometry driver dev places info =
        (true, ⟨dev.flash.read (pmiStart geometry i) info.length, pmiStart geometry i,
          info.length⟩)) := by
  induction places generalizing info with
  | nil => exact .inl ⟨rfl, rfl⟩
  | cons i places ih =>
      rcases getPmiLoop_cons blank long fits i places with ⟨here, found⟩ | ⟨none_, next, blank', length, fits', goes⟩
      · exact .inr ⟨i, List.find?_cons_of_pos here, found⟩
      · rw [List.find?_cons_of_neg (by rw [none_]; exact Bool.false_ne_true), goes, ← length]
        exact ih blank' (length ▸ long) (fits'.trans length.symm)

/-! ### Setting it -/

/-- What the bytes of the block become: the header, and behind it what was read of the block. -/
def pmiBlock (geometry : SysGeometry) (driver : PmiDriver) (flash : Flash) (info : PmiInfo) (k : Nat) :
    Byte :=
  if k < info.length then info.bufStart.getD k 0
  else if (List.range geometry.eraseSize).any (fun i => driver.unreadable (info.offset + i)) then 0
  else flash.content (info.offset + k)

theorem readInto_length (driver : Driver) (flash : Flash) (buffer : List Byte) (start : Nat) :
    (driver.readInto flash buffer start buffer.length).length = buffer.length := by
  rw [Driver.readInto]
  split
  · rfl
  · rw [overlay_zero buffer _ (length_read ..).ge, length_read]

theorem getD_readInto (driver : Driver) (flash : Flash) {start size k : Nat} (inside : k < size) :
    (driver.readInto flash (List.replicate size 0) start size).getD k 0 =
      if (List.range size).any (fun i => driver.unreadable (start + i)) then 0
      else flash.content (start + k) := by
  rw [Driver.readInto]
  split
  · rw [List.getD_eq_getElem?_getD, List.getElem?_replicate, if_pos inside]
    rfl
  · rw [overlay_zero _ _ (by rw [List.length_replicate, length_read]), getD_read flash inside]

/-- The buffer of `alislsto_set_pmi` before it is written. -/
theorem getD_overlay_readInto {info : PmiInfo} (fits : info.bufStart.length = info.length)
    {k : Nat} (inside : k < geometry.eraseSize) :
    (overlay (driver.readInto dev.flash (List.replicate geometry.eraseSize 0) info.offset
      geometry.eraseSize) 0 (info.bufStart.take info.length)).getD k 0xff =
      pmiBlock geometry driver dev.flash info k := by
  have whole : info.bufStart.take info.length = info.bufStart := by
    rw [← fits, List.take_length]
  rw [overlay, whole, List.take_zero, List.nil_append, Nat.zero_add, fits, pmiBlock]
  by_cases header : k < info.length
  · rw [if_pos header, List.getD_append _ _ _ _ (by omega), List.getD_eq_getElem _ _ (by omega),
      List.getD_eq_getElem _ _ (by omega)]
  · rw [if_neg header, List.getD_append_right _ _ _ _ (by omega), fits,
      ← getD_readInto driver.toDriver dev.flash inside, List.getD_eq_getElem?_getD,
      List.getD_eq_getElem?_getD, List.getElem?_drop]
    have place : info.length + (k - info.length) = k := by omega
    have long := readInto_length driver.toDriver dev.flash (List.replicate geometry.eraseSize 0)
      info.offset
    rw [List.length_replicate] at long
    rw [place, List.getElem?_eq_getElem (by omega)]
    rfl

/-- What a successful `alislsto_set_pmi` has done, if the block could be written. -/
structure PmiSet (geometry : SysGeometry) (driver : PmiDriver) (dev : StoDev) (info : PmiInfo)
    (after : StoDev) : Prop where
  valid : after.valid = dev.valid
  attr : after.attr = dev.attr
  found : after.pmi = true
  bad : after.flash.bad = dev.flash.bad
  aligned : info.offset % geometry.eraseSize = 0
  block : ∀ k < geometry.eraseSize,
    after.flash.content (info.offset + k) = pmiBlock geometry driver dev.flash info k
  outside : ∀ x, x < info.offset ∨ info.offset + geometry.eraseSize ≤ x →
    after.flash.content x = dev.flash.content x

theorem setPmi_spec {malloc : Bool} {info : PmiInfo} {after : StoDev}
    (fits : info.bufStart.length = info.length) (inBlock : info.length ≤ geometry.eraseSize)
    (writable : ∀ k < geometry.eraseSize, driver.unwritable (info.offset + k) = false)
    (set_ : dev.alislstoSetPmi geometry driver malloc info = (.none, after)) :
    PmiSet geometry driver dev info after := by
  unfold StoDev.alislstoSetPmi at set_
  dsimp only at set_
  by_cases pmi : dev.pmi = false
  · rw [if_pos pmi] at set_
    cases set_
  rw [if_neg pmi] at set_
  by_cases memory : malloc = false
  · rw [if_pos memory] at set_
    cases set_
  rw [if_neg memory] at set_
  split at set_
  · cases set_
  split at set_
  · cases set_
  by_cases aligned : info.offset % geometry.eraseSize ≠ 0
  · rw [if_pos aligned] at set_
    cases set_
  rw [if_neg aligned] at set_
  split at set_
  · cases set_
  have written : ¬ (List.range geometry.eraseSize).any
      (fun i => driver.unwritable (info.offset + i)) = true := by
    rw [List.any_eq_true]
    rintro ⟨k, member, fails⟩
    rw [writable k (List.mem_range.mp member)] at fails
    cases fails
  rw [if_neg written] at set_
  cases set_
  have long : (overlay (driver.readInto dev.flash (List.replicate geometry.eraseSize 0) info.offset
      geometry.eraseSize) 0 (info.bufStart.take info.length)).length = geometry.eraseSize := by
    have read := readInto_length driver.toDriver dev.flash (List.replicate geometry.eraseSize 0)
      info.offset
    rw [List.length_replicate] at read
    rw [overlay, List.take_zero, List.nil_append, List.length_append, List.length_drop, read,
      List.length_take]
    omega
  refine ⟨rfl, rfl, Bool.eq_true_of_not_eq_false pmi, rfl, not_not.mp aligned, ?_, ?_⟩
  · intro k less
    dsimp only [Flash.write, Flash.erase]
    rw [long, if_pos ⟨by omega, by omega⟩, if_pos ⟨by omega, by omega⟩, Nat.add_sub_cancel_left,
      getD_overlay_readInto fits less]
    exact all_ones_and _
  · intro x apart
    dsimp only [Flash.write, Flash.erase]
    rw [long, if_neg (by omega), if_neg (by omega)]

/-! ### Getting it again -/

theorem pmiStart_of_apart (apart : geometry.writeSize * 768 < 2 ^ 32) {i : Nat} (place : i < 4) :
    pmiStart geometry i = geometry.writeSize * i * 256 := by
  rw [pmiStart, Nat.mod_eq_of_lt]
  nlinarith [geometry.write_pos]

/-- The place of the header keeps it, and a place before that had none still has none. -/
theorem pmiHere_set {info : PmiInfo} {after : StoDev}
    (apart : geometry.writeSize * 768 < 2 ^ 32) {i j : Nat} (before : j < i) (four : i < 4)
    (place : info.offset = pmiStart geometry i) (done : PmiSet geometry driver dev info after) :
    pmiHere geometry driver after info.length j = pmiHere geometry driver dev info.length j := by
  have pos := geometry.write_pos
  have less : pmiStart geometry j + 15 < info.offset := by
    rw [place, pmiStart_of_apart apart four, pmiStart_of_apart apart (by omega)]
    nlinarith
  unfold pmiHere StoDev.getBadBlock
  dsimp only
  rw [done.valid, done.bad, done.outside _ (.inl (by omega)), done.outside _ (.inl less)]

theorem pmiHere_kept {info : PmiInfo} {after : StoDev} (long : 16 ≤ info.length)
    (inBlock : info.length ≤ geometry.eraseSize) {i : Nat} (place : info.offset = pmiStart geometry i)
    (tagged : info.tagged = true) (done : PmiSet geometry driver dev info after)
    (here : pmiHere geometry driver dev info.length i = true) :
    pmiHere geometry driver after info.length i = true := by
  have block := done.block
  rw [place] at block
  unfold pmiHere StoDev.getBadBlock at here ⊢
  dsimp only at here ⊢
  rw [done.valid, done.bad, block 14 (by omega), block 15 (by omega), pmiBlock, pmiBlock,
    if_pos (by omega), if_pos (by omega)]
  rw [PmiInfo.tagged, Bool.and_eq_true] at tagged
  rw [Bool.and_eq_true, Bool.and_eq_true] at here ⊢
  exact ⟨⟨here.1.1, tagged.1⟩, tagged.2⟩

/-- A buffer that fits into a block and shows no tag. -/
structure PmiInfo.Blank (geometry : SysGeometry) (info : PmiInfo) : Prop where
  fits : info.bufStart.length = info.length
  long : 16 ≤ info.length
  inBlock : info.length ≤ geometry.eraseSize
  untagged : info.tagged = false

/-- `alislsto_get_pmi` with a blank buffer. -/
theorem getPmi_spec {info : PmiInfo} (blank : info.Blank geometry) :
    (dev.alislstoGetPmi geometry driver info).1 = .driver ∧
        (∀ i < 4, pmiHere geometry driver dev info.length i = false) ∨
      ∃ i < 4, pmiHere geometry driver dev info.length i = true ∧
        (∀ j < i, pmiHere geometry driver dev info.length j = false) ∧
        dev.alislstoGetPmi geometry driver info = (.none,
          ⟨dev.flash.read (pmiStart geometry i) info.length, pmiStart geometry i, info.length⟩,
          { dev with pmi := true }) := by
  unfold StoDev.alislstoGetPmi
  dsimp only
  obtain ⟨missing, left⟩ | ⟨i, first, found⟩ := getPmiLoop_find blank.untagged blank.long blank.fits (List.range 4)
  · left
    rw [left]
    refine ⟨rfl, fun i four => ?_⟩
    have none_ := List.find?_eq_none.mp missing i (List.mem_range.mpr four)
    exact Bool.eq_false_of_not_eq_true none_
  · right
    rw [found]
    obtain ⟨here, four, earlier⟩ := List.find?_range_eq_some.mp first
    refine ⟨i, List.mem_range.mp four, here, fun j less => ?_, rfl⟩
    have missing := earlier j less
    rw [Bool.not_eq_true'] at missing
    exact missing

/-- The other direction: the first place that has the header is the one that is found. -/
theorem getPmi_of_first {info : PmiInfo} (blank : info.Blank geometry) {i : Nat} (four : i < 4)
    (here : pmiHere geometry driver dev info.length i = true)
    (earlier : ∀ j < i, pmiHere geometry driver dev info.length j = false) :
    dev.alislstoGetPmi geometry driver info = (.none,
      ⟨dev.flash.read (pmiStart geometry i) info.length, pmiStart geometry i, info.length⟩,
      { dev with pmi := true }) := by
  obtain ⟨_, missing⟩ | ⟨k, _, here', earlier', got⟩ := getPmi_spec blank
  · rw [missing i four] at here
    cases here
  · have same : k = i := by
      by_contra differ
      obtain less | less := Nat.lt_or_gt_of_ne differ
      · rw [earlier k less] at here'
        cases here'
      · rw [earlier' i less] at here
        cases here
    rw [same] at got
    exact got

/-- What is found is a header, at one of the places. -/
structure PmiFound (geometry : SysGeometry) (dev : StoDev) (info found : PmiInfo) (opened : StoDev) :
    Prop where
  length : found.length = info.length
  whole : found.bufStart.length = info.length
  tagged : found.tagged = true
  place : ∃ i < 4, found.offset = pmiStart geometry i
  same : opened = { dev with pmi := true }

theorem getPmi_found {info found : PmiInfo} {opened : StoDev} (blank : info.Blank geometry)
    (got : dev.alislstoGetPmi geometry driver info = (.none, found, opened)) :
    PmiFound geometry dev info found opened := by
  obtain ⟨failed, _⟩ | ⟨i, four, here, _, same⟩ := @getPmi_spec geometry driver dev info blank
  · rw [got] at failed
    cases failed
  rw [got] at same
  obtain ⟨rfl, rfl⟩ := Prod.mk.inj (Prod.mk.inj same).2
  refine ⟨rfl, length_read .., ?_, ⟨i, four, rfl⟩, rfl⟩
  have long := blank.long
  rw [PmiInfo.tagged, getD_read _ (by omega), getD_read _ (by omega), Bool.and_eq_true]
  unfold pmiHere at here
  dsimp only at here
  rw [Bool.and_eq_true, Bool.and_eq_true] at here
  exact ⟨here.1.2, here.2⟩

/-- What is found is up to the flash, for every open handle. -/
theorem getPmi_of_flash {other : StoDev} (valid : other.valid = dev.valid)
    (flash : other.flash = dev.flash) (info : PmiInfo) :
    (other.alislstoGetPmi geometry driver info).1 = (dev.alislstoGetPmi geometry driver info).1 ∧
      (other.alislstoGetPmi geometry driver info).2.1 =
        (dev.alislstoGetPmi geometry driver info).2.1 := by
  have blocks (offset : Int) : other.getBadBlock geometry.toNandGeometry offset =
      dev.getBadBlock geometry.toNandGeometry offset := by
    rw [StoDev.getBadBlock, StoDev.getBadBlock, valid, flash]
  have loop (places : List Nat) : getPmiLoop geometry driver other places info =
      getPmiLoop geometry driver dev places info := by
    induction places generalizing info with
    | nil => rfl
    | cons i places ih =>
        simp only [getPmiLoop, blocks, valid, flash, ih]
  unfold StoDev.alislstoGetPmi
  rw [loop]
  exact ⟨rfl, rfl⟩

/-- What was set at the place of the header is found by the next `alislsto_get_pmi`. -/
theorem getPmi_set {malloc : Bool} {info found updated again : PmiInfo} {opened after : StoDev}
    (apart : geometry.writeSize * 768 < 2 ^ 32) (blank : info.Blank geometry)
    (got : dev.alislstoGetPmi geometry driver info = (.none, found, opened))
    (place : updated.offset = found.offset) (size : updated.length = info.length)
    (whole : updated.bufStart.length = updated.length) (tagged : updated.tagged = true)
    (writable : ∀ k < geometry.eraseSize, driver.unwritable (updated.offset + k) = false)
    (set_ : opened.alislstoSetPmi geometry driver malloc updated = (.none, after))
    (blank' : again.Blank geometry) (size' : again.length = info.length) :
    PmiSet geometry driver dev updated after ∧
      after.alislstoGetPmi geometry driver again = (.none, updated, after) := by
  have inBlock : updated.length ≤ geometry.eraseSize := size ▸ blank.inBlock
  have done := setPmi_spec whole inBlock writable set_
  obtain ⟨failed, _⟩ | ⟨i, four, here, earlier, same⟩ := getPmi_spec blank
  · rw [got] at failed
    cases failed
  rw [got] at same
  obtain ⟨rfl, rfl⟩ := Prod.mk.inj (Prod.mk.inj same).2
  have done : PmiSet geometry driver dev updated after := by
    obtain ⟨valid, attr, pmi, bad, aligned, block, outside⟩ := done
    exact ⟨valid, attr, pmi, bad, aligned, block, outside⟩
  refine ⟨done, ?_⟩
  change updated.offset = pmiStart geometry i at place
  have header : after.flash.read (pmiStart geometry i) updated.length = updated.bufStart := by
    apply List.ext_getElem
    · rw [length_read, whole]
    · intro k inside _
      rw [length_read] at inside
      have byte := done.block k (by omega)
      rw [pmiBlock, if_pos inside, place] at byte
      simp only [Flash.read, List.getElem_map, List.getElem_range]
      rw [byte, List.getD_eq_getElem _ _ (by omega)]
  have long : 16 ≤ updated.length := size ▸ blank.long
  rw [← size] at here earlier size'
  rw [getPmi_of_first blank' four]
  · rw [size', header, ← place]
    have found := done.found
    cases after
    cases found
    rfl
  · rw [size']
    exact pmiHere_kept long inBlock place tagged done here
  · intro j less
    rw [size', pmiHere_set apart less four place done]
    exact earlier j less

/-- A header set where the last one was found is what the next `alislsto_get_pmi` gives, whatever
the other places hold; nothing changes outside of its block, nor behind it in a block that can be
read. -/
theorem pmi_round_trip {malloc : Bool} {info found updated again : PmiInfo} {opened after : StoDev}
    (apart : geometry.writeSize * 768 < 2 ^ 32) (blank : info.Blank geometry)
    (got : dev.alislstoGetPmi geometry driver info = (.none, found, opened))
    (place : updated.offset = found.offset) (size : updated.length = info.length)
    (whole : updated.bufStart.length = updated.length) (tagged : updated.tagged = true)
    (writable : ∀ k < geometry.eraseSize, driver.unwritable (updated.offset + k) = false)
    (set_ : opened.alislstoSetPmi geometry driver malloc updated = (.none, after))
    (blank' : again.Blank geometry) (size' : again.length = info.length) :
    after.alislstoGetPmi geometry driver again = (.none, updated, after) ∧
      ∀ x, x < updated.offset ∨ updated.offset + geometry.eraseSize ≤ x ∨
          updated.offset + updated.length ≤ x ∧
            (∀ k < geometry.eraseSize, driver.unreadable (updated.offset + k) = false) →
        after.flash.content x = dev.flash.content x := by
  obtain ⟨done, again_⟩ := getPmi_set apart blank got place size whole tagged writable set_ blank' size'
  refine ⟨again_, fun x apart_ => ?_⟩
  by_cases inBlock : updated.offset ≤ x ∧ x < updated.offset + geometry.eraseSize
  · obtain before | behind | ⟨behind, readable⟩ := apart_
    · omega
    · omega
    · obtain ⟨k, rfl⟩ := Nat.exists_eq_add_of_le inBlock.1
      rw [done.block k (by omega), pmiBlock, if_neg (by omega), if_neg]
      rw [List.any_eq_true]
      rintro ⟨i, member, fails⟩
      rw [readable i (List.mem_range.mp member)] at fails
      cases fails
  · exact done.outside x (by omega)

end

/-! A chip of eight blocks whose first is bad. -/

def eightBlocks : SysGeometry where
  eraseSize := 512
  blocks := 8
  erase_pos := Nat.succ_pos 511
  fits := by decide
  writeSize := 2
  write_pos := Nat.succ_pos 1
  pages := by decide
  header := Nat.le_refl 512

def sound : PmiDriver where
  unreadable := fun _ => false
  unwritable := fun _ => false
  left := fun _ => 0
  unerasable := fun _ => false

def headerAt (tag : Nat) : StoDev where
  nand := true
  valid := true
  pmi := false
  attr := none
  flash := {
    content := fun x => if x = tag + 14 then 0x55 else if x = tag + 15 then 0xaa else 0
    bad := fun block => block = 0
    touched := [] }
  offset := 0
  margin := 0
  seekmutex := false

def blankInfo (length : Nat) : PmiInfo := ⟨List.replicate length 0, 0, length⟩

def header16 : PmiInfo := ⟨[1, 2, 3, 4, 5, 6, 7, 8, 9, 10, 11, 12, 13, 14, 0x55, 0xaa], 512, 16⟩

theorem pmi_round_trip_second :
    let opened := ((headerAt 512).alislstoGetPmi eightBlocks sound (blankInfo 16)).2.2
    let after := (opened.alislstoSetPmi eightBlocks sound true header16).2
    after.alislstoGetPmi eightBlocks sound (blankInfo 16) = (.none, header16, after) ∧
      ∀ x, x < 512 ∨ 1024 ≤ x ∨ 528 ≤ x ∧ (∀ k < 512, sound.unreadable (512 + k) = false) →
        after.flash.content x = (headerAt 512).flash.content x := by
  intro opened after
  have blank : (blankInfo 16).Blank eightBlocks := ⟨rfl, by decide, by decide, rfl⟩
  have got : (headerAt 512).alislstoGetPmi eightBlocks sound (blankInfo 16) = (.none,
      ((headerAt 512).alislstoGetPmi eightBlocks sound (blankInfo 16)).2.1, opened) :=
    Prod.ext (by decide +kernel) rfl
  have set_ : opened.alislstoSetPmi eightBlocks sound true header16 = (.none, after) :=
    Prod.ext (by decide +kernel) rfl
  exact pmi_round_trip (by decide) blank got (by decide +kernel) rfl rfl rfl (fun _ _ => rfl) set_
    blank rfl

end Alisl.Storage.Nand
