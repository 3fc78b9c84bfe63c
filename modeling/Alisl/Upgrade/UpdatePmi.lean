import Alisl.Base.Machine
import Alisl.Storage.LayoutMap
import Alisl.Upgrade.Tune

/-! `upgrade_parse_updatepmi` of version 3: the layout of the flash over any number of upgrades. -/

namespace Alisl.Upgrade.V3

open Alisl.Base Alisl.Storage.Nand

inductive ElemLevel where
  | none
  | boot
  | lowlevel
  | application
  deriving DecidableEq, Repr

abbrev upgMaxParts : Nat := 20

/-- What the functions use of `upg_elem_t`. The partition of an element that is not private has a place
in the PMI header. -/
structure UpgElem where
  size : UInt32
  offset : Int32
  dstoffset : Int32
  level : ElemLevel
  partsz : UInt32
  imgsz : UInt32
  partId : Nat
  privatePart : Bool
  inHeader : privatePart = false → 1 ≤ partId ∧ partId ≤ upgMaxParts

/-- A turn of the loop over the elements: what it puts into `pmi_new`. -/
def UpgElem.put (sector : Nat) (pmiNew : List Byte) (elem : UpgElem) : List Byte :=
  if elem.privatePart then
    if elem.partId = stoUboot ∨ elem.partId = stoUbootBak then
      setWord pmiNew (stoUbootaddrPos + (elem.partId - stoUboot) * 8 + 4) elem.imgsz.toNat
    else pmiNew
  else
    let i := elem.partId
    let dstoffset := (elem.dstoffset.toInt / sector % 2 ^ 32).toNat
    let partsz := elem.partsz.toNat / sector
    setWord (setWord (setWord pmiNew (stoImageBaseaddrPos + (i - 1) * 8) dstoffset)
      (stoImageBaseaddrPos + (i - 1) * 8 + 4) partsz)
      (stoImagelenBaseaddrPos + (i - 1) * 4) elem.imgsz.toNat

/-- `upgrade_parse_updatepmi`: an error of its own, or what the storage returned. -/
def upgradeParseUpdatepmi (geometry : SysGeometry) (driver : PmiDriver) (malloc mallocWrbuf : Bool)
    (nand : StoDev) (elems : List UpgElem) : (UpgErr ⊕ StoRetcode) × StoDev :=
  if malloc = false then (.inl .other, nand)
  else
    let got := nand.alislstoGetPmi geometry driver headerBuffer
    if got.1 ≠ .none then (.inr got.1, got.2.2)
    else
      let pmiNew := elems.foldl (UpgElem.put (sectorSize got.2.1.bufStart)) got.2.1.bufStart
      let set_ := got.2.2.alislstoSetPmi geometry driver mallocWrbuf
        { got.2.1 with bufStart := pmiNew, length := stoHeaderSize }
      if set_.1 ≠ .none then (.inr set_.1, set_.2) else (.inl .none, set_.2)

/-! ### The header -/

/-- What an element makes of the layout: its own partition, rounded down to sectors, or the image of a
boot partition. -/
def UpgElem.place (sector : Nat) (map : Nat → LayoutEntry) (elem : UpgElem) : Nat → LayoutEntry :=
  fun i =>
    if elem.partId ≠ i then map i
    else if elem.privatePart then
      if stoUboot ≤ i ∧ i < stoNandmax then { map i with imgsz := elem.imgsz.toNat } else map i
    else if stoKernel ≤ i ∧ i < stoUboot then
      { offset := elem.dstoffset.toInt - elem.dstoffset.toInt % sector
        size := elem.partsz.toNat - elem.partsz.toNat % sector
        imgsz := elem.imgsz.toNat }
    else map i

/-- The words of `put` with their places. -/
def UpgElem.words (sector : Nat) (elem : UpgElem) : List (Nat × Nat) :=
  if elem.privatePart then
    if elem.partId = stoUboot ∨ elem.partId = stoUbootBak then
      [(stoUbootaddrPos + (elem.partId - stoUboot) * 8 + 4, elem.imgsz.toNat)]
    else []
  else
    [(stoImageBaseaddrPos + (elem.partId - 1) * 8, (elem.dstoffset.toInt / sector % 2 ^ 32).toNat),
      (stoImageBaseaddrPos + (elem.partId - 1) * 8 + 4, elem.partsz.toNat / sector),
      (stoImagelenBaseaddrPos + (elem.partId - 1) * 4, elem.imgsz.toNat)]

theorem put_words (sector : Nat) (elem : UpgElem) (buf : List Byte) :
    elem.put sector buf = setWords buf (elem.words sector) := by
  unfold UpgElem.put UpgElem.words
  split
  · split
    · rfl
    · rfl
  · rfl

/-- The words are in the header, behind its tag and its sector size. -/
theorem words_inside {sector : Nat} {elem : UpgElem} {write : Nat × Nat}
    (member : write ∈ elem.words sector) :
    stoUbootaddrPos ≤ write.1 ∧ write.1 + 4 ≤ stoHeaderSize := by
  unfold UpgElem.words at member
  split at member
  · split at member
    · cases List.mem_singleton.mp member
      constructor <;> lia
    · cases member
  · rename_i shown
    have place := elem.inHeader (Bool.eq_false_of_not_eq_true shown)
    simp only [List.mem_cons, List.not_mem_nil, or_false] at member
    obtain rfl | rfl | rfl := member
    · constructor <;> lia
    · constructor <;> lia
    · constructor <;> lia

section

variable {buf : List Byte} (whole : buf.length = stoHeaderSize) (sector : Nat) (elem : UpgElem)

include whole

theorem put_length : (elem.put sector buf).length = stoHeaderSize := by
  rw [put_words, setWords_length, whole]
  intro write member
  rw [whole]
  exact (words_inside member).2

theorem getWord_put_apart {at_ : Nat}
    (apart : ∀ write ∈ elem.words sector, at_ + 4 ≤ write.1 ∨ write.1 + 4 ≤ at_) :
    getWord (elem.put sector buf) at_ = getWord buf at_ := by
  rw [put_words, getWord_setWords_apart _ apart]
  intro write member
  rw [whole]
  exact (words_inside member).2

theorem getD_put_front {place : Nat} (front : place < stoUbootaddrPos) :
    (elem.put sector buf).getD place 0 = buf.getD place 0 := by
  rw [put_words, getD_setWords_apart]
  · intro write member
    rw [whole]
    exact (words_inside member).2
  · intro write member
    have inside := (words_inside member).1
    omega

theorem sectorSize_put : sectorSize (elem.put sector buf) = sectorSize buf := by
  unfold sectorSize
  rw [getWord_put_apart whole]
  intro write member
  have inside := (words_inside member).1
  lia

/-- The words of another partition. -/
theorem words_apart {i : Nat} (first : stoKernel ≤ i) (last : i < stoNandmax)
    (other : elem.partId ≠ i ∨ elem.privatePart = true ∧ i < stoUboot ∨
      elem.privatePart = false ∧ stoUboot ≤ i) {at_ : Nat}
    (shown : i < stoUboot ∧ (at_ = stoImageBaseaddrPos + (i - stoKernel + 1) * 8 ∨
        at_ = stoPartlenBaseaddrPos + (i - stoKernel + 1) * 8 ∨
        at_ = stoImagelenBaseaddrPos + (i - stoKernel + 1) * 4) ∨
      stoUboot ≤ i ∧ (at_ = stoUbootaddrPos + (i - stoUboot) * 8 ∨
        at_ = stoUbootaddrPos + (i - stoUboot) * 8 + 4 ∨ at_ = stoUbootaddrPos + 8 ∨
        at_ = stoUbootaddrPos)) :
    getWord (elem.put sector buf) at_ = getWord buf at_ := by
  apply getWord_put_apart whole
  intro write member
  unfold UpgElem.words at member
  cases private_ : elem.privatePart with
  | true =>
      rw [private_, if_pos rfl] at member
      rw [private_] at other
      split at member
      · cases List.mem_singleton.mp member
        lia
      · cases member
  | false =>
      have place := elem.inHeader private_
      rw [private_, if_neg Bool.false_ne_true] at member
      rw [private_] at other
      simp only [List.mem_cons, List.not_mem_nil, or_false] at member
      obtain rfl | rfl | rfl := member
      · lia
      · lia
      · lia

/-- An element of another partition leaves an entry alone. -/
theorem layoutEntry_put_other {i : Nat} (first : stoKernel ≤ i) (last : i < stoNandmax)
    (other : elem.partId ≠ i ∨ elem.privatePart = true ∧ i < stoUboot ∨
      elem.privatePart = false ∧ stoUboot ≤ i) :
    layoutEntry (elem.put sector buf) i = layoutEntry buf i := by
  have same := @words_apart buf whole sector elem i first last other
  by_cases part : i < stoUboot
  · rw [layoutEntry_part _ part, layoutEntry_part _ part, sectorSize_put whole,
      same (.inl ⟨part, .inl rfl⟩), same (.inl ⟨part, .inr (.inl rfl)⟩),
      same (.inl ⟨part, .inr (.inr rfl)⟩)]
  · have boot := Nat.not_lt.mp part
    rw [layoutEntry_boot _ boot, layoutEntry_boot _ boot, same (.inr ⟨boot, .inl rfl⟩),
      same (.inr ⟨boot, .inr (.inl rfl)⟩), same (.inr ⟨boot, .inr (.inr (.inl rfl))⟩),
      same (.inr ⟨boot, .inr (.inr (.inr rfl))⟩)]

theorem layoutEntry_put_part (shown : elem.privatePart = false) (first : stoKernel ≤ elem.partId)
    (part : elem.partId < stoUboot) :
    layoutEntry (elem.put (sectorSize buf) buf) elem.partId =
      { offset := elem.dstoffset.toInt - elem.dstoffset.toInt % sectorSize buf
        size := elem.partsz.toNat - elem.partsz.toNat % sectorSize buf
        imgsz := elem.imgsz.toNat } := by
  have inside : ∀ write ∈ elem.words (sectorSize buf), write.1 + 4 ≤ buf.length := by
    intro write member
    rw [whole]
    exact (words_inside member).2
  have three : elem.words (sectorSize buf) =
      [(stoImageBaseaddrPos + (elem.partId - 1) * 8,
          (elem.dstoffset.toInt / sectorSize buf % 2 ^ 32).toNat),
        (stoImageBaseaddrPos + (elem.partId - 1) * 8 + 4, elem.partsz.toNat / sectorSize buf),
        (stoImagelenBaseaddrPos + (elem.partId - 1) * 4, elem.imgsz.toNat)] := by
    rw [UpgElem.words, shown, if_neg Bool.false_ne_true]
  rw [three] at inside
  have step : elem.partId - stoKernel + 1 = elem.partId - 1 := by lia
  have sector_pos : 0 < sectorSize buf ∧ sectorSize buf ∣ 2 ^ 31 := by
    obtain half | whole := sectorSize_or buf
    · rw [half]
      decide
    · rw [whole]
      decide
  have dst : getWord (elem.put (sectorSize buf) buf) (stoImageBaseaddrPos + (elem.partId - 1) * 8) =
      (elem.dstoffset.toInt / sectorSize buf % 2 ^ 32).toNat := by
    rw [put_words, three, getWord_setWords inside [] rfl]
    · exact Nat.mod_eq_of_lt (by omega)
    · simp only [List.mem_cons, List.not_mem_nil, or_false, forall_eq_or_imp, forall_eq]
      lia
  have size : getWord (elem.put (sectorSize buf) buf) (stoPartlenBaseaddrPos + (elem.partId - 1) * 8) =
      elem.partsz.toNat / sectorSize buf := by
    have place : stoPartlenBaseaddrPos + (elem.partId - 1) * 8 =
        stoImageBaseaddrPos + (elem.partId - 1) * 8 + 4 := by lia
    rw [put_words, three, place, getWord_setWords inside [_] rfl]
    · exact Nat.mod_eq_of_lt ((Nat.div_le_self _ _).trans_lt elem.partsz.toNat_lt)
    · simp only [List.mem_cons, List.not_mem_nil, or_false, forall_eq]
      lia
  have image : getWord (elem.put (sectorSize buf) buf) (stoImagelenBaseaddrPos + (elem.partId - 1) * 4) =
      elem.imgsz.toNat := by
    rw [put_words, three, getWord_setWords inside [_, _] rfl]
    · exact Nat.mod_eq_of_lt elem.imgsz.toNat_lt
    · simp only [List.not_mem_nil, false_imp_iff, implies_true]
  have rounded : elem.partsz.toNat / sectorSize buf * sectorSize buf =
      elem.partsz.toNat - elem.partsz.toNat % sectorSize buf := by
    have parts := Nat.div_add_mod' elem.partsz.toNat (sectorSize buf)
    omega
  rw [layoutEntry_part _ part, step, sectorSize_put whole, dst, size, image, rounded,
    intOfWord_shift sector_pos.1 sector_pos.2 elem.dstoffset.le_toInt elem.dstoffset.toInt_lt,
    Nat.mod_eq_of_lt ((Nat.sub_le _ _).trans_lt elem.partsz.toNat_lt)]

theorem layoutEntry_put_boot (shown : elem.privatePart = true) (boot : stoUboot ≤ elem.partId)
    (last : elem.partId < stoNandmax) :
    layoutEntry (elem.put sector buf) elem.partId =
      { layoutEntry buf elem.partId with imgsz := elem.imgsz.toNat } := by
  have inside : ∀ write ∈ elem.words sector, write.1 + 4 ≤ buf.length := by
    intro write member
    rw [whole]
    exact (words_inside member).2
  have one : elem.words sector =
      [(stoUbootaddrPos + (elem.partId - stoUboot) * 8 + 4, elem.imgsz.toNat)] := by
    rw [UpgElem.words, shown, if_pos rfl, if_pos (by lia)]
  have same {at_ : Nat} (apart : at_ + 4 ≤ stoUbootaddrPos + (elem.partId - stoUboot) * 8 + 4 ∨
      stoUbootaddrPos + (elem.partId - stoUboot) * 8 + 4 + 4 ≤ at_) :
      getWord (elem.put sector buf) at_ = getWord buf at_ := by
    apply getWord_put_apart whole
    rw [one]
    intro write member
    cases List.mem_singleton.mp member
    exact apart
  have image : getWord (elem.put sector buf) (stoUbootaddrPos + (elem.partId - stoUboot) * 8 + 4) =
      elem.imgsz.toNat := by
    rw [one] at inside
    rw [put_words, one, getWord_setWords inside [] rfl]
    · exact Nat.mod_eq_of_lt elem.imgsz.toNat_lt
    · simp only [List.not_mem_nil, false_imp_iff, implies_true]
  rw [layoutEntry_boot _ boot, layoutEntry_boot _ boot, image, same (by lia), same (by lia),
    same (by lia)]

/-- One element, on the header and on the layout. -/
theorem layoutEntry_put {i : Nat} (first : stoKernel ≤ i) (last : i < stoNandmax) :
    layoutEntry (elem.put (sectorSize buf) buf) i =
      elem.place (sectorSize buf) (layoutEntry buf) i := by
  unfold UpgElem.place
  by_cases own : elem.partId = i
  · subst own
    rw [if_neg (not_not.mpr rfl)]
    cases shown : elem.privatePart with
    | true =>
        rw [if_pos rfl]
        by_cases boot : stoUboot ≤ elem.partId
        · rw [if_pos ⟨boot, last⟩, layoutEntry_put_boot whole _ _ shown boot last]
        · rw [if_neg (fun both => boot both.1),
            layoutEntry_put_other whole _ _ first last (.inr (.inl ⟨shown, Nat.not_le.mp boot⟩))]
    | false =>
        rw [if_neg Bool.false_ne_true]
        by_cases part : elem.partId < stoUboot
        · rw [if_pos ⟨first, part⟩, layoutEntry_put_part whole _ shown first part]
        · rw [if_neg (fun both => part both.2),
            layoutEntry_put_other whole _ _ first last (.inr (.inr ⟨shown, Nat.not_lt.mp part⟩))]
  · rw [if_pos own, layoutEntry_put_other whole _ _ first last (.inl own)]

end

/-- An entry depends on nothing but what it was before. -/
theorem place_congr (sector : Nat) (elem : UpgElem) {map other : Nat → LayoutEntry} {i : Nat}
    (same : map i = other i) : elem.place sector map i = elem.place sector other i := by
  unfold UpgElem.place
  rw [same]

theorem foldl_place_congr (sector : Nat) (elems : List UpgElem) {map other : Nat → LayoutEntry}
    {i : Nat} (same : map i = other i) :
    elems.foldl (UpgElem.place sector) map i = elems.foldl (UpgElem.place sector) other i := by
  induction elems generalizing map other with
  | nil => exact same
  | cons elem elems ih => exact ih (place_congr sector elem same)

/-- What the loop over the elements makes of a header. -/
structure Updated (buf : List Byte) (elems : List UpgElem) (pmiNew : List Byte) : Prop where
  whole : pmiNew.length = stoHeaderSize
  sector : sectorSize pmiNew = sectorSize buf
  front : ∀ place < stoUbootaddrPos, pmiNew.getD place 0 = buf.getD place 0
  layout : ∀ i, stoKernel ≤ i → i < stoNandmax →
    layoutEntry pmiNew i = elems.foldl (UpgElem.place (sectorSize buf)) (layoutEntry buf) i

theorem foldl_put {buf : List Byte} (whole : buf.length = stoHeaderSize) (elems : List UpgElem) :
    Updated buf elems (elems.foldl (UpgElem.put (sectorSize buf)) buf) := by
  induction elems generalizing buf with
  | nil => exact ⟨whole, rfl, fun _ _ => rfl, fun _ _ _ => rfl⟩
  | cons elem elems ih =>
      have sector := sectorSize_put whole (sectorSize buf) elem
      have rest := ih (put_length whole (sectorSize buf) elem)
      rw [sector] at rest
      refine ⟨rest.whole, rest.sector.trans sector, ?_, ?_⟩
      · intro place front
        exact (rest.front place front).trans (getD_put_front whole _ elem front)
      · intro i first last
        have one := layoutEntry_put whole elem first last
        calc
          layoutEntry ((elem :: elems).foldl (UpgElem.put (sectorSize buf)) buf) i
            = elems.foldl (UpgElem.place (sectorSize buf))
                (layoutEntry (elem.put (sectorSize buf) buf)) i := by
              have entry := rest.layout i first last
              rw [sector] at entry
              exact entry
          _ = elems.foldl (UpgElem.place (sectorSize buf))
                (elem.place (sectorSize buf) (layoutEntry buf)) i := foldl_place_congr _ _ one

/-! ### The flash -/

section

variable {geometry : SysGeometry} {driver : PmiDriver}

/-- A handle sees a header at one of the places. -/
def Sees (geometry : SysGeometry) (driver : PmiDriver) (dev : StoDev) (header : List Byte)
    (offset : Nat) : Prop :=
  ∃ opened, dev.alislstoGetPmi geometry driver headerBuffer =
    (.none, ⟨header, offset, stoHeaderSize⟩, opened)

theorem Sees.whole {dev : StoDev} {header : List Byte} {offset : Nat}
    (sees : Sees geometry driver dev header offset) : header.length = stoHeaderSize := by
  obtain ⟨opened, got⟩ := sees
  exact (getPmi_found (headerBuffer_blank geometry) got).whole

theorem Sees.of_flash {dev other : StoDev} {header : List Byte} {offset : Nat}
    (sees : Sees geometry driver dev header offset) (valid : other.valid = dev.valid)
    (flash : other.flash = dev.flash) : Sees geometry driver other header offset := by
  obtain ⟨opened, got⟩ := sees
  obtain ⟨code, found⟩ := @getPmi_of_flash geometry driver dev other valid flash headerBuffer
  rw [got] at code found
  exact ⟨(other.alislstoGetPmi geometry driver headerBuffer).2.2,
    Prod.ext code (Prod.ext found rfl)⟩

/-- The blocks at the four places can be written. -/
def Writable (geometry : SysGeometry) (driver : PmiDriver) : Prop :=
  geometry.writeSize * 768 < 2 ^ 32 ∧
    ∀ i < 4, ∀ k < geometry.eraseSize, driver.unwritable (pmiStart geometry i + k) = false

/-- An update puts the new header where the old one was. -/
theorem updatepmi_sees (writable : Writable geometry driver) {malloc mallocWrbuf : Bool}
    {nand after : StoDev} {elems : List UpgElem}
    (updated : upgradeParseUpdatepmi geometry driver malloc mallocWrbuf nand elems =
      (.inl .none, after)) :
    ∃ header offset, Sees geometry driver nand header offset ∧
      Sees geometry driver after (elems.foldl (UpgElem.put (sectorSize header)) header) offset ∧
      after.valid = nand.valid := by
  unfold upgradeParseUpdatepmi at updated
  dsimp only at updated
  split at updated
  · cases updated
  generalize got : nand.alislstoGetPmi geometry driver headerBuffer = result at updated
  obtain ⟨code, found, opened⟩ := result
  split at updated
  · cases updated
  rename_i fine
  cases not_not.mp fine
  split at updated
  · cases updated
  rename_i done
  dsimp only at updated done
  have there := getPmi_found (headerBuffer_blank geometry) got
  obtain ⟨header, offset, length⟩ := found
  cases there.length
  have whole := foldl_put there.whole elems
  obtain ⟨i, four, start⟩ := there.place
  obtain ⟨_, rfl⟩ := Prod.mk.inj updated
  change offset = pmiStart geometry i at start
  have tagged : (PmiInfo.mk (elems.foldl (UpgElem.put (sectorSize header)) header) offset
      stoHeaderSize).tagged = true := by
    have before := there.tagged
    unfold PmiInfo.tagged at before ⊢
    dsimp only at before ⊢
    rw [whole.front 14 (by decide), whole.front 15 (by decide)]
    exact before
  have room : ∀ k < geometry.eraseSize, driver.unwritable (offset + k) = false := by
    intro k inside
    rw [start]
    exact writable.2 i four k inside
  have written : opened.alislstoSetPmi geometry driver mallocWrbuf
      ⟨elems.foldl (UpgElem.put (sectorSize header)) header, offset, stoHeaderSize⟩ = (.none,
        (opened.alislstoSetPmi geometry driver mallocWrbuf
          ⟨elems.foldl (UpgElem.put (sectorSize header)) header, offset, stoHeaderSize⟩).2) :=
    Prod.ext (not_not.mp done) rfl
  obtain ⟨set_, again⟩ := getPmi_set writable.1 (headerBuffer_blank geometry) got (by rfl) (by rfl)
    whole.whole tagged room written (headerBuffer_blank geometry) (by rfl)
  exact ⟨header, offset, ⟨opened, got⟩, ⟨_, again⟩, set_.valid⟩

theorem Sees.parse {dev : StoDev} {header : List Byte} {offset : Nat}
    (sees : Sees geometry driver dev header offset) (layout : StoLayout) :
    (dev.storageParse geometry driver true layout).1 = .none ∧
      (dev.storageParse geometry driver true layout).2.1 =
        parseHeader header geometry.size layout := by
  obtain ⟨opened, got⟩ := sees
  unfold StoDev.storageParse
  rw [if_neg (by decide)]
  dsimp only
  rw [got]
  exact ⟨rfl, rfl⟩

theorem sees_of_parse {dev : StoDev} {layout : StoLayout}
    (parsed : (dev.storageParse geometry driver true layout).1 = .none) :
    ∃ header offset, Sees geometry driver dev header offset := by
  unfold StoDev.storageParse at parsed
  rw [if_neg (by decide)] at parsed
  dsimp only at parsed
  generalize got : dev.alislstoGetPmi geometry driver headerBuffer = result at parsed
  obtain ⟨code, found, opened⟩ := result
  split at parsed
  · rename_i failed
    exact absurd parsed failed
  · rename_i fine
    cases not_not.mp fine
    have there := getPmi_found (headerBuffer_blank geometry) got
    obtain ⟨header, offset, length⟩ := found
    cases there.length
    exact ⟨header, offset, opened, got⟩

theorem Sees.unique {dev : StoDev} {header other : List Byte} {offset place : Nat}
    (sees : Sees geometry driver dev header offset) (also : Sees geometry driver dev other place) :
    header = other := by
  obtain ⟨_, got⟩ := sees
  obtain ⟨_, again⟩ := also
  rw [got] at again
  cases again
  rfl

/-- Upgrades one after the other; in between the flash may be opened anew. -/
inductive FlashStep where
  | upgrade (elems : List UpgElem)
  | reopen (handle : StoDev)

def FlashStep.elems : FlashStep → List UpgElem
  | .upgrade elems => elems
  | .reopen _ => []

/-- A run ends with the first upgrade that reports an error. -/
def upgrades (geometry : SysGeometry) (driver : PmiDriver) : Machine StoDev FlashStep where
  Initial := fun _ => True
  next nand
    | .upgrade elems =>
        let done := upgradeParseUpdatepmi geometry driver true true nand elems
        if done.1 = .inl .none then some done.2 else none
    | .reopen handle =>
        if nand.valid then some { handle with flash := nand.flash, valid := true } else none

/-- A step of a run on the header. -/
theorem upgrades_step (writable : Writable geometry driver) {nand after : StoDev} {step : FlashStep}
    {header : List Byte} {offset : Nat} (sees : Sees geometry driver nand header offset)
    (moved : (upgrades geometry driver).next nand step = some after) :
    ∃ place, Sees geometry driver after
      (step.elems.foldl (UpgElem.put (sectorSize header)) header) place := by
  cases step with
  | upgrade elems =>
      dsimp only [upgrades] at moved
      split at moved
      · rename_i fine
        cases moved
        obtain ⟨other, place, before, there, _⟩ := updatepmi_sees writable (Prod.ext fine rfl)
        cases before.unique sees
        exact ⟨place, there⟩
      · cases moved
  | reopen handle =>
      dsimp only [upgrades] at moved
      split at moved
      · rename_i valid
        cases moved
        exact ⟨offset, sees.of_flash valid.symm rfl⟩
      · cases moved

/-- A run on the layout. -/
theorem upgrades_run (writable : Writable geometry driver) {nand after : StoDev}
    {steps : List FlashStep} {header : List Byte} {offset : Nat}
    (sees : Sees geometry driver nand header offset)
    (ran : (upgrades geometry driver).run nand steps = some after) :
    ∃ last place, Sees geometry driver after last place ∧
      Updated header (steps.flatMap FlashStep.elems) last := by
  induction steps generalizing nand header offset with
  | nil =>
      cases ran
      exact ⟨header, offset, sees, sees.whole, rfl, fun _ _ => rfl, fun _ _ _ => rfl⟩
  | cons step steps ih =>
      obtain ⟨middle, moved, rest⟩ := Option.bind_eq_some_iff.mp ran
      obtain ⟨place, next⟩ := upgrades_step writable sees moved
      obtain ⟨last, end_, there, updated⟩ := ih next rest
      have one := foldl_put sees.whole step.elems
      refine ⟨last, end_, there, updated.whole, updated.sector.trans one.sector, ?_, ?_⟩
      · exact fun at_ front => (updated.front at_ front).trans (one.front at_ front)
      · intro i first less
        rw [updated.layout i first less, one.sector, List.flatMap_cons, List.foldl_append]
        exact foldl_place_congr _ _ (one.layout i first less)

/-- After any number of upgrades the partitions are those of the last elements written, rounded down
to sectors, and the others are as they were at the start. -/
theorem layout_after_upgrades (writable : Writable geometry driver) {nand after : StoDev}
    {before now : StoLayout} {steps : List FlashStep}
    (parsed : (nand.storageParse geometry driver true before).1 = .none)
    (ran : (upgrades geometry driver).run nand steps = some after) :
    (after.storageParse geometry driver true now).1 = .none ∧
      ∀ i, stoKernel ≤ i → i < stoNandmax →
        (after.storageParse geometry driver true now).2.1.map i =
          (steps.flatMap FlashStep.elems).foldl
            (UpgElem.place
              (sectorSize (nand.alislstoGetPmi geometry driver headerBuffer).2.1.bufStart))
            (nand.storageParse geometry driver true before).2.1.map i := by
  obtain ⟨header, offset, sees⟩ := sees_of_parse parsed
  obtain ⟨last, place, there, updated⟩ := upgrades_run writable sees ran
  obtain ⟨opened, got⟩ := sees
  have entry (buf : List Byte) (layout : StoLayout) {i : Nat} (first : stoKernel ≤ i)
      (less : i < stoNandmax) : (parseHeader buf geometry.size layout).map i = layoutEntry buf i := by
    dsimp only [parseHeader]
    rw [if_neg (by lia), if_neg (by lia), if_pos less]
  refine ⟨(there.parse now).1, fun i first less => ?_⟩
  rw [(there.parse now).2, entry last now first less, updated.layout i first less,
    (Sees.parse ⟨opened, got⟩ before).2, got]
  exact foldl_place_congr _ _ (entry header before first less).symm

end

/-- A kernel of 100 bytes in two kilobytes. -/
def kernelElem : UpgElem where
  size := 131072
  offset := 1024
  dstoffset := 4196
  level := .lowlevel
  partsz := 2048
  imgsz := 100
  partId := stoKernel
  privatePart := false
  inHeader := fun _ => by decide

def noLayout : StoLayout := ⟨fun _ => ⟨0, 0, 0⟩, 0⟩

theorem layout_after_upgrades_kernel :
    let after := (upgradeParseUpdatepmi eightBlocks sound true true (headerAt 512) [kernelElem]).2
    let now := after.storageParse eightBlocks sound true noLayout
    now.1 = .none ∧ now.2.1.map stoKernel = ⟨4096, 2048, 100⟩ := by
  intro after now
  have fine : (upgradeParseUpdatepmi eightBlocks sound true true (headerAt 512) [kernelElem]).1 =
      .inl .none := by decide +kernel
  have ran : (upgrades eightBlocks sound).run (headerAt 512) [.upgrade [kernelElem]] = some after := by
    unfold Machine.run
    dsimp only [upgrades]
    rw [if_pos fine]
    rfl
  have writable : Writable eightBlocks sound := ⟨by decide, fun _ _ _ _ => rfl⟩
  have parsed : ((headerAt 512).storageParse eightBlocks sound true noLayout).1 = .none := by
    decide +kernel
  have result := @layout_after_upgrades eightBlocks sound writable _ after noLayout noLayout _ parsed ran
  refine ⟨result.1, ?_⟩
  rw [result.2 stoKernel (by decide) (by decide)]
  decide +kernel

end Alisl.Upgrade.V3
