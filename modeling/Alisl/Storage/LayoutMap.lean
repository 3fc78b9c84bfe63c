import Alisl.Base.Words
import Alisl.Storage.Pmi

/-! `storage_parse`: the partitions that the PMI header lists. -/

namespace Alisl.Storage.Nand

open Alisl.Base

abbrev stoHeaderSize : Nat := 512
abbrev stoUbootaddrPos : Nat := 192
abbrev stoImageBaseaddrPos : Nat := 260
abbrev stoPartlenBaseaddrPos : Nat := 264
abbrev stoImagelenBaseaddrPos : Nat := 420
abbrev stoEccsizePos : Nat := 28

abbrev stoPrivate : Nat := 1
abbrev stoKernel : Nat := 2
abbrev stoUboot : Nat := 12
abbrev stoUbootBak : Nat := 13
abbrev stoNandmax : Nat := 14

/-- What `storage_parse` sets of a `storage_map_t`. -/
structure LayoutEntry where
  offset : Int
  size : Nat
  imgsz : Nat
  deriving DecidableEq, Repr

/-- The sector in which offsets and sizes are counted, `1 << shift`. -/
def sectorSize (buf : List Byte) : Nat := if getWord buf stoEccsizePos = 1024 then 1024 else 512

/-- The entries from `STO_KERNEL` on. A shift of an `off_t` that overflows is taken to wrap. -/
def layoutEntry (buf : List Byte) (i : Nat) : LayoutEntry :=
  if i < stoUboot then
    { offset :=
        intOfWord (getWord buf (stoImageBaseaddrPos + (i - stoKernel + 1) * 8) * sectorSize buf)
      imgsz := getWord buf (stoImagelenBaseaddrPos + (i - stoKernel + 1) * 4)
      size := getWord buf (stoPartlenBaseaddrPos + (i - stoKernel + 1) * 8) * sectorSize buf % 2 ^ 32 }
  else
    { offset := intOfWord (getWord buf (stoUbootaddrPos + (i - stoUboot) * 8))
      imgsz := getWord buf (stoUbootaddrPos + (i - stoUboot) * 8 + 4)
      size := (getWord buf (stoUbootaddrPos + 8) + 2 ^ 32 - getWord buf stoUbootaddrPos) % 2 ^ 32 }

/-- `nand_map` and `maxpart`. -/
structure StoLayout where
  map : Nat → LayoutEntry
  maxpart : Nat

def StoLayout.table (layout : StoLayout) : List MapEntry :=
  (List.range stoNandmax).map (fun i => ⟨(layout.map i).offset, (layout.map i).size⟩)

/-- The loops of `storage_parse`, and what it sets behind them. -/
def parseHeader (buf : List Byte) (size : Nat) (layout : StoLayout) : StoLayout where
  map i :=
    if i = 0 then { layout.map i with offset := 0 }
    else if i = stoPrivate then { layout.map i with offset := 0, size := size }
    else if i < stoNandmax then layoutEntry buf i
    else layout.map i
  maxpart := (List.range' stoKernel (stoUboot - stoKernel)).foldl (fun maxpart i =>
    if (layoutEntry buf i).size ≠ 0 then i else maxpart) layout.maxpart

def headerBuffer : PmiInfo := ⟨List.replicate stoHeaderSize 0, 0, stoHeaderSize⟩

/-- `storage_parse`. -/
def StoDev.storageParse (geometry : SysGeometry) (driver : PmiDriver) (malloc : Bool)
    (layout : StoLayout) (dev : StoDev) : StoRetcode × StoLayout × StoDev :=
  if malloc = false then (.mem, layout, dev)
  else
    let got := dev.alislstoGetPmi geometry driver headerBuffer
    if got.1 ≠ .none then (got.1, layout, got.2.2)
    else
      let parsed := parseHeader got.2.1.bufStart geometry.size layout
      (.none, parsed, { got.2.2 with
        attr := got.2.2.attr.map (fun map => { map with entries := parsed.table }) })

theorem layoutEntry_part (buf : List Byte) {i : Nat} (part : i < stoUboot) :
    layoutEntry buf i =
      { offset :=
          intOfWord (getWord buf (stoImageBaseaddrPos + (i - stoKernel + 1) * 8) * sectorSize buf)
        imgsz := getWord buf (stoImagelenBaseaddrPos + (i - stoKernel + 1) * 4)
        size :=
          getWord buf (stoPartlenBaseaddrPos + (i - stoKernel + 1) * 8) * sectorSize buf % 2 ^ 32 } :=
  if_pos part

theorem layoutEntry_boot (buf : List Byte) {i : Nat} (boot : stoUboot ≤ i) :
    layoutEntry buf i =
      { offset := intOfWord (getWord buf (stoUbootaddrPos + (i - stoUboot) * 8))
        imgsz := getWord buf (stoUbootaddrPos + (i - stoUboot) * 8 + 4)
        size :=
          (getWord buf (stoUbootaddrPos + 8) + 2 ^ 32 - getWord buf stoUbootaddrPos) % 2 ^ 32 } :=
  if_neg (Nat.not_lt.mpr boot)

theorem headerBuffer_blank (geometry : SysGeometry) : headerBuffer.Blank geometry where
  fits := List.length_replicate
  long := by decide
  inBlock := geometry.header
  untagged := rfl

theorem sectorSize_or (buf : List Byte) : sectorSize buf = 512 ∨ sectorSize buf = 1024 := by
  unfold sectorSize
  split
  · exact .inr rfl
  · exact .inl rfl

end Alisl.Storage.Nand
