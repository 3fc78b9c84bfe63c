import Alisl.Upgrade.Crc
import Alisl.Upgrade.ModuleLayout

/-! The sending side: the pack tool cuts a package into pieces, puts a CRC behind
each, and splits the result into modules (`gen_group_info`). -/

namespace Alisl.Upgrade

open Alisl.Base

/-- A product of `int`s; one that overflows is undefined. -/
def intMul (left right : Nat) : Option Nat :=
  if left * right < 2147483648 then some (left * right) else none

/-- `down_buffer_size*0x100000/OTA_TS_MODULE_ZISE*OTA_TS_MODULE_VALIE_ZISE - 4`. -/
def crcPieceSize (downBufSize : Nat) : Option Nat :=
  (intMul downBufSize 0x100000).bind (fun bytes =>
    (intMul (bytes / 0x100000) moduleValidSize).map (fun valid => valid - 4))

def sealPiece (payload : List Byte) : List Byte := payload ++ pieceCrc payload

/-- The image file: the package, a CRC behind every piece of it. -/
def packImage (pieceSize : Nat) (package : List Byte) : List Byte :=
  ((cut pieceSize package).map sealPiece).flatten

def blockSize : Nat := 4066

structure ModuleInfo where
  moduleId : Nat
  moduleSize : Nat
  lastSectionNum : Nat
  deriving DecidableEq, Repr

/-- Module ids of group 0. -/
def packModuleId (idx : Nat) : Nat := 256 + idx % 256

def packModuleCount (groupLen : Nat) : Nat :=
  if groupLen % moduleValidSize ≠ 0 then groupLen / moduleValidSize + 1
  else groupLen / moduleValidSize

/-- A `BYTE`. -/
def packLastSection (remain : Nat) : Nat :=
  (if remain % blockSize ≠ 0 then remain / blockSize else remain / blockSize - 1) % 256

def genGroupInfo (groupLen : Nat) : List ModuleInfo :=
  let last := packModuleCount groupLen - 1
  let remain := groupLen - last * moduleValidSize
  (List.range last).map (fun idx => ⟨packModuleId idx, moduleValidSize, 255⟩) ++
    [⟨packModuleId last, remain, packLastSection remain⟩]

/-- The bytes of each module, read from the file one after the other. -/
def moduleData (image : List Byte) : List (List Byte) :=
  (genGroupInfo image.length).mapIdx
    (fun idx info => (image.drop (idx * moduleValidSize)).take info.moduleSize)

theorem moduleValidSize_pos : 0 < moduleValidSize := by decide

theorem packModuleCount_eq (groupLen : Nat) :
    packModuleCount groupLen = (groupLen + moduleValidSize - 1) / moduleValidSize := by
  unfold packModuleCount moduleValidSize
  split <;> omega

theorem genGroupInfo_length (groupLen : Nat) (positive : 0 < groupLen) :
    (genGroupInfo groupLen).length = packModuleCount groupLen := by
  have some : 0 < packModuleCount groupLen := by
    rw [packModuleCount_eq]
    unfold moduleValidSize
    omega
  simp only [genGroupInfo, List.length_append, List.length_map, List.length_range,
    List.length_singleton]
  omega

/-- The last module starts before the end and reaches it. -/
theorem last_module (groupLen : Nat) (positive : 0 < groupLen) :
    (packModuleCount groupLen - 1) * moduleValidSize < groupLen ∧
      groupLen ≤ (packModuleCount groupLen - 1) * moduleValidSize + moduleValidSize := by
  rw [packModuleCount_eq]
  unfold moduleValidSize
  omega

/-- The size of module `idx`: full, or what is left. -/
def moduleSizeAt (groupLen idx : Nat) : Nat := min moduleValidSize (groupLen - idx * moduleValidSize)

theorem genGroupInfo_getElem? (groupLen idx : Nat) (positive : 0 < groupLen)
    (inside : idx < packModuleCount groupLen) :
    (genGroupInfo groupLen)[idx]? = some ⟨packModuleId idx, moduleSizeAt groupLen idx,
      packLastSection (moduleSizeAt groupLen idx)⟩ := by
  obtain ⟨starts, reaches⟩ := last_module groupLen positive
  rcases Nat.lt_or_eq_of_le (Nat.le_sub_one_of_lt inside) with middle | last
  · have below : (idx + 1) * moduleValidSize ≤ (packModuleCount groupLen - 1) * moduleValidSize :=
      Nat.mul_le_mul_right _ middle
    rw [Nat.succ_mul] at below
    have full : moduleSizeAt groupLen idx = moduleValidSize := by
      unfold moduleSizeAt
      omega
    have sections : packLastSection moduleValidSize = 255 := by decide
    rw [full, sections]
    simp only [genGroupInfo]
    rw [List.getElem?_append_left (by simpa using middle), List.getElem?_map,
      List.getElem?_range middle]
    rfl
  · have left : moduleSizeAt groupLen idx =
        groupLen - (packModuleCount groupLen - 1) * moduleValidSize := by
      unfold moduleSizeAt
      rw [last]
      omega
    rw [left]
    simp only [genGroupInfo]
    rw [List.getElem?_append_right (by simp [last])]
    simp [last]

theorem moduleData_eq (image : List Byte) (some : image ≠ []) :
    moduleData image = cut moduleValidSize image := by
  have positive := List.length_pos_of_ne_nil some
  obtain ⟨starts, _⟩ := last_module image.length positive
  have length : (moduleData image).length = packModuleCount image.length := by
    rw [moduleData, List.length_mapIdx, genGroupInfo_length image.length positive]
  have counts := cut_length moduleValidSize moduleValidSize_pos image
  rw [← packModuleCount_eq] at counts
  apply List.ext_getElem?
  intro i
  rcases Nat.lt_or_ge i (packModuleCount image.length) with inside | outside
  · have start : i * moduleValidSize < image.length := by
      calc i * moduleValidSize ≤ (packModuleCount image.length - 1) * moduleValidSize :=
            Nat.mul_le_mul_right _ (by omega)
        _ < image.length := starts
    rw [cut_getElem? _ moduleValidSize_pos i image start, moduleData, List.getElem?_mapIdx,
      genGroupInfo_getElem? image.length i positive inside]
    simp only [Option.map_some, Option.some.injEq, moduleSizeAt]
    rw [← List.length_drop, List.take_eq_take_min]
    simp
  · rw [List.getElem?_eq_none (by omega), List.getElem?_eq_none (by omega)]

theorem genGroupInfo_sizes (image : List Byte) (some : image ≠ []) :
    (genGroupInfo image.length).map ModuleInfo.moduleSize =
      (cut moduleValidSize image).map List.length := by
  have positive := List.length_pos_of_ne_nil some
  have length := genGroupInfo_length image.length positive
  rw [← moduleData_eq image some]
  apply List.ext_getElem?
  intro i
  simp only [moduleData, List.getElem?_map, List.getElem?_mapIdx]
  rcases Nat.lt_or_ge i (packModuleCount image.length) with inside | outside
  · rw [genGroupInfo_getElem? image.length i positive inside]
    simp only [Option.map_some, Option.some.injEq, List.length_take, List.length_drop, moduleSizeAt]
    omega
  · rw [List.getElem?_eq_none (by omega)]
    rfl

theorem sealed_length (pieces : List (List Byte)) :
    (pieces.map sealPiece).flatten.length = pieces.flatten.length + 4 * pieces.length := by
  induction pieces with
  | nil => rfl
  | cons piece pieces ih =>
      simp only [List.map_cons, List.flatten_cons, List.length_append, List.length_cons, sealPiece,
        pieceCrc_length] at ih ⊢
      omega

theorem packImage_length (pieceSize : Nat) (pos : 0 < pieceSize) (package : List Byte) :
    (packImage pieceSize package).length = package.length + 4 * (cut pieceSize package).length := by
  rw [packImage, sealed_length, cut_flatten pieceSize pos]

/-- The CRC pieces are what the image cut by their full length gives. -/
theorem cut_packImage (pieceSize : Nat) (pos : 0 < pieceSize) (package : List Byte) :
    cut (pieceSize + 4) (packImage pieceSize package) = (cut pieceSize package).map sealPiece := by
  apply cut_flatten_uniform _ (by omega)
  apply (cut_uniform pieceSize pos package).map
  intro piece
  simp [sealPiece]

theorem crcPieceSize_eq (downBufSize : Nat) (small : downBufSize < 2048) :
    crcPieceSize downBufSize = some (downBufSize * moduleValidSize - 4) := by
  have size : moduleValidSize = 1040896 := rfl
  have bytes : intMul downBufSize 0x100000 = some (downBufSize * 0x100000) := if_pos (by omega)
  have back : downBufSize * 0x100000 / 0x100000 = downBufSize := by omega
  have valid : intMul downBufSize moduleValidSize = some (downBufSize * moduleValidSize) := by
    apply if_pos
    rw [size]
    omega
  rw [crcPieceSize, bytes, Option.bind_some, back, valid, Option.map_some]

theorem crcPieceSize_lt (downBufSize pieceSize : Nat)
    (defined : crcPieceSize downBufSize = some pieceSize) : downBufSize < 2048 := by
  by_contra large
  have undefined : intMul downBufSize 0x100000 = none := if_neg (by omega)
  rw [crcPieceSize, undefined] at defined
  cases defined

end Alisl.Upgrade
