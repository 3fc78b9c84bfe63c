import Alisl.Upgrade.PackTool

/-! Pieces as the pack tool makes them and as the receiver finds them: the
placement of modules, the module ranges of `ota_file_download_by_piece` and the
size `ota_file_get_size` reports, against the CRC pieces of the image. -/

namespace Alisl.Upgrade

open Alisl.Base

/-- `g_piece_size`, from the `int` in the package header. -/
def gPieceSize (downBufSize : Nat) : Option Nat :=
  (intMul downBufSize 1024).bind (fun kilo => intMul kilo 1024)

/-- First and last module of a piece, unsigned shorts both. -/
def pieceRange (rangeLen rangeTotal i : Nat) : Nat × Nat :=
  let start := i * rangeLen % 65536
  let last := ((((i + 1) * rangeLen : Nat) : Int) - 1) % 65536
  (start, if rangeTotal ≤ last.toNat then rangeTotal - 1 else last.toNat)

/-- The entries of a module table that lie in a range. -/
def inRange {Item : Type} (range : Nat × Nat) (table : List Item) : List Item :=
  (table.drop range.1).take (range.2 + 1 - range.1)

def storeAll (memory : Memory) : List (Nat × List Byte) → Memory
  | [] => memory
  | (at_, bytes) :: rest => storeAll (store memory at_ bytes) rest

/-- The buffer once the modules of a piece have arrived at their pointers. -/
def receivePiece (memory : Memory) (config : MemConfig) (modules : List (List Byte)) (i : Nat) :
    Memory :=
  let range := pieceRange config.rangeLen config.rangeTotal i
  storeAll memory ((inRange range config.pointers).zip (inRange range modules))

/-- `p_mdl_range->valid_size`. -/
def validSize (config : MemConfig) (modules : List (List Byte)) (i : Nat) : Nat :=
  ((inRange (pieceRange config.rangeLen config.rangeTotal i) modules).map List.length).sum

/-- Pack tool and receiver agree on the pieces of a package. -/
def Agrees (downBufSize : Nat) (package : List Byte) : Prop :=
  ∃ pieceSize len first rest config,
    crcPieceSize downBufSize = some pieceSize ∧
    gPieceSize downBufSize = some len ∧
    (genGroupInfo (packImage pieceSize package).length).map ModuleInfo.moduleSize = first :: rest ∧
    memConfigByPiece 0 len first rest = some config ∧
    config.pieceNum = (cut pieceSize package).length ∧
    (∀ i payload, (cut pieceSize package)[i]? = some payload → ∀ memory,
      slice (receivePiece memory config (moduleData (packImage pieceSize package)) i) 0
          (validSize config (moduleData (packImage pieceSize package)) i) =
        payload ++ pieceCrc payload) ∧
    (cut pieceSize package).flatten = package ∧
    ulongSub (packImage pieceSize package).length (4 * config.pieceNum) = package.length

theorem storeAll_before (memory : Memory) (from_ address : Nat) (modules : List (List Byte))
    (before : address < from_) :
    storeAll memory ((offsetsFrom from_ (modules.map List.length)).zip modules) address =
      memory address := by
  induction modules generalizing memory from_ with
  | nil => rfl
  | cons bytes modules ih =>
      simp only [List.map_cons, offsetsFrom, List.zip_cons_cons, storeAll]
      rw [ih _ _ (by omega), store_before _ _ _ _ before]

/-- Modules stored one behind the other read back as one string. -/
theorem slice_storeAll (memory : Memory) (from_ : Nat) (modules : List (List Byte)) :
    slice (storeAll memory ((offsetsFrom from_ (modules.map List.length)).zip modules)) from_
      (modules.map List.length).sum = modules.flatten := by
  induction modules generalizing memory from_ with
  | nil => rfl
  | cons bytes modules ih =>
      simp only [List.map_cons, offsetsFrom, List.zip_cons_cons, storeAll, List.sum_cons,
        List.flatten_cons]
      rw [slice_add, ih]
      congr 1
      rw [slice_eq_of_agree _ (store memory from_ bytes), slice_store]
      intro address _ inside
      exact storeAll_before _ _ _ _ inside

theorem offsetsFrom_length (at_ : Nat) (sizes : List Nat) :
    (offsetsFrom at_ sizes).length = sizes.length := by
  induction sizes generalizing at_ with
  | nil => rfl
  | cons size sizes ih => rw [offsetsFrom, List.length_cons, List.length_cons, ih]

/-- One pointer for each module. -/
theorem offsets_cut_length (rangeLen : Nat) (sizes : List Nat) (several : 0 < rangeLen) :
    (((cut rangeLen sizes).map (offsetsFrom 0)).flatten).length = sizes.length := by
  have lengths : ((cut rangeLen sizes).map (offsetsFrom 0)).map List.length =
      (cut rangeLen sizes).map List.length := by
    rw [List.map_map]
    apply List.map_congr_left
    intro piece _
    exact offsetsFrom_length 0 piece
  rw [List.length_flatten, lengths, ← List.length_flatten, cut_flatten rangeLen several]

/-- As long as the numbers stay small, a range ends before the next or with the table. -/
theorem pieceRange_eq (rangeLen total i : Nat) (several : 0 < rangeLen) (short : rangeLen < 65536)
    (few : total ≤ dcModuleMax) (inside : i * rangeLen < total) :
    pieceRange rangeLen (total % 65536) i =
      (i * rangeLen, if total ≤ i * rangeLen + rangeLen - 1 then total - 1
        else i * rangeLen + rangeLen - 1) := by
  unfold dcModuleMax at few
  have whole : total % 65536 = total := Nat.mod_eq_of_lt (by omega)
  have start : i * rangeLen % 65536 = i * rangeLen := Nat.mod_eq_of_lt (by omega)
  have small : i * rangeLen + rangeLen - 1 < 65536 := by
    cases i with
    | zero => omega
    | succ i =>
        have least : rangeLen ≤ (i + 1) * rangeLen := Nat.le_mul_of_pos_left rangeLen (Nat.succ_pos i)
        omega
  have last : ((((i + 1) * rangeLen : Nat) : Int) - 1) % 65536 =
      ((i * rangeLen + rangeLen - 1 : Nat) : Int) := by
    rw [Nat.succ_mul]
    omega
  simp only [pieceRange, whole, start, last, Int.toNat_natCast]

/-- A range is one of the cuts of the table. -/
theorem inRange_pieceRange {Item : Type} (rangeLen i : Nat) (table : List Item)
    (several : 0 < rangeLen) (short : rangeLen < 65536) (few : table.length ≤ dcModuleMax)
    (inside : i * rangeLen < table.length) :
    inRange (pieceRange rangeLen (table.length % 65536) i) table =
      (table.drop (i * rangeLen)).take rangeLen := by
  rw [pieceRange_eq rangeLen table.length i several short few inside, inRange]
  by_cases beyond : table.length ≤ i * rangeLen + rangeLen - 1
  · have tail : (table.drop (i * rangeLen)).length ≤ rangeLen := by
      rw [List.length_drop]
      omega
    rw [if_pos beyond, List.take_of_length_le tail]
    apply List.take_of_length_le
    rw [List.length_drop]
    omega
  · rw [if_neg beyond]
    congr 1
    omega

/-- The pointers of a piece are the offsets of its modules. -/
theorem pointers_in_piece (rangeLen i : Nat) (sizes : List Nat) (several : 0 < rangeLen)
    (inside : i * rangeLen < sizes.length) :
    ((((cut rangeLen sizes).map (offsetsFrom 0)).flatten).drop (i * rangeLen)).take rangeLen =
      offsetsFrom 0 ((sizes.drop (i * rangeLen)).take rangeLen) := by
  have uniform : Uniform rangeLen ((cut rangeLen sizes).map (offsetsFrom 0)) := by
    have grown : Uniform (rangeLen + 0) ((cut rangeLen sizes).map (offsetsFrom 0)) := by
      apply (cut_uniform rangeLen several sizes).map
      intro piece
      rw [offsetsFrom_length, Nat.add_zero]
    exact grown
  have total := offsets_cut_length rangeLen sizes several
  have left := cut_getElem? rangeLen several i
    (((cut rangeLen sizes).map (offsetsFrom 0)).flatten) (by omega)
  have right := cut_getElem? rangeLen several i sizes inside
  rw [cut_flatten_uniform rangeLen several _ uniform, List.getElem?_map, right] at left
  exact (Option.some.inj left).symm

/-- What `alislupg_ota_mem_config_by_piece` leaves for modules of the given contents. -/
def layoutConfig (rangeLen : Nat) (modules : List (List Byte)) : MemConfig where
  pieceNum := (cut rangeLen (modules.map List.length)).length % 65536
  rangeLen := rangeLen
  rangeTotal := modules.length % 65536
  pointers := ((cut rangeLen (modules.map List.length)).map (offsetsFrom 0)).flatten

theorem layoutConfig_pieceNum (rangeLen : Nat) (modules : List (List Byte)) (several : 0 < rangeLen)
    (few : modules.length ≤ dcModuleMax) :
    (layoutConfig rangeLen modules).pieceNum = (cut rangeLen modules).length := by
  have bound := cut_length_le rangeLen several modules
  unfold dcModuleMax at few
  simp only [layoutConfig]
  rw [cut_map rangeLen several, List.length_map, Nat.mod_eq_of_lt (by omega)]

/-- A received piece is its modules one behind the other. -/
theorem receive_layoutConfig (rangeLen i : Nat) (modules : List (List Byte)) (memory : Memory)
    (several : 0 < rangeLen) (short : rangeLen < 65536) (few : modules.length ≤ dcModuleMax)
    (inside : i * rangeLen < modules.length) :
    slice (receivePiece memory (layoutConfig rangeLen modules) modules i) 0
        (validSize (layoutConfig rangeLen modules) modules i) =
      ((modules.drop (i * rangeLen)).take rangeLen).flatten := by
  have sizes : (modules.map List.length).length = modules.length := List.length_map _
  have chosen := inRange_pieceRange rangeLen i modules several short few inside
  have total := offsets_cut_length rangeLen (modules.map List.length) several
  rw [sizes] at total
  have placed : inRange (pieceRange rangeLen (modules.length % 65536) i)
      (layoutConfig rangeLen modules).pointers =
      offsetsFrom 0 (((modules.drop (i * rangeLen)).take rangeLen).map List.length) := by
    have range := inRange_pieceRange rangeLen i (layoutConfig rangeLen modules).pointers several
      short (by simpa only [layoutConfig, total] using few)
      (by simpa only [layoutConfig, total] using inside)
    simp only [layoutConfig, total] at range ⊢
    rw [range, pointers_in_piece rangeLen i _ several (by omega), List.map_take, List.map_drop]
  have ranges : (layoutConfig rangeLen modules).rangeLen = rangeLen ∧
      (layoutConfig rangeLen modules).rangeTotal = modules.length % 65536 := ⟨rfl, rfl⟩
  unfold receivePiece validSize
  rw [ranges.1, ranges.2]
  simp only [placed, chosen]
  exact slice_storeAll memory 0 _

theorem gPieceSize_eq (downBufSize : Nat) (small : downBufSize < 2048) :
    gPieceSize downBufSize = some (pieceBytes downBufSize) := by
  have kilo : intMul downBufSize 1024 = some (downBufSize * 1024) := if_pos (by omega)
  have bytes : intMul (downBufSize * 1024) 1024 = some (downBufSize * 1024 * 1024) :=
    if_pos (by omega)
  rw [gPieceSize, kilo, Option.bind_some, bytes, pieceBytes]

/-- The modules the receiver puts into one piece. -/
def rangeLenOf (downBufSize groupLen : Nat) : Nat :=
  pieceBytes downBufSize / min moduleValidSize groupLen % 65536

/-- The layout of a whole image, unless not even one module goes into a piece. -/
theorem memConfig_image (downBufSize : Nat) (image : List Byte) (nonempty : image ≠ [])
    (positive : 1 ≤ downBufSize) (several : 0 < rangeLenOf downBufSize image.length) :
    ∃ first rest, (genGroupInfo image.length).map ModuleInfo.moduleSize = first :: rest ∧
      memConfigByPiece 0 (pieceBytes downBufSize) first rest =
        some (layoutConfig (rangeLenOf downBufSize image.length) (cut moduleValidSize image)) := by
  have length := List.length_pos_of_ne_nil nonempty
  have cuts := cut_eq moduleValidSize moduleValidSize_pos image nonempty
  have head : (image.take moduleValidSize).length = min moduleValidSize image.length :=
    List.length_take
  have least : 0 < min moduleValidSize image.length := Nat.lt_min.mpr ⟨moduleValidSize_pos, length⟩
  have room : moduleValidSize ≤ pieceBytes downBufSize := by
    apply moduleValidSize_le
    unfold pieceBytes
    omega
  refine ⟨(image.take moduleValidSize).length,
    (cut moduleValidSize (image.drop moduleValidSize)).map List.length, ?_, ?_⟩
  · rw [genGroupInfo_sizes image nonempty, cuts, List.map_cons]
  · have bounded : ∀ size ∈ (image.take moduleValidSize).length ::
        (cut moduleValidSize (image.drop moduleValidSize)).map List.length,
        size ≤ (image.take moduleValidSize).length := by
      rw [← List.map_cons, ← cuts, head]
      intro size member
      obtain ⟨piece, present, rfl⟩ := List.mem_map.mp member
      exact length_le_of_mem_cut moduleValidSize moduleValidSize_pos image piece present
    rw [memConfigByPiece_eq (pieceBytes downBufSize) _ _ (by omega) (by omega) bounded
      (by rw [head]; exact several)]
    rw [← List.map_cons, ← cuts, head]
    simp only [layoutConfig, rangeLenOf, cuts, List.length_cons, List.length_map]

theorem pieceSize_pos (downBufSize : Nat) (positive : 1 ≤ downBufSize) :
    0 < downBufSize * moduleValidSize - 4 := by
  unfold moduleValidSize
  omega

theorem agrees_of_groups (downBufSize : Nat) (package : List Byte) (nonempty : package ≠ [])
    (positive : 1 ≤ downBufSize) (small : downBufSize < 2048) (image : List Byte)
    (packed : image = packImage (downBufSize * moduleValidSize - 4) package)
    (few : (cut moduleValidSize image).length ≤ dcModuleMax)
    (several : 0 < rangeLenOf downBufSize image.length)
    (groups : (cut (rangeLenOf downBufSize image.length) (cut moduleValidSize image)).map
      List.flatten = (cut (downBufSize * moduleValidSize - 4) package).map sealPiece) :
    Agrees downBufSize package := by
  have pos := pieceSize_pos downBufSize positive
  have length := packImage_length _ pos package
  rw [← packed] at length
  have filled := List.length_pos_of_ne_nil nonempty
  have imageFilled : image ≠ [] := List.ne_nil_of_length_pos (by omega)
  obtain ⟨first, rest, sizes, config⟩ :=
    memConfig_image downBufSize image imageFilled positive several
  have pieceNum := layoutConfig_pieceNum _ _ several few
  have count := congrArg List.length groups
  rw [List.length_map, List.length_map] at count
  have data := moduleData_eq image imageFilled
  refine ⟨_, _, first, rest, _, crcPieceSize_eq downBufSize small, gPieceSize_eq downBufSize small,
    packed ▸ sizes, config, pieceNum.trans count, ?_, cut_flatten _ pos package, ?_⟩
  · intro i payload found memory
    rw [← packed, data]
    have group := congrArg (fun pieces => pieces[i]?) groups
    simp only [List.getElem?_map, found, Option.map_some] at group
    obtain ⟨modules, present, joined⟩ := Option.map_eq_some_iff.mp group
    have start := cut_start _ several i _ (List.getElem?_eq_some_iff.mp present).1
    rw [cut_getElem? _ several i _ start] at present
    rw [receive_layoutConfig _ i _ memory several (Nat.mod_lt _ (by omega)) few start,
      Option.some.inj present, joined, sealPiece]
  · rw [← packed, pieceNum, count, length, ulongSub, if_pos (by omega)]
    omega

/-- With a range of no module the layout announces two pieces for one module. -/
theorem memConfig_zero (len first : Nat) (config : MemConfig) (zero : len / first % 65536 = 0)
    (laid : memConfigByPiece 0 len first [] = some config) : config.pieceNum = 2 := by
  unfold memConfigByPiece configStart at laid
  by_cases small : len < first
  · simp [small] at laid
  · by_cases none : first = 0
    · simp [none] at laid
    · simp only [small, none, if_false, zero, Option.some.injEq] at laid
      rw [← laid]
      simp [placeModules, Cursor.first, Cursor.turn, Cursor.pass]

/-- A package that fits one module is one piece. -/
theorem small_image (downBufSize : Nat) (package : List Byte) (nonempty : package ≠ [])
    (positive : 1 ≤ downBufSize) (small : package.length + 4 < moduleValidSize) :
    cut (downBufSize * moduleValidSize - 4) package = [package] ∧
      packImage (downBufSize * moduleValidSize - 4) package = sealPiece package := by
  have modulePos : moduleValidSize = 1040896 := rfl
  have one : cut (downBufSize * moduleValidSize - 4) package = [package] := by
    apply cut_short _ _ nonempty
    rw [modulePos] at small ⊢
    omega
  refine ⟨one, ?_⟩
  rw [packImage, one, List.map_singleton, List.flatten_singleton]

theorem small_package_agrees (downBufSize : Nat) (package : List Byte) (nonempty : package ≠ [])
    (positive : 1 ≤ downBufSize) (defined : downBufSize < 2048)
    (small : package.length + 4 < moduleValidSize)
    (several : pieceBytes downBufSize / (package.length + 4) % 65536 ≠ 0) :
    Agrees downBufSize package := by
  obtain ⟨one, image⟩ := small_image downBufSize package nonempty positive small
  have length : (sealPiece package).length = package.length + 4 := by simp [sealPiece]
  have filled : sealPiece package ≠ [] := List.ne_nil_of_length_pos (by omega)
  have single : cut moduleValidSize (sealPiece package) = [sealPiece package] :=
    cut_short _ _ filled (by omega)
  have range : rangeLenOf downBufSize (sealPiece package).length =
      pieceBytes downBufSize / (package.length + 4) % 65536 := by
    rw [rangeLenOf, length, Nat.min_eq_right small.le]
  apply agrees_of_groups downBufSize package nonempty positive defined (sealPiece package) image.symm
  · simp [single, dcModuleMax]
  · omega
  · rw [single, one, cut_short _ _ (List.cons_ne_nil _ _) (by rw [List.length_singleton]; omega)]
    simp

theorem large_package_agrees (downBufSize : Nat) (package : List Byte) (nonempty : package ≠ [])
    (positive : 1 ≤ downBufSize) (defined : downBufSize < 2048) (image : List Byte)
    (packed : image = packImage (downBufSize * moduleValidSize - 4) package)
    (large : moduleValidSize ≤ image.length)
    (few : (cut moduleValidSize image).length ≤ dcModuleMax) : Agrees downBufSize package := by
  have module : moduleValidSize = 1040896 := rfl
  have pos := pieceSize_pos downBufSize positive
  have bytes : pieceBytes downBufSize = downBufSize * 1048576 := by
    unfold pieceBytes
    omega
  have range : rangeLenOf downBufSize image.length = downBufSize * 1048576 / 1040896 := by
    rw [rangeLenOf, Nat.min_eq_left large, bytes, module, Nat.mod_eq_of_lt]
    omega
  have whole : downBufSize * moduleValidSize - 4 + 4 = downBufSize * moduleValidSize := by omega
  -- more than 135 megabytes hold an additional module, but then there is one piece anyway
  have same : cut (rangeLenOf downBufSize image.length) (cut moduleValidSize image) =
      cut downBufSize (cut moduleValidSize image) := by
    rcases Nat.lt_or_ge downBufSize 136 with below | above
    · congr 1
      omega
    · have filled : cut moduleValidSize image ≠ [] := by
        have imageFilled : image ≠ [] := List.ne_nil_of_length_pos (by omega)
        rw [cut_eq _ moduleValidSize_pos image imageFilled]
        exact List.cons_ne_nil _ _
      unfold dcModuleMax at few
      rw [cut_short _ _ filled (by omega), cut_short _ _ filled (by omega)]
  apply agrees_of_groups downBufSize package nonempty positive defined image packed few
  · omega
  · have joined := cut_packImage _ pos package
    rw [whole, ← packed] at joined
    rw [same, cut_cut downBufSize moduleValidSize positive moduleValidSize_pos, joined]

theorem small_package_disagrees (downBufSize : Nat) (package : List Byte) (nonempty : package ≠ [])
    (positive : 1 ≤ downBufSize) (small : package.length + 4 < moduleValidSize)
    (zero : pieceBytes downBufSize / (package.length + 4) % 65536 = 0) :
    ¬ Agrees downBufSize package := by
  rintro ⟨pieceSize, len, first, rest, config, crc, bytes, sizes, laid, pieces, _⟩
  have defined := crcPieceSize_lt downBufSize pieceSize crc
  rw [crcPieceSize_eq downBufSize defined] at crc
  rw [gPieceSize_eq downBufSize defined] at bytes
  cases crc
  cases bytes
  obtain ⟨one, image⟩ := small_image downBufSize package nonempty positive small
  have length : (sealPiece package).length = package.length + 4 := by simp [sealPiece]
  have filled : sealPiece package ≠ [] := List.ne_nil_of_length_pos (by omega)
  rw [image, genGroupInfo_sizes _ filled, cut_short _ _ filled (by omega), List.map_singleton,
    length] at sizes
  cases sizes
  have two := memConfig_zero _ _ config zero laid
  rw [one, List.length_singleton] at pieces
  omega

/-- Both sides find the same pieces unless the buffer size leaves the range of
`int`, or the package fits one module and the number of such modules that would
go into the buffer is a multiple of 65536. -/
theorem pieces_agree_iff (downBufSize : Nat) (package : List Byte) (nonempty : package ≠ [])
    (positive : 1 ≤ downBufSize)
    (few : packModuleCount (packImage (downBufSize * moduleValidSize - 4) package).length ≤
      dcModuleMax) :
    Agrees downBufSize package ↔ downBufSize < 2048 ∧
      (moduleValidSize ≤ package.length + 4 ∨
        pieceBytes downBufSize / (package.length + 4) % 65536 ≠ 0) := by
  constructor
  · intro agrees
    constructor
    · obtain ⟨pieceSize, _, _, _, _, crc, _⟩ := agrees
      exact crcPieceSize_lt downBufSize pieceSize crc
    · by_contra neither
      rw [not_or, not_le, not_not] at neither
      exact small_package_disagrees downBufSize package nonempty positive neither.1 neither.2 agrees
  · rintro ⟨defined, fits⟩
    rcases Nat.lt_or_ge (package.length + 4) moduleValidSize with small | large
    · have several := fits.resolve_left (Nat.not_le.mpr small)
      exact small_package_agrees downBufSize package nonempty positive defined small several
    · have pos := pieceSize_pos downBufSize positive
      have filled : 0 < (cut (downBufSize * moduleValidSize - 4) package).length := by
        rw [cut_eq _ pos package nonempty, List.length_cons]
        exact Nat.succ_pos _
      have length := packImage_length _ pos package
      apply large_package_agrees downBufSize package nonempty positive defined _ rfl (by omega)
      rw [cut_length _ moduleValidSize_pos, ← packModuleCount_eq]
      exact few

theorem pieces_agree_hundred :
    Agrees 1 (List.replicate 100 0) := by
  have one : cut (1 * moduleValidSize - 4) (List.replicate 100 (0 : Byte)) =
      [List.replicate 100 0] := cut_short _ _ (by decide) (by decide)
  refine (pieces_agree_iff 1 (List.replicate 100 0) (by decide) (by decide) ?_).mpr
    ⟨by decide, .inr (by decide)⟩
  rw [packImage_length _ (by decide), one]
  decide

/-- Sixteen bytes with the CRC go 65536 times into one megabyte. -/
theorem pieces_disagree_twelve :
    packModuleCount (packImage (1 * moduleValidSize - 4) (List.replicate 12 0)).length ≤
        dcModuleMax ∧ ¬ Agrees 1 (List.replicate 12 0) := by
  have one : cut (1 * moduleValidSize - 4) (List.replicate 12 (0 : Byte)) =
      [List.replicate 12 0] := cut_short _ _ (by decide) (by decide)
  constructor
  · rw [packImage_length _ (by decide), one]
    decide
  · exact small_package_disagrees 1 (List.replicate 12 0) (by decide) (by decide) (by decide)
      (by decide)

end Alisl.Upgrade
