import Alisl.Upgrade.Source.Loops

/-! Step 1 of `threadGenerateUpgPkt_cli`: the partition tables read from ALI.ini,
the header and the images behind it. -/

namespace Alisl.Upgrade.Pack

open Alisl.Base

abbrev Path := List Char

/-- What can be opened, with its contents. -/
abbrev Files := Path → Option (List Byte)

/-- Why there is no package to speak of: an `int` overflows, a table is written
past its end, the selection is never set, a file to be read cannot be opened. -/
inductive Fault where
  | intOverflow
  | tableOverrun
  | selectUnset
  | openFail
  deriving DecidableEq, Repr

def intAdd (left right : Int) : Except Fault Int :=
  if -2147483648 ≤ left + right ∧ left + right < 2147483648 then .ok (left + right)
  else .error .intOverflow

/-- A file position stored in an `int`. -/
def toInt (position : Nat) : Int :=
  if position % 4294967296 < 2147483648 then (position % 4294967296 : Nat)
  else (position % 4294967296 : Nat) - 4294967296

/-- `%` of C rounds towards zero. -/
def align (sizeAlign size : Int) : Except Fault Int :=
  if size.tmod sizeAlign = 0 then .ok size
  else intAdd size (sizeAlign - size.tmod sizeAlign)

def maxNandPart : Nat := 40

def maxNorPart : Nat := 40

def maxPart : Nat := 64

/-- `QString::replace`: every occurrence, from left to right. The number counts
the characters of an occurrence still to be left out. -/
def replaceFrom (before after : Path) : Nat → Path → Path
  | _, [] => []
  | 0, char :: rest =>
      if before.isPrefixOf (char :: rest) then
        after ++ replaceFrom before after (before.length - 1) rest
      else char :: replaceFrom before after 0 rest
  | skip + 1, _ :: rest => replaceFrom before after skip rest

def iniName : Path := ['A', 'L', 'I', '.', 'i', 'n', 'i']

/-- NAME, SIZE (as `qstringHexToInt` reads it) and FILE of a partition. NAME fits
the `char` array it is copied to. -/
structure PartSettings where
  name : List Byte
  size : Int
  file : Path
  nameFits : name.length < 24
  sizeInt : -2147483648 ≤ size ∧ size < 2147483648

/-- The path of ALI.ini with its name replaced. -/
def measuredPath (imageDir file : Path) : Path :=
  replaceFrom iniName file 0 (imageDir ++ '/' :: iniName)

def packedPath (imageDir file : Path) : Path := imageDir ++ '/' :: file

/-- The path fits the buffers of MAX_STRING_LEN it is copied to. -/
def PathFits (imageDir file : Path) : Prop :=
  (measuredPath imageDir file).length < 128 ∧ (packedPath imageDir file).length < 128

instance (imageDir file : Path) : Decidable (PathFits imageDir file) :=
  inferInstanceAs (Decidable (_ ∧ _))

/-- The settings of both files and the selection. Without an image directory
neither table is loaded. -/
structure Config where
  imageDir : Path
  norPath : Path
  norImages : List Path
  loader : Path
  loaderSize : Int
  nandCount : Int
  nandPart : Nat → PartSettings
  nandSelect : Nat → Bool
  norCount : Int
  norPart : Nat → PartSettings
  norSelect : Nat → Bool
  packageVer : Int
  downBufferSize : Int
  loaded : imageDir ≠ []
  loaderSizeInt : -2147483648 ≤ loaderSize ∧ loaderSize < 2147483648
  nandFits : ∀ idx, PathFits imageDir (nandPart idx).file
  norFits : ∀ idx, PathFits imageDir (norPart idx).file
  loaderFits : PathFits imageDir loader
  norPathFits : PathFits imageDir norPath

/-- A partition of ALI.ini, with the path under which its file is measured. -/
structure Part where
  name : List Byte
  size : Int
  file : Path
  path : Path
  sizeAlign : Int
  nameFits : name.length < 24
  sizeInt : -2147483648 ≤ size ∧ size < 2147483648
  aligns : sizeAlign = 131072 ∨ sizeAlign = 65536

structure FlashPartInfo where
  partName : List Byte
  partSize : Int
  partFileName : Path
  partFileSize : Int
  partFileAlignSize : Int
  deriving DecidableEq

def boot : List Byte := [98, 111, 111, 116]

def sflash : List Byte := [115, 102, 108, 97, 115, 104]

namespace Config

def hasLoader (config : Config) : Bool :=
  config.loader.map Char.toLower ≠ ['f', 'a', 'l', 's', 'e'] ∧ config.loader ≠ []

/-- COUNT leaves out the boot loader. -/
def nandPartCnt (config : Config) : Int :=
  if config.nandCount ≠ 0 then config.nandCount + 1 else 0

/-- The boot loader is measured where LOADER says, not in the image directory. -/
def nandPartAt (config : Config) (idx : Nat) : Part :=
  if idx = 0 ∧ config.hasLoader = true then
    ⟨boot, config.loaderSize, config.loader, config.loader, 131072, by decide,
      config.loaderSizeInt, .inl rfl⟩
  else
    let part := config.nandPart idx
    ⟨part.name, part.size, part.file, measuredPath config.imageDir part.file, 131072,
      part.nameFits, part.sizeInt, .inl rfl⟩

def nandParts (config : Config) : List Part :=
  (List.range config.nandPartCnt.toNat).map config.nandPartAt

def norPartAt (config : Config) (idx : Nat) : Part :=
  let part := config.norPart idx
  ⟨part.name, part.size, part.file, measuredPath config.imageDir part.file, 65536,
    part.nameFits, part.sizeInt, .inr rfl⟩

/-- Without NOR partitions the one image of `m_norPath`, measured as it stands. -/
def norParts (config : Config) (files : Files) : List Part :=
  if config.norCount = 0 then
    if config.norPath = [] then []
    else match files config.norPath with
      | none => []
      | some _ => [⟨sflash, 0, config.norPath, config.norPath, 65536, by decide, by decide, .inr rfl⟩]
  else (List.range config.norCount.toNat).map config.norPartAt

end Config

def Part.info (files : Files) (part : Part) : Except Fault FlashPartInfo :=
  match files part.path with
  | none => .ok ⟨part.name, part.size, part.file, 0, 0⟩
  | some contents => do
      let aligned ← align part.sizeAlign (toInt contents.length)
      return ⟨part.name, part.size, part.file, toInt contents.length, aligned⟩

/-- A boot loader that cannot be opened ends the function before the selection
is set. -/
def parseNandCfg (config : Config) (files : Files) : Except Fault (List FlashPartInfo) :=
  if maxNandPart < config.nandPartCnt then .error .tableOverrun
  else if 0 < config.nandPartCnt ∧ config.hasLoader = true ∧ files config.loader = none then
    .error .selectUnset
  else config.nandParts.mapM (Part.info files)

def parseNorCfg (config : Config) (files : Files) : Except Fault (List FlashPartInfo) :=
  if maxNorPart < config.norCount then .error .tableOverrun
  else (config.norParts files).mapM (Part.info files)

/-! The header. -/

structure ImageInfo where
  imageName : List Byte
  imageOffset : Int
  imageSize : Int
  deriving DecidableEq

structure Header where
  upgVer : Int
  packageVer : Int
  partCnt : Int
  otaDownBufSize : Int
  imageInfo : List ImageInfo
  deriving DecidableEq

/-- An `int` of the header, least byte first. -/
def putInt (value : Int) : List Byte :=
  let bits := (value % 4294967296).toNat
  [byteOf bits, byteOf (bits / 256), byteOf (bits / 65536), byteOf (bits / 16777216)]

def encodeImageInfo (image : ImageInfo) : List Byte :=
  image.imageName ++ List.replicate (24 - image.imageName.length) 0 ++
    putInt image.imageOffset ++ putInt image.imageSize

def encodeHeader (header : Header) : List Byte :=
  putInt header.upgVer ++ putInt header.packageVer ++ putInt header.partCnt ++
    putInt header.otaDownBufSize ++ List.replicate 12 0 ++
    header.imageInfo.flatMap encodeImageInfo ++
    List.replicate ((maxPart - header.imageInfo.length) * 32) 0

def FlashPartInfo.imageSize (info : FlashPartInfo) : Int :=
  if info.partFileAlignSize ≠ 0 then info.partFileAlignSize else info.partSize

def headerLoop (select : Nat → Bool) :
    Nat → List FlashPartInfo → Int → Except Fault (List ImageInfo × Int)
  | _, [], offset => .ok ([], offset)
  | partIdx, info :: rest, offset =>
      if select partIdx then do
        let next ← intAdd offset info.imageSize
        let (images, stop) ← headerLoop select (partIdx + 1) rest next
        return (⟨info.partName, offset, info.imageSize⟩ :: images, stop)
      else headerLoop select (partIdx + 1) rest offset

/-! The data. -/

def bytesReadPertime : Nat := 4194304

/-- The loop over `remainSize`. A turn that finds less in the file than it asks
for leaves zeros in the buffer. -/
def writeTurns (reads : Bool) : Nat → Nat → List Byte → List Byte
  | 0, _, _ => []
  | fuel + 1, remain, input =>
      if remain = 0 then []
      else
        let count := if bytesReadPertime ≤ remain then bytesReadPertime else remain
        let buf :=
          if reads then input.take count ++ List.replicate (count - input.length) 0
          else List.replicate count 255
        buf ++ writeTurns reads fuel (remain - count) (input.drop count)

def FlashPartInfo.write (info : FlashPartInfo) (input : List Byte) : List Byte :=
  let remain := (if info.partFileSize = 0 then info.partSize else info.partFileSize).toNat
  writeTurns (info.partFileSize ≠ 0) remain remain input ++
    if info.partFileSize < info.partFileAlignSize then
      List.replicate (info.partFileAlignSize - info.partFileSize).toNat 255
    else []

/-- Only a file that was measured as not empty is opened. -/
def partData (config : Config) (files : Files) (info : FlashPartInfo) : Except Fault (List Byte) :=
  if 0 < info.partFileSize then
    match files (packedPath config.imageDir info.partFileName) with
    | none => .error .openFail
    | some contents => .ok (info.write contents)
  else .ok (info.write [])

def dataLoop (config : Config) (files : Files) (select : Nat → Bool) :
    Nat → List FlashPartInfo → Except Fault (List Byte)
  | _, [] => .ok []
  | partIdx, info :: rest =>
      if select partIdx then do
        let front ← partData config files info
        let back ← dataLoop config files select (partIdx + 1) rest
        return front ++ back
      else dataLoop config files select (partIdx + 1) rest

def threadGenerateUpgPktCli (config : Config) (files : Files) :
    Except Fault (Header × List Byte) := do
  let nand ← parseNandCfg config files
  let parsed ← parseNorCfg config files
  let nor := if config.norImages = [] then [] else parsed
  let (nandImages, offset) ← headerLoop config.nandSelect 0 nand Source.headerSize
  let (norImages, _) ← headerLoop config.norSelect 0 nor offset
  let images := nandImages ++ norImages
  if maxPart < images.length then .error .tableOverrun
  else do
    let header : Header := ⟨40, config.packageVer, images.length, config.downBufferSize, images⟩
    let nandData ← dataLoop config files config.nandSelect 0 nand
    let norData ← dataLoop config files config.norSelect 0 nor
    return (header, encodeHeader header ++ (nandData ++ norData))

/-! What a package should look like. -/

def chosen {Row : Type} (select : Nat → Bool) : Nat → List Row → List Row
  | _, [] => []
  | idx, row :: rest =>
      if select idx then row :: chosen select (idx + 1) rest else chosen select (idx + 1) rest

def Config.selected (config : Config) (files : Files) : List Part :=
  chosen config.nandSelect 0 config.nandParts ++
    if config.norImages = [] then [] else chosen config.norSelect 0 (config.norParts files)

/-- The file of a partition, empty if it is missing. -/
def Part.contents (config : Config) (files : Files) (part : Part) : List Byte :=
  (files (packedPath config.imageDir part.file)).getD []

def Contiguous : Int → List ImageInfo → Prop
  | _, [] => True
  | offset, image :: rest =>
      image.imageOffset = offset ∧ Contiguous (offset + image.imageSize) rest

/-- The image is the file of the partition, padded with 0xff. -/
def Carries (config : Config) (files : Files) (package : List Byte) (part : Part)
    (image : ImageInfo) : Prop :=
  image.imageName = part.name ∧
    ∃ padding, (package.drop image.imageOffset.toNat).take image.imageSize.toNat =
      part.contents config files ++ List.replicate padding 255

structure LaidOut (config : Config) (files : Files) (header : Header) (package : List Byte) :
    Prop where
  front : package.take Source.headerSize = encodeHeader header
  count : header.partCnt = (config.selected files).length
  contiguous : Contiguous Source.headerSize header.imageInfo
  length : (package.length : Int) =
    Source.headerSize + (header.imageInfo.map ImageInfo.imageSize).sum
  images : List.Forall₂ (Carries config files package) (config.selected files) header.imageInfo

def LaysOut (config : Config) (files : Files) : Prop :=
  ∃ header package, threadGenerateUpgPktCli config files = .ok (header, package) ∧
    LaidOut config files header package

/-! When it does. -/

def Part.measured (files : Files) (part : Part) : Nat :=
  match files part.path with
  | none => 0
  | some contents => contents.length

/-- The size of the image: the file rounded up, or the partition. -/
def Part.imageSize (files : Files) (part : Part) : Int :=
  if part.measured files = 0 then part.size
  else (part.measured files + part.sizeAlign - 1) / part.sizeAlign * part.sizeAlign

/-- The file in the image directory is the measured one, up to 0xff that the
padding would put there as well. -/
structure Part.Fits (config : Config) (files : Files) (part : Part) : Prop where
  short : part.measured files < 2147483648
  sized : part.measured files = 0 → 0 ≤ part.size
  covers : part.measured files ≤ (part.contents config files).length
  inside : ((part.contents config files).length : Int) ≤ part.imageSize files
  erased : ∀ byte ∈ (part.contents config files).drop (part.measured files), byte = 255

/-- Both tables can be read. -/
structure Readable (config : Config) (files : Files) : Prop where
  nandTable : config.nandPartCnt ≤ maxNandPart
  norTable : config.norCount ≤ maxNorPart
  loader : 0 < config.nandPartCnt → config.hasLoader = true → files config.loader ≠ none
  rounds : ∀ part ∈ config.nandParts ++ config.norParts files,
    toInt (part.measured files) ≤ 2147483648 - part.sizeAlign

structure Meets (config : Config) (files : Files) : Prop extends Readable config files where
  fits : ∀ part ∈ config.selected files, part.Fits config files
  total : Source.headerSize + ((config.selected files).map (Part.imageSize files)).sum < 2147483648

/-- No partition has one file of 2 GiB or more where it is measured and another
where it is read. -/
def Comparable (config : Config) (files : Files) : Prop :=
  ∀ part ∈ config.selected files, part.measured files < 2147483648 ∨
    files part.path = files (packedPath config.imageDir part.file)

/-! The pieces of the loops. -/

theorem bind_ok {First Second : Type} {first : Except Fault First}
    {second : First → Except Fault Second} {result : Second} :
    (first >>= second) = .ok result ↔ ∃ value, first = .ok value ∧ second value = .ok result := by
  cases first with
  | error fault => simp [bind, Except.bind]
  | ok value => simp [bind, Except.bind]

theorem toInt_of_short {position : Nat} (short : position < 2147483648) :
    toInt position = position := by
  simp only [toInt]
  split <;> omega

theorem toInt_range (position : Nat) :
    -2147483648 ≤ toInt position ∧ toInt position < 2147483648 := by
  simp only [toInt]
  split <;> omega

theorem intAdd_ok {left right sum : Int} : intAdd left right = .ok sum ↔
    sum = left + right ∧ -2147483648 ≤ sum ∧ sum < 2147483648 := by
  simp only [intAdd]
  split
  case isTrue fits =>
      constructor
      · intro same
        cases same
        exact ⟨rfl, fits⟩
      · intro sums
        rw [sums.1]
  case isFalse overflows =>
      constructor
      · intro same
        cases same
      · intro sums
        rw [sums.1] at sums
        exact absurd sums.2 overflows

/-- A size that is not negative is rounded up, if the next multiple is an `int`. -/
theorem align_nonneg {sizeAlign size aligned : Int} (aligns : sizeAlign = 131072 ∨ sizeAlign = 65536)
    (nonneg : 0 ≤ size) (isInt : size < 2147483648) : align sizeAlign size = .ok aligned ↔
      size ≤ 2147483648 - sizeAlign ∧ aligned = (size + sizeAlign - 1) / sizeAlign * sizeAlign := by
  rw [align, Int.tmod_eq_emod_of_nonneg nonneg]
  split
  case isTrue whole =>
      rw [Except.ok.injEq]
      rcases aligns with rfl | rfl <;> omega
  case isFalse part =>
      rw [intAdd_ok]
      rcases aligns with rfl | rfl <;> omega

theorem align_ok_range {sizeAlign size aligned : Int} (isInt : size < 2147483648)
    (ok : align sizeAlign size = .ok aligned) :
    aligned < 2147483648 := by
  rw [align] at ok
  split at ok
  case isTrue =>
      cases ok
      exact isInt
  case isFalse => exact (intAdd_ok.mp ok).2.2

/-- A negative size is never too large to be rounded. -/
theorem align_negative {sizeAlign size : Int} (aligns : sizeAlign = 131072 ∨ sizeAlign = 65536)
    (negative : size < 0) (isInt : -2147483648 ≤ size) :
    ∃ aligned, align sizeAlign size = .ok aligned := by
  rw [align]
  split
  case isTrue => exact ⟨size, rfl⟩
  case isFalse part =>
      apply Exists.intro
      apply intAdd_ok.mpr
      have rounded : size.tmod sizeAlign = -((-size) % sizeAlign) := by
        rw [← Int.tmod_eq_emod_of_nonneg (by omega : 0 ≤ -size), Int.neg_tmod, neg_neg]
      rw [rounded]
      refine ⟨rfl, ?_⟩
      rcases aligns with rfl | rfl <;> omega

theorem align_ok {sizeAlign size : Int} (aligns : sizeAlign = 131072 ∨ sizeAlign = 65536)
    (isInt : -2147483648 ≤ size ∧ size < 2147483648) :
    (∃ aligned, align sizeAlign size = .ok aligned) ↔ size ≤ 2147483648 - sizeAlign := by
  rcases Int.lt_or_le size 0 with negative | nonneg
  · constructor
    · intro _
      rcases aligns with rfl | rfl <;> omega
    · intro _
      exact align_negative aligns negative isInt.1
  · constructor
    · rintro ⟨aligned, ok⟩
      exact ((align_nonneg aligns nonneg isInt.2).mp ok).1
    · intro fits
      exact ⟨_, (align_nonneg aligns nonneg isInt.2).mpr ⟨fits, rfl⟩⟩

theorem writeTurns_read (fuel remain : Nat) (input : List Byte) (enough : remain ≤ fuel) :
    writeTurns true fuel remain input =
      input.take remain ++ List.replicate (remain - input.length) 0 := by
  induction fuel generalizing remain input with
  | zero =>
      have none_ : remain = 0 := by omega
      simp [writeTurns, none_]
  | succ fuel ih =>
      rw [writeTurns]
      split
      case isTrue none_ => simp [none_]
      case isFalse more =>
          simp only [if_true]
          generalize counts : (if bytesReadPertime ≤ remain then bytesReadPertime else remain) = count
          have bounds : 1 ≤ count ∧ count ≤ remain := by
            rw [← counts, bytesReadPertime]
            split <;> omega
          rw [ih _ _ (by omega), List.length_drop, List.append_assoc]
          rcases Nat.le_total count input.length with full | short
          · rw [Nat.sub_eq_zero_of_le full, List.replicate_zero, List.nil_append,
              ← List.append_assoc, ← List.take_add, Nat.add_sub_cancel' bounds.2]
            congr 2
            omega
          · rw [List.drop_eq_nil_of_le short, List.take_nil, List.nil_append,
              List.replicate_append_replicate, List.take_of_length_le short,
              List.take_of_length_le (by omega)]
            congr 2
            omega

theorem writeTurns_erased (fuel remain : Nat) (input : List Byte) (enough : remain ≤ fuel) :
    writeTurns false fuel remain input = List.replicate remain 255 := by
  induction fuel generalizing remain input with
  | zero =>
      have none_ : remain = 0 := by omega
      simp [writeTurns, none_]
  | succ fuel ih =>
      rw [writeTurns]
      split
      case isTrue none_ => simp [none_]
      case isFalse more =>
          simp only [Bool.false_eq_true, if_false]
          generalize counts : (if bytesReadPertime ≤ remain then bytesReadPertime else remain) = count
          have bounds : 1 ≤ count ∧ count ≤ remain := by
            rw [← counts, bytesReadPertime]
            split <;> omega
          rw [ih _ _ (by omega), List.replicate_append_replicate, Nat.add_sub_cancel' bounds.2]

/-! One partition. -/

section

variable {config : Config} {files : Files} {part : Part} {info : FlashPartInfo}

theorem info_eq : part.info files = (do
    let aligned ← align part.sizeAlign (toInt (part.measured files))
    return ⟨part.name, part.size, part.file, toInt (part.measured files), aligned⟩) := by
  rw [Part.info, Part.measured]
  cases files part.path with
  | none =>
      have nothing : align part.sizeAlign (toInt 0) = .ok 0 := by
        rcases part.aligns with aligns | aligns <;> rw [aligns] <;> rfl
      simp only [nothing]
      rfl
  | some contents => rfl

theorem info_ok : part.info files = .ok info ↔
    ∃ aligned, align part.sizeAlign (toInt (part.measured files)) = .ok aligned ∧
      info = ⟨part.name, part.size, part.file, toInt (part.measured files), aligned⟩ := by
  rw [info_eq, bind_ok]
  constructor
  · rintro ⟨aligned, rounded, made⟩
    cases made
    exact ⟨aligned, rounded, rfl⟩
  · rintro ⟨aligned, rounded, rfl⟩
    exact ⟨aligned, rounded, rfl⟩

theorem info_isOk : (∃ info, part.info files = .ok info) ↔
    toInt (part.measured files) ≤ 2147483648 - part.sizeAlign := by
  rw [← align_ok part.aligns (toInt_range _)]
  constructor
  · rintro ⟨info, ok⟩
    rcases info_ok.mp ok with ⟨aligned, rounded, _⟩
    exact ⟨aligned, rounded⟩
  · rintro ⟨aligned, rounded⟩
    exact ⟨_, info_ok.mpr ⟨aligned, rounded, rfl⟩⟩

theorem imageSize_lt (ok : part.info files = .ok info) : info.imageSize < 2147483648 := by
  rcases info_ok.mp ok with ⟨aligned, rounded, rfl⟩
  rw [FlashPartInfo.imageSize]
  split
  case isTrue => exact align_ok_range (toInt_range _).2 rounded
  case isFalse => exact part.sizeInt.2

/-- The size of a file that was measured. -/
theorem rounded_bounds (some_ : part.measured files ≠ 0) :
    part.measured files ≤ part.imageSize files ∧ 0 < part.imageSize files := by
  rw [Part.imageSize, if_neg some_]
  rcases part.aligns with aligns | aligns <;> rw [aligns] <;> omega

/-- What the table holds of a partition whose file has an `int` for its size. -/
theorem info_short (short : part.measured files < 2147483648) (ok : part.info files = .ok info) :
    info.partName = part.name ∧ info.partFileName = part.file ∧
      info.partFileSize = part.measured files ∧ info.partSize = part.size ∧
      info.imageSize = part.imageSize files ∧
      info.partFileAlignSize = if part.measured files = 0 then 0 else part.imageSize files := by
  rcases info_ok.mp ok with ⟨aligned, rounded, rfl⟩
  rw [toInt_of_short short] at rounded
  have up := ((align_nonneg part.aligns (by omega) (by omega)).mp rounded).2
  have alignSize : aligned = if part.measured files = 0 then 0 else part.imageSize files := by
    rw [up]
    split
    case isTrue none_ =>
        rw [none_]
        rcases part.aligns with aligns | aligns <;> rw [aligns] <;> rfl
    case isFalse some_ => rw [Part.imageSize, if_neg some_]
  refine ⟨rfl, rfl, toInt_of_short short, rfl, ?_, alignSize⟩
  rw [FlashPartInfo.imageSize, alignSize]
  by_cases none_ : part.measured files = 0
  · rw [if_pos none_, if_neg (by simp), Part.imageSize, if_pos none_]
  · have nonzero : part.imageSize files ≠ 0 := by
      have positive := (rounded_bounds none_).2
      omega
    rw [if_neg none_, if_pos nonzero]

theorem partData_unmeasured (none_ : part.measured files = 0) (ok : part.info files = .ok info) :
    partData config files info = .ok (List.replicate (part.imageSize files).toNat 255) := by
  rcases info_short (by omega) ok with ⟨_, _, fileSize, size, _, alignSize⟩
  rw [none_, Nat.cast_zero] at fileSize
  rw [if_pos none_] at alignSize
  have closed : ¬ 0 < info.partFileSize := by omega
  have level : ¬ info.partFileSize < 0 := by omega
  have unread : decide (info.partFileSize ≠ 0) = false := by simp [fileSize]
  rw [partData, if_neg closed, FlashPartInfo.write, if_pos fileSize, size, unread,
    writeTurns_erased _ _ _ (le_refl _), alignSize, if_neg level, List.append_nil, Part.imageSize,
    if_pos none_]

theorem partData_measured (some_ : part.measured files ≠ 0)
    (short : part.measured files < 2147483648) (ok : part.info files = .ok info) {data : List Byte} :
    partData config files info = .ok data ↔
      files (packedPath config.imageDir part.file) ≠ none ∧
      data = (part.contents config files).take (part.measured files) ++
        List.replicate (part.measured files - (part.contents config files).length) 0 ++
        List.replicate (part.imageSize files - part.measured files).toNat 255 := by
  rcases info_short short ok with ⟨_, file, fileSize, _, _, alignSize⟩
  rw [if_neg some_] at alignSize
  have opened : 0 < info.partFileSize := by omega
  have nonzero : info.partFileSize ≠ 0 := by omega
  have reads : decide (info.partFileSize ≠ 0) = true := by simp [nonzero]
  have bounds := rounded_bounds some_
  rw [partData, if_pos opened, Part.contents, file]
  cases files (packedPath config.imageDir part.file) with
  | none => simp
  | some contents =>
      have padded : (if info.partFileSize < info.partFileAlignSize then
          List.replicate (info.partFileAlignSize - info.partFileSize).toNat (255 : Byte) else []) =
          List.replicate (part.imageSize files - part.measured files).toNat 255 := by
        rw [fileSize, alignSize]
        split
        case isTrue => rfl
        case isFalse full =>
            have zero : (part.imageSize files - part.measured files).toNat = 0 := by omega
            rw [zero, List.replicate_zero]
      have turns : writeTurns (info.partFileSize ≠ 0) (part.measured files) (part.measured files)
          contents = contents.take (part.measured files) ++
            List.replicate (part.measured files - contents.length) 0 := by
        rw [reads, writeTurns_read _ _ _ (le_refl _)]
      have whole : info.write contents = contents.take (part.measured files) ++
          List.replicate (part.measured files - contents.length) 0 ++
          List.replicate (part.imageSize files - part.measured files).toNat 255 := by
        rw [FlashPartInfo.write, padded]
        simp only [if_neg nonzero]
        rw [← turns, fileSize, Int.toNat_natCast]
      simp only [Except.ok.injEq, whole, Option.getD_some, ne_eq, reduceCtorEq, not_false_eq_true,
        true_and]
      exact eq_comm

/-- The image is never shorter than its size says. -/
theorem imageSize_le_length (short : part.measured files < 2147483648)
    (ok : part.info files = .ok info) {data : List Byte}
    (written : partData config files info = .ok data) : part.imageSize files ≤ data.length := by
  by_cases none_ : part.measured files = 0
  · rw [partData_unmeasured none_ ok] at written
    cases written
    rw [List.length_replicate]
    omega
  · rcases (partData_measured none_ short ok).mp written with ⟨_, rfl⟩
    have bounds := rounded_bounds none_
    simp only [List.length_append, List.length_take, List.length_replicate]
    omega

theorem measured_of_same (same : files part.path = files (packedPath config.imageDir part.file)) :
    part.measured files = (part.contents config files).length := by
  rw [Part.measured, Part.contents, same]
  cases files (packedPath config.imageDir part.file) <;> rfl

/-- A byte of 0 between the file and the padding shows that the file was cut
short; what the file has behind the measured size has to be padding. -/
theorem padded_iff {contents : List Byte} {size pad : Nat} :
    (∃ padding, contents.take size ++ List.replicate (size - contents.length) 0 ++
        List.replicate pad 255 = contents ++ List.replicate padding (255 : Byte)) ↔
      size ≤ contents.length ∧ contents.length ≤ size + pad ∧
        ∀ byte ∈ contents.drop size, byte = 255 := by
  constructor
  · rintro ⟨padding, same⟩
    have lengths := congrArg List.length same
    simp only [List.length_append, List.length_take, List.length_replicate] at lengths
    have covers : size ≤ contents.length := by
      by_contra short
      have byte := congrArg (fun bytes => bytes[contents.length]?) same
      rw [List.take_of_length_le (by omega), List.append_assoc,
        List.getElem?_append_right (le_refl _), List.getElem?_append_right (le_refl _),
        Nat.sub_self, List.getElem?_append_left (by rw [List.length_replicate]; omega),
        List.getElem?_replicate_of_lt (by omega), List.getElem?_replicate_of_lt (by omega)] at byte
      cases byte
    refine ⟨covers, by omega, ?_⟩
    intro byte member
    rw [Nat.sub_eq_zero_of_le covers, List.replicate_zero, List.append_nil] at same
    have split_ : contents.take size ++ List.replicate pad (255 : Byte) =
        contents.take size ++ (contents.drop size ++ List.replicate padding 255) := by
      rw [same, ← List.append_assoc, List.take_append_drop]
    have rest := List.append_cancel_left split_
    have inPadding : byte ∈ List.replicate pad (255 : Byte) := by
      rw [rest]
      exact List.mem_append_left _ member
    exact List.eq_of_mem_replicate inPadding
  · rintro ⟨covers, inside, erased⟩
    apply Exists.intro (size + pad - contents.length)
    rw [Nat.sub_eq_zero_of_le covers, List.replicate_zero, List.append_nil]
    have rest : contents.drop size = List.replicate (contents.length - size) 255 := by
      rw [← List.length_drop]
      exact List.eq_replicate_of_mem erased
    calc contents.take size ++ List.replicate pad 255
        = contents.take size ++ (List.replicate (contents.length - size) 255 ++
            List.replicate (size + pad - contents.length) 255) := by
          rw [List.replicate_append_replicate]
          congr 2
          omega
      _ = contents ++ List.replicate (size + pad - contents.length) 255 := by
          rw [← rest, ← List.append_assoc, List.take_append_drop]

/-- What is written for a partition that fits. -/
theorem partData_of_fits (ok : part.info files = .ok info) (fits : part.Fits config files) :
    ∃ data padding, partData config files info = .ok data ∧ data.length = part.imageSize files ∧
      data = part.contents config files ++ List.replicate padding 255 := by
  have covers := fits.covers
  have inside := fits.inside
  by_cases none_ : part.measured files = 0
  · have sized := fits.sized none_
    have size : part.imageSize files = part.size := by rw [Part.imageSize, if_pos none_]
    have all : part.contents config files =
        List.replicate (part.contents config files).length 255 := by
      apply List.eq_replicate_of_mem
      have erased := fits.erased
      rw [none_, List.drop_zero] at erased
      exact erased
    refine ⟨_, (part.imageSize files).toNat - (part.contents config files).length,
      partData_unmeasured none_ ok, ?_, ?_⟩
    · rw [List.length_replicate]
      omega
    · rw [all, List.replicate_append_replicate, List.length_replicate]
      congr 1
      omega
  · have bounds := rounded_bounds none_
    have reach : (part.contents config files).length ≤
        part.measured files + (part.imageSize files - part.measured files).toNat := by omega
    have opened : files (packedPath config.imageDir part.file) ≠ none := by
      intro missing
      rw [Part.contents, missing] at covers
      simp only [Option.getD_none, List.length_nil] at covers
      omega
    rcases padded_iff.mpr ⟨covers, reach, fits.erased⟩ with ⟨padding, same⟩
    refine ⟨_, padding, (partData_measured none_ fits.short ok).mpr ⟨opened, rfl⟩, ?_, same⟩
    simp only [List.length_append, List.length_take, List.length_replicate]
    omega

theorem fits_of_partData (ok : part.info files = .ok info)
    (short : part.measured files < 2147483648) {data : List Byte}
    (written : partData config files info = .ok data)
    (length : (data.length : Int) = part.imageSize files)
    (carries : ∃ padding, data = part.contents config files ++ List.replicate padding 255) :
    part.Fits config files := by
  by_cases none_ : part.measured files = 0
  · have size : part.imageSize files = part.size := by rw [Part.imageSize, if_pos none_]
    rw [partData_unmeasured none_ ok] at written
    cases written
    rcases carries with ⟨padding, same⟩
    have lengths := congrArg List.length same
    simp only [List.length_append, List.length_replicate] at lengths length
    constructor
    case short => exact short
    case sized => omega
    case covers => omega
    case inside => omega
    case erased =>
        intro byte member
        apply List.eq_of_mem_replicate
        rw [same]
        exact List.mem_append_left _ (List.mem_of_mem_drop member)
  · have bounds := rounded_bounds none_
    rcases (partData_measured none_ short ok).mp written with ⟨_, rfl⟩
    rcases padded_iff.mp carries with ⟨covers, inside, erased⟩
    exact ⟨short, fun zero => absurd zero none_, covers, by omega, erased⟩

end

/-! The loops over a table, row by row. -/

def Reads (files : Files) (part : Part) (info : FlashPartInfo) : Prop := part.info files = .ok info

def Writes (config : Config) (files : Files) (info : FlashPartInfo) (block : List Byte) : Prop :=
  partData config files info = .ok block

def Sized (info : FlashPartInfo) (block : List Byte) : Prop := (block.length : Int) = info.imageSize

def Reaches (info : FlashPartInfo) (block : List Byte) : Prop := info.imageSize ≤ block.length

def Named (part : Part) (image : ImageInfo) : Prop := image.imageName = part.name

def Placed (package : List Byte) (image : ImageInfo) (block : List Byte) : Prop :=
  (package.drop image.imageOffset.toNat).take image.imageSize.toNat = block

def Padded (config : Config) (files : Files) (part : Part) (block : List Byte) : Prop :=
  ∃ padding, block = part.contents config files ++ List.replicate padding 255

theorem mapM_ok {Row Info : Type} {read : Row → Except Fault Info} {rows : List Row}
    {table : List Info} :
    rows.mapM read = .ok table ↔ List.Forall₂ (fun row info => read row = .ok info) rows table := by
  induction rows generalizing table with
  | nil =>
      rw [List.mapM_nil, List.forall₂_nil_left_iff]
      constructor
      · intro same
        cases same
        rfl
      · rintro rfl
        rfl
  | cons row rows ih =>
      rw [List.mapM_cons, bind_ok, List.forall₂_cons_left_iff]
      constructor
      · rintro ⟨info, first, rest⟩
        rcases bind_ok.mp rest with ⟨infos, others, same⟩
        cases same
        exact ⟨info, infos, first, ih.mp others, rfl⟩
      · rintro ⟨info, infos, first, others, rfl⟩
        exact ⟨info, first, bind_ok.mpr ⟨infos, ih.mpr others, rfl⟩⟩

theorem mapM_reads {files : Files} {parts : List Part} {table : List FlashPartInfo} :
    parts.mapM (Part.info files) = .ok table ↔ List.Forall₂ (Reads files) parts table := mapM_ok

theorem chosen_forall₂ {Row Info : Type} {Related : Row → Info → Prop} {select : Nat → Bool}
    {rows : List Row} {table : List Info} (related : List.Forall₂ Related rows table) (idx : Nat) :
    List.Forall₂ Related (chosen select idx rows) (chosen select idx table) := by
  induction related generalizing idx with
  | nil => exact .nil
  | cons first _ ih =>
      rw [chosen, chosen]
      split
      case isTrue => exact .cons first (ih _)
      case isFalse => exact ih _

def imagesFrom : Int → List FlashPartInfo → List ImageInfo
  | _, [] => []
  | offset, info :: rest =>
      ⟨info.partName, offset, info.imageSize⟩ :: imagesFrom (offset + info.imageSize) rest

theorem imagesFrom_append (offset : Int) (front back : List FlashPartInfo) :
    imagesFrom offset (front ++ back) = imagesFrom offset front ++
      imagesFrom (offset + (front.map FlashPartInfo.imageSize).sum) back := by
  induction front generalizing offset with
  | nil => simp [imagesFrom]
  | cons info front ih =>
      rw [List.cons_append, imagesFrom, imagesFrom, ih, List.map_cons, List.sum_cons, add_assoc,
        List.cons_append]

theorem imagesFrom_length (offset : Int) (infos : List FlashPartInfo) :
    (imagesFrom offset infos).length = infos.length := by
  induction infos generalizing offset with
  | nil => rfl
  | cons info infos ih => rw [imagesFrom, List.length_cons, List.length_cons, ih]

theorem imagesFrom_sizes (offset : Int) (infos : List FlashPartInfo) :
    (imagesFrom offset infos).map ImageInfo.imageSize = infos.map FlashPartInfo.imageSize := by
  induction infos generalizing offset with
  | nil => rfl
  | cons info infos ih => rw [imagesFrom, List.map_cons, List.map_cons, ih]

theorem imagesFrom_contiguous (offset : Int) (infos : List FlashPartInfo) :
    Contiguous offset (imagesFrom offset infos) := by
  induction infos generalizing offset with
  | nil => trivial
  | cons info infos ih => exact ⟨rfl, ih _⟩

theorem headerLoop_ok {select : Nat → Bool} {table : List FlashPartInfo} {idx : Nat}
    {offset stop : Int} {images : List ImageInfo}
    (ok : headerLoop select idx table offset = .ok (images, stop)) :
    images = imagesFrom offset (chosen select idx table) ∧
      stop = offset + ((chosen select idx table).map FlashPartInfo.imageSize).sum ∧
      (offset < 2147483648 → stop < 2147483648) := by
  induction table generalizing idx offset images with
  | nil =>
      cases ok
      simp [imagesFrom, chosen]
  | cons info rest ih =>
      rw [headerLoop] at ok
      rw [chosen]
      split at ok
      case isTrue taken =>
          rcases bind_ok.mp ok with ⟨next, sum, later⟩
          rcases bind_ok.mp later with ⟨⟨others, stop'⟩, looped, same⟩
          cases same
          rcases intAdd_ok.mp sum with ⟨rfl, _, small⟩
          rcases ih looped with ⟨rfl, total, bounded⟩
          rw [if_pos taken, imagesFrom, List.map_cons, List.sum_cons, ← add_assoc]
          exact ⟨rfl, total, fun _ => bounded small⟩
      case isFalse skipped =>
          rw [if_neg skipped]
          exact ih ok

theorem headerLoop_of_total {select : Nat → Bool} {table : List FlashPartInfo} {idx : Nat}
    {offset : Int} (start : 0 ≤ offset)
    (sized : ∀ info ∈ chosen select idx table, 0 ≤ info.imageSize)
    (total : offset + ((chosen select idx table).map FlashPartInfo.imageSize).sum < 2147483648) :
    headerLoop select idx table offset = .ok (imagesFrom offset (chosen select idx table),
      offset + ((chosen select idx table).map FlashPartInfo.imageSize).sum) := by
  induction table generalizing idx offset with
  | nil => simp [headerLoop, imagesFrom, chosen]
  | cons info rest ih =>
      rw [headerLoop]
      rw [chosen] at sized total ⊢
      split
      case isTrue taken =>
          rw [if_pos taken] at sized total
          rw [List.map_cons, List.sum_cons, ← add_assoc] at total
          have first := sized info (List.mem_cons_self ..)
          have others : ∀ info ∈ chosen select (idx + 1) rest, 0 ≤ info.imageSize := by
            intro info member
            exact sized info (List.mem_cons_of_mem _ member)
          have rest_nonneg :
              0 ≤ ((chosen select (idx + 1) rest).map FlashPartInfo.imageSize).sum := by
            apply List.sum_nonneg
            intro size member
            rcases List.mem_map.mp member with ⟨info, inside, rfl⟩
            exact others info inside
          have looped := ih (by omega) others total
          rw [intAdd_ok.mpr ⟨rfl, by omega, by omega⟩]
          simp only [bind, Except.bind, looped]
          rw [imagesFrom, List.map_cons, List.sum_cons, add_assoc]
          rfl
      case isFalse skipped =>
          rw [if_neg skipped] at sized total
          exact ih start sized total

theorem dataLoop_ok {config : Config} {files : Files} {select : Nat → Bool}
    {table : List FlashPartInfo} {idx : Nat} {bytes : List Byte} :
    dataLoop config files select idx table = .ok bytes ↔
      ∃ blocks, List.Forall₂ (Writes config files)
        (chosen select idx table) blocks ∧ bytes = blocks.flatten := by
  induction table generalizing idx bytes with
  | nil =>
      simp only [dataLoop, chosen, List.forall₂_nil_left_iff, Except.ok.injEq]
      constructor
      · intro same
        exact ⟨[], rfl, same.symm⟩
      · rintro ⟨blocks, rfl, rfl⟩
        rfl
  | cons info rest ih =>
      rw [dataLoop, chosen]
      split
      case isTrue taken =>
          constructor
          · intro ok
            rcases bind_ok.mp ok with ⟨front, first, later⟩
            rcases bind_ok.mp later with ⟨back, others, same⟩
            cases same
            rcases ih.mp others with ⟨blocks, related, rfl⟩
            exact ⟨front :: blocks, .cons first related, rfl⟩
          · rintro ⟨blocks, related, rfl⟩
            rcases List.forall₂_cons_left_iff.mp related with ⟨front, others, first, rest, rfl⟩
            exact bind_ok.mpr ⟨front, first, bind_ok.mpr ⟨_, ih.mpr ⟨others, rest, rfl⟩, rfl⟩⟩
      case isFalse skipped => exact ih

/-- Blocks as long as the sizes say lie where the offsets say. -/
theorem images_placed {infos : List FlashPartInfo} {blocks : List (List Byte)}
    (sized : List.Forall₂ Sized
      infos blocks) (front : List Byte) :
    List.Forall₂ (Placed (front ++ blocks.flatten))
      (imagesFrom front.length infos) blocks := by
  induction sized generalizing front with
  | nil => exact .nil
  | @cons info block infos blocks size _ ih =>
      rw [Sized] at size
      rw [imagesFrom]
      constructor
      · rw [List.flatten_cons, Placed]
        simp only [← size, Int.toNat_natCast]
        rw [List.drop_left, List.take_left]
      · have later := ih (front ++ block)
        rw [List.length_append, Nat.cast_add, size, List.append_assoc, ← List.flatten_cons] at later
        exact later

theorem flatten_length_of_sized {infos : List FlashPartInfo} {blocks : List (List Byte)}
    (sized : List.Forall₂ Sized
      infos blocks) :
    (blocks.flatten.length : Int) = (infos.map FlashPartInfo.imageSize).sum := by
  induction sized with
  | nil => rfl
  | cons size _ ih =>
      rw [Sized] at size
      rw [List.flatten_cons, List.length_append, Nat.cast_add, size, ih, List.map_cons,
        List.sum_cons]

/-- Blocks that are not too short and together not too long have their sizes. -/
theorem sized_of_total {infos : List FlashPartInfo} {blocks : List (List Byte)}
    (reach : List.Forall₂ Reaches
      infos blocks)
    (total : (blocks.flatten.length : Int) ≤ (infos.map FlashPartInfo.imageSize).sum) :
    List.Forall₂ Sized
      infos blocks := by
  have least : ∀ {infos : List FlashPartInfo} {blocks : List (List Byte)},
      List.Forall₂ Reaches infos blocks →
        (infos.map FlashPartInfo.imageSize).sum ≤ blocks.flatten.length := by
    intro infos blocks reach
    induction reach with
    | nil => exact le_refl _
    | cons first _ ih =>
        rw [List.map_cons, List.sum_cons, List.flatten_cons, List.length_append, Nat.cast_add]
        exact add_le_add first ih
  induction reach with
  | nil => exact .nil
  | cons first others ih =>
      rw [List.map_cons, List.sum_cons, List.flatten_cons, List.length_append, Nat.cast_add] at total
      have rest := least others
      rw [Reaches] at first
      have exactly : Sized _ _ := le_antisymm (by omega) first
      exact .cons exactly (ih (by omega))

/-! The header has its size. -/

theorem encodeImageInfo_length (image : ImageInfo) (fits : image.imageName.length < 24) :
    (encodeImageInfo image).length = 32 := by
  simp only [encodeImageInfo, putInt, List.length_append, List.length_replicate, List.length_cons,
    List.length_nil]
  omega

theorem encodeHeader_length (header : Header) (few : header.imageInfo.length ≤ maxPart)
    (fits : ∀ image ∈ header.imageInfo, image.imageName.length < 24) :
    (encodeHeader header).length = Source.headerSize := by
  have records : (header.imageInfo.flatMap encodeImageInfo).length =
      header.imageInfo.length * 32 := by
    rw [List.length_flatMap, List.map_congr_left (fun image member =>
      encodeImageInfo_length image (fits image member)), List.map_const', List.sum_replicate,
      smul_eq_mul]
  rw [maxPart] at few
  simp only [encodeHeader, putInt, List.length_append, List.length_replicate, List.length_cons,
    List.length_nil, records, Source.headerSize, maxPart]
  omega

theorem imagesFrom_names {files : Files} {parts : List Part} {infos : List FlashPartInfo}
    (read : List.Forall₂ (Reads files) parts infos)
    (offset : Int) :
    List.Forall₂ Named parts
      (imagesFrom offset infos) := by
  induction read generalizing offset with
  | nil => exact .nil
  | cons ok _ ih =>
      rcases info_ok.mp ok with ⟨aligned, _, rfl⟩
      exact .cons rfl (ih _)

theorem names_fit {files : Files} {parts : List Part} {infos : List FlashPartInfo}
    (read : List.Forall₂ (Reads files) parts infos)
    (offset : Int) : ∀ image ∈ imagesFrom offset infos, image.imageName.length < 24 := by
  induction read generalizing offset with
  | nil =>
      intro image member
      cases member
  | @cons part info _ _ ok _ ih =>
      rcases info_ok.mp ok with ⟨aligned, _, rfl⟩
      rw [imagesFrom]
      intro image member
      rcases List.mem_cons.mp member with rfl | later
      · exact part.nameFits
      · exact ih _ image later

/-! The whole function. -/

section

variable {config : Config} {files : Files}

theorem read_all {parts : List Part} :
    (∃ infos, List.Forall₂ (Reads files) parts infos) ↔
      ∀ part ∈ parts, toInt (part.measured files) ≤ 2147483648 - part.sizeAlign := by
  induction parts with
  | nil => exact ⟨fun _ part member => absurd member List.not_mem_nil, fun _ => ⟨[], .nil⟩⟩
  | cons part parts ih =>
      rw [List.forall_mem_cons, ← ih, ← info_isOk]
      constructor
      · rintro ⟨infos, read⟩
        rcases List.forall₂_cons_left_iff.mp read with ⟨info, others, ok, rest, _⟩
        exact ⟨⟨info, ok⟩, others, rest⟩
      · rintro ⟨⟨info, ok⟩, others, rest⟩
        exact ⟨info :: others, .cons ok rest⟩

theorem parseNandCfg_ok {nand : List FlashPartInfo} : parseNandCfg config files = .ok nand ↔
    config.nandPartCnt ≤ maxNandPart ∧
      (0 < config.nandPartCnt → config.hasLoader = true → files config.loader ≠ none) ∧
      List.Forall₂ (Reads files) config.nandParts nand := by
  rw [parseNandCfg, ← mapM_reads]
  split
  case isTrue large => simp [not_le.mpr large]
  case isFalse small =>
      split
      case isTrue unset => simp [unset]
      case isFalse set =>
          have opened : 0 < config.nandPartCnt → config.hasLoader = true →
              files config.loader ≠ none := by
            intro some_ loads missing
            exact set ⟨some_, loads, missing⟩
          exact ⟨fun ok => ⟨not_lt.mp small, opened, ok⟩, fun ok => ok.2.2⟩

theorem parseNorCfg_ok {nor : List FlashPartInfo} : parseNorCfg config files = .ok nor ↔
    config.norCount ≤ maxNorPart ∧
      List.Forall₂ (Reads files) (config.norParts files) nor := by
  rw [parseNorCfg, ← mapM_reads]
  split
  case isTrue large => simp [not_le.mpr large]
  case isFalse small => exact ⟨fun ok => ⟨not_lt.mp small, ok⟩, fun ok => ok.2⟩

/-- Both tables are read exactly when they are readable. -/
theorem readable_iff : Readable config files ↔
    ∃ nand nor, parseNandCfg config files = .ok nand ∧ parseNorCfg config files = .ok nor := by
  constructor
  · intro readable
    have rounds := readable.rounds
    rw [List.forall_mem_append, ← read_all, ← read_all] at rounds
    rcases rounds with ⟨⟨nand, nandRead⟩, nor, norRead⟩
    exact ⟨nand, nor, parseNandCfg_ok.mpr ⟨readable.nandTable, readable.loader, nandRead⟩,
      parseNorCfg_ok.mpr ⟨readable.norTable, norRead⟩⟩
  · rintro ⟨nand, nor, nandOk, norOk⟩
    rcases parseNandCfg_ok.mp nandOk with ⟨nandTable, loader, nandRead⟩
    rcases parseNorCfg_ok.mp norOk with ⟨norTable, norRead⟩
    constructor
    case nandTable => exact nandTable
    case norTable => exact norTable
    case loader => exact loader
    case rounds =>
        rw [List.forall_mem_append, ← read_all, ← read_all]
        exact ⟨⟨nand, nandRead⟩, nor, norRead⟩

def norRows (config : Config) (nor : List FlashPartInfo) : List FlashPartInfo :=
  if config.norImages = [] then [] else nor

/-- The rows all four loops go through. -/
def selectedRows (config : Config) (nand nor : List FlashPartInfo) : List FlashPartInfo :=
  chosen config.nandSelect 0 nand ++ chosen config.norSelect 0 (norRows config nor)

theorem selectedRows_read {nand nor : List FlashPartInfo}
    (nandOk : parseNandCfg config files = .ok nand) (norOk : parseNorCfg config files = .ok nor) :
    List.Forall₂ (Reads files) (config.selected files)
      (selectedRows config nand nor) := by
  rcases parseNandCfg_ok.mp nandOk with ⟨_, _, nandRead⟩
  rcases parseNorCfg_ok.mp norOk with ⟨_, norRead⟩
  apply List.rel_append (chosen_forall₂ nandRead 0)
  rw [norRows]
  split
  case isTrue => exact .nil
  case isFalse => exact chosen_forall₂ norRead 0

def headerOf (config : Config) (rows : List FlashPartInfo) : Header :=
  ⟨40, config.packageVer, rows.length, config.downBufferSize, imagesFrom Source.headerSize rows⟩

/-- What a package that was written consists of. -/
theorem generated {header : Header} {package : List Byte}
    (ok : threadGenerateUpgPktCli config files = .ok (header, package)) :
    ∃ nand nor blocks, parseNandCfg config files = .ok nand ∧
      parseNorCfg config files = .ok nor ∧
      List.Forall₂ (Writes config files)
        (selectedRows config nand nor) blocks ∧
      Source.headerSize + ((selectedRows config nand nor).map FlashPartInfo.imageSize).sum <
        2147483648 ∧
      (selectedRows config nand nor).length ≤ maxPart ∧
      header = headerOf config (selectedRows config nand nor) ∧
      package = encodeHeader header ++ blocks.flatten := by
  rcases bind_ok.mp ok with ⟨nand, nandOk, ok⟩
  rcases bind_ok.mp ok with ⟨nor, norOk, ok⟩
  rcases bind_ok.mp ok with ⟨⟨nandImages, offset⟩, nandLoop, ok⟩
  rcases bind_ok.mp ok with ⟨⟨norImages, stop⟩, norLoop, ok⟩
  rcases headerLoop_ok nandLoop with ⟨rfl, rfl, nandSmall⟩
  rcases headerLoop_ok norLoop with ⟨rfl, rfl, norSmall⟩
  simp only at ok
  rw [← norRows, ← imagesFrom_append, ← selectedRows] at ok
  split at ok
  case isTrue => cases ok
  case isFalse few =>
      rcases bind_ok.mp ok with ⟨nandData, nandWritten, ok⟩
      rcases bind_ok.mp ok with ⟨norData, norWritten, ok⟩
      rcases dataLoop_ok.mp nandWritten with ⟨nandBlocks, nandRelated, rfl⟩
      rcases dataLoop_ok.mp norWritten with ⟨norBlocks, norRelated, rfl⟩
      cases ok
      refine ⟨nand, nor, nandBlocks ++ norBlocks, nandOk, norOk,
        List.rel_append nandRelated norRelated, ?_, ?_, ?_, ?_⟩
      · rw [selectedRows, List.map_append, List.sum_append, ← add_assoc]
        exact norSmall (nandSmall (by decide))
      · rw [imagesFrom_length] at few
        exact not_lt.mp few
      · rw [imagesFrom_length]
        rfl
      · rw [List.flatten_append]

theorem generates {nand nor : List FlashPartInfo} {blocks : List (List Byte)}
    (nandOk : parseNandCfg config files = .ok nand) (norOk : parseNorCfg config files = .ok nor)
    (written : List.Forall₂ (Writes config files)
      (selectedRows config nand nor) blocks)
    (sized : ∀ row ∈ selectedRows config nand nor, 0 ≤ row.imageSize)
    (total : Source.headerSize + ((selectedRows config nand nor).map FlashPartInfo.imageSize).sum <
      2147483648)
    (few : (selectedRows config nand nor).length ≤ maxPart) :
    threadGenerateUpgPktCli config files = .ok (headerOf config (selectedRows config nand nor),
      encodeHeader (headerOf config (selectedRows config nand nor)) ++ blocks.flatten) := by
  rw [selectedRows, List.forall_mem_append] at sized
  rw [selectedRows, List.map_append, List.sum_append, ← add_assoc] at total
  have nandNonneg := List.sum_nonneg (List.forall_mem_map.mpr sized.1)
  have norNonneg := List.sum_nonneg (List.forall_mem_map.mpr sized.2)
  have start : (0 : Int) ≤ Source.headerSize := by decide
  rw [selectedRows] at written
  have nandWritten := (List.forall₂_take_append _ _ _ written.flip).flip
  have norWritten := (List.forall₂_drop_append _ _ _ written.flip).flip
  have nandLoop := headerLoop_of_total start sized.1 (by omega)
  have norLoop := headerLoop_of_total (add_nonneg start nandNonneg) sized.2 total
  have few' : ¬ maxPart < (imagesFrom Source.headerSize (selectedRows config nand nor)).length := by
    rw [imagesFrom_length]
    exact not_lt.mpr few
  apply bind_ok.mpr ⟨nand, nandOk, _⟩
  apply bind_ok.mpr ⟨nor, norOk, _⟩
  apply bind_ok.mpr ⟨_, nandLoop, _⟩
  apply bind_ok.mpr ⟨_, norLoop, _⟩
  simp only
  rw [← imagesFrom_append, ← norRows, ← selectedRows, if_neg few']
  apply bind_ok.mpr ⟨_, dataLoop_ok.mpr ⟨_, nandWritten, rfl⟩, _⟩
  apply bind_ok.mpr ⟨_, dataLoop_ok.mpr ⟨_, norWritten, rfl⟩, _⟩
  rw [← List.flatten_append, List.take_append_drop, imagesFrom_length]
  rfl

/-- The sizes in the header are those of the partitions. -/
theorem sizes_read {parts : List Part} {rows : List FlashPartInfo}
    (read : List.Forall₂ (Reads files) parts rows)
    (short : ∀ part ∈ parts, part.measured files < 2147483648) :
    rows.map FlashPartInfo.imageSize = parts.map (Part.imageSize files) := by
  induction read with
  | nil => rfl
  | cons ok _ ih =>
      rw [List.forall_mem_cons] at short
      rcases info_short short.1 ok with ⟨_, _, _, _, size, _⟩
      rw [List.map_cons, List.map_cons, size, ih short.2]

/-- What is written for partitions that fit. -/
theorem blocks_of_fits {parts : List Part} {rows : List FlashPartInfo}
    (read : List.Forall₂ (Reads files) parts rows)
    (fits : ∀ part ∈ parts, part.Fits config files) :
    ∃ blocks : List (List Byte),
      List.Forall₂ (Writes config files) rows blocks ∧
      List.Forall₂ Sized rows blocks ∧
      List.Forall₂ (Padded config files) parts blocks := by
  induction read with
  | nil => exact ⟨[], .nil, .nil, .nil⟩
  | cons ok _ ih =>
      rw [List.forall_mem_cons] at fits
      rcases info_short fits.1.short ok with ⟨_, _, _, _, size, _⟩
      rcases partData_of_fits ok fits.1 with ⟨data, padding, written, length, same⟩
      rcases ih fits.2 with ⟨blocks, others, lengths, contents⟩
      exact ⟨data :: blocks, .cons written others, .cons (length.trans size.symm) lengths,
        .cons ⟨padding, same⟩ contents⟩

/-- Each image of a package with its partition. -/
theorem carries_of_placed {parts : List Part} {images : List ImageInfo}
    {blocks : List (List Byte)} {package : List Byte}
    (names : List.Forall₂ Named parts images)
    (placed : List.Forall₂ (Placed package) images blocks)
    (contents : List.Forall₂ (Padded config files) parts blocks) :
    List.Forall₂ (Carries config files package) parts images := by
  induction names generalizing blocks with
  | nil => exact .nil
  | cons name _ ih =>
      rcases List.forall₂_cons_left_iff.mp placed with ⟨block, others, here, placed', rfl⟩
      rcases contents with _ | ⟨same, contents'⟩
      refine .cons ⟨name, ?_⟩ (ih placed' contents')
      rw [here]
      exact same

theorem laysOut_of_meets (few : (config.selected files).length ≤ maxPart)
    (meets : Meets config files) : LaysOut config files := by
  rcases readable_iff.mp meets.toReadable with ⟨nand, nor, nandOk, norOk⟩
  have read := selectedRows_read nandOk norOk
  have short : ∀ part ∈ config.selected files, part.measured files < 2147483648 :=
    fun part member => (meets.fits part member).short
  have sizes := sizes_read read short
  rcases blocks_of_fits read meets.fits with ⟨blocks, written, lengths, contents⟩
  have count := read.length_eq
  have sized : ∀ row ∈ selectedRows config nand nor, 0 ≤ row.imageSize := by
    intro row member
    have inside : row.imageSize ∈ (config.selected files).map (Part.imageSize files) := by
      rw [← sizes]
      exact List.mem_map_of_mem member
    rcases List.mem_map.mp inside with ⟨part, selected, size⟩
    have reach := (meets.fits part selected).inside
    omega
  have total := meets.total
  rw [← sizes] at total
  rw [count] at few
  have ok := generates nandOk norOk written sized total few
  have front : (encodeHeader (headerOf config (selectedRows config nand nor))).length =
      Source.headerSize := by
    apply encodeHeader_length
    · rw [headerOf, imagesFrom_length]
      exact few
    · exact names_fit read _
  have placed := images_placed lengths (encodeHeader (headerOf config (selectedRows config nand nor)))
  rw [front] at placed
  refine ⟨_, _, ok, ?_⟩
  constructor
  case front => rw [← front, List.take_left]
  case count => rw [headerOf, count]
  case contiguous => exact imagesFrom_contiguous _ _
  case length =>
      rw [List.length_append, front, Nat.cast_add, flatten_length_of_sized lengths, headerOf,
        imagesFrom_sizes]
  case images => exact carries_of_placed (imagesFrom_names read _) placed contents

/-- A file of 2 GiB is not carried by an image whose size is an `int`. -/
theorem short_of_carries {parts : List Part} {rows : List FlashPartInfo} {package : List Byte}
    (read : List.Forall₂ (Reads files) parts rows)
    {offset : Int}
    (carries : List.Forall₂ (Carries config files package) parts (imagesFrom offset rows))
    (comparable : ∀ part ∈ parts, part.measured files < 2147483648 ∨
      files part.path = files (packedPath config.imageDir part.file)) :
    ∀ part ∈ parts, part.measured files < 2147483648 := by
  induction read generalizing offset with
  | nil =>
      intro part member
      cases member
  | @cons part row parts rows ok _ ih =>
      rw [imagesFrom, List.forall₂_cons] at carries
      rw [List.forall_mem_cons] at comparable ⊢
      refine ⟨?_, ih carries.2 comparable.2⟩
      rcases comparable.1 with short | same
      · exact short
      · rcases carries.1 with ⟨_, padding, slice_⟩
        have lengths := congrArg List.length slice_
        have isInt := imageSize_lt ok
        have whole := measured_of_same same
        simp only [List.length_take, List.length_append] at lengths
        omega

theorem reach_of_written {parts : List Part} {rows : List FlashPartInfo} {blocks : List (List Byte)}
    (read : List.Forall₂ (Reads files) parts rows)
    (written : List.Forall₂ (Writes config files) rows blocks)
    (short : ∀ part ∈ parts, part.measured files < 2147483648) :
    List.Forall₂ Reaches rows blocks := by
  induction read generalizing blocks with
  | nil =>
      cases written
      exact .nil
  | cons ok _ ih =>
      rcases List.forall₂_cons_left_iff.mp written with ⟨block, others, first, rest, rfl⟩
      rw [List.forall_mem_cons] at short
      rcases info_short short.1 ok with ⟨_, _, _, _, size, _⟩
      have least := imageSize_le_length short.1 ok first
      exact .cons (size.le.trans least) (ih rest short.2)

theorem fits_of_carries {parts : List Part} {rows : List FlashPartInfo} {images : List ImageInfo}
    {blocks : List (List Byte)} {package : List Byte}
    (read : List.Forall₂ (Reads files) parts rows)
    (written : List.Forall₂ (Writes config files) rows blocks)
    (sized : List.Forall₂ Sized
      rows blocks)
    (placed : List.Forall₂ (Placed package) images blocks)
    (carries : List.Forall₂ (Carries config files package) parts images)
    (short : ∀ part ∈ parts, part.measured files < 2147483648) :
    ∀ part ∈ parts, part.Fits config files := by
  induction read generalizing blocks images with
  | nil =>
      intro part member
      cases member
  | cons ok _ ih =>
      rcases List.forall₂_cons_left_iff.mp written with ⟨block, others, first, rest, rfl⟩
      rcases List.forall₂_cons_left_iff.mp carries with ⟨image, later, carried, carries', rfl⟩
      rw [List.forall₂_cons] at sized placed
      rw [List.forall_mem_cons] at short ⊢
      rcases info_short short.1 ok with ⟨_, _, _, _, size, _⟩
      rcases carried with ⟨_, padding, same⟩
      rw [placed.1] at same
      have length : (block.length : Int) = _ := Eq.trans sized.1 size
      exact ⟨fits_of_partData ok short.1 first length ⟨padding, same⟩,
        ih rest sized.2 placed.2 carries' short.2⟩

theorem meets_of_laysOut (comparable : Comparable config files) (laysOut : LaysOut config files) :
    Meets config files := by
  rcases laysOut with ⟨header, package, ok, laid⟩
  rcases generated ok with
    ⟨nand, nor, blocks, nandOk, norOk, written, total, few, rfl, rfl⟩
  have read := selectedRows_read nandOk norOk
  have front : (encodeHeader (headerOf config (selectedRows config nand nor))).length =
      Source.headerSize := by
    apply encodeHeader_length
    · rw [headerOf, imagesFrom_length]
      exact few
    · exact names_fit read _
  have short := short_of_carries read laid.images comparable
  have length := laid.length
  rw [List.length_append, front, Nat.cast_add, headerOf, imagesFrom_sizes] at length
  have sized := sized_of_total (reach_of_written read written short) (by omega)
  have placed := images_placed sized (encodeHeader (headerOf config (selectedRows config nand nor)))
  rw [front] at placed
  constructor
  case toReadable => exact readable_iff.mpr ⟨nand, nor, nandOk, norOk⟩
  case fits => exact fits_of_carries read written sized placed laid.images short
  case total =>
      rw [← sizes_read read short]
      exact total

end

/-- Replacing goes wrong only in a directory whose name has ALI.ini in it. -/
theorem measuredPath_eq {imageDir : Path} (file : Path) (plain : ¬ iniName <:+: imageDir) :
    measuredPath imageDir file = packedPath imageDir file := by
  rw [measuredPath, packedPath]
  induction imageDir with
  | nil => simp [replaceFrom, iniName, List.isPrefixOf]
  | cons char rest ih =>
      have inside : ¬ iniName <:+: rest := by
        intro occurs
        exact plain (occurs.trans (List.infix_cons (List.infix_refl rest)))
      -- an occurrence here would reach over the '/', which ALI.ini does not have
      have apart : ¬ iniName <+: char :: rest ++ '/' :: iniName := by
        intro occurs
        rcases List.prefix_or_prefix_of_prefix occurs (List.prefix_append (char :: rest) _) with
          within | over_
        · exact plain within.isInfix
        · rcases over_ with ⟨tail, split_⟩
          rw [← split_, List.prefix_append_right_inj] at occurs
          cases tail with
          | nil =>
              rw [List.append_nil] at split_
              exact plain (split_ ▸ List.infix_refl _)
          | cons first tail =>
              have slash : first = '/' := (List.cons_prefix_cons.mp occurs).1
              have member : '/' ∈ iniName := by
                rw [← split_, ← slash]
                simp
              exact absurd member (by decide)
      have unmatched : ¬ (iniName.isPrefixOf (char :: (rest ++ '/' :: iniName)) = true) := by
        rw [List.isPrefixOf_iff_prefix]
        exact apart
      rw [List.cons_append, replaceFrom, if_neg unmatched, ih inside]
      rfl

theorem fits_of_same {config : Config} {files : Files} {part : Part}
    (same : files part.path = files (packedPath config.imageDir part.file))
    (short : part.measured files < 2147483648)
    (sized : part.measured files = 0 → 0 ≤ part.size) : part.Fits config files := by
  have whole := measured_of_same same
  constructor
  case short => exact short
  case sized => exact sized
  case covers => exact whole.le
  case inside =>
      rw [← whole]
      by_cases none_ : part.measured files = 0
      · rw [Part.imageSize, if_pos none_, none_]
        exact sized none_
      · exact (rounded_bounds none_).1
  case erased =>
      intro byte member
      rw [whole, List.drop_length] at member
      cases member

/-- An image directory and a boot loader that is not in it as it is measured. -/
def bootConfig : Config where
  imageDir := ['i', 'm', 'g']
  norPath := []
  norImages := []
  loader := ['u', 'b', 'o']
  loaderSize := 131072
  nandCount := 1
  nandPart := fun _ => ⟨[107], 131072, ['k'], by decide, by decide⟩
  nandSelect := fun _ => true
  norCount := 0
  norPart := fun _ => ⟨[], 0, [], by decide, by decide⟩
  norSelect := fun _ => false
  packageVer := 1
  downBufferSize := 10
  loaded := by decide
  loaderSizeInt := by decide
  nandFits := fun _ => by decide
  norFits := fun _ => by decide
  loaderFits := by decide
  norPathFits := by decide

/-- The boot loader found by its name, the files of the image directory. -/
def bootFiles (loader loaderInDir kernel : List Byte) : Files := fun path =>
  if path = ['u', 'b', 'o'] then some loader
  else if path = ['i', 'm', 'g', '/', 'u', 'b', 'o'] then some loaderInDir
  else if path = ['i', 'm', 'g', '/', 'k'] then some kernel
  else none

end Alisl.Upgrade.Pack
