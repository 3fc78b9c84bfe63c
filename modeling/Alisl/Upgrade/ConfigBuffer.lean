import Alisl.Upgrade.Config

/-! `__upgrade_parse_config` over the bytes of the header: which entries it reads and
what an error leaves behind. -/

namespace Alisl.Upgrade.Config

open Alisl.Base

/-- `alislupg_header_t` as bytes, seven words and the entries of `image_info`. -/
abbrev HeaderBytes := Vector Byte 2076

/-- An `int` on the little-endian target. -/
def getLeInt (memory : Memory) (at_ : Nat) : Int :=
  let word := (memory at_).toNat + (memory (at_ + 1)).toNat * 256 +
    (memory (at_ + 2)).toNat * 65536 + (memory (at_ + 3)).toNat * 16777216
  if word < 2147483648 then word else (word : Int) - 4294967296

def putLe32 (value : Nat) : List Byte :=
  [byteOf value, byteOf (value / 256), byteOf (value / 65536), byteOf (value / 16777216)]

/-- The allocator, the partitions with their sizes, and what lies behind the local
`header` on the stack. -/
structure Box where
  elemMalloc : Bool
  addMalloc : Nat → Bool
  partinfo : List (List Byte × Nat)
  behind : Memory

/-- The local `header`. -/
def Box.header (box : Box) (buf : HeaderBytes) : Memory :=
  fun address => buf.toList.getD address (box.behind address)

def upgVer (header : Memory) : Int := getLeInt header 0

/-- `part_cnt`, stored in the unsigned `upg_part_num`. -/
def partNum (header : Memory) : Nat := (getLeInt header 8 % 4294967296).toNat

/-- `header.image_info[i]`. -/
def imageInfo (header : Memory) (i : Nat) : ImageInfo where
  imageName := slice header (28 + 32 * i) 24
  imageOffset := getLeInt header (28 + 32 * i + 24)
  imageSize := getLeInt header (28 + 32 * i + 28)

/-- `upg_elem_t` in memory, `next` being NULL. -/
def UpgElem.memory (elem : UpgElem) : List Byte :=
  elem.partName ++ putLe32 elem.imgSize ++ putLe32 (elem.imgOffset % 4294967296).toNat ++ [0, 0, 0, 0]

/-- `alislsto_get_partsize`; the string ends at the first zero byte. -/
def getPartsize (partinfo : List (List Byte × Nat)) (name : List Byte) : Nat :=
  match partinfo.find? (fun part => part.1 = name.takeWhile (· ≠ 0)) with
  | some part => part.2
  | none => 0

/-- What the parse writes of the descriptor. -/
structure ParseDesc where
  elem : List UpgElem
  upgPartNum : Nat
  packageHeader : HeaderBytes
  deriving DecidableEq

/-- What the parse returns, leaves in the descriptor and read of `image_info`. -/
structure ParseResult where
  err : UpgErr
  desc : ParseDesc
  read : List Nat

/-- `upgrade_parse_addelem`. -/
def upgradeParseAddelem (allocated : Bool) (elems : List UpgElem) (elem : UpgElem) : List UpgElem :=
  if allocated then elems ++ [elem] else elems

/-- What the loop ends with: the error, the elements and the entries it read. -/
structure Parts where
  err : UpgErr
  elems : List UpgElem
  read : List Nat

/-- The loop over the partitions, from an index on. -/
def parseParts (box : Box) (header : Memory) : Nat → Nat → List UpgElem → Parts
  | 0, _, elems => ⟨.none, elems, []⟩
  | left + 1, i, elems =>
      let elem := elemOf (imageInfo header i)
      if getPartsize box.partinfo elem.memory < elem.imgSize then ⟨.notEnoughSpace, elems, [i]⟩
      else
        let rest :=
          parseParts box header left (i + 1) (upgradeParseAddelem (box.addMalloc i) elems elem)
        { rest with read := i :: rest.read }

/-- `__upgrade_parse_config`. -/
def upgradeParseConfig (box : Box) (desc : ParseDesc) (buf : HeaderBytes) : ParseResult :=
  if box.elemMalloc then
    let header := box.header buf
    let num := partNum header
    if upgVer header ≠ 40 then
      { err := .invalidPackage, desc := ⟨desc.elem, num, buf⟩, read := [] }
    else
      let parts := parseParts box header num 0 desc.elem
      { err := parts.err, desc := ⟨parts.elems, num, buf⟩, read := parts.read }
  else { err := .notEnoughSpace, desc := desc, read := [] }

section

variable {box : Box} {header : Memory}

/-- The image is not larger than its partition. -/
def Fits (box : Box) (header : Memory) (i : Nat) : Prop :=
  (elemOf (imageInfo header i)).imgSize ≤
    getPartsize box.partinfo (elemOf (imageInfo header i)).memory

/-- The elements added for the images from `i` on. -/
def added (box : Box) (header : Memory) (i left : Nat) : List UpgElem :=
  ((List.range' i left).filter box.addMalloc).map (fun j => elemOf (imageInfo header j))

theorem upgradeParseAddelem_added (i left : Nat) (elems : List UpgElem) :
    upgradeParseAddelem (box.addMalloc i) elems (elemOf (imageInfo header i)) ++
        added box header (i + 1) left =
      elems ++ added box header i (left + 1) := by
  rw [upgradeParseAddelem, added, added, List.range'_succ, List.filter_cons]
  split
  case isTrue => rw [List.map_cons, List.append_assoc, List.singleton_append]
  case isFalse => rfl

theorem parseParts_fits {i left : Nat} {elems : List UpgElem} (fits : Fits box header i) :
    parseParts box header (left + 1) i elems =
      { parseParts box header left (i + 1)
          (upgradeParseAddelem (box.addMalloc i) elems (elemOf (imageInfo header i))) with
        read := i :: (parseParts box header left (i + 1)
          (upgradeParseAddelem (box.addMalloc i) elems (elemOf (imageInfo header i)))).read } := by
  rw [parseParts]
  exact if_neg (Nat.not_lt.mpr fits)

/-- Every image fits: all entries are read, and an element is added wherever one can
be allocated. -/
theorem parseParts_all (left i : Nat) (elems : List UpgElem)
    (fits : ∀ j, i ≤ j → j < i + left → Fits box header j) :
    parseParts box header left i elems =
      ⟨.none, elems ++ added box header i left, List.range' i left⟩ := by
  induction left generalizing i elems with
  | zero => rw [parseParts, added, List.range'_zero, List.filter_nil, List.map_nil, List.append_nil]
  | succ left ih =>
      have first : Fits box header i := fits i (Nat.le_refl i) (by omega)
      have later : ∀ j, i + 1 ≤ j → j < i + 1 + left → Fits box header j :=
        fun j low high => fits j (by omega) (by omega)
      rw [parseParts_fits first, ih _ _ later, upgradeParseAddelem_added, List.range'_succ]

/-- The first image that does not fit ends the loop with the elements of those before. -/
theorem parseParts_large (count left i : Nat) (elems : List UpgElem)
    (fits : ∀ j, i ≤ j → j < i + count → Fits box header j)
    (large : ¬ Fits box header (i + count)) :
    parseParts box header (count + 1 + left) i elems =
      ⟨.notEnoughSpace, elems ++ added box header i count, List.range' i (count + 1)⟩ := by
  induction count generalizing i elems with
  | zero =>
      have start : 0 + 1 + left = left + 1 := by omega
      rw [start, parseParts]
      refine (if_pos (Nat.not_le.mp large)).trans ?_
      rw [added, List.range'_zero, List.filter_nil, List.map_nil, List.append_nil]
      rfl
  | succ count ih =>
      have start : count + 1 + 1 + left = (count + 1 + left) + 1 := by omega
      have first : Fits box header i := fits i (Nat.le_refl i) (by omega)
      have later : ∀ j, i + 1 ≤ j → j < i + 1 + count → Fits box header j :=
        fun j low high => fits j (by omega) (by omega)
      have last : ¬ Fits box header (i + 1 + count) := by
        rw [Nat.add_assoc, Nat.add_comm 1 count]
        exact large
      have entries : List.range' i (count + 1 + 1) = i :: List.range' (i + 1) (count + 1) :=
        List.range'_succ
      rw [start, parseParts_fits first, ih _ _ later last, upgradeParseAddelem_added, entries]

/-- Either every image fits or there is a first one that does not. -/
theorem fits_or_first (box : Box) (header : Memory) (num : Nat) :
    (∀ i < num, Fits box header i) ∨
      ∃ k < num, (∀ i < k, Fits box header i) ∧ ¬ Fits box header k := by
  induction num with
  | zero => exact .inl (fun i inside => absurd inside (Nat.not_lt_zero i))
  | succ num ih =>
      rcases ih with fits | ⟨k, inside, before, large⟩
      · by_cases last : Fits box header num
        · apply Or.inl
          intro i inside
          rcases Nat.lt_succ_iff_lt_or_eq.mp inside with below | rfl
          · exact fits i below
          · exact last
        · exact .inr ⟨num, Nat.lt_succ_self num, fits, last⟩
      · exact .inr ⟨k, Nat.lt_succ_of_lt inside, before, large⟩

theorem parseParts_whole (num : Nat) (elems : List UpgElem) (fits : ∀ i < num, Fits box header i) :
    parseParts box header num 0 elems =
      ⟨.none, elems ++ added box header 0 num, List.range' 0 num⟩ :=
  parseParts_all num 0 elems (fun j _ high => fits j (by omega))

theorem parseParts_first {num k : Nat} (elems : List UpgElem) (inside : k < num)
    (before : ∀ i < k, Fits box header i) (large : ¬ Fits box header k) :
    parseParts box header num 0 elems =
      ⟨.notEnoughSpace, elems ++ added box header 0 k, List.range' 0 (k + 1)⟩ := by
  have parts : k + 1 + (num - (k + 1)) = num := by omega
  have fits : ∀ j, 0 ≤ j → j < 0 + k → Fits box header j := fun j _ high => before j (by omega)
  have last : ¬ Fits box header (0 + k) := by
    rw [Nat.zero_add]
    exact large
  have whole := parseParts_large k (num - (k + 1)) 0 elems fits last
  rw [parts] at whole
  exact whole

/-- As many elements as images only if none of them is left out. -/
theorem added_all (num : Nat) :
    added box header 0 num = (List.range num).map (fun i => elemOf (imageInfo header i)) ↔
      ∀ i < num, box.addMalloc i = true := by
  rw [added, ← List.range_eq_range']
  constructor
  · intro same i inside
    have length := congrArg List.length same
    rw [List.length_map, List.length_map] at length
    exact List.length_filter_eq_length_iff.mp length i (List.mem_range.mpr inside)
  · intro allocated
    have all : ∀ i ∈ List.range num, box.addMalloc i = true :=
      fun i member => allocated i (List.mem_range.mp member)
    rw [List.filter_eq_self.mpr all]

theorem added_nil (num : Nat) :
    added box header 0 num = [] ↔ ∀ i < num, box.addMalloc i = false := by
  rw [added, ← List.range_eq_range', List.map_eq_nil_iff, List.filter_eq_nil_iff]
  simp only [List.mem_range, Bool.not_eq_true]

end

/-- What the parse is to do: without an error it has read entries of `image_info` only
and added one element for each image, none larger than its partition; an error leaves
the descriptor as it was. -/
structure ParseLaw (box : Box) (desc : ParseDesc) (buf : HeaderBytes) : Prop where
  entries : (upgradeParseConfig box desc buf).err = .none →
    ∀ i ∈ (upgradeParseConfig box desc buf).read, i < maxPart
  extended : (upgradeParseConfig box desc buf).err = .none →
    (upgradeParseConfig box desc buf).desc.elem = desc.elem ++
      (List.range (partNum (box.header buf))).map (fun i => elemOf (imageInfo (box.header buf) i))
  fits : (upgradeParseConfig box desc buf).err = .none →
    ∀ i < partNum (box.header buf), Fits box (box.header buf) i
  unchanged : (upgradeParseConfig box desc buf).err ≠ .none →
    (upgradeParseConfig box desc buf).desc = desc

/-- The header is already the stored one. -/
def Stored (box : Box) (desc : ParseDesc) (buf : HeaderBytes) : Prop :=
  desc.packageHeader = buf ∧ desc.upgPartNum = partNum (box.header buf)

/-- A refused header is already the stored one, and no element is allocated ahead of an
image that does not fit; if all fit, there is an entry and an element for each. -/
structure ParseKept (box : Box) (desc : ParseDesc) (buf : HeaderBytes) : Prop where
  version : upgVer (box.header buf) ≠ 40 → Stored box desc buf
  counted : upgVer (box.header buf) = 40 →
    (∀ i < partNum (box.header buf), Fits box (box.header buf) i) →
      partNum (box.header buf) ≤ maxPart ∧
      ∀ i < partNum (box.header buf), box.addMalloc i = true
  large : upgVer (box.header buf) = 40 → ∀ k < partNum (box.header buf),
    (∀ i < k, Fits box (box.header buf) i) → ¬ Fits box (box.header buf) k →
      Stored box desc buf ∧ ∀ i < k, box.addMalloc i = false

section

variable {box : Box} {desc : ParseDesc} {buf : HeaderBytes}

theorem upgradeParseConfig_version (allocated : box.elemMalloc = true)
    (version : upgVer (box.header buf) ≠ 40) :
    upgradeParseConfig box desc buf =
      { err := .invalidPackage, desc := ⟨desc.elem, partNum (box.header buf), buf⟩, read := [] } := by
  rw [upgradeParseConfig, if_pos allocated]
  dsimp only
  rw [if_pos version]

theorem upgradeParseConfig_parts (allocated : box.elemMalloc = true)
    (version : upgVer (box.header buf) = 40) {parts : Parts}
    (parsed : parseParts box (box.header buf) (partNum (box.header buf)) 0 desc.elem = parts) :
    upgradeParseConfig box desc buf =
      { err := parts.err
        desc := ⟨parts.elems, partNum (box.header buf), buf⟩
        read := parts.read } := by
  rw [upgradeParseConfig, if_pos allocated]
  dsimp only
  rw [if_neg (not_not.mpr version), parsed]

theorem stored_iff (elems : List UpgElem) :
    (⟨elems, partNum (box.header buf), buf⟩ : ParseDesc) = desc ↔ elems = desc.elem ∧ Stored box desc buf := by
  cases desc with
  | mk elem upgPartNum packageHeader =>
      simp only [ParseDesc.mk.injEq, Stored]
      constructor
      · rintro ⟨rfl, rfl, rfl⟩
        exact ⟨rfl, rfl, rfl⟩
      · rintro ⟨rfl, rfl, rfl⟩
        exact ⟨rfl, rfl, rfl⟩

/-! ### One case for each way out -/

theorem parseLaw_unallocated (missing : ¬ box.elemMalloc = true) : ParseLaw box desc buf := by
  have result : upgradeParseConfig box desc buf =
      { err := .notEnoughSpace, desc := desc, read := [] } := by
    rw [upgradeParseConfig, if_neg missing]
  constructor
  all_goals rw [result]
  case unchanged =>
      intro _
      rfl
  all_goals
    intro done
    cases done

theorem parseLaw_version (allocated : box.elemMalloc = true)
    (version : upgVer (box.header buf) ≠ 40) :
    ParseLaw box desc buf ↔ Stored box desc buf := by
  have result : upgradeParseConfig box desc buf =
      { err := .invalidPackage, desc := ⟨desc.elem, partNum (box.header buf), buf⟩, read := [] } :=
    upgradeParseConfig_version allocated version
  constructor
  · intro law
    have same := law.unchanged
    rw [result] at same
    have refused : UpgErr.invalidPackage ≠ .none := by decide
    exact ((stored_iff desc.elem).mp (same refused)).2
  · intro stored
    constructor
    all_goals rw [result]
    case unchanged => exact fun _ => (stored_iff desc.elem).mpr ⟨rfl, stored⟩
    all_goals
      intro done
      cases done

theorem parseLaw_fits (allocated : box.elemMalloc = true) (version : upgVer (box.header buf) = 40)
    (fits : ∀ i < partNum (box.header buf), Fits box (box.header buf) i) :
    ParseLaw box desc buf ↔ partNum (box.header buf) ≤ maxPart ∧
      ∀ i < partNum (box.header buf), box.addMalloc i = true := by
  have result := upgradeParseConfig_parts allocated version (parseParts_whole _ desc.elem fits)
  constructor
  · intro law
    have entries := law.entries
    have extended := law.extended
    rw [result] at entries extended
    constructor
    · by_contra many
      have last : maxPart ∈ List.range' 0 (partNum (box.header buf)) := by
        rw [List.mem_range'_1]
        omega
      exact Nat.lt_irrefl _ (entries rfl maxPart last)
    · exact (added_all _).mp (List.append_cancel_left (extended rfl))
  · rintro ⟨counted, added⟩
    constructor
    all_goals rw [result]
    case entries =>
        intro _ i member
        rw [List.mem_range'_1] at member
        omega
    case extended =>
        intro _
        rw [(added_all _).mpr added]
    case fits => exact fun _ => fits
    case unchanged => exact fun failed => absurd rfl failed

theorem parseLaw_large (allocated : box.elemMalloc = true) (version : upgVer (box.header buf) = 40)
    {k : Nat} (inside : k < partNum (box.header buf))
    (before : ∀ i < k, Fits box (box.header buf) i) (large : ¬ Fits box (box.header buf) k) :
    ParseLaw box desc buf ↔ Stored box desc buf ∧ ∀ i < k, box.addMalloc i = false := by
  have result := upgradeParseConfig_parts allocated version
    (parseParts_first desc.elem inside before large)
  have unchanged : ((⟨desc.elem ++ added box (box.header buf) 0 k, partNum (box.header buf), buf⟩ :
      ParseDesc) = desc) ↔ Stored box desc buf ∧ ∀ i < k, box.addMalloc i = false := by
    have empty : added box (box.header buf) 0 k = [] ↔ ∀ i < k, box.addMalloc i = false :=
      added_nil k
    rw [stored_iff, ← empty, List.append_right_eq_self, and_comm]
  constructor
  · intro law
    have same := law.unchanged
    rw [result] at same
    have refused : UpgErr.notEnoughSpace ≠ .none := by decide
    exact unchanged.mp (same refused)
  · intro kept
    constructor
    all_goals rw [result]
    case unchanged => exact fun _ => unchanged.mpr kept
    all_goals
      intro done
      cases done

/-- The parse does what it is to do exactly when a header that it refuses changes
nothing and one that it accepts counts its entries and gets all its elements. -/
theorem parse_config_iff (box : Box) (desc : ParseDesc) (buf : HeaderBytes) :
    ParseLaw box desc buf ↔ (box.elemMalloc = true → ParseKept box desc buf) := by
  by_cases allocated : box.elemMalloc = true
  · by_cases version : upgVer (box.header buf) = 40
    · rcases fits_or_first box (box.header buf) (partNum (box.header buf)) with
        fits | ⟨k, inside, before, large⟩
      · rw [parseLaw_fits allocated version fits]
        constructor
        · intro counted _
          exact ⟨fun other => absurd version other, fun _ _ => counted,
            fun _ k inside _ large => absurd (fits k inside) large⟩
        · intro kept
          exact (kept allocated).counted version fits
      · rw [parseLaw_large allocated version inside before large]
        constructor
        · intro unchanged _
          constructor
          case version => exact fun other => absurd version other
          case counted => exact fun _ fits => absurd (fits k inside) large
          case large =>
              intro _ first _ firstBefore firstLarge
              have same : first = k := by
                rcases Nat.lt_trichotomy first k with below | same | above
                · exact absurd (before first below) firstLarge
                · exact same
                · exact absurd (firstBefore k above) large
              rw [same]
              exact unchanged
        · intro kept
          exact (kept allocated).large version k inside before large
    · rw [parseLaw_version allocated version]
      constructor
      · intro stored _
        exact ⟨fun _ => stored, fun other => absurd other version, fun other => absurd other version⟩
      · intro kept
        exact (kept allocated).version version
  · constructor
    · exact fun _ other => absurd other allocated
    · exact fun _ => parseLaw_unallocated allocated

end

/-- A header of another version. -/
def otherVersion : HeaderBytes := Vector.replicate 2076 1

def plainBox : Box where
  elemMalloc := true
  addMalloc := fun _ => true
  partinfo := []
  behind := fun _ => 0

def emptyDesc : ParseDesc where
  elem := []
  upgPartNum := 0
  packageHeader := Vector.replicate 2076 0

/-- A header of another version is refused and stored. -/
theorem refused_header_stored :
    ¬ ∀ (box : Box) (desc : ParseDesc) (buf : HeaderBytes), ParseLaw box desc buf := by
  intro claimed
  have byte : ∀ address < 2076, plainBox.header otherVersion address = 1 := by
    intro address inside
    rw [Box.header, otherVersion, Vector.toList_replicate, List.getD_eq_getElem?_getD,
      List.getElem?_replicate, if_pos inside, Option.getD_some]
  have version : upgVer (plainBox.header otherVersion) ≠ 40 := by
    rw [upgVer, getLeInt, byte 0 (by omega), byte (0 + 1) (by omega), byte (0 + 2) (by omega),
      byte (0 + 3) (by omega)]
    decide
  have stored := (parseLaw_version rfl version).mp (claimed plainBox emptyDesc otherVersion)
  have first := congrArg (fun bytes => bytes[0]) stored.1
  simp [emptyDesc, otherVersion] at first

/-! ### The header as the calls on a handle see it -/

def Box.headerOf (box : Box) (buf : HeaderBytes) : Header where
  upgVer := upgVer (box.header buf)
  packageVer := getLeInt (box.header buf) 4
  partCnt := getLeInt (box.header buf) 8
  otaDownBufSize := getLeInt (box.header buf) 12
  imageInfo := (List.range maxPart).map (imageInfo (box.header buf))
  full := by rw [List.length_map, List.length_range]

def Box.reply (box : Box) (buf : HeaderBytes) : Reply where
  bufMalloc := true
  getcfg := some (box.headerOf buf)
  elemMalloc := box.elemMalloc
  addMalloc := box.addMalloc
  partSize := getPartsize box.partinfo
  behind := imageInfo (box.header buf)

theorem reply_imageAt (box : Box) (buf : HeaderBytes) (i : Nat) :
    (box.reply buf).imageAt (box.headerOf buf) i = imageInfo (box.header buf) i := by
  rw [Reply.imageAt, Box.headerOf, Box.reply, List.getD_eq_getElem?_getD, List.getElem?_map]
  by_cases inside : i < maxPart
  · rw [List.getElem?_range inside]
    rfl
  · have beyond : (List.range maxPart).length ≤ i := by
      rw [List.length_range]
      exact Nat.not_lt.mp inside
    rw [List.getElem?_eq_none beyond]
    rfl

/-- A name that ends inside its field is the name `strcmp` sees. -/
theorem getPartsize_memory (partinfo : List (List Byte × Nat)) (elem : UpgElem)
    (ends : 0 ∈ elem.partName) :
    getPartsize partinfo elem.memory = getPartsize partinfo elem.partName := by
  have name : ∀ front rest : List Byte, 0 ∈ front →
      (front ++ rest).takeWhile (· ≠ 0) = front.takeWhile (· ≠ 0) := by
    intro front rest present
    induction front with
    | nil => cases present
    | cons byte front ih =>
        rw [List.cons_append, List.takeWhile_cons, List.takeWhile_cons]
        by_cases zero : byte = 0
        · simp [zero]
        · have later : 0 ∈ front := (List.mem_cons.mp present).resolve_left (Ne.symm zero)
          rw [ih later]
  rw [getPartsize, getPartsize, UpgElem.memory, List.append_assoc, List.append_assoc, name _ _ ends]

theorem parseImages_parseParts (box : Box) (buf : HeaderBytes)
    (ends : ∀ i, 0 ∈ (imageInfo (box.header buf) i).imageName) (left i : Nat)
    (elems : List UpgElem) :
    parseImages (box.reply buf) (box.headerOf buf) left i elems =
      ((parseParts box (box.header buf) left i elems).err,
        (parseParts box (box.header buf) left i elems).elems) := by
  induction left generalizing i elems with
  | zero => rfl
  | succ left ih =>
      have size := getPartsize_memory box.partinfo (elemOf (imageInfo (box.header buf) i)) (ends i)
      rw [parseImages, parseParts, reply_imageAt]
      simp only [size]
      by_cases large : getPartsize box.partinfo (elemOf (imageInfo (box.header buf) i)).partName <
          (elemOf (imageInfo (box.header buf) i)).imgSize
      · rw [if_pos large]
        exact if_pos large
      · rw [if_neg large]
        refine (if_neg large).trans ?_
        exact ih _ _

/-- The loop over the bytes has the same end. -/
theorem parseImages_same (box : Box) (buf : HeaderBytes)
    (ends : ∀ i, 0 ∈ (imageInfo (box.header buf) i).imageName) (left i : Nat)
    (elems : List UpgElem) :
    ∃ parts : Parts, parseParts box (box.header buf) left i elems = parts ∧
      parseImages (box.reply buf) (box.headerOf buf) left i elems = (parts.err, parts.elems) :=
  ⟨_, rfl, parseImages_parseParts box buf ends left i elems⟩

theorem upgradeParseHeader_version {reply : Reply} {desc : Desc} {header : Header}
    (allocated : reply.elemMalloc = true) (version : header.upgVer ≠ 40) :
    upgradeParseHeader reply desc header =
      (.invalidPackage, { desc with packageHeader := header, upgPartNum := header.partNum }) := by
  rw [upgradeParseHeader, if_pos allocated]
  exact if_pos version

theorem upgradeParseHeader_parts {reply : Reply} {desc : Desc} {header : Header}
    (allocated : reply.elemMalloc = true) (version : header.upgVer = 40) :
    upgradeParseHeader reply desc header =
      ((parseImages reply header header.partNum 0 desc.elem).1,
        { desc with
          packageHeader := header
          upgPartNum := header.partNum
          elem := (parseImages reply header header.partNum 0 desc.elem).2 }) := by
  rw [upgradeParseHeader, if_pos allocated]
  exact if_neg (not_not.mpr version)

/-- On names that end inside their fields the parse of the bytes is the parse of the
header they stand for. -/
theorem upgradeParseHeader_bytes (box : Box) (buf stored : HeaderBytes) (desc : Desc)
    (ends : ∀ i, 0 ∈ (imageInfo (box.header buf) i).imageName) :
    (upgradeParseHeader (box.reply buf) desc (box.headerOf buf)).1 =
      (upgradeParseConfig box ⟨desc.elem, desc.upgPartNum, stored⟩ buf).err ∧
    (upgradeParseHeader (box.reply buf) desc (box.headerOf buf)).2.elem =
      (upgradeParseConfig box ⟨desc.elem, desc.upgPartNum, stored⟩ buf).desc.elem ∧
    (upgradeParseHeader (box.reply buf) desc (box.headerOf buf)).2.upgPartNum =
      (upgradeParseConfig box ⟨desc.elem, desc.upgPartNum, stored⟩ buf).desc.upgPartNum := by
  have num : (box.headerOf buf).partNum = partNum (box.header buf) := rfl
  have malloc : (box.reply buf).elemMalloc = box.elemMalloc := rfl
  by_cases allocated : box.elemMalloc = true
  · by_cases version : upgVer (box.header buf) = 40
    · obtain ⟨parts, parsed, loop⟩ :=
        parseImages_same box buf ends (partNum (box.header buf)) 0 desc.elem
      have bytes : upgradeParseConfig box ⟨desc.elem, desc.upgPartNum, stored⟩ buf =
          { err := parts.err
            desc := ⟨parts.elems, partNum (box.header buf), buf⟩
            read := parts.read } := upgradeParseConfig_parts allocated version parsed
      rw [upgradeParseHeader_parts allocated version, num, loop, bytes]
      exact ⟨rfl, rfl, rfl⟩
    · rw [upgradeParseHeader_version allocated version, num,
        upgradeParseConfig_version allocated version]
      exact ⟨rfl, rfl, rfl⟩
  · rw [upgradeParseHeader, malloc, if_neg allocated, upgradeParseConfig, if_neg allocated]
    exact ⟨rfl, rfl, rfl⟩

end Alisl.Upgrade.Config
