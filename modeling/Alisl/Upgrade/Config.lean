import Alisl.Base.Machine
import Alisl.Upgrade.Tune

/-! The configuration of an upgrade handle: the header of the package and the list
of elements parsed from it, over any sequence of calls on the handle. -/

namespace Alisl.Upgrade.Config

open Alisl.Base

structure ImageInfo where
  imageName : List Byte
  imageOffset : Int
  imageSize : Int
  deriving DecidableEq, Repr

def maxPart : Nat := 64

structure Header where
  upgVer : Int
  packageVer : Int
  partCnt : Int
  otaDownBufSize : Int
  imageInfo : List ImageInfo
  full : imageInfo.length = maxPart

/-- `upg_part_num` is unsigned. -/
def Header.partNum (header : Header) : Nat := (header.partCnt % 4294967296).toNat

structure UpgElem where
  partName : List Byte
  imgSize : Nat
  imgOffset : Int
  deriving DecidableEq, Repr

/-- `img_size` is unsigned. -/
def elemOf (image : ImageInfo) : UpgElem :=
  ⟨image.imageName, (image.imageSize % 4294967296).toNat, image.imageOffset⟩

/-- The images that the header counts. -/
def Header.images (header : Header) : List ImageInfo := header.imageInfo.take header.partNum

structure Desc where
  configGot : Bool
  elem : List UpgElem
  upgPartNum : Nat
  packageHeader : Header
  tune : Bool

/-- What the plugin, the allocator and the flash answer while a configuration is
read; `behind` is what lies behind the header on the stack. -/
structure Reply where
  bufMalloc : Bool
  getcfg : Option Header
  elemMalloc : Bool
  addMalloc : Nat → Bool
  partSize : List Byte → Nat
  behind : Nat → ImageInfo

def Reply.imageAt (reply : Reply) (header : Header) (i : Nat) : ImageInfo :=
  header.imageInfo.getD i (reply.behind i)

/-- The loop over the images. An image that is too large ends it with the elements
added so far; an element that cannot be allocated is left out. -/
def parseImages (reply : Reply) (header : Header) : Nat → Nat → List UpgElem → UpgErr × List UpgElem
  | 0, _, elems => (.none, elems)
  | left + 1, i, elems =>
      let elem := elemOf (reply.imageAt header i)
      if reply.partSize elem.partName < elem.imgSize then (.notEnoughSpace, elems)
      else parseImages reply header left (i + 1)
        (if reply.addMalloc i then elems ++ [elem] else elems)

def upgradeParseHeader (reply : Reply) (desc : Desc) (header : Header) : UpgErr × Desc :=
  if reply.elemMalloc then
    let stored := { desc with packageHeader := header, upgPartNum := header.partNum }
    if header.upgVer ≠ 40 then (.invalidPackage, stored)
    else
      let (err, elems) := parseImages reply header header.partNum 0 desc.elem
      (err, { stored with elem := elems })
  else (.notEnoughSpace, desc)

def upgradeGetConfig (reply : Reply) (desc : Desc) : UpgErr × Desc :=
  if reply.bufMalloc then
    match reply.getcfg with
    | none => (.cantGetCfg, desc)
    | some header => upgradeParseHeader reply desc header
  else (.notEnoughSpace, desc)

/-- How `alislupg_start`, `alislupg_get_upgrade_parts` and
`alislupg_get_upgrade_info` begin. -/
def ensureConfig (reply : Reply) (desc : Desc) : UpgErr × Desc :=
  if desc.configGot then (.none, desc)
  else
    let (err, desc) := upgradeGetConfig reply desc
    if err = .none then (.none, { desc with configGot := true }) else (err, desc)

/-- The walk of `alislupg_get_upgrade_parts`; `none` is a step behind the last
element. -/
def walkParts : Nat → List UpgElem → Option (List (List Byte))
  | 0, _ => some []
  | _ + 1, [] => none
  | left + 1, elem :: rest => (walkParts left rest).map (fun names => elem.partName :: names)

def destroyElem (desc : Desc) : Desc := { desc with elem := [] }

inductive Call where
  | start (reply : Reply)
  | getUpgradeParts (reply : Reply)
  | getUpgradeInfo (reply : Reply)
  | stop
  | abort

def next (desc : Desc) : Call → Option Desc
  | .start reply => some (ensureConfig reply desc).2
  | .getUpgradeParts reply =>
      let (err, desc) := ensureConfig reply desc
      if err = .none then (walkParts desc.upgPartNum desc.elem).map (fun _ => desc) else some desc
  | .getUpgradeInfo reply => some (ensureConfig reply desc).2
  | .stop => some (destroyElem desc)
  | .abort => some (if desc.tune then destroyElem desc else desc)

/-- A handle as `alislupg_construct` leaves it. -/
def machine : Machine Desc Call where
  Initial desc := desc.configGot = false ∧ desc.elem = [] ∧ desc.upgPartNum = 0 ∧ desc.tune = true
  next := next

/-- The elements are the images of the stored header. -/
structure Matches (desc : Desc) : Prop where
  count : desc.upgPartNum = desc.packageHeader.partNum
  length : desc.elem.length = desc.upgPartNum
  images : desc.elem = desc.packageHeader.images.map elemOf

def Consistent (desc : Desc) : Prop := desc.configGot = true → Matches desc

/-- The header is parsed to its end. -/
structure Accepted (reply : Reply) (header : Header) : Prop where
  buf : reply.bufMalloc = true
  got : reply.getcfg = some header
  elem : reply.elemMalloc = true
  version : header.upgVer = 40
  fits : ∀ i < header.partNum, (elemOf (reply.imageAt header i)).imgSize ≤
    reply.partSize (reply.imageAt header i).imageName

/-- A list for the header can be built: nothing is left of an earlier one, every
element is allocated and the header has all the images it counts. -/
structure Buildable (reply : Reply) (desc : Desc) (header : Header) : Prop where
  fresh : desc.elem = []
  allocated : ∀ i < header.partNum, reply.addMalloc i = true
  counted : header.partNum ≤ maxPart

def ParseMeets (reply : Reply) (desc : Desc) : Prop :=
  desc.configGot = false → ∀ header, Accepted reply header → Buildable reply desc header

/-- A list that a configuration stands for is destroyed only if it is empty. -/
def Meets (desc : Desc) : Call → Prop
  | .start reply => ParseMeets reply desc
  | .getUpgradeParts reply => ParseMeets reply desc
  | .getUpgradeInfo reply => ParseMeets reply desc
  | .stop => desc.configGot = true → desc.upgPartNum = 0
  | .abort => desc.configGot = true → desc.tune = true → desc.upgPartNum = 0

noncomputable instance (desc : Desc) (call : Call) : Decidable (Meets desc call) :=
  Classical.propDecidable _

/-- Every element the call wants to add can be allocated. -/
def Call.Allocates : Call → Prop
  | .start reply => ∀ i, reply.addMalloc i = true
  | .getUpgradeParts reply => ∀ i, reply.addMalloc i = true
  | .getUpgradeInfo reply => ∀ i, reply.addMalloc i = true
  | .stop => True
  | .abort => True

/-! What a parsed header leaves behind. -/

/-- The elements added for images from `i` on. -/
def kept (reply : Reply) (header : Header) (i left : Nat) : List UpgElem :=
  ((List.range' i left).filter reply.addMalloc).map (fun j => elemOf (reply.imageAt header j))

section

variable {reply : Reply} {header : Header}

theorem kept_succ (i left : Nat) : kept reply header i (left + 1) =
    (if reply.addMalloc i then [elemOf (reply.imageAt header i)] else []) ++
      kept reply header (i + 1) left := by
  rw [kept, List.range'_succ, List.filter_cons]
  split
  case isTrue => rfl
  case isFalse => rfl

/-- The loop ends without an error exactly if every image fits. -/
theorem parseImages_none (left i : Nat) (elems : List UpgElem) :
    (parseImages reply header left i elems).1 = .none ↔
      ∀ j, i ≤ j → j < i + left → (elemOf (reply.imageAt header j)).imgSize ≤
        reply.partSize (reply.imageAt header j).imageName := by
  induction left generalizing i elems with
  | zero =>
      constructor
      · intro _ j low high
        omega
      · intro _
        rfl
  | succ left ih =>
      rw [parseImages]
      split
      case isTrue large =>
          constructor
          · intro failed
            cases failed
          · intro fits
            exact absurd (fits i (le_refl i) (by omega)) (not_le.mpr large)
      case isFalse small =>
          rw [ih]
          constructor
          · intro fits j low high
            rcases Nat.eq_or_lt_of_le low with rfl | above
            · exact not_lt.mp small
            · exact fits j above (by omega)
          · intro fits j low high
            exact fits j (by omega) (by omega)

theorem parseImages_elems (left i : Nat) (elems : List UpgElem)
    (done : (parseImages reply header left i elems).1 = .none) :
    (parseImages reply header left i elems).2 = elems ++ kept reply header i left := by
  induction left generalizing i elems with
  | zero => exact (List.append_nil elems).symm
  | succ left ih =>
      rw [parseImages] at done ⊢
      split at done
      case isTrue => cases done
      case isFalse small =>
          rw [if_neg small, ih _ _ done, kept_succ, ← List.append_assoc]
          split
          case isTrue => rfl
          case isFalse => rw [List.append_nil]

/-- A configuration that was read without an error. -/
def parsed (reply : Reply) (header : Header) (desc : Desc) : Desc :=
  { desc with
    packageHeader := header
    upgPartNum := header.partNum
    elem := desc.elem ++ kept reply header 0 header.partNum }

theorem upgradeGetConfig_none {desc : Desc} (done : (upgradeGetConfig reply desc).1 = .none) :
    ∃ header, Accepted reply header ∧ (upgradeGetConfig reply desc).2 = parsed reply header desc := by
  rw [upgradeGetConfig] at done ⊢
  split at done
  case isTrue buf =>
      rw [if_pos buf]
      cases got : reply.getcfg with
      | none =>
          rw [got] at done
          cases done
      | some header =>
          simp only [got] at done ⊢
          rw [upgradeParseHeader] at done ⊢
          split at done
          case isTrue allocated =>
              rw [if_pos allocated]
              simp only at done ⊢
              split at done
              case isTrue => cases done
              case isFalse version =>
                  rw [if_neg version]
                  have fits := (parseImages_none _ _ _).mp done
                  refine ⟨header, ⟨buf, got, allocated, not_not.mp version, ?_⟩, ?_⟩
                  · intro i inside
                    exact fits i (Nat.zero_le i) (by omega)
                  · rw [parsed, ← parseImages_elems _ _ _ done]
          case isFalse => cases done
  case isFalse => cases done

theorem upgradeGetConfig_accepted {desc : Desc} (accepted : Accepted reply header) :
    (upgradeGetConfig reply desc).1 = .none := by
  rw [upgradeGetConfig, if_pos accepted.buf, accepted.got]
  simp only
  rw [upgradeParseHeader, if_pos accepted.elem]
  simp only
  rw [if_neg (not_not.mpr accepted.version)]
  apply (parseImages_none _ _ _).mpr
  intro j _ high
  exact accepted.fits j (by omega)

theorem upgradeGetConfig_configGot (desc : Desc) :
    (upgradeGetConfig reply desc).2.configGot = desc.configGot := by
  rw [upgradeGetConfig]
  split
  case isTrue =>
      split
      case h_1 => rfl
      case h_2 header =>
          rw [upgradeParseHeader]
          split
          case isTrue =>
              simp only
              split
              case isTrue => rfl
              case isFalse => rfl
          case isFalse => rfl
  case isFalse => rfl

/-- What a call does before it goes on: nothing, or a whole configuration, or a
failure that leaves `config_got` false. -/
theorem ensureConfig_cases (reply : Reply) (desc : Desc) :
    (desc.configGot = true ∧ ensureConfig reply desc = (.none, desc)) ∨
    (desc.configGot = false ∧ ∃ header, Accepted reply header ∧
      ensureConfig reply desc = (.none, { parsed reply header desc with configGot := true })) ∨
    (desc.configGot = false ∧ (∀ header, ¬ Accepted reply header) ∧
      (ensureConfig reply desc).1 ≠ .none ∧ (ensureConfig reply desc).2.configGot = false) := by
  rw [ensureConfig]
  split
  case isTrue got => exact .inl ⟨got, rfl⟩
  case isFalse missing =>
      rw [Bool.not_eq_true] at missing
      apply Or.inr
      simp only
      split
      case isTrue done =>
          rcases upgradeGetConfig_none done with ⟨header, accepted, result⟩
          exact .inl ⟨missing, header, accepted, by rw [result]⟩
      case isFalse failed =>
          refine .inr ⟨missing, ?_, failed, ?_⟩
          · intro header accepted
            exact failed (upgradeGetConfig_accepted accepted)
          · exact (upgradeGetConfig_configGot desc).trans missing

theorem kept_length (allocates : ∀ i, reply.addMalloc i = true) (i left : Nat) :
    (kept reply header i left).length = left := by
  rw [kept, List.filter_eq_self.mpr (fun j _ => allocates j), List.length_map, List.length_range']

theorem kept_images (allocated : ∀ i < header.partNum, reply.addMalloc i = true)
    (counted : header.partNum ≤ maxPart) :
    kept reply header 0 header.partNum = header.images.map elemOf := by
  have all : ∀ j ∈ List.range' 0 header.partNum, reply.addMalloc j = true := by
    intro j member
    rw [List.mem_range'_1] at member
    exact allocated j (by omega)
  have length : header.imageInfo.length = maxPart := header.full
  rw [kept, List.filter_eq_self.mpr all, Header.images]
  apply List.ext_getElem
  · simp only [List.length_map, List.length_range', List.length_take]
    omega
  · intro i inside _
    rw [List.length_map, List.length_range'] at inside
    have present : i < header.imageInfo.length := by omega
    simp [Reply.imageAt, present]

end

/-! Runs. -/

theorem matches_of_buildable {reply : Reply} {header : Header} {desc : Desc}
    (buildable : Buildable reply desc header) :
    Matches { parsed reply header desc with configGot := true } := by
  have images := kept_images buildable.allocated buildable.counted
  have length : header.imageInfo.length = maxPart := header.full
  have counted := buildable.counted
  constructor
  case count => rfl
  case length =>
      simp only [parsed, buildable.fresh, List.nil_append, images, List.length_map, Header.images,
        List.length_take]
      omega
  case images => rw [parsed, buildable.fresh, List.nil_append, images]

theorem buildable_of_matches {reply : Reply} {header : Header} {desc : Desc}
    (allocates : ∀ i, reply.addMalloc i = true)
    (matched : Matches { parsed reply header desc with configGot := true }) :
    Buildable reply desc header := by
  have whole := matched.length
  have images := congrArg List.length matched.images
  have length : header.imageInfo.length = maxPart := header.full
  simp only [parsed, List.length_append, kept_length allocates, List.length_map, Header.images,
    List.length_take] at whole images
  constructor
  case fresh => exact List.eq_nil_of_length_eq_zero (by omega)
  case allocated => exact fun i _ => allocates i
  case counted => omega

/-- The beginning of a call keeps the configuration consistent if it meets the
condition. -/
theorem ensureConfig_consistent {reply : Reply} {desc : Desc} (meets : ParseMeets reply desc)
    (consistent : Consistent desc) : Consistent (ensureConfig reply desc).2 := by
  rcases ensureConfig_cases reply desc with
    ⟨_, result⟩ | ⟨missing, header, accepted, result⟩ | ⟨_, _, _, missing⟩
  · rw [result]
    exact consistent
  · rw [result]
    intro _
    exact matches_of_buildable (meets missing header accepted)
  · intro got
    rw [missing] at got
    cases got

theorem ensureConfig_inconsistent {reply : Reply} {desc : Desc} (fails : ¬ ParseMeets reply desc)
    (allocates : ∀ i, reply.addMalloc i = true) : ¬ Consistent (ensureConfig reply desc).2 := by
  intro consistent
  apply fails
  intro missing header accepted
  rcases ensureConfig_cases reply desc with
    ⟨got, _⟩ | ⟨_, other, accepted', result⟩ | ⟨_, refused, _, _⟩
  · rw [missing] at got
    cases got
  · have same : other = header := Option.some.inj (accepted'.got.symm.trans accepted.got)
    rw [result, same] at consistent
    exact buildable_of_matches allocates (consistent rfl)
  · exact absurd accepted (refused header)

theorem destroyElem_consistent {desc : Desc} (empty : desc.configGot = true → desc.upgPartNum = 0)
    (consistent : Consistent desc) : Consistent (destroyElem desc) := by
  intro got
  have matched := consistent got
  have none_ : desc.elem = [] := List.eq_nil_of_length_eq_zero (matched.length.trans (empty got))
  have unchanged : destroyElem desc = desc := by rw [destroyElem, ← none_]
  rw [unchanged]
  exact matched

theorem destroyElem_inconsistent {desc : Desc} (got : desc.configGot = true)
    (some_ : desc.upgPartNum ≠ 0) : ¬ Consistent (destroyElem desc) := by
  intro consistent
  exact some_ (consistent got).length.symm

/-- What is left of a call that did not run off the list. -/
theorem next_parts {desc after : Desc} {reply : Reply}
    (moved : next desc (.getUpgradeParts reply) = some after) :
    after = (ensureConfig reply desc).2 := by
  rw [next] at moved
  simp only at moved
  split at moved
  case isTrue =>
      rcases Option.map_eq_some_iff.mp moved with ⟨_, _, same⟩
      exact same.symm
  case isFalse =>
      cases moved
      rfl

theorem next_consistent {desc after : Desc} {call : Call} (meets : Meets desc call)
    (consistent : Consistent desc) (moved : next desc call = some after) : Consistent after := by
  cases call with
  | start reply =>
      cases moved
      exact ensureConfig_consistent meets consistent
  | getUpgradeParts reply =>
      rw [next_parts moved]
      exact ensureConfig_consistent meets consistent
  | getUpgradeInfo reply =>
      cases moved
      exact ensureConfig_consistent meets consistent
  | stop =>
      cases moved
      exact destroyElem_consistent meets consistent
  | abort =>
      cases moved
      split
      case isTrue tuned => exact destroyElem_consistent (fun got => meets got tuned) consistent
      case isFalse => exact consistent

theorem next_inconsistent {desc after : Desc} {call : Call} (fails : ¬ Meets desc call)
    (allocates : call.Allocates) (moved : next desc call = some after) : ¬ Consistent after := by
  cases call with
  | start reply =>
      cases moved
      exact ensureConfig_inconsistent fails allocates
  | getUpgradeParts reply =>
      rw [next_parts moved]
      exact ensureConfig_inconsistent fails allocates
  | getUpgradeInfo reply =>
      cases moved
      exact ensureConfig_inconsistent fails allocates
  | stop =>
      cases moved
      simp only [Meets, Classical.not_imp] at fails
      exact destroyElem_inconsistent fails.1 fails.2
  | abort =>
      cases moved
      simp only [Meets, Classical.not_imp] at fails
      rw [if_pos fails.2.1]
      exact destroyElem_inconsistent fails.1 fails.2.2

theorem walkParts_length (elems : List UpgElem) :
    walkParts elems.length elems = some (elems.map UpgElem.partName) := by
  induction elems with
  | nil => rfl
  | cons elem elems ih => rw [List.length_cons, walkParts, ih, Option.map_some, List.map_cons]

theorem Matches.walk {desc : Desc} (matched : Matches desc) :
    walkParts desc.upgPartNum desc.elem =
      some (desc.packageHeader.images.map ImageInfo.imageName) := by
  rw [← matched.length, walkParts_length, matched.images, List.map_map]
  rfl

/-- As long as a header is parsed to its end only into an empty list with an
element for each image, and a list is destroyed only if its configuration has no
elements, the list is the images of the stored header and can be walked. Any other
call breaks that. -/
theorem config_matches_of_meets (desc : Desc) :
    ((machine.restrict Meets).Reachable desc → Consistent desc ∧
      (desc.configGot = true → walkParts desc.upgPartNum desc.elem =
        some (desc.packageHeader.images.map ImageInfo.imageName))) ∧
    ∀ call after, machine.Reachable desc → ¬ Meets desc call → call.Allocates →
      next desc call = some after → ¬ Consistent after := by
  have always : ∀ desc, (machine.restrict Meets).Reachable desc → Consistent desc := by
    apply Machine.Reachable.always
    · intro desc start got
      rw [start.1] at got
      cases got
    · intro desc call after _ consistent moved
      rcases Machine.restrict_next.mp moved with ⟨meets, moved⟩
      exact next_consistent meets consistent moved
  constructor
  · intro reachable
    have consistent := always desc reachable
    exact ⟨consistent, fun got => (consistent got).walk⟩
  · intro call after _ fails allocates moved
    exact next_inconsistent fails allocates moved

/-- A package of one image, and a box whose partitions take it. -/
def oneHeader : Header where
  upgVer := 40
  packageVer := 1
  partCnt := 1
  otaDownBufSize := 10
  imageInfo := List.replicate maxPart ⟨[107], 2076, 131072⟩
  full := List.length_replicate

def oneReply : Reply :=
  ⟨true, some oneHeader, true, fun _ => true, fun _ => 131072, fun _ => ⟨[], 0, 0⟩⟩

def freshDesc : Desc := ⟨false, [], 0, oneHeader, true⟩

def oneDesc : Desc := ⟨true, [⟨[107], 131072, 2076⟩], 1, oneHeader, true⟩

theorem one_start : next freshDesc (.start oneReply) = some oneDesc := rfl

theorem config_matches_one_image :
    (machine.restrict Meets).Reachable oneDesc ∧ Consistent oneDesc ∧
      walkParts oneDesc.upgPartNum oneDesc.elem = some [[107]] := by
  have meets : Meets freshDesc (.start oneReply) := by
    intro _ header accepted
    have same : oneHeader = header := Option.some.inj accepted.got
    rw [← same]
    exact ⟨rfl, fun _ _ => rfl, by decide⟩
  have begun : (machine.restrict Meets).Reachable freshDesc := .initial ⟨rfl, rfl, rfl, rfl⟩
  have reachable : (machine.restrict Meets).Reachable oneDesc :=
    begun.move (.start oneReply) (Machine.restrict_next.mpr ⟨meets, one_start⟩)
  have holds := (config_matches_of_meets oneDesc).1 reachable
  exact ⟨reachable, holds.1, holds.2 rfl⟩

/-- `alislupg_stop` destroys the list and leaves `config_got` set. -/
theorem config_lost_by_stop : ¬ ∀ desc, machine.Reachable desc → Consistent desc := by
  intro claimed
  have begun : machine.Reachable freshDesc := .initial ⟨rfl, rfl, rfl, rfl⟩
  have started : machine.Reachable oneDesc := begun.move (.start oneReply) one_start
  have stopped : machine.Reachable (destroyElem oneDesc) := started.move .stop rfl
  exact destroyElem_inconsistent rfl (by decide) (claimed _ stopped)

end Alisl.Upgrade.Config
