import Alisl.Storage.NoErase

/-! `alislsto_erase`: erasing so many blocks, whichever of them are bad or cannot be erased. -/

namespace Alisl.Storage.Nand

open Alisl.Base

/-- A block has more than one byte, and its size is an `int`; then the number of blocks to erase is
one, too. -/
structure EraseGeometry extends Geometry where
  several : 1 < eraseSize
  narrow : eraseSize < 2 ^ 31

/-- The return values of `alislsto_erase`. -/
inductive StoErr where
  | none
  | invalidParam
  | overflow
  deriving DecidableEq, Repr

/-- `alislsto_erase` in its loop. Which blocks were erased is only recorded. -/
structure Erasing (geometry : Geometry) where
  dev : Dev geometry
  i : Nat
  eraseStart : Nat
  erased : List Nat
  ret : StoErr

section

variable {geometry : EraseGeometry}

def eraseLoop (erasure : Erasure) (addrLogic length eraseNum blockSize : Nat) :
    DoWhile (Erasing geometry.toGeometry) where
  body state :=
    let dev := state.dev
    let block := state.eraseStart / geometry.eraseSize
    if eraseNum ≤ state.i then .leave state
    else if geometry.size ≤ state.eraseStart then
      if addrLogic = 0 ∧ dev.logicSize ≤ length then .leave state
      else .leave { state with ret := .overflow }
    else if dev.flash.bad block then
      .next { state with eraseStart := state.eraseStart + blockSize }
    else if erasure.fails block then
      let spoiled : Dev geometry.toGeometry :=
        { dev with
          flash := dev.flash.spoil geometry.toGeometry erasure.left state.eraseStart blockSize }
      .next { state with
        dev := spoiled.updateBbt state.eraseStart (erasure.marks block)
        eraseStart := state.eraseStart + blockSize }
    else
      .next { state with
        dev :=
          { dev with flash := dev.flash.erase geometry.toGeometry state.eraseStart blockSize }
        i := state.i + 1
        eraseStart := state.eraseStart + blockSize
        erased := state.erased ++ [block] }
  again _ := true

def Dev.alislstoErase (dev : Dev geometry.toGeometry) (erasure : Erasure) (start length : Nat) :
    Option (Erasing geometry.toGeometry) :=
  if start % geometry.eraseSize ≠ 0 ∨ length % geometry.eraseSize ≠ 0 then
    some ⟨dev, 0, start, [], .invalidParam⟩
  else
    match dev.getLogicAddr start with
    | none => some ⟨dev, 0, start, [], .invalidParam⟩
    | some addrLogic =>
        let blockSize := dev.unitSize
        (eraseLoop erasure addrLogic length (length / blockSize) blockSize).run
          (loopFuel geometry.toGeometry) ⟨dev, 0, start, [], .none⟩

end

/-! The blocks to erase. -/

/-- The blocks from `first` on and below `next` that are good and can be erased. -/
def soundBlocks (bad fails : Nat → Bool) (first next : Nat) : List Nat :=
  (List.range next).filter (fun block => decide (first ≤ block) && !bad block && !fails block)

theorem soundBlocks_first (bad fails : Nat → Bool) (first : Nat) :
    soundBlocks bad fails first first = [] := by
  rw [soundBlocks, List.filter_eq_nil_iff]
  intro block member
  have less : ¬ first ≤ block := Nat.not_le.mpr (List.mem_range.mp member)
  simp [less]

theorem soundBlocks_succ (bad fails : Nat → Bool) {first next : Nat} (later : first ≤ next) :
    soundBlocks bad fails first (next + 1) = soundBlocks bad fails first next ++
      if bad next = false ∧ fails next = false then [next] else [] := by
  rw [soundBlocks, List.range_succ, List.filter_append, soundBlocks]
  congr 1
  by_cases sound : bad next = false ∧ fails next = false
  · simp [sound, later]
  · simp only [not_and, Bool.not_eq_false] at sound
    cases broken : bad next with
    | true => simp [broken]
    | false => simp [broken, sound broken]

theorem soundBlocks_prefix (bad fails : Nat → Bool) (first : Nat) {next last : Nat}
    (later : next ≤ last) :
    soundBlocks bad fails first next =
      (soundBlocks bad fails first last).take (soundBlocks bad fails first next).length := by
  obtain ⟨more, rfl⟩ := Nat.exists_eq_add_of_le later
  rw [soundBlocks, soundBlocks, List.range_add, List.filter_append, List.take_left]

theorem mem_soundBlocks {bad fails : Nat → Bool} {first next block : Nat} :
    block ∈ soundBlocks bad fails first next ↔
      block < next ∧ first ≤ block ∧ bad block = false ∧ fails block = false := by
  simp [soundBlocks, and_assoc]

theorem whole_block {geometry : Geometry} {block x : Nat} :
    (block * geometry.eraseSize ≤ x ∧ x < block * geometry.eraseSize + geometry.eraseSize) ↔
      x / geometry.eraseSize = block := by
  have here := @in_block geometry (block * geometry.eraseSize) x
  rwa [Nat.mul_mod_left, Nat.sub_zero, Nat.mul_div_cancel _ geometry.erase_pos] at here

section

variable {geometry : EraseGeometry}

/-! A turn of the loop. -/

/-- A block is erased. -/
def Erasing.erase (state : Erasing geometry.toGeometry) (block : Nat) :
    Erasing geometry.toGeometry where
  dev :=
    { state.dev with
      flash := state.dev.flash.erase geometry.toGeometry (block * geometry.eraseSize)
        geometry.eraseSize }
  i := state.i + 1
  eraseStart := (block + 1) * geometry.eraseSize
  erased := state.erased ++ [block]
  ret := state.ret

/-- All blocks are erased, the device ends, a bad block is passed, a block cannot be erased, or one is
erased. -/
inductive EraseTurn (erasure : Erasure) (addrLogic length eraseNum : Nat)
    (state : Erasing geometry.toGeometry) (block : Nat) :
    Turn (Erasing geometry.toGeometry) → Prop where
  | done (all : eraseNum ≤ state.i) :
      EraseTurn erasure addrLogic length eraseNum state block (.leave state)
  | whole (more : state.i < eraseNum) (beyond : geometry.blocks ≤ block)
      (device : addrLogic = 0 ∧ state.dev.logicSize ≤ length) :
      EraseTurn erasure addrLogic length eraseNum state block (.leave state)
  | over_ (more : state.i < eraseNum) (beyond : geometry.blocks ≤ block)
      (device : ¬ (addrLogic = 0 ∧ state.dev.logicSize ≤ length)) :
      EraseTurn erasure addrLogic length eraseNum state block
        (.leave { state with ret := .overflow })
  | skip (more : state.i < eraseNum) (inside : block < geometry.blocks)
      (bad : state.dev.flash.bad block = true) :
      EraseTurn erasure addrLogic length eraseNum state block
        (.next { state with eraseStart := (block + 1) * geometry.eraseSize })
  | fail (more : state.i < eraseNum) (inside : block < geometry.blocks)
      (good : state.dev.flash.bad block = false) (fails : erasure.fails block = true)
      (marked : Dev geometry.toGeometry)
      (updated : marked = Dev.updateBbt
        { state.dev with
          flash := state.dev.flash.spoil geometry.toGeometry erasure.left
            (block * geometry.eraseSize) geometry.eraseSize }
        (block * geometry.eraseSize) (erasure.marks block)) :
      EraseTurn erasure addrLogic length eraseNum state block
        (.next { state with dev := marked, eraseStart := (block + 1) * geometry.eraseSize })
  | erase (more : state.i < eraseNum) (inside : block < geometry.blocks)
      (good : state.dev.flash.bad block = false) (erased : erasure.fails block = false) :
      EraseTurn erasure addrLogic length eraseNum state block
        (.next (state.erase block))

theorem eraseTurn (erasure : Erasure) (addrLogic length eraseNum : Nat)
    {state : Erasing geometry.toGeometry} {block : Nat}
    (start : state.eraseStart = block * geometry.eraseSize) :
    EraseTurn erasure addrLogic length eraseNum state block
      ((eraseLoop erasure addrLogic length eraseNum geometry.eraseSize).body state) := by
  have pos := geometry.erase_pos
  have here : state.eraseStart / geometry.eraseSize = block := by
    rw [start, Nat.mul_div_cancel _ pos]
  have next : state.eraseStart + geometry.eraseSize = (block + 1) * geometry.eraseSize := by
    rw [start, Nat.succ_mul]
  have ends : geometry.size ≤ state.eraseStart ↔ geometry.blocks ≤ block := by
    rw [start]
    exact Nat.mul_le_mul_right_iff pos
  unfold eraseLoop
  simp only [here, next, ends]
  split
  case isTrue all => exact .done all
  case isFalse more =>
    rw [Nat.not_le] at more
    split
    case isTrue beyond =>
      split
      case isTrue device => exact .whole more beyond device
      case isFalse device => exact .over_ more beyond device
    case isFalse inside =>
      rw [Nat.not_le] at inside
      split
      case isTrue bad => exact .skip more inside bad
      case isFalse good =>
        rw [Bool.not_eq_true] at good
        split
        case isTrue fails =>
          rw [start]
          exact .fail more inside good fails _ rfl
        case isFalse erased =>
          rw [Bool.not_eq_true] at erased
          rw [start]
          exact .erase more inside good erased

/-- What was done to the blocks from `first` on and below `next`. -/
structure Upto (before : Flash) (fails : Nat → Bool) (first eraseNum : Nat)
    (state : Erasing geometry.toGeometry) (next : Nat) : Prop where
  start : state.eraseStart = next * geometry.eraseSize
  later : first ≤ next
  most : next ≤ geometry.blocks
  bad : ∀ block, next ≤ block → state.dev.flash.bad block = before.bad block
  erased : state.erased = soundBlocks before.bad fails first next
  counted : state.i = state.erased.length
  few : state.i ≤ eraseNum
  touched : ∀ block ∈ state.dev.flash.touched, block ∈ before.touched ∨
    (first ≤ block ∧ block < geometry.blocks ∧ before.bad block = false)
  blank : ∀ x, x / geometry.eraseSize ∈ state.erased → state.dev.flash.content x = 0xff
  kept : ∀ x, ¬ (first ≤ x / geometry.eraseSize ∧ x / geometry.eraseSize < next ∧
    before.bad (x / geometry.eraseSize) = false) → state.dev.flash.content x = before.content x
  ret : state.ret = .none

theorem upto_start (before : Dev geometry.toGeometry) (fails : Nat → Bool) (eraseNum : Nat)
    {first : Nat} (inside : first < geometry.blocks) :
    Upto before.flash fails first eraseNum ⟨before, 0, first * geometry.eraseSize, [], .none⟩
      first where
  start := rfl
  later := Nat.le_refl _
  most := Nat.le_of_lt inside
  bad := fun _ _ => rfl
  erased := (soundBlocks_first _ _ _).symm
  counted := rfl
  few := Nat.zero_le _
  touched := fun _ member => .inl member
  blank := by
    intro x member
    cases member
  kept := fun _ _ => rfl
  ret := rfl

theorem upto_skip {before : Flash} {fails : Nat → Bool} {first eraseNum next : Nat}
    {state : Erasing geometry.toGeometry} (upto : Upto before fails first eraseNum state next)
    (inside : next < geometry.blocks) (bad : state.dev.flash.bad next = true) :
    Upto before fails first eraseNum
      { state with eraseStart := (next + 1) * geometry.eraseSize } (next + 1) := by
  rw [upto.bad next (Nat.le_refl _)] at bad
  constructor
  case start => rfl
  case later => exact Nat.le_succ_of_le upto.later
  case most => exact inside
  case bad => exact fun block less => upto.bad block (Nat.le_of_succ_le less)
  case erased =>
      rw [soundBlocks_succ _ _ upto.later, if_neg (by simp [bad]), List.append_nil]
      exact upto.erased
  case counted => exact upto.counted
  case few => exact upto.few
  case touched => exact upto.touched
  case blank => exact upto.blank
  case kept =>
      intro x outside
      apply upto.kept
      intro inner
      exact outside ⟨inner.1, Nat.lt_succ_of_lt inner.2.1, inner.2.2⟩
  case ret => exact upto.ret

theorem Upto.good {before : Flash} {fails : Nat → Bool} {first eraseNum next : Nat}
    {state : Erasing geometry.toGeometry} (upto : Upto before fails first eraseNum state next)
    (good : state.dev.flash.bad next = false) : before.bad next = false := by
  rw [← upto.bad next (Nat.le_refl _)]
  exact good

/-- The next block may be touched where it was good. -/
theorem Upto.touches {before : Flash} {fails : Nat → Bool} {first eraseNum next block : Nat}
    {state : Erasing geometry.toGeometry} (upto : Upto before fails first eraseNum state next)
    (inside : next < geometry.blocks) (good : before.bad next = false)
    (member : block ∈ next * geometry.eraseSize / geometry.eraseSize :: state.dev.flash.touched) :
    block ∈ before.touched ∨
      (first ≤ block ∧ block < geometry.blocks ∧ before.bad block = false) := by
  rcases List.mem_cons.mp member with same | old
  · rw [Nat.mul_div_cancel _ geometry.erase_pos] at same
    rw [same]
    exact .inr ⟨upto.later, inside, good⟩
  · exact upto.touched block old

/-- And its content may change. -/
theorem Upto.changes {before : Flash} {fails : Nat → Bool} {first eraseNum next : Nat}
    {state : Erasing geometry.toGeometry} (upto : Upto before fails first eraseNum state next)
    (good : before.bad next = false) {content : Nat → Byte}
    (spared : ∀ x, x / geometry.eraseSize ≠ next → content x = state.dev.flash.content x) (x : Nat)
    (outside : ¬ (first ≤ x / geometry.eraseSize ∧ x / geometry.eraseSize < next + 1 ∧
      before.bad (x / geometry.eraseSize) = false)) : content x = before.content x := by
  have apart : x / geometry.eraseSize ≠ next := by
    intro same
    apply outside
    rw [same]
    exact ⟨upto.later, Nat.lt_succ_self _, good⟩
  rw [spared x apart]
  apply upto.kept
  intro inner
  exact outside ⟨inner.1, Nat.lt_succ_of_lt inner.2.1, inner.2.2⟩

theorem updateBbt_frame {geometry : Geometry} (dev : Dev geometry) (address : Nat) (marks : Bool) :
    (dev.updateBbt address marks).flash.content = dev.flash.content ∧
      (dev.updateBbt address marks).flash.touched = dev.flash.touched ∧
      ∀ block, block ≠ address / geometry.eraseSize →
        (dev.updateBbt address marks).flash.bad block = dev.flash.bad block := by
  cases marks with
  | false => exact ⟨rfl, rfl, fun _ _ => rfl⟩
  | true =>
      rw [updateBbt_flash]
      refine ⟨rfl, rfl, ?_⟩
      intro block apart
      rw [setBadBlock_bad, Function.update_of_ne apart]

theorem upto_fail {before : Flash} {erasure : Erasure} {first eraseNum next : Nat}
    {state : Erasing geometry.toGeometry} {marked : Dev geometry.toGeometry}
    (upto : Upto before erasure.fails first eraseNum state next) (inside : next < geometry.blocks)
    (good : state.dev.flash.bad next = false) (fails : erasure.fails next = true)
    (updated : marked = Dev.updateBbt
      { state.dev with
        flash := state.dev.flash.spoil geometry.toGeometry erasure.left
          (next * geometry.eraseSize) geometry.eraseSize }
      (next * geometry.eraseSize) (erasure.marks next)) :
    Upto before erasure.fails first eraseNum
      { state with dev := marked, eraseStart := (next + 1) * geometry.eraseSize } (next + 1) := by
  have here : next * geometry.eraseSize / geometry.eraseSize = next :=
    Nat.mul_div_cancel _ geometry.erase_pos
  rcases updateBbt_frame { state.dev with
      flash := state.dev.flash.spoil geometry.toGeometry erasure.left
        (next * geometry.eraseSize) geometry.eraseSize }
    (next * geometry.eraseSize) (erasure.marks next) with ⟨content, touched, bad⟩
  rw [← updated] at content touched bad
  rw [here] at bad
  have spoiled : ∀ x, x / geometry.eraseSize ≠ next →
      marked.flash.content x = state.dev.flash.content x := by
    intro x apart
    rw [content]
    exact if_neg (mt whole_block.mp apart)
  have before_ : before.bad next = false := upto.good good
  constructor
  case start => rfl
  case later => exact Nat.le_succ_of_le upto.later
  case most => exact inside
  case bad =>
      intro block less
      exact (bad block (Nat.ne_of_gt less)).trans (upto.bad block (Nat.le_of_succ_le less))
  case erased =>
      rw [soundBlocks_succ _ _ upto.later, if_neg (by simp [fails]), List.append_nil]
      exact upto.erased
  case counted => exact upto.counted
  case few => exact upto.few
  case touched =>
      intro block member
      rw [touched] at member
      exact upto.touches inside before_ member
  case blank =>
      intro x member
      have less : x / geometry.eraseSize < next := by
        replace member : x / geometry.eraseSize ∈ state.erased := member
        rw [upto.erased] at member
        exact (mem_soundBlocks.mp member).1
      rw [spoiled x (Nat.ne_of_lt less)]
      exact upto.blank x member
  case kept => exact upto.changes before_ spoiled
  case ret => exact upto.ret

theorem upto_erase {before : Flash} {fails : Nat → Bool} {first eraseNum next : Nat}
    {state : Erasing geometry.toGeometry} (upto : Upto before fails first eraseNum state next)
    (more : state.i < eraseNum) (inside : next < geometry.blocks)
    (good : state.dev.flash.bad next = false) (works : fails next = false) :
    Upto before fails first eraseNum (state.erase next) (next + 1) := by
  have before_ : before.bad next = false := upto.good good
  have content : ∀ x, (state.erase next).dev.flash.content x =
      if x / geometry.eraseSize = next then 0xff else state.dev.flash.content x := by
    intro x
    simp only [Erasing.erase, Flash.erase, whole_block]
  have erased : (state.erase next).erased = state.erased ++ [next] := rfl
  constructor
  case start => rfl
  case later => exact Nat.le_succ_of_le upto.later
  case most => exact inside
  case bad => exact fun block less => upto.bad block (Nat.le_of_succ_le less)
  case erased =>
      rw [soundBlocks_succ _ _ upto.later, if_pos ⟨before_, works⟩, ← upto.erased, erased]
  case counted =>
      rw [erased, List.length_append, ← upto.counted]
      rfl
  case few => exact more
  case touched => exact fun _ member => upto.touches inside before_ member
  case blank =>
      intro x member
      rw [content]
      split
      case isTrue => rfl
      case isFalse apart =>
        rcases List.mem_append.mp member with old | new
        · exact upto.blank x old
        · exact absurd (List.mem_singleton.mp new) apart
  case kept =>
      refine upto.changes before_ ?_
      intro x apart
      rw [content, if_neg apart]
  case ret => exact upto.ret

/-! A run of the loop. -/

/-- How the call ends, with `all` the blocks from `first` on that can be erased. -/
structure Finished (before : Flash) (fails : Nat → Bool) (first eraseNum addrLogic length : Nat)
    (after : Erasing geometry.toGeometry) : Prop where
  exact_ : eraseNum ≤ (soundBlocks before.bad fails first geometry.blocks).length →
    after.ret = .none ∧
      after.erased = (soundBlocks before.bad fails first geometry.blocks).take eraseNum
  short : (soundBlocks before.bad fails first geometry.blocks).length < eraseNum →
    after.erased = soundBlocks before.bad fails first geometry.blocks ∧
      after.ret = if addrLogic = 0 ∧ after.dev.logicSize ≤ length then .none else .overflow
  touched : ∀ block ∈ after.dev.flash.touched, block ∈ before.touched ∨
    (first ≤ block ∧ block < geometry.blocks ∧ before.bad block = false)
  blank : ∀ x, x / geometry.eraseSize ∈ after.erased → after.dev.flash.content x = 0xff
  kept : ∀ x, ¬ (first ≤ x / geometry.eraseSize ∧ x / geometry.eraseSize < geometry.blocks ∧
    before.bad (x / geometry.eraseSize) = false) → after.dev.flash.content x = before.content x

theorem Upto.frame {before : Flash} {fails : Nat → Bool} {first eraseNum next : Nat}
    {state : Erasing geometry.toGeometry} (upto : Upto before fails first eraseNum state next)
    {x : Nat} (outside : ¬ (first ≤ x / geometry.eraseSize ∧
      x / geometry.eraseSize < geometry.blocks ∧ before.bad (x / geometry.eraseSize) = false)) :
    state.dev.flash.content x = before.content x := by
  apply upto.kept
  intro inner
  exact outside ⟨inner.1, Nat.lt_of_lt_of_le inner.2.1 upto.most, inner.2.2⟩

theorem finished_done {before : Flash} {fails : Nat → Bool}
    {first eraseNum addrLogic length next : Nat} {state : Erasing geometry.toGeometry}
    (upto : Upto before fails first eraseNum state next) (all : eraseNum ≤ state.i) :
    Finished before fails first eraseNum addrLogic length state := by
  have count : state.erased.length = eraseNum := by
    rw [← upto.counted]
    exact Nat.le_antisymm upto.few all
  have cut := soundBlocks_prefix before.bad fails first upto.most
  rw [← upto.erased, count] at cut
  constructor
  case exact_ => exact fun _ => ⟨upto.ret, cut⟩
  case short =>
      intro few
      rw [cut, List.length_take] at count
      omega
  case touched => exact upto.touched
  case blank => exact upto.blank
  case kept => exact fun x outside => upto.frame outside

theorem finished_end {before : Flash} {fails : Nat → Bool} {first eraseNum next : Nat}
    {state : Erasing geometry.toGeometry} (addrLogic length : Nat)
    (upto : Upto before fails first eraseNum state next) (more : state.i < eraseNum)
    (beyond : geometry.blocks ≤ next) :
    Finished before fails first eraseNum addrLogic length { state with
      ret := if addrLogic = 0 ∧ state.dev.logicSize ≤ length then .none else .overflow } := by
  have last : next = geometry.blocks := Nat.le_antisymm upto.most beyond
  have erased := upto.erased
  rw [last] at erased
  have counted := upto.counted
  rw [erased] at counted
  constructor
  case exact_ =>
      intro enough
      omega
  case short => exact fun _ => ⟨erased, rfl⟩
  case touched => exact upto.touched
  case blank => exact upto.blank
  case kept => exact fun x outside => upto.frame outside

theorem eraseLoop_finishes {before : Flash} {erasure : Erasure}
    {first eraseNum addrLogic length fuel : Nat} {state after : Erasing geometry.toGeometry}
    (ran : (eraseLoop erasure addrLogic length eraseNum geometry.eraseSize).run fuel state =
      some after) : ∀ next, Upto before erasure.fails first eraseNum state next →
        Finished before erasure.fails first eraseNum addrLogic length after := by
  refine DoWhile.ends (fun state after => ∀ next, Upto before erasure.fails first eraseNum state next →
    Finished before erasure.fails first eraseNum addrLogic length after) ?leave ?last ?next ran
  case leave =>
      intro state after turned next upto
      have turn := eraseTurn erasure addrLogic length eraseNum upto.start
      rw [turned] at turn
      cases turn with
      | done all => exact finished_done upto all
      | whole more beyond device =>
          have finished := finished_end addrLogic length upto more beyond
          rw [if_pos device, ← upto.ret] at finished
          exact finished
      | over_ more beyond device =>
          have finished := finished_end addrLogic length upto more beyond
          rw [if_neg device] at finished
          exact finished
  case last =>
      intro state after _ done
      cases done
  case next =>
      intro state middle after turned _ rest next upto
      have turn := eraseTurn erasure addrLogic length eraseNum upto.start
      rw [turned] at turn
      cases turn with
      | skip more inside bad => exact rest (next + 1) (upto_skip upto inside bad)
      | fail more inside good fails marked updated =>
          exact rest (next + 1) (upto_fail upto inside good fails updated)
      | erase more inside good works =>
          exact rest (next + 1) (upto_erase upto more inside good works)

theorem eraseLoop_terminates (erasure : Erasure) (addrLogic length eraseNum block : Nat)
    (state : Erasing geometry.toGeometry) (start : state.eraseStart = block * geometry.eraseSize) :
    ∃ after, (eraseLoop erasure addrLogic length eraseNum geometry.eraseSize).run
      (Dev.loopFuel geometry.toGeometry) state = some after := by
  apply DoWhile.terminates
    (fun state : Erasing geometry.toGeometry => geometry.eraseSize ∣ state.eraseStart)
    (fun state => geometry.size - state.eraseStart)
  case start =>
      rw [start]
      exact Nat.dvd_mul_left ..
  case enough => exact Nat.lt_succ_of_le (Nat.sub_le ..)
  case less =>
      intro state middle whole turned _
      have at_ : state.eraseStart = state.eraseStart / geometry.eraseSize * geometry.eraseSize :=
        (Nat.div_mul_cancel whole).symm
      have turn := eraseTurn erasure addrLogic length eraseNum at_
      rw [turned] at turn
      have moved : middle.eraseStart = state.eraseStart + geometry.eraseSize ∧
          state.eraseStart / geometry.eraseSize < geometry.blocks := by
        cases turn with
        | skip more inside bad => exact ⟨by rw [Nat.succ_mul, ← at_], inside⟩
        | fail more inside good fails marked updated => exact ⟨by rw [Nat.succ_mul, ← at_], inside⟩
        | erase more inside good works =>
            refine ⟨?_, inside⟩
            rw [Erasing.erase, Nat.succ_mul, ← at_]
      have inside : state.eraseStart < geometry.size :=
        (Nat.div_lt_iff_lt_mul geometry.erase_pos).mp moved.2
      have pos := geometry.erase_pos
      rw [moved.1]
      exact ⟨Nat.dvd_add whole (Nat.dvd_refl _), by omega⟩

/-- At logical address 0 all blocks before are bad. -/
theorem soundBlocks_device {dev : Dev geometry.toGeometry} (fails : Nat → Bool) {first : Nat}
    (start : dev.position (first * geometry.eraseSize) = 0) :
    soundBlocks dev.flash.bad fails first geometry.blocks =
      soundBlocks dev.flash.bad fails 0 geometry.blocks := by
  have none_ : Nat.count dev.flash.Good first = 0 := by
    rw [Dev.position, Blocks.logical, Nat.mul_div_cancel _ geometry.erase_pos, Nat.mul_mod_left,
      Nat.add_zero] at start
    exact (Nat.mul_eq_zero.mp start).resolve_right (Nat.ne_of_gt geometry.erase_pos)
  rw [soundBlocks, soundBlocks]
  apply List.filter_congr
  intro block _
  by_cases later : first ≤ block
  · simp [later]
  · have bad := Nat.count_iff_forall_not.mp none_ block (Nat.not_le.mp later)
    simp only [Flash.Good, Bool.not_eq_false] at bad
    simp [bad]

end

/-- `alislsto_erase` from the start of a block: it returns, and has erased so many good blocks from
there on, or all of the device, or all that there are and reports it. -/
theorem alislstoErase_spec {geometry : EraseGeometry} (dev : Dev geometry.toGeometry)
    (records : BadRecords dev) (mode : dev.eraseType = .block) (erasure : Erasure)
    (start length : Nat) (aligned : start % geometry.eraseSize = 0) (inside : start < geometry.size)
    (whole : length % geometry.eraseSize = 0) :
    ∃ after, dev.alislstoErase erasure start length = some after ∧
      (∀ block ∈ after.dev.flash.touched, block ∈ dev.flash.touched ∨
        (start / geometry.eraseSize ≤ block ∧ block < geometry.blocks ∧
          dev.flash.bad block = false)) ∧
      (∀ x, x / geometry.eraseSize ∈ after.erased → after.dev.flash.content x = 0xff) ∧
      let good := soundBlocks dev.flash.bad erasure.fails (start / geometry.eraseSize) geometry.blocks
      let whole_ := dev.getLogicAddr start = some 0 ∧ after.dev.logicSize ≤ length
      (length / geometry.eraseSize ≤ good.length ∧ after.ret = .none ∧
          after.erased = good.take (length / geometry.eraseSize)) ∨
        (good.length < length / geometry.eraseSize ∧ whole_ ∧ after.ret = .none ∧
          after.erased = soundBlocks dev.flash.bad erasure.fails 0 geometry.blocks) ∨
        (good.length < length / geometry.eraseSize ∧ ¬ whole_ ∧ after.ret = .overflow ∧
          after.erased = good) := by
  have unit : dev.unitSize = geometry.eraseSize := by rw [Dev.unitSize, mode]
  have start_ : start = start / geometry.eraseSize * geometry.eraseSize :=
    (Nat.div_mul_cancel (Nat.dvd_of_mod_eq_zero aligned)).symm
  have block : start / geometry.eraseSize < geometry.blocks := block_lt inside
  have logic := records.getLogicAddr (Nat.le_of_lt inside)
  have erase : dev.alislstoErase erasure start length =
      (eraseLoop erasure (dev.position start) length (length / geometry.eraseSize)
        geometry.eraseSize).run (Dev.loopFuel geometry.toGeometry) ⟨dev, 0, start, [], .none⟩ := by
    rw [Dev.alislstoErase, if_neg (by simp [aligned, whole]), logic]
    simp only [unit]
  rcases eraseLoop_terminates erasure (dev.position start) length (length / geometry.eraseSize)
    (start / geometry.eraseSize) ⟨dev, 0, start, [], .none⟩ start_ with ⟨after, ran⟩
  have upto := upto_start dev erasure.fails (length / geometry.eraseSize) block
  rw [← start_] at upto
  have finished := eraseLoop_finishes ran _ upto
  refine ⟨after, erase.trans ran, finished.touched, finished.blank, ?_⟩
  simp only [logic, Option.some_inj]
  by_cases enough : length / geometry.eraseSize ≤
      (soundBlocks dev.flash.bad erasure.fails (start / geometry.eraseSize) geometry.blocks).length
  · rcases finished.exact_ enough with ⟨ret, erased⟩
    exact .inl ⟨enough, ret, erased⟩
  · rw [Nat.not_le] at enough
    rcases finished.short enough with ⟨erased, ret⟩
    by_cases device : dev.position start = 0 ∧ after.dev.logicSize ≤ length
    · rw [if_pos device] at ret
      have all := soundBlocks_device erasure.fails (start_ ▸ device.1)
      rw [all] at erased
      exact .inr (.inl ⟨enough, device, ret, erased⟩)
    · rw [if_neg device] at ret
      exact .inr (.inr ⟨enough, device, ret, erased⟩)

/-- Four blocks of two bytes; block 1 is bad and block 2 cannot be erased. -/
def smallBlocks : EraseGeometry where
  eraseSize := 2
  blocks := 4
  erase_pos := Nat.zero_lt_two
  fits := by decide
  several := Nat.one_lt_two
  narrow := by decide

def oneBad : Flash := ⟨fun _ => 0, fun block => block == 1, []⟩

def oneFails : Erasure := ⟨fun block => block == 2, fun _ => 0, fun _ => true⟩

theorem alislstoErase_two_blocks :
    ∃ after, (Dev.opened smallBlocks.toGeometry oneBad .block).alislstoErase oneFails 0 4 =
        some after ∧
      (∀ block ∈ after.dev.flash.touched, block ∈ oneBad.touched ∨
        (0 / smallBlocks.eraseSize ≤ block ∧ block < smallBlocks.blocks ∧
          oneBad.bad block = false)) ∧
      (∀ x, x / smallBlocks.eraseSize ∈ after.erased → after.dev.flash.content x = 0xff) ∧
      let good := soundBlocks oneBad.bad oneFails.fails (0 / smallBlocks.eraseSize)
        smallBlocks.blocks
      let whole_ := (Dev.opened smallBlocks.toGeometry oneBad .block).getLogicAddr 0 = some 0 ∧
        after.dev.logicSize ≤ 4
      (4 / smallBlocks.eraseSize ≤ good.length ∧ after.ret = .none ∧
          after.erased = good.take (4 / smallBlocks.eraseSize)) ∨
        (good.length < 4 / smallBlocks.eraseSize ∧ whole_ ∧ after.ret = .none ∧
          after.erased = soundBlocks oneBad.bad oneFails.fails 0 smallBlocks.blocks) ∨
        (good.length < 4 / smallBlocks.eraseSize ∧ ¬ whole_ ∧ after.ret = .overflow ∧
          after.erased = good) :=
  alislstoErase_spec (Dev.opened smallBlocks.toGeometry oneBad .block) (records_opened _ _) rfl
    oneFails 0 4 (by decide) (by decide) (by decide)

/-- Blocks 0 and 3 are erased. -/
example : ((Dev.opened smallBlocks.toGeometry oneBad .block).alislstoErase oneFails 0 4).map
    (fun after => (after.erased, after.ret)) = some ([0, 3], .none) := by
  decide +kernel

end Alisl.Storage.Nand
