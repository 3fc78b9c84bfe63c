import Alisl.Upgrade.PieceAgreement
import Mathlib.Data.List.Chain

/-! Which module tables `alislupg_ota_mem_config_by_piece` lays out inside the
buffer, in the pieces that `ota_file_download_by_piece` then asks for. -/

namespace Alisl.Upgrade

open Alisl.Base

/-- Where the loop puts a module, and the `piece_num` at that moment. -/
structure PlacedModule where
  piece : Nat
  pointer : Nat
  size : Nat
  deriving DecidableEq, Repr

def placedModules (addr len rangeLen : Nat) : Cursor → List Nat → List PlacedModule
  | _, [] => []
  | cursor, size :: sizes =>
      let here := cursor.turn addr len rangeLen size
      ⟨here.pieceNum, here.curPtr, size⟩ :: placedModules addr len rangeLen (here.pass size) sizes

/-- The modules inside the buffer, those of a piece one behind the other, and the
ranges the caller computes the pieces that were laid out. -/
structure LaidOut (addr len : Nat) (config : MemConfig) (placed : List PlacedModule) : Prop where
  pointers : config.pointers = placed.map PlacedModule.pointer
  inside : ∀ module ∈ placed, addr ≤ module.pointer ∧ module.pointer + module.size ≤ addr + len
  consecutive : placed.IsChain (fun module next =>
    module.piece = next.piece → module.pointer + module.size = next.pointer)
  disjoint : placed.Pairwise (fun module later =>
    module.piece = later.piece → module.pointer + module.size ≤ later.pointer)
  pieces : ∀ module ∈ placed, 1 ≤ module.piece ∧ module.piece ≤ config.pieceNum
  ranges : ∀ i < config.pieceNum, ∀ m module, placed[m]? = some module →
    ((pieceRange config.rangeLen config.rangeTotal i).1 ≤ m ∧
      m ≤ (pieceRange config.rangeLen config.rangeTotal i).2 ↔ module.piece = i + 1)
  filled : ∀ i < config.pieceNum, ∃ module ∈ placed, module.piece = i + 1

/-! What every run of the loop does. -/

section Loop

variable (addr len rangeLen : Nat)

theorem placedModules_pointers (cursor : Cursor) (sizes : List Nat) :
    (placeModules addr len rangeLen cursor sizes).2 =
      (placedModules addr len rangeLen cursor sizes).map PlacedModule.pointer := by
  induction sizes generalizing cursor with
  | nil => rfl
  | cons size sizes ih =>
      simp only [placeModules, placedModules, List.map_cons, ih]

theorem placedModules_sizes (cursor : Cursor) (sizes : List Nat) :
    (placedModules addr len rangeLen cursor sizes).map PlacedModule.size = sizes := by
  induction sizes generalizing cursor with
  | nil => rfl
  | cons size sizes ih => rw [placedModules, List.map_cons, ih]

theorem placedModules_length (cursor : Cursor) (sizes : List Nat) :
    (placedModules addr len rangeLen cursor sizes).length = sizes.length := by
  rw [← List.length_map PlacedModule.size, placedModules_sizes]

/-- The count that comes out is the piece of the last module. -/
theorem placedModules_last (cursor : Cursor) (size : Nat) (sizes : List Nat) (module : PlacedModule)
    (last : (placedModules addr len rangeLen cursor (size :: sizes))[sizes.length]? = some module) :
    (placeModules addr len rangeLen cursor (size :: sizes)).1.pieceNum = module.piece := by
  induction sizes generalizing cursor size with
  | nil =>
      simp only [placedModules, List.length_nil, List.getElem?_cons_zero, Option.some.injEq] at last
      rw [← last]
      rfl
  | cons next sizes ih =>
      rw [placedModules, List.length_cons, List.getElem?_cons_succ] at last
      exact ih _ _ last

/-- A module opens a piece at the beginning of the buffer, or stays in the current one. -/
theorem Cursor.turn_cases (cursor : Cursor) (size : Nat) :
    cursor.turn addr len rangeLen size = ⟨len, addr, cursor.pieceNum + 1, rangeLen⟩ ∨
      cursor.turn addr len rangeLen size = cursor := by
  unfold Cursor.turn
  split
  · exact .inl rfl
  · exact .inr rfl

/-- The loop goes on ahead of where it is. -/
theorem placedModules_ahead (cursor : Cursor) (sizes : List Nat) :
    ∀ module ∈ placedModules addr len rangeLen cursor sizes,
      cursor.pieceNum ≤ module.piece ∧
        (cursor.pieceNum = module.piece → cursor.curPtr ≤ module.pointer) := by
  induction sizes generalizing cursor with
  | nil => exact fun module none => absurd none List.not_mem_nil
  | cons size sizes ih =>
      intro module member
      rw [placedModules] at member
      rcases List.mem_cons.mp member with rfl | later
      · rcases Cursor.turn_cases addr len rangeLen cursor size with opens | stays
        · rw [opens]
          refine ⟨Nat.le_succ _, fun same => ?_⟩
          exact absurd same (Nat.ne_of_lt (Nat.lt_succ_self _))
        · rw [stays]
          exact ⟨Nat.le_refl _, fun _ => Nat.le_refl _⟩
      · obtain ⟨ahead, beyond⟩ := ih _ module later
        simp only [Cursor.pass] at ahead beyond
        rcases Cursor.turn_cases addr len rangeLen cursor size with opens | stays
        · rw [opens] at ahead
          simp only at ahead
          refine ⟨by omega, fun same => ?_⟩
          omega
        · rw [stays] at ahead beyond
          refine ⟨ahead, fun same => ?_⟩
          exact (Nat.le_add_right _ _).trans (beyond same)

theorem placeModules_pieceNum (cursor : Cursor) (sizes : List Nat) :
    cursor.pieceNum ≤ (placeModules addr len rangeLen cursor sizes).1.pieceNum ∧
      (placeModules addr len rangeLen cursor sizes).1.pieceNum ≤ cursor.pieceNum + sizes.length := by
  induction sizes generalizing cursor with
  | nil => exact ⟨Nat.le_refl _, Nat.le_refl _⟩
  | cons size sizes ih =>
      obtain ⟨least, most⟩ := ih ((cursor.turn addr len rangeLen size).pass size)
      have counts : cursor.pieceNum ≤ (cursor.turn addr len rangeLen size).pieceNum ∧
          (cursor.turn addr len rangeLen size).pieceNum ≤ cursor.pieceNum + 1 := by
        rcases Cursor.turn_cases addr len rangeLen cursor size with opens | stays
        · rw [opens]
          exact ⟨Nat.le_succ _, Nat.le_refl _⟩
        · rw [stays]
          exact ⟨Nat.le_refl _, Nat.le_succ _⟩
      have passes : ((cursor.turn addr len rangeLen size).pass size).pieceNum =
          (cursor.turn addr len rangeLen size).pieceNum := rfl
      rw [passes] at least most
      simp only [placeModules, List.length_cons]
      exact ⟨by omega, by omega⟩

theorem placedModules_counted (cursor : Cursor) (sizes : List Nat) :
    ∀ module ∈ placedModules addr len rangeLen cursor sizes,
      module.piece ≤ (placeModules addr len rangeLen cursor sizes).1.pieceNum := by
  induction sizes generalizing cursor with
  | nil => exact fun module none => absurd none List.not_mem_nil
  | cons size sizes ih =>
      intro module member
      rcases List.mem_cons.mp member with rfl | later
      · exact (placeModules_pieceNum addr len rangeLen
          ((cursor.turn addr len rangeLen size).pass size) sizes).1
      · exact ih _ module later

theorem placedModules_consecutive (cursor : Cursor) (sizes : List Nat) :
    (placedModules addr len rangeLen cursor sizes).IsChain (fun module next =>
      module.piece = next.piece → module.pointer + module.size = next.pointer) := by
  induction sizes generalizing cursor with
  | nil => exact .nil
  | cons size sizes ih =>
      cases sizes with
      | nil => exact .singleton _
      | cons next sizes =>
          refine .cons_cons ?_ (ih _)
          rcases Cursor.turn_cases addr len rangeLen
            ((cursor.turn addr len rangeLen size).pass size) next with opens | stays
          · rw [opens]
            intro same
            exact absurd same (Nat.ne_of_lt (Nat.lt_succ_self _))
          · rw [stays]
            exact fun _ => rfl

theorem placedModules_disjoint (cursor : Cursor) (sizes : List Nat) :
    (placedModules addr len rangeLen cursor sizes).Pairwise (fun module later =>
      module.piece = later.piece → module.pointer + module.size ≤ later.pointer) := by
  induction sizes generalizing cursor with
  | nil => exact .nil
  | cons size sizes ih =>
      refine .cons ?_ (ih _)
      intro later member
      exact (placedModules_ahead addr len rangeLen _ sizes later member).2

end Loop

/-- From inside a piece, as long as every group of the range length fits. -/
theorem placedModules_inPiece (addr len rangeLen : Nat) (some : 0 < rangeLen) (sizes : List Nat)
    (used done count : Nat) (inside : count ≤ rangeLen)
    (current : used + (sizes.take (rangeLen - count)).sum ≤ len)
    (later : ∀ group ∈ cut rangeLen (sizes.drop (rangeLen - count)), group.sum ≤ len)
    (m : Nat) (module : PlacedModule)
    (placed : (placedModules addr len rangeLen (.inPiece addr len rangeLen used (done + 1) count)
      sizes)[m]? = .some module) :
    module.piece = (done * rangeLen + count + m) / rangeLen + 1 ∧ addr ≤ module.pointer ∧
      module.pointer + module.size ≤ addr + len := by
  induction sizes generalizing used done count m with
  | nil => cases placed
  | cons size sizes ih =>
      rcases Nat.lt_or_eq_of_le inside with more | full
      · -- the module still belongs to the current piece
        have behind : rangeLen - count = (rangeLen - (count + 1)) + 1 := by omega
        rw [behind, List.take_succ_cons, List.sum_cons] at current
        rw [behind, List.drop_succ_cons] at later
        have fits : size ≤ len - used := by omega
        have stays := Cursor.inPiece_stays addr len rangeLen used (done + 1) count size more fits
        have passed := Cursor.inPiece_pass addr len rangeLen used (done + 1) count size fits
        rw [placedModules, stays, passed] at placed
        cases m with
        | zero =>
            rw [List.getElem?_cons_zero, Option.some.injEq] at placed
            rw [← placed]
            have piece : (done * rangeLen + count) / rangeLen = done := by
              rw [Nat.mul_comm, Nat.mul_add_div some, Nat.div_eq_of_lt more, Nat.add_zero]
            simp only [Cursor.inPiece, Nat.add_zero, piece, true_and]
            omega
        | succ m =>
            rw [List.getElem?_cons_succ] at placed
            have next := ih (used + size) done (count + 1) more (by omega) later m placed
            have place : done * rangeLen + (count + 1) + m = done * rangeLen + count + (m + 1) := by omega
            rwa [place] at next
      · -- the piece is complete: start over
        have none : rangeLen - count = 0 := by omega
        rw [none, List.drop_zero, cut_eq rangeLen some _ (List.cons_ne_nil _ _)] at later
        obtain ⟨groupFits, restFits⟩ := List.forall_mem_cons.mp later
        have behind : rangeLen = (rangeLen - 1) + 1 := by omega
        rw [behind, List.take_succ_cons, List.sum_cons] at groupFits
        have drop : (size :: sizes).drop rangeLen = sizes.drop (rangeLen - 1) := by
          rw [behind, List.drop_succ_cons, Nat.add_sub_cancel]
        rw [drop] at restFits
        have fits : size ≤ len := by omega
        have turned := Cursor.inPiece_opens addr len rangeLen used (done + 1) count size full
        have passed := Cursor.inPiece_pass addr len rangeLen 0 (done + 1 + 1) 0 size fits
        rw [Nat.zero_add, Nat.zero_add] at passed
        rw [placedModules, turned, passed] at placed
        rw [full, ← Nat.succ_mul]
        cases m with
        | zero =>
            rw [List.getElem?_cons_zero, Option.some.injEq] at placed
            rw [← placed]
            simp only [Cursor.inPiece, Nat.add_zero, Nat.mul_div_cancel _ some, true_and]
            omega
        | succ m =>
            rw [List.getElem?_cons_succ] at placed
            have next := ih size (done + 1) 1 some groupFits restFits m placed
            rw [Nat.add_assoc, Nat.add_comm 1] at next
            exact next

/-! The pieces against the ranges of the caller. -/

theorem memConfigByPiece_of_fits (addr len first : Nat) (rest : List Nat) (positive : 0 < first)
    (fits : first ≤ len) (few : rest.length + 1 ≤ dcModuleMax) (config : MemConfig) :
    memConfigByPiece addr len first rest = some config ↔ config = {
      pieceNum := (placeModules addr len (len / first % 65536)
        (.first addr len (len / first % 65536)) (first :: rest)).1.pieceNum
      rangeLen := len / first % 65536
      rangeTotal := (rest.length + 1) % 65536
      pointers := (placeModules addr len (len / first % 65536)
        (.first addr len (len / first % 65536)) (first :: rest)).2 } := by
  unfold dcModuleMax at few
  have start : configStart len first = .ready (len / first % 65536) := by
    simp [configStart, Nat.not_lt.mpr fits, positive.ne']
  have count := (placeModules_pieceNum addr len (len / first % 65536)
    (.first addr len (len / first % 65536)) (first :: rest)).2
  have opens : (Cursor.first addr len (len / first % 65536)).pieceNum = 1 := rfl
  rw [opens, List.length_cons] at count
  have small : 1 + (rest.length + 1) < 65536 := by omega
  have whole := Nat.mod_eq_of_lt (Nat.lt_of_le_of_lt count small)
  simp only [memConfigByPiece, start, whole, Option.some.injEq, eq_comm]

section Ranges

variable {addr len rangeLen : Nat} {sizes : List Nat} {config : MemConfig}
  {placed : List PlacedModule}

/-- Modules that follow one another take as much room as all of them together. -/
theorem consecutive_sum (stop : Nat) (module : PlacedModule) (modules : List PlacedModule)
    (chain : (module :: modules).IsChain (fun module next =>
      module.pointer + module.size = next.pointer))
    (inside : ∀ other ∈ module :: modules, other.pointer + other.size ≤ stop) :
    module.pointer + ((module :: modules).map PlacedModule.size).sum ≤ stop := by
  induction modules generalizing module with
  | nil => simpa using inside module List.mem_cons_self
  | cons next modules ih =>
      obtain ⟨follows, chain⟩ := List.isChain_cons_cons.mp chain
      have later := ih next chain (fun other member => inside other (.tail _ member))
      rw [List.map_cons, List.sum_cons]
      omega

/-- In a sound layout the piece of a module is the range it lies in. -/
theorem LaidOut.piece_eq (laid : LaidOut addr len config placed) (several : 0 < config.rangeLen)
    (short : config.rangeLen < 65536) (total : config.rangeTotal = placed.length % 65536)
    (few : placed.length ≤ dcModuleMax) (fewPieces : config.pieceNum ≤ 1 + placed.length)
    (m : Nat) (module : PlacedModule) (there : placed[m]? = some module) :
    module.piece = m / config.rangeLen + 1 := by
  have inside := (List.getElem?_eq_some_iff.mp there).1
  obtain ⟨least, most⟩ := laid.pieces module (List.mem_iff_getElem?.mpr ⟨m, there⟩)
  have ranges := fun i counted => laid.ranges i counted m module there
  rw [total] at ranges
  unfold dcModuleMax at few
  rcases Nat.lt_or_ge m config.rangeLen with first | beyond
  · -- the first range reaches up to its length
    have inFirst := ranges 0 (by omega)
    rw [pieceRange_eq config.rangeLen placed.length 0 several short few (by omega)] at inFirst
    rw [Nat.div_eq_of_lt first]
    refine inFirst.mp ⟨by simp, ?_⟩
    dsimp only
    split <;> omega
  · -- the range of its piece starts before the module, without wrapping
    obtain ⟨i, piece⟩ := Nat.exists_eq_add_of_le' least
    have lengthLe : config.rangeLen ≤ 128 := by omega
    have product : i * config.rangeLen ≤ 128 * 128 := Nat.mul_le_mul (by omega) lengthLe
    have own := (ranges i (by omega)).mpr piece
    have start : (pieceRange config.rangeLen (placed.length % 65536) i).1 = i * config.rangeLen :=
      Nat.mod_eq_of_lt (by omega)
    have starts : i * config.rangeLen ≤ m := start ▸ own.1
    rw [pieceRange_eq config.rangeLen placed.length i several short few (by omega)] at own
    have ends : m ≤ i * config.rangeLen + config.rangeLen - 1 := by
      have last := own.2
      dsimp only at last
      split at last <;> omega
    rw [piece, Nat.add_right_cancel_iff]
    symm
    apply Nat.div_eq_of_lt_le
    · exact starts
    · rw [Nat.succ_mul]
      omega

/-- A sound layout has room for every group. -/
theorem LaidOut.groups_fit (laid : LaidOut addr len config placed)
    (sized : placed.map PlacedModule.size = sizes) (several : 0 < config.rangeLen)
    (pieces : ∀ m module, placed[m]? = some module → module.piece = m / config.rangeLen + 1) :
    ∀ group ∈ cut config.rangeLen sizes, group.sum ≤ len := by
  intro group member
  rw [cut_eq_map config.rangeLen several] at member
  rcases List.mem_map.mp member with ⟨k, _, rfl⟩
  rw [← sized, ← List.map_drop, ← List.map_take]
  have samePiece : ∀ module ∈ (placed.drop (k * config.rangeLen)).take config.rangeLen,
      module.piece = k + 1 := by
    intro module there
    rcases List.mem_iff_getElem?.mp there with ⟨m, there⟩
    have counted : m < config.rangeLen := by
      by_contra outside
      rw [List.getElem?_take_eq_none (by omega)] at there
      cases there
    rw [List.getElem?_take_of_lt counted, List.getElem?_drop] at there
    rw [pieces _ module there, Nat.mul_comm, Nat.mul_add_div several, Nat.div_eq_of_lt counted,
      Nat.add_zero]
  have chain := (laid.consecutive.drop (k * config.rangeLen)).take config.rangeLen
  have inside : ∀ module ∈ (placed.drop (k * config.rangeLen)).take config.rangeLen,
      addr ≤ module.pointer ∧ module.pointer + module.size ≤ addr + len :=
    fun module there => laid.inside module (List.mem_of_mem_drop (List.mem_of_mem_take there))
  cases group : (placed.drop (k * config.rangeLen)).take config.rangeLen with
  | nil => exact Nat.zero_le _
  | cons module modules =>
      rw [group] at samePiece chain inside
      have follows : (module :: modules).IsChain (fun module next =>
          module.pointer + module.size = next.pointer) := by
        apply chain.imp_of_mem_imp
        intro left right first second next
        exact next ((samePiece left first).trans (samePiece right second).symm)
      have sum := consecutive_sum (addr + len) module modules follows
        (fun other there => (inside other there).2)
      have low := (inside module List.mem_cons_self).1
      omega

end Ranges

/-- With a range of no module the first piece stays empty, but its range does not. -/
theorem LaidOut.several {addr len first : Nat} {rest : List Nat} {config : MemConfig}
    (laid : LaidOut addr len config
      (placedModules addr len config.rangeLen (.first addr len config.rangeLen) (first :: rest)))
    (total : config.rangeTotal = (rest.length + 1) % 65536) : 0 < config.rangeLen := by
  by_contra none
  have zero : config.rangeLen = 0 := Nat.eq_zero_of_not_pos none
  rw [zero] at laid
  have opens : (Cursor.first addr len 0).turn addr len 0 first = ⟨len, addr, 2, 0⟩ := by
    simp [Cursor.turn, Cursor.first]
  have there : (placedModules addr len 0 (.first addr len 0) (first :: rest))[0]? =
      some ⟨2, addr, first⟩ := by
    rw [placedModules, opens, List.getElem?_cons_zero]
  have counted : 2 ≤ config.pieceNum := (laid.pieces _ (List.mem_iff_getElem?.mpr ⟨0, there⟩)).2
  have inFirst := laid.ranges 0 (by omega) 0 _ there
  simp only [pieceRange, zero, total, Nat.zero_mul, Nat.zero_mod] at inFirst
  exact absurd (inFirst.mp ⟨Nat.le_refl _, Nat.zero_le _⟩) (by decide)

/-- Every group of the range length fits, so each is a piece. -/
theorem laidOut_of_groups_fit (addr len rangeLen first : Nat) (rest : List Nat)
    (several : 0 < rangeLen) (short : rangeLen < 65536) (few : rest.length + 1 ≤ dcModuleMax)
    (groups : ∀ group ∈ cut rangeLen (first :: rest), group.sum ≤ len) (config : MemConfig)
    (pieceNum : config.pieceNum = (placeModules addr len rangeLen (.first addr len rangeLen)
      (first :: rest)).1.pieceNum)
    (length : config.rangeLen = rangeLen) (total : config.rangeTotal = (rest.length + 1) % 65536)
    (pointers : config.pointers = (placeModules addr len rangeLen (.first addr len rangeLen)
      (first :: rest)).2) :
    LaidOut addr len config
      (placedModules addr len rangeLen (.first addr len rangeLen) (first :: rest)) := by
  have begin_ : Cursor.first addr len rangeLen = .inPiece addr len rangeLen 0 (0 + 1) 0 := by
    simp [Cursor.first, Cursor.inPiece]
  have firstGroup : 0 + ((first :: rest).take (rangeLen - 0)).sum ≤ len := by
    rw [cut_eq rangeLen several _ (List.cons_ne_nil _ _)] at groups
    rw [Nat.zero_add]
    exact groups _ List.mem_cons_self
  have laterGroups : ∀ group ∈ cut rangeLen ((first :: rest).drop (rangeLen - 0)), group.sum ≤ len := by
    rw [cut_eq rangeLen several _ (List.cons_ne_nil _ _)] at groups
    exact fun group member => groups group (.tail _ member)
  have placed (m : Nat) (module : PlacedModule)
      (there : (placedModules addr len rangeLen (.first addr len rangeLen) (first :: rest))[m]? =
        some module) :
      module.piece = m / rangeLen + 1 ∧ addr ≤ module.pointer ∧
        module.pointer + module.size ≤ addr + len := by
    rw [begin_] at there
    have at_ := placedModules_inPiece addr len rangeLen several (first :: rest) 0 0 0 (Nat.zero_le _)
      firstGroup laterGroups m module there
    rwa [Nat.zero_mul, Nat.zero_add] at at_
  have number := placedModules_length addr len rangeLen (.first addr len rangeLen) (first :: rest)
  rw [List.length_cons] at number
  have lastThere := List.getElem?_eq_getElem (Nat.lt_of_lt_of_eq (Nat.lt_succ_self _) number.symm)
  have last := placedModules_last addr len rangeLen _ first rest _ lastThere
  rw [(placed _ _ lastThere).1, ← pieceNum] at last
  constructor
  case pointers => rw [pointers, placedModules_pointers]
  case inside =>
    intro module member
    rcases List.mem_iff_getElem?.mp member with ⟨m, there⟩
    exact (placed m module there).2
  case consecutive => exact placedModules_consecutive addr len rangeLen _ _
  case disjoint => exact placedModules_disjoint addr len rangeLen _ _
  case pieces =>
    intro module member
    rcases List.mem_iff_getElem?.mp member with ⟨m, there⟩
    have inside := (List.getElem?_eq_some_iff.mp there).1
    rw [(placed m module there).1, last]
    exact ⟨Nat.succ_pos _, Nat.succ_le_succ (Nat.div_le_div_right (by omega))⟩
  case ranges =>
    intro i counted m module there
    have inside := (List.getElem?_eq_some_iff.mp there).1
    have starts : i * rangeLen < rest.length + 1 := by
      have least : i ≤ rest.length / rangeLen := by omega
      exact Nat.lt_succ_of_le ((Nat.le_div_iff_mul_le several).mp least)
    rw [length, total, pieceRange_eq rangeLen (rest.length + 1) i several short few starts,
      (placed m module there).1, Nat.add_right_cancel_iff, Nat.div_eq_iff several]
    split
    · constructor
      · intro range
        omega
      · intro range
        omega
    · omega
  case filled =>
    intro i counted
    have starts : i * rangeLen < rest.length + 1 := by
      have least : i ≤ rest.length / rangeLen := by omega
      exact Nat.lt_succ_of_le ((Nat.le_div_iff_mul_le several).mp least)
    have there := List.getElem?_eq_getElem (Nat.lt_of_lt_of_eq starts number.symm)
    refine ⟨_, List.mem_iff_getElem?.mpr ⟨_, there⟩, ?_⟩
    rw [(placed _ _ there).1, Nat.mul_div_cancel _ several]

/-- Every layout that is announced is sound exactly when as many modules as a
piece is said to have always fit the buffer. -/
theorem memConfigByPiece_laidOut_iff (addr len first : Nat) (rest : List Nat)
    (sized : ∀ size ∈ first :: rest, 1 ≤ size) (few : rest.length + 1 ≤ dcModuleMax) :
    (∀ config, memConfigByPiece addr len first rest = some config → LaidOut addr len config
      (placedModules addr len config.rangeLen (.first addr len config.rangeLen) (first :: rest))) ↔
      len < first ∨ (len / first % 65536 ≠ 0 ∧
        ∀ group ∈ cut (len / first % 65536) (first :: rest), group.sum ≤ len) := by
  have positive : 0 < first := sized first List.mem_cons_self
  by_cases small : len < first
  · refine iff_of_true (fun config made => ?_) (.inl small)
    have none : configStart len first = .tooSmall := if_pos small
    simp [memConfigByPiece, none] at made
  · have made := memConfigByPiece_of_fits addr len first rest positive (Nat.le_of_not_lt small) few
    rw [or_iff_right small]
    constructor
    · intro all
      have laid := all _ ((made _).mpr rfl)
      have several := laid.several rfl
      have length := placedModules_length addr len (len / first % 65536)
        (.first addr len (len / first % 65536)) (first :: rest)
      rw [List.length_cons] at length
      have count := (placeModules_pieceNum addr len (len / first % 65536)
        (.first addr len (len / first % 65536)) (first :: rest)).2
      refine ⟨Nat.ne_of_gt several, laid.groups_fit
        (placedModules_sizes addr len _ _ _) several ?_⟩
      refine laid.piece_eq several (Nat.mod_lt _ (by decide)) ?_ ?_ ?_
      · rw [length]
      · rw [length]
        exact few
      · rw [length]
        exact count
    · intro condition config layout
      rw [(made config).mp layout]
      exact laidOut_of_groups_fit addr len (len / first % 65536) first rest
        (Nat.pos_of_ne_zero condition.1) (Nat.mod_lt _ (by decide)) few condition.2 _ rfl rfl rfl rfl

/-- Two modules to a piece, and a small one behind them. -/
theorem memConfigByPiece_laidOut_three :
    memConfigByPiece 4096 131072 65536 [65536, 1000] = some ⟨2, 2, 3, [4096, 69632, 4096]⟩ ∧
      LaidOut 4096 131072 ⟨2, 2, 3, [4096, 69632, 4096]⟩
        (placedModules 4096 131072 2 (.first 4096 131072 2) [65536, 65536, 1000]) := by
  have made : memConfigByPiece 4096 131072 65536 [65536, 1000] =
      some ⟨2, 2, 3, [4096, 69632, 4096]⟩ := by
    decide
  have fits : 131072 < 65536 ∨ (131072 / 65536 % 65536 ≠ 0 ∧
      ∀ group ∈ cut (131072 / 65536 % 65536) [65536, 65536, 1000], group.sum ≤ 131072) :=
    .inr ⟨by decide, by decide⟩
  exact ⟨made, (memConfigByPiece_laidOut_iff 4096 131072 65536 [65536, 1000] (by decide)
    (by decide)).mpr fits _ made⟩

/-- Only the first module is compared with the buffer. -/
theorem second_module_outside :
    ¬ ∀ config, memConfigByPiece 4096 131072 65536 [200000] = some config →
      LaidOut 4096 131072 config
        (placedModules 4096 131072 config.rangeLen (.first 4096 131072 config.rangeLen)
          [65536, 200000]) := by
  intro all
  have laid := all ⟨2, 2, 2, [4096, 4096]⟩ (by decide)
  have outside := laid.inside ⟨2, 4096, 200000⟩ (by decide)
  exact absurd outside.2 (by decide)

end Alisl.Upgrade
