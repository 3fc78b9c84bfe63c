import Alisl.Base.Bytes
import Alisl.Base.Cut

/-! `alislupg_ota_mem_config_by_piece`: modules are placed one behind the other in
the piece buffer, starting over at its beginning with every piece. -/

namespace Alisl.Upgrade

open Alisl.Base

/-- Modules of the pack tool: `OTA_TS_MODULE_VALIE_ZISE`, 256 blocks of 4066 bytes. -/
def moduleValidSize : Nat := 4066 * 256

/-- The most modules the receiver handles, `DC_MODULE_MAX`. -/
def dcModuleMax : Nat := 128

/-- `ota_down_buf_size` in bytes; a multiple of the 128K alignment. -/
def pieceBytes (downBufSize : Nat) : Nat := downBufSize * 1024 * 1024

/-- The locals of the placement loop. -/
structure Cursor where
  remain : Nat
  curPtr : Nat
  pieceNum : Nat
  j : Int
  deriving DecidableEq, Repr

namespace Cursor

def first (addr len rangeLen : Nat) : Cursor := ⟨len, addr, 1, rangeLen⟩

/-- Start over when the module does not fit any more or the piece has its modules. -/
def turn (addr len rangeLen size : Nat) (cursor : Cursor) : Cursor :=
  if cursor.remain < size ∨ cursor.j = 0 then ⟨len, addr, cursor.pieceNum + 1, rangeLen⟩ else cursor

def pass (size : Nat) (cursor : Cursor) : Cursor where
  remain := ulongSub cursor.remain size
  curPtr := cursor.curPtr + size
  pieceNum := cursor.pieceNum
  j := cursor.j - 1

end Cursor

/-- The whole loop: the last cursor and the pointer of each module. -/
def placeModules (addr len rangeLen : Nat) : Cursor → List Nat → Cursor × List Nat
  | cursor, [] => (cursor, [])
  | cursor, size :: sizes =>
      let here := cursor.turn addr len rangeLen size
      let (last, pointers) := placeModules addr len rangeLen (here.pass size) sizes
      (last, here.curPtr :: pointers)

/-- How the function starts: it gives up on a buffer that is too small for the
first module, divides by that module's size, and goes on with `p_mdl_range->len`,
an unsigned short. -/
inductive ConfigStart where
  | tooSmall
  | divisionByZero
  | ready (rangeLen : Nat)
  deriving DecidableEq, Repr

def configStart (len first : Nat) : ConfigStart :=
  if len < first then .tooSmall
  else if first = 0 then .divisionByZero
  else .ready (len / first % 65536)

structure MemConfig where
  pieceNum : Nat
  rangeLen : Nat
  rangeTotal : Nat
  pointers : List Nat
  deriving DecidableEq, Repr

/-- On a table of at least one module; `none` where no layout comes out. -/
def memConfigByPiece (addr len first : Nat) (rest : List Nat) : Option MemConfig :=
  match configStart len first with
  | .tooSmall => none
  | .divisionByZero => none
  | .ready rangeLen =>
      let (last, pointers) :=
        placeModules addr len rangeLen (.first addr len rangeLen) (first :: rest)
      some {
        pieceNum := last.pieceNum % 65536
        rangeLen
        rangeTotal := (rest.length + 1) % 65536
        pointers }

/-- A buffer of at least one megabyte holds any module of the pack tool. -/
theorem moduleValidSize_le (downBufSize : Nat) (some : 0 < pieceBytes downBufSize) :
    moduleValidSize ≤ pieceBytes downBufSize := by
  unfold moduleValidSize pieceBytes at *
  omega

/-- The cursor accounts for the whole buffer. -/
def Cursor.Balanced (addr len : Nat) (cursor : Cursor) : Prop :=
  addr ≤ cursor.curPtr ∧ cursor.curPtr + cursor.remain = addr + len

theorem Cursor.Balanced.turn {addr len size : Nat} {cursor : Cursor}
    (balanced : cursor.Balanced addr len) (rangeLen : Nat) (fits : size ≤ len) :
    (cursor.turn addr len rangeLen size).Balanced addr len ∧
      size ≤ (cursor.turn addr len rangeLen size).remain := by
  unfold Cursor.turn
  split
  · exact ⟨⟨le_refl _, rfl⟩, fits⟩
  · rename_i stays
    exact ⟨balanced, by omega⟩

theorem Cursor.Balanced.pass {addr len size : Nat} {cursor : Cursor}
    (balanced : cursor.Balanced addr len) (fits : size ≤ cursor.remain) :
    (cursor.pass size).Balanced addr len := by
  obtain ⟨low, whole⟩ := balanced
  have remain : (cursor.pass size).remain = cursor.remain - size := by
    simp [Cursor.pass, ulongSub, fits]
  have pointer : (cursor.pass size).curPtr = cursor.curPtr + size := rfl
  unfold Cursor.Balanced
  rw [remain, pointer]
  omega

theorem Cursor.balanced_first (addr len rangeLen : Nat) :
    (Cursor.first addr len rangeLen).Balanced addr len :=
  ⟨le_refl _, rfl⟩

/-- Addresses of byte strings placed one behind the other. -/
def offsetsFrom : Nat → List Nat → List Nat
  | _, [] => []
  | at_, size :: sizes => at_ :: offsetsFrom (at_ + size) sizes

/-- The cursor behind `count` modules of a piece. -/
def Cursor.inPiece (addr len rangeLen used pieceNum count : Nat) : Cursor :=
  ⟨len - used, addr + used, pieceNum, rangeLen - count⟩

section InPiece

variable (addr len rangeLen used pieceNum count size : Nat)

/-- A module that fits goes into a piece that lacks modules. -/
theorem Cursor.inPiece_stays (more : count < rangeLen) (fits : size ≤ len - used) :
    (Cursor.inPiece addr len rangeLen used pieceNum count).turn addr len rangeLen size =
      .inPiece addr len rangeLen used pieceNum count := by
  have left : ((rangeLen : Int) - count) ≠ 0 := by omega
  simp [Cursor.turn, Cursor.inPiece, Nat.not_lt.mpr fits, left]

/-- A complete piece is followed by the next one. -/
theorem Cursor.inPiece_opens (full : count = rangeLen) :
    (Cursor.inPiece addr len rangeLen used pieceNum count).turn addr len rangeLen size =
      .inPiece addr len rangeLen 0 (pieceNum + 1) 0 := by
  simp [Cursor.turn, Cursor.inPiece, full]

theorem Cursor.inPiece_pass (fits : size ≤ len - used) :
    (Cursor.inPiece addr len rangeLen used pieceNum count).pass size =
      .inPiece addr len rangeLen (used + size) pieceNum (count + 1) := by
  simp only [Cursor.pass, Cursor.inPiece, ulongSub, fits, if_true, Cursor.mk.injEq, true_and]
  omega

end InPiece

/-- The loop from anywhere inside a piece: the piece is completed, then each
further piece starts over at the beginning of the buffer. -/
theorem placeModules_inPiece (addr len rangeLen bound : Nat) (some : 0 < rangeLen)
    (room : rangeLen * bound ≤ len) (sizes : List Nat) (bounded : ∀ size ∈ sizes, size ≤ bound)
    (used pieceNum count : Nat) (inside : count ≤ rangeLen) (usedLe : used ≤ count * bound) :
    (placeModules addr len rangeLen (.inPiece addr len rangeLen used pieceNum count) sizes).1.pieceNum =
        pieceNum + (cut rangeLen (sizes.drop (rangeLen - count))).length ∧
      (placeModules addr len rangeLen (.inPiece addr len rangeLen used pieceNum count) sizes).2 =
        offsetsFrom (addr + used) (sizes.take (rangeLen - count)) ++
          ((cut rangeLen (sizes.drop (rangeLen - count))).map (offsetsFrom addr)).flatten := by
  induction sizes generalizing used pieceNum count with
  | nil => simp [placeModules, Cursor.inPiece, offsetsFrom]
  | cons size sizes ih =>
      have sizeLe := bounded size List.mem_cons_self
      have later := ih (fun other member => bounded other (.tail _ member))
      rcases Nat.lt_or_eq_of_le inside with more | full
      · -- the module still belongs to the current piece
        have area : (count + 1) * bound ≤ rangeLen * bound := Nat.mul_le_mul_right bound more
        rw [Nat.succ_mul] at area
        have fits : size ≤ len - used := by omega
        have stays := Cursor.inPiece_stays addr len rangeLen used pieceNum count size more fits
        have passed := Cursor.inPiece_pass addr len rangeLen used pieceNum count size fits
        have behind : rangeLen - count = (rangeLen - (count + 1)) + 1 := by omega
        obtain ⟨pieces, pointers⟩ := later (used + size) pieceNum (count + 1) more (by
          rw [Nat.succ_mul]
          omega)
        rw [behind, List.drop_succ_cons, List.take_succ_cons]
        simp only [placeModules, stays, passed, offsetsFrom, List.cons_append]
        exact ⟨pieces, by rw [pointers, Nat.add_assoc]; rfl⟩
      · -- the piece is complete: start over
        have turned := Cursor.inPiece_opens addr len rangeLen used pieceNum count size full
        have whole : bound ≤ rangeLen * bound := Nat.le_mul_of_pos_left bound some
        have fits : size ≤ len := by omega
        have passed := Cursor.inPiece_pass addr len rangeLen 0 (pieceNum + 1) 0 size fits
        rw [Nat.zero_add, Nat.zero_add] at passed
        obtain ⟨pieces, pointers⟩ := later size (pieceNum + 1) 1 some (by omega)
        have none : rangeLen - count = 0 := by omega
        rw [none, List.drop_zero, List.take_zero, cut_eq rangeLen some _ (List.cons_ne_nil _ _)]
        have drop : (size :: sizes).drop rangeLen = sizes.drop (rangeLen - 1) := by
          cases rangeLen with
          | zero => omega
          | succ rangeLen => simp
        have take : (size :: sizes).take rangeLen = size :: sizes.take (rangeLen - 1) := by
          cases rangeLen with
          | zero => omega
          | succ rangeLen => simp
        simp only [placeModules, turned, passed, pieces, pointers, drop, take, List.map_cons,
          List.flatten_cons, offsetsFrom, List.length_cons, List.nil_append, List.cons_append]
        refine ⟨by omega, rfl⟩

/-- Modules of bounded size, as many to a piece as fit: the pieces are the table
cut by the count, each laid out from the beginning of the buffer. -/
theorem memConfigByPiece_eq (len first : Nat) (rest : List Nat) (positive : 0 < first)
    (fits : first ≤ len) (bounded : ∀ size ∈ first :: rest, size ≤ first)
    (several : 0 < len / first % 65536) :
    memConfigByPiece 0 len first rest = some {
      pieceNum := (cut (len / first % 65536) (first :: rest)).length % 65536
      rangeLen := len / first % 65536
      rangeTotal := (rest.length + 1) % 65536
      pointers := ((cut (len / first % 65536) (first :: rest)).map (offsetsFrom 0)).flatten } := by
  have start : configStart len first = .ready (len / first % 65536) := by
    simp [configStart, Nat.not_lt.mpr fits, positive.ne']
  have room : len / first % 65536 * first ≤ len := by
    calc len / first % 65536 * first ≤ len / first * first :=
          Nat.mul_le_mul_right first (Nat.mod_le _ _)
      _ ≤ len := Nat.div_mul_le_self len first
  generalize len / first % 65536 = rangeLen at start room several ⊢
  have begin_ : Cursor.first 0 len rangeLen = .inPiece 0 len rangeLen 0 1 0 := by
    simp [Cursor.first, Cursor.inPiece]
  obtain ⟨pieces, pointers⟩ := placeModules_inPiece 0 len rangeLen first several room (first :: rest)
    bounded 0 1 0 (Nat.zero_le _) (Nat.zero_le _)
  have cuts := cut_eq rangeLen several (first :: rest) (List.cons_ne_nil _ _)
  simp only [memConfigByPiece, start, begin_, pieces, pointers, Nat.sub_zero, Nat.add_zero]
  rw [cuts, List.length_cons, List.map_cons, List.flatten_cons, Nat.add_comm 1]

end Alisl.Upgrade
