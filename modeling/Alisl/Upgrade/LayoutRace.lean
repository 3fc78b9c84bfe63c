import Alisl.Base.Machine
import Alisl.Upgrade.ModuleLayout

/-! The module table under two threads: `ota_file_get_size` of the source lays it
out in a temporary buffer which it then frees, `ota_file_download_by_piece` lays
it out in `ota_buf` and lets `alisl_ddb_data` copy blocks through its pointers.
Nothing orders the two. -/

namespace Alisl.Upgrade.LayoutRace

open Alisl.Base

/-- What a pointer points into: the temporary buffer of the source, `ota_buf`, or
memory of an earlier download. -/
inductive Block where
  | temp
  | ota
  | earlier
  deriving DecidableEq, Repr

structure Ptr where
  block : Block
  offset : Nat
  deriving DecidableEq, Repr

structure Module where
  size : Nat
  pointer : Ptr
  deriving DecidableEq, Repr

/-- Module sizes as a DII of the pack tool announces them. -/
structure Sizes where
  sizes : List Nat
  some : sizes ≠ []
  few : sizes.length ≤ dcModuleMax
  bounded : ∀ size ∈ sizes, 1 ≤ size ∧ size ≤ moduleValidSize

/-- Progress through `alislupg_ota_mem_config_by_piece`. -/
structure Placing where
  index : Nat
  rangeLen : Nat
  cursor : Cursor
  deriving DecidableEq, Repr

inductive SourcePc where
  | alloc
  | config
  | place (placing : Placing)
  | free
  | returned
  deriving DecidableEq, Repr

inductive DownloadPc where
  | info
  | alloc
  | config
  | place (placing : Placing)
  | receive
  | ended
  deriving DecidableEq, Repr

/-- A block copied by `alisl_ddb_data`: the pointer of its module, the module's
size, and whether `ota_buf` was allocated. -/
structure Copy where
  pointer : Ptr
  size : Nat
  otaLive : Bool
  deriving DecidableEq, Repr

structure State where
  table : List Module
  ramAddr : Ptr
  tempLive : Bool
  otaLive : Bool
  source : SourcePc
  download : DownloadPc
  copies : List Copy

inductive Act where
  | source (allocated : Bool)
  | dii (sizes : Sizes)
  | infoFail (table : List Module)
  | download (allocated : Bool)
  | ddb (index : Nat)

/-- The pointers `alisl_dii_message` chains from `g_ota_ram1_addr`. -/
def chain : Ptr → List Nat → List Module
  | _, [] => []
  | pointer, size :: sizes =>
      ⟨size, pointer⟩ :: chain ⟨pointer.block, pointer.offset + size⟩ sizes

/-- The head of `alislupg_ota_mem_config_by_piece`. Without modules there is
nothing to place, whatever stands in the first entry. -/
def startPlacing (len : Nat) : List Module → ConfigStart
  | [] => .tooSmall
  | first :: _ => configStart len first.size

/-- One turn of its loop on the buffer of the given thread. -/
def placeNext (len : Nat) (block : Block) (table : List Module) (placing : Placing) :
    Option (List Module × Placing) :=
  match table[placing.index]? with
  | none => none
  | some entry =>
      let here := placing.cursor.turn 0 len placing.rangeLen entry.size
      some (table.set placing.index { entry with pointer := ⟨block, here.curPtr⟩ },
        ⟨placing.index + 1, placing.rangeLen, here.pass entry.size⟩)

def sourceNext (len : Nat) (state : State) (allocated : Bool) : Option State :=
  match state.source with
  | .alloc =>
      if allocated then some { state with tempLive := true, source := .config }
      else some { state with source := .returned }
  | .config =>
      let state := { state with ramAddr := ⟨.temp, 0⟩ }
      match startPlacing len state.table with
      | .divisionByZero => none
      | .tooSmall => some { state with source := .free }
      | .ready rangeLen =>
          some { state with source := .place ⟨0, rangeLen, .first 0 len rangeLen⟩ }
  | .place placing =>
      match placeNext len .temp state.table placing with
      | none => some { state with source := .free }
      | some (table, placing) => some { state with table := table, source := .place placing }
  | .free => some { state with tempLive := false, source := .returned }
  | .returned => none

def downloadNext (len : Nat) (state : State) : Act → Option State
  | .dii sizes =>
      if state.download = .info then
        some { state with table := chain state.ramAddr sizes.sizes, download := .alloc }
      else none
  | .infoFail table =>
      if state.download = .info then some { state with table := table, download := .ended } else none
  | .download allocated =>
      match state.download with
      | .alloc =>
          if allocated then some { state with otaLive := true, download := .config }
          else some { state with download := .ended }
      | .config =>
          let state := { state with ramAddr := ⟨.ota, 0⟩ }
          match startPlacing len state.table with
          | .divisionByZero => none
          -- piece_num is still 0, so no piece is downloaded
          | .tooSmall => some { state with download := .ended }
          | .ready rangeLen =>
              some { state with download := .place ⟨0, rangeLen, .first 0 len rangeLen⟩ }
      | .place placing =>
          match placeNext len .ota state.table placing with
          | none => some { state with download := .receive }
          | some (table, placing) => some { state with table := table, download := .place placing }
      | _ => none
  | .ddb index =>
      if state.download = .receive then
        match state.table[index]? with
        | none => none
        | some entry =>
            some { state with
              copies := state.copies ++ [⟨entry.pointer, entry.size, state.otaLive⟩] }
      else none
  | .source _ => none

def next (len : Nat) (state : State) : Act → Option State
  | .source allocated => sourceNext len state allocated
  | act => downloadNext len state act

/-- Both threads just created; the table is what `ota_file_get_config` left. -/
structure Initial (state : State) : Prop where
  source : state.source = .alloc
  download : state.download = .info
  copies : state.copies = []

def machine (downBufSize : Nat) : Machine State Act where
  Initial := Initial
  next := next (pieceBytes downBufSize)

/-- Every block goes through a pointer into the live `ota_buf`, with room for the module. -/
def CopiesInside (len : Nat) (state : State) : Prop :=
  ∀ copy ∈ state.copies,
    copy.otaLive = true ∧ copy.pointer.block = .ota ∧ copy.pointer.offset + copy.size ≤ len

/-- How many modules the download thread has placed. -/
def State.placed (state : State) : Nat :=
  match state.download with
  | .info | .alloc | .config | .ended => 0
  | .place placing => placing.index
  | .receive => state.table.length

/-- About to place a module among the first ones of the table. -/
def SourcePc.places (bound : Nat) : SourcePc → Bool
  | .place placing => placing.index < bound
  | .alloc | .config | .free | .returned => false

/-- The source does not place a module that the download thread has placed. -/
def InFront (state : State) : Act → Prop
  | .source _ => state.source.places state.placed = false
  | .dii _ | .infoFail _ | .download _ | .ddb _ => True

instance (state : State) (act : Act) : Decidable (InFront state act) :=
  match act with
  | .source _ => inferInstanceAs (Decidable (state.source.places state.placed = false))
  | .dii _ | .infoFail _ | .download _ | .ddb _ => .isTrue trivial

/-- The modules the download thread has placed point into `ota_buf`. -/
structure Inv (len : Nat) (state : State) : Prop where
  copies : CopiesInside len state
  live : state.otaLive = true ∨ state.download = .info ∨ state.download = .alloc ∨
    state.download = .ended
  sizes : state.download ≠ .info → state.download ≠ .ended →
    ∀ entry ∈ state.table, 1 ≤ entry.size ∧ entry.size ≤ moduleValidSize
  room : ∀ placing, state.download = .place placing → moduleValidSize ≤ len
  placed : ∀ i < state.placed, ∀ entry, state.table[i]? = some entry →
    entry.pointer.block = .ota ∧ entry.pointer.offset + entry.size ≤ len
  cursor : ∀ placing, state.download = .place placing → placing.cursor.Balanced 0 len

/-- One placement: the sizes stay, one pointer changes. -/
theorem placeNext_spec (len : Nat) (block : Block) (table after : List Module)
    (placing later : Placing) (moved : placeNext len block table placing = some (after, later)) :
    ∃ entry, table[placing.index]? = some entry ∧
      after = table.set placing.index
        ⟨entry.size, ⟨block, (placing.cursor.turn 0 len placing.rangeLen entry.size).curPtr⟩⟩ ∧
      later = ⟨placing.index + 1, placing.rangeLen,
        (placing.cursor.turn 0 len placing.rangeLen entry.size).pass entry.size⟩ := by
  unfold placeNext at moved
  cases found : table[placing.index]? with
  | none => simp [found] at moved
  | some entry =>
      simp only [found, Option.some.injEq, Prod.mk.injEq] at moved
      obtain ⟨rfl, rfl⟩ := moved
      exact ⟨entry, rfl, rfl, rfl⟩

theorem placeNext_sizes (len : Nat) (block : Block) (table after : List Module)
    (placing later : Placing) (moved : placeNext len block table placing = some (after, later))
    (bounded : ∀ entry ∈ table, 1 ≤ entry.size ∧ entry.size ≤ moduleValidSize) :
    ∀ entry ∈ after, 1 ≤ entry.size ∧ entry.size ≤ moduleValidSize := by
  obtain ⟨entry, found, rfl, _⟩ := placeNext_spec len block table after placing later moved
  intro other member
  rcases List.mem_or_eq_of_mem_set member with member | rfl
  · exact bounded other member
  · exact bounded entry (List.mem_of_getElem? found)

theorem chain_sizes (pointer : Ptr) (sizes : List Nat)
    (bounded : ∀ size ∈ sizes, 1 ≤ size ∧ size ≤ moduleValidSize) :
    ∀ entry ∈ chain pointer sizes, 1 ≤ entry.size ∧ entry.size ≤ moduleValidSize := by
  induction sizes generalizing pointer with
  | nil => simp [chain]
  | cons size sizes ih =>
      intro entry member
      rcases List.mem_cons.mp member with rfl | member
      · exact bounded size List.mem_cons_self
      · exact ih _ (fun other inside => bounded other (.tail _ inside)) entry member

/-- A table whose front entries and sizes are kept, with both threads anywhere the
download thread is not moved. -/
theorem Inv.retable {len : Nat} {state after : State} (inv : Inv len state)
    (copies : after.copies = state.copies) (live : after.otaLive = state.otaLive)
    (download : after.download = state.download)
    (length : after.table.length = state.table.length)
    (sizes : (∀ entry ∈ state.table, 1 ≤ entry.size ∧ entry.size ≤ moduleValidSize) →
      ∀ entry ∈ after.table, 1 ≤ entry.size ∧ entry.size ≤ moduleValidSize)
    (front : ∀ i < state.placed, after.table[i]? = state.table[i]?) : Inv len after := by
  have placed : after.placed = state.placed := by
    simp [State.placed, download, length]
  refine ⟨?_, ?_, ?_, ?_, ?_, ?_⟩
  · unfold CopiesInside
    rw [copies]
    exact inv.copies
  · rw [live, download]
    exact inv.live
  · rw [download]
    intro first second
    exact sizes (inv.sizes first second)
  · rw [download]
    exact inv.room
  · rw [placed]
    intro i inside entry found
    rw [front i inside] at found
    exact inv.placed i inside entry found
  · rw [download]
    exact inv.cursor

theorem source_inv (len : Nat) (state after : State) (allocated : Bool) (inv : Inv len state)
    (inFront : state.source.places state.placed = false)
    (moved : sourceNext len state allocated = some after) : Inv len after := by
  cases pc : state.source with
  | alloc =>
      simp only [sourceNext, pc] at moved
      split at moved <;> cases moved <;>
        exact inv.retable rfl rfl rfl rfl id (fun _ _ => rfl)
  | config =>
      simp only [sourceNext, pc] at moved
      split at moved <;> cases moved <;>
        exact inv.retable rfl rfl rfl rfl id (fun _ _ => rfl)
  | place placing =>
      simp only [sourceNext, pc] at moved
      split at moved
      · cases moved
        exact inv.retable rfl rfl rfl rfl id (fun _ _ => rfl)
      · rename_i table later placed
        cases moved
        have bounded := placeNext_sizes len .temp state.table table placing later placed
        obtain ⟨entry, found, rfl, rfl⟩ :=
          placeNext_spec len .temp state.table table placing later placed
        refine inv.retable rfl rfl rfl (by simp) bounded ?_
        intro i inside
        have other : placing.index ≠ i := by
          rintro rfl
          simp only [pc, SourcePc.places, decide_eq_false_iff_not] at inFront
          exact inFront inside
        exact List.getElem?_set_ne other
  | free =>
      simp only [sourceNext, pc] at moved
      cases moved
      exact inv.retable rfl rfl rfl rfl id (fun _ _ => rfl)
  | returned => simp [sourceNext, pc] at moved

theorem startPlacing_pos (len rangeLen : Nat) (table : List Module)
    (ready : startPlacing len table = .ready rangeLen)
    (bounded : ∀ entry ∈ table, 1 ≤ entry.size ∧ entry.size ≤ moduleValidSize) : 0 < len := by
  cases table with
  | nil => cases ready
  | cons first rest =>
      have positive := (bounded first List.mem_cons_self).1
      simp only [startPlacing, configStart] at ready
      split at ready
      · cases ready
      · omega

theorem download_inv (downBufSize : Nat) (state after : State) (act : Act)
    (inv : Inv (pieceBytes downBufSize) state)
    (moved : downloadNext (pieceBytes downBufSize) state act = some after) :
    Inv (pieceBytes downBufSize) after := by
  cases act with
  | source => simp [downloadNext] at moved
  | dii sizes =>
      simp only [downloadNext] at moved
      split at moved <;> cases moved
      refine ⟨inv.copies, .inr (.inr (.inl rfl)), ?_, by simp, by simp [State.placed], by simp⟩
      intro _ _
      apply chain_sizes
      exact sizes.bounded
  | infoFail table =>
      simp only [downloadNext] at moved
      split at moved <;> cases moved
      exact ⟨inv.copies, .inr (.inr (.inr rfl)), by simp, by simp, by simp [State.placed], by simp⟩
  | ddb index =>
      simp only [downloadNext] at moved
      split at moved
      · rename_i receiving
        cases found : state.table[index]? with
        | none => simp [found] at moved
        | some entry =>
            simp only [found, Option.some.injEq] at moved
            subst moved
            refine ⟨?_, inv.live, inv.sizes, inv.room, inv.placed, inv.cursor⟩
            intro copy member
            rcases List.mem_append.mp member with member | member
            · exact inv.copies copy member
            · rw [List.mem_singleton] at member
              subst member
              have live : state.otaLive = true := by
                simpa [receiving] using inv.live
              have inside : index < state.placed := by
                simpa [State.placed, receiving] using (List.getElem?_eq_some_iff.mp found).1
              exact ⟨live, inv.placed index inside entry found⟩
      · cases moved
  | download allocated =>
      cases pc : state.download with
      | info => simp [downloadNext, pc] at moved
      | alloc =>
          simp only [downloadNext, pc] at moved
          have sizes := inv.sizes (by simp [pc]) (by simp [pc])
          split at moved <;> cases moved
          · exact ⟨inv.copies, .inl rfl, fun _ _ => sizes, by simp, by simp [State.placed], by simp⟩
          · exact ⟨inv.copies, .inr (.inr (.inr rfl)), fun _ _ => sizes, by simp,
              by simp [State.placed], by simp⟩
      | config =>
          simp only [downloadNext, pc] at moved
          have sizes := inv.sizes (by simp [pc]) (by simp [pc])
          have live : state.otaLive = true := by simpa [pc] using inv.live
          split at moved <;> cases moved
          · exact ⟨inv.copies, .inl live, fun _ _ => sizes, by simp, by simp [State.placed], by simp⟩
          · rename_i rangeLen ready
            refine ⟨inv.copies, .inl live, fun _ _ => sizes, fun _ _ => ?_, by simp [State.placed], ?_⟩
            · apply moduleValidSize_le
              exact startPlacing_pos _ _ _ ready sizes
            · rintro placing ⟨rfl⟩
              exact Cursor.balanced_first _ _ _
      | place placing =>
          simp only [downloadNext, pc] at moved
          have sizes := inv.sizes (by simp [pc]) (by simp [pc])
          have live : state.otaLive = true := by simpa [pc] using inv.live
          have balanced := inv.cursor placing pc
          have front := inv.placed
          simp only [State.placed, pc] at front
          split at moved
          · rename_i over_
            cases moved
            refine ⟨inv.copies, .inl live, fun _ _ => sizes, by simp, ?_, by simp⟩
            have all : state.table.length ≤ placing.index := by
              unfold placeNext at over_
              cases found : state.table[placing.index]? with
              | none => exact List.getElem?_eq_none_iff.mp found
              | some entry => simp [found] at over_
            intro i inside entry found
            simp only [State.placed] at inside
            exact front i (by omega) entry found
          · rename_i table later placed
            cases moved
            have bounded := placeNext_sizes _ .ota state.table table placing later placed sizes
            obtain ⟨entry, found, rfl, rfl⟩ :=
              placeNext_spec _ .ota state.table table placing later placed
            have fits := (sizes entry (List.mem_of_getElem? found)).2.trans (inv.room placing pc)
            obtain ⟨turned, room⟩ := balanced.turn placing.rangeLen fits
            refine ⟨inv.copies, .inl live, fun _ _ => bounded, fun _ _ => inv.room placing pc, ?_, ?_⟩
            · intro i inside other present
              simp only [State.placed] at inside
              rcases Nat.lt_succ_iff_lt_or_eq.mp inside with before | rfl
              · rw [List.getElem?_set_ne (Nat.ne_of_gt before)] at present
                exact front i before other present
              · rw [List.getElem?_set_self (List.getElem?_eq_some_iff.mp found).1] at present
                cases present
                refine ⟨rfl, ?_⟩
                obtain ⟨_, whole⟩ := turned
                simp only
                omega
            · rintro next ⟨rfl⟩
              exact turned.pass room
      | receive => simp [downloadNext, pc] at moved
      | ended => simp [downloadNext, pc] at moved

theorem in_front_inv (downBufSize : Nat) (state : State)
    (reachable : ((machine downBufSize).restrict InFront).Reachable state) :
    Inv (pieceBytes downBufSize) state := by
  refine Machine.Reachable.always ?_ ?_ state reachable
  · intro start initial
    refine ⟨?_, .inr (.inl initial.download), ?_, ?_, ?_, ?_⟩
    · simp [CopiesInside, initial.copies]
    · intro other
      exact absurd initial.download other
    · simp [initial.download]
    · simp [State.placed, initial.download]
    · simp [initial.download]
  · intro before act after _ inv moved
    obtain ⟨inFront, moved⟩ := Machine.restrict_next.mp moved
    cases act with
    | source allocated => exact source_inv _ before after allocated inv inFront moved
    | dii sizes => exact download_inv _ before after (.dii sizes) inv moved
    | infoFail table => exact download_inv _ before after (.infoFail table) inv moved
    | download allocated => exact download_inv _ before after (.download allocated) inv moved
    | ddb index => exact download_inv _ before after (.ddb index) inv moved

theorem ddb_next (len index : Nat) (state : State) (entry : Module)
    (receiving : state.download = .receive) (found : state.table[index]? = some entry) :
    next len state (.ddb index) = some { state with
      copies := state.copies ++ [⟨entry.pointer, entry.size, state.otaLive⟩] } := by
  simp [next, downloadNext, receiving, found]

/-- A module placed by the source while blocks are being received: the next block
of that module goes into the temporary buffer. -/
theorem late_source_misdirects (len : Nat) (state after : State) (allocated : Bool)
    (receiving : state.download = .receive) (late : ¬ InFront state (.source allocated))
    (moved : next len state (.source allocated) = some after) :
    ∃ index later, next len after (.ddb index) = some later ∧ ¬ CopiesInside len later := by
  have misplaced : state.source.places state.placed = true := by simpa [InFront] using late
  cases pc : state.source with
  | place placing =>
      have inside : placing.index < state.table.length := by
        simpa [pc, SourcePc.places, State.placed, receiving] using misplaced
      obtain ⟨entry, found⟩ : ∃ entry, state.table[placing.index]? = some entry :=
        ⟨_, List.getElem?_eq_getElem inside⟩
      simp only [next, sourceNext, pc, placeNext, found, Option.some.injEq] at moved
      subst moved
      refine ⟨placing.index, _, ddb_next len _ _ _ receiving (List.getElem?_set_self inside), ?_⟩
      intro safe
      have astray := (safe _ (List.mem_append_right _ (List.mem_singleton_self _))).2.1
      cases astray
  | _ => simp [pc, SourcePc.places] at misplaced

/-- In every run in which the source never places a module that the download
thread has placed already, all blocks go into the live `ota_buf`. A module placed
late, while blocks are being received, sends the next block of it elsewhere. -/
theorem copies_inside_of_in_front (downBufSize : Nat) :
    (∀ state, ((machine downBufSize).restrict InFront).Reachable state →
      CopiesInside (pieceBytes downBufSize) state) ∧
    ∀ state allocated after, state.download = .receive → ¬ InFront state (.source allocated) →
      next (pieceBytes downBufSize) state (.source allocated) = some after →
      ∃ index later, next (pieceBytes downBufSize) after (.ddb index) = some later ∧
        ¬ CopiesInside (pieceBytes downBufSize) later := by
  constructor
  · intro state reachable
    exact (in_front_inv downBufSize state reachable).copies
  · intro state allocated after receiving late moved
    exact late_source_misdirects _ state after allocated receiving late moved

def start : State where
  table := [⟨20, ⟨.earlier, 0⟩⟩, ⟨7, ⟨.earlier, 20⟩⟩]
  ramAddr := ⟨.earlier, 0⟩
  tempLive := false
  otaLive := false
  source := .alloc
  download := .info
  copies := []

theorem initial_start : Initial start := ⟨rfl, rfl, rfl⟩

def twoModules : Sizes := ⟨[20, 7], by decide, by decide, by decide⟩

/-- The download thread up to receiving, both modules placed in `ota_buf`. -/
def downloadReady : List Act :=
  [.dii twoModules, .download true, .download true, .download true, .download true, .download true]

def sourceWhole : List Act :=
  [.source true, .source true, .source true, .source true, .source true, .source true]

theorem copies_inside_source_first :
    ∃ state, ((machine 1).restrict InFront).run start
        (sourceWhole ++ downloadReady ++ [.ddb 1]) = some state ∧
      state.copies = [⟨⟨.ota, 20⟩, 7, true⟩] ∧ CopiesInside (pieceBytes 1) state := by
  have ran : ∃ state, ((machine 1).restrict InFront).run start
      (sourceWhole ++ downloadReady ++ [.ddb 1]) = some state ∧
      state.copies = [⟨⟨.ota, 20⟩, 7, true⟩] := ⟨_, rfl, rfl⟩
  obtain ⟨state, ran, copies⟩ := ran
  have reachable := Machine.reachable_of_run (.initial initial_start) ran
  exact ⟨state, ran, copies, (copies_inside_of_in_front 1).1 state reachable⟩

/-- The source lays the table out behind the download thread and frees its buffer. -/
theorem copies_outside_source_last :
    ¬ ∀ downBufSize state, (machine downBufSize).Reachable state →
      CopiesInside (pieceBytes downBufSize) state := by
  intro always
  have ran : ∃ state, (machine 1).run start (downloadReady ++ sourceWhole ++ [.ddb 1]) =
      some state ∧ state.copies = [⟨⟨.temp, 20⟩, 7, true⟩] ∧ state.tempLive = false :=
    ⟨_, rfl, rfl, rfl⟩
  obtain ⟨state, ran, copies, _⟩ := ran
  have inside := always 1 state (Machine.reachable_of_run (.initial initial_start) ran)
  have astray := (inside ⟨⟨.temp, 20⟩, 7, true⟩ (by simp [copies])).2.1
  cases astray

end Alisl.Upgrade.LayoutRace
