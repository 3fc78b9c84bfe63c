import Alisl.Base.Machine
import Alisl.Dmx.Device

/-! The poll thread in `service_dispatch` and another thread that stops, frees and allocates
service channels. A step is one critical section of `serv_mutex`, or the end of a callback. -/

namespace Alisl.Dmx

open Alisl.Base

/-- `struct dmx_buffer`; `buf` says that the pointer is not NULL. -/
structure ServBuffer where
  buf : Bool
  size : Nat
  write : Nat
  deriving DecidableEq, Repr

def ServBuffer.zero : ServBuffer := ⟨false, 0, 0⟩

/-- The fields of a service channel the dispatch uses; of the callbacks, whether they are there. -/
structure Service where
  id : Nat
  status : Status
  fd : Int
  buffer : ServBuffer
  requestBuffer : Bool
  updateBuffer : Bool
  deriving DecidableEq, Repr

def Service.zero : Service := ⟨0, .none, 0, .zero, false, false⟩

/-- Where the poll thread is in `service_dispatch` while the mutex is released: a callback runs, or
it has returned. The number is that of the allocation of the slot when the dispatch began. -/
inductive ServDispatch where
  | idle
  | requesting (slot begun : Nat)
  | requested (slot begun : Nat)
  | updating (slot begun : Nat)
  | updated (slot begun : Nat)
  deriving DecidableEq, Repr

inductive ActKind where
  | read
  | update
  | reset
  deriving DecidableEq, Repr

/-- Something `service_dispatch` does to its channel, and what the channel is at that time. -/
structure Act where
  kind : ActKind
  begun : Nat
  gen : Nat
  status : Status
  deriving DecidableEq, Repr

/-- The channel for which the dispatch began is still there and enabled. -/
def Act.sound (act : Act) : Prop := act.gen = act.begun ∧ act.status = .enable

/-- How often a slot was allocated and what the dispatch has done is only recorded. -/
structure ServSys where
  slots : Nat → Service
  gen : Nat → Nat
  poll : ServDispatch
  acts : List Act

inductive ServLabel where
  | dispatch (slot : Nat) (readable : Bool) (nbytes : Int)
  | requestReturn (buf : Bool) (size : Nat)
  | updateReturn
  | resume (nbytes : Int)
  | enable (channelid : Nat) (fd : Int)
  | disable (channelid : Nat)
  | freeChannel (channelid : Nat)
  | allocateChannel
  | registerCallback (channelid : Nat) (requestBuffer updateBuffer : Bool)
  deriving DecidableEq, Repr

namespace ServSys

def setSlot (state : ServSys) (slot : Nat) (service : Service) : ServSys :=
  { state with slots := Function.update state.slots slot service }

def setBuffer (state : ServSys) (slot : Nat) (buffer : ServBuffer) : ServSys :=
  state.setSlot slot { state.slots slot with buffer }

def act (state : ServSys) (kind : ActKind) (slot begun : Nat) : ServSys :=
  { state with
    acts := state.acts ++ [⟨kind, begun, state.gen slot, (state.slots slot).status⟩] }

def quit (state : ServSys) : ServSys := { state with poll := .idle }

/-- `memset(buffer, 0, sizeof(*buffer))`. -/
def reset (state : ServSys) (slot begun : Nat) : ServSys :=
  ((state.act .reset slot begun).setBuffer slot .zero).quit

/-- From `read` on. -/
def fill (state : ServSys) (slot begun : Nat) (nbytes : Int) : ServSys :=
  let state := state.act .read slot begun
  if nbytes ≤ 0 then state.quit
  else
    let old := (state.slots slot).buffer
    let buffer := { old with write := old.write + nbytes.toNat }
    let state := state.setBuffer slot buffer
    if buffer.buf ∧ buffer.write = buffer.size then
      if (state.slots slot).updateBuffer then
        { state.act .update slot begun with poll := .updating slot begun }
      else state.reset slot begun
    else state.quit

/-- `service_dispatch` up to its first callback; `readable` says that `fstatfs` succeeds. -/
def serviceDispatch (state : ServSys) (slot : Nat) (readable : Bool) (nbytes : Int) : ServSys :=
  let channel := state.slots slot
  if channel.status ≠ .enable ∨ ¬ readable then state
  else if channel.buffer.buf then state.fill slot (state.gen slot) nbytes
  else if channel.requestBuffer then
    { state with poll := .requesting slot (state.gen slot) }
  else state.reset slot (state.gen slot)

/-- After `request_buffer`. -/
def afterRequest (state : ServSys) (slot begun : Nat) (nbytes : Int) : ServSys :=
  let channel := state.slots slot
  if channel.status = .none then state.quit
  else if channel.buffer.buf = false ∨ channel.buffer.size = 0 then state.reset slot begun
  else (state.setBuffer slot { channel.buffer with write := 0 }).fill slot begun nbytes

/-- After `update_buffer`. -/
def afterUpdate (state : ServSys) (slot begun : Nat) : ServSys :=
  if (state.slots slot).status = .none then state.quit else state.reset slot begun

def findChannel (state : ServSys) (channelid : Nat) : Option Nat :=
  (List.range ChType.services.max).find? (fun i =>
    (state.slots i).status ≠ .none ∧ (state.slots i).id = channelid)

def freeSlot (state : ServSys) : Option Nat :=
  (List.range ChType.services.max).find? (fun i =>
    (state.slots i).status = .none ∨ (state.slots i).id = 0)

def step (state : ServSys) : ServLabel → Option ServSys
  | .dispatch slot readable nbytes =>
      if state.poll = .idle ∧ slot < ChType.services.max then
        some (state.serviceDispatch slot readable nbytes)
      else none
  | .requestReturn buf size =>
      match state.poll with
      | .requesting slot begun =>
          let buffer := { (state.slots slot).buffer with buf, size }
          some { state.setBuffer slot buffer with poll := .requested slot begun }
      | _ => none
  | .updateReturn =>
      match state.poll with
      | .updating slot begun => some { state with poll := .updated slot begun }
      | _ => none
  | .resume nbytes =>
      match state.poll with
      | .requested slot begun => some (state.afterRequest slot begun nbytes)
      | .updated slot begun => some (state.afterUpdate slot begun)
      | _ => none
  | .enable channelid fd =>
      some (match state.findChannel channelid with
        | none => state
        | some slot =>
            if (state.slots slot).status = .enable then state
            else state.setSlot slot { state.slots slot with fd, status := .enable })
  | .disable channelid =>
      some (match state.findChannel channelid with
        | none => state
        | some slot =>
            if (state.slots slot).status = .disable then state
            else state.setSlot slot { state.slots slot with status := .disable })
  | .freeChannel channelid =>
      some (match state.findChannel channelid with
        | none => state
        | some slot => state.setSlot slot .zero)
  | .allocateChannel =>
      some (match state.freeSlot with
        | none => state
        | some slot =>
            { state.setSlot slot
                { state.slots slot with
                  id := typeIndex2Chid .services slot
                  status := .disable } with
              gen := Function.update state.gen slot (state.gen slot + 1) })
  | .registerCallback channelid requestBuffer updateBuffer =>
      some (match state.findChannel channelid with
        | none => state
        | some slot =>
            state.setSlot slot { state.slots slot with requestBuffer, updateBuffer })

end ServSys

def service : Machine ServSys ServLabel where
  Initial state := state.poll = .idle ∧ state.acts = []
  next := ServSys.step

namespace ServSys

variable {state : ServSys} {slot begun : Nat}

/-- The slot holds the channel for which the dispatch began, enabled. -/
def holds (state : ServSys) (slot begun : Nat) : Prop :=
  state.gen slot = begun ∧ (state.slots slot).status = .enable

instance (state : ServSys) (slot begun : Nat) : Decidable (state.holds slot begun) :=
  inferInstanceAs (Decidable (_ ∧ _))

/-- When the mutex is taken again after a callback, the slot is free or still holds the channel. -/
def careful (state : ServSys) : ServLabel → Bool
  | .resume _ =>
      match state.poll with
      | .requested slot begun =>
          decide ((state.slots slot).status = .none) || decide (state.holds slot begun)
      | .updated slot begun =>
          decide ((state.slots slot).status = .none) || decide (state.holds slot begun)
      | _ => true
  | _ => true

def AllSound (state : ServSys) : Prop := ∀ act ∈ state.acts, act.sound

theorem AllSound.act (sound : AllSound state) (holds : state.holds slot begun) (kind : ActKind) :
    AllSound (state.act kind slot begun) := by
  intro act member
  rcases List.mem_append.mp member with before | now
  · exact sound act before
  · rw [List.mem_singleton.mp now]
    exact holds

theorem holds.setBuffer (holds : state.holds slot begun) (buffer : ServBuffer) :
    (state.setBuffer slot buffer).holds slot begun := by
  refine ⟨holds.1, ?_⟩
  simp [ServSys.setBuffer, setSlot, holds.2]

theorem AllSound.reset (sound : AllSound state) (holds : state.holds slot begun) :
    AllSound (state.reset slot begun) :=
  sound.act holds .reset

theorem AllSound.fill (sound : AllSound state) (holds : state.holds slot begun) (nbytes : Int) :
    AllSound (state.fill slot begun nbytes) := by
  have read := sound.act holds .read
  have still : (state.act .read slot begun).holds slot begun := holds
  unfold ServSys.fill
  dsimp only
  split
  · exact read
  · split
    · split
      · exact AllSound.act (by exact read) (still.setBuffer _) .update
      · exact AllSound.reset (by exact read) (still.setBuffer _)
    · exact read

theorem AllSound.serviceDispatch (sound : AllSound state) (readable : Bool) (nbytes : Int) :
    AllSound (state.serviceDispatch slot readable nbytes) := by
  unfold ServSys.serviceDispatch
  dsimp only
  split
  · exact sound
  case isFalse enabled =>
    have holds : state.holds slot (state.gen slot) :=
      ⟨rfl, by by_contra other; exact enabled (.inl other)⟩
    split
    · exact sound.fill holds nbytes
    · split
      · exact sound
      · exact sound.reset holds

theorem AllSound.afterRequest (sound : AllSound state) (nbytes : Int)
    (careful : (state.slots slot).status = .none ∨ state.holds slot begun) :
    AllSound (state.afterRequest slot begun nbytes) := by
  unfold ServSys.afterRequest
  dsimp only
  split
  · exact sound
  case isFalse live =>
    have holds := careful.resolve_left live
    split
    · exact sound.reset holds
    · exact AllSound.fill (by exact sound) (holds.setBuffer _) nbytes

theorem AllSound.afterUpdate (sound : AllSound state)
    (careful : (state.slots slot).status = .none ∨ state.holds slot begun) :
    AllSound (state.afterUpdate slot begun) := by
  unfold ServSys.afterUpdate
  split
  · exact sound
  case isFalse live => exact sound.reset (careful.resolve_left live)

/-- The critical sections of `service_dispatch`. -/
def locked : ServLabel → Bool
  | .dispatch _ _ _ => true
  | .resume _ => true
  | _ => false

theorem step_acts {after : ServSys} {label : ServLabel} (moved : state.step label = some after)
    (other : locked label = false) : after.acts = state.acts := by
  cases label with
  | dispatch slot readable nbytes => cases other
  | resume nbytes => cases other
  | requestReturn buf size =>
      simp only [step] at moved
      split at moved
      · cases moved
        rfl
      · cases moved
  | updateReturn =>
      simp only [step] at moved
      split at moved
      · cases moved
        rfl
      · cases moved
  | enable channelid fd =>
      cases moved
      repeat' split
      all_goals rfl
  | disable channelid =>
      cases moved
      repeat' split
      all_goals rfl
  | freeChannel channelid =>
      cases moved
      split
      all_goals rfl
  | allocateChannel =>
      cases moved
      split
      all_goals rfl
  | registerCallback channelid requestBuffer updateBuffer =>
      cases moved
      split
      all_goals rfl

end ServSys

def carefulService : Machine ServSys ServLabel :=
  service.restrict (fun state label => state.careful label = true)

namespace ServSys

/-- What the dispatch does to its channel happens while that channel is enabled, if every time the
mutex is taken again its slot is free or still holds it. -/
theorem service_acts_sound (state : ServSys) (reachable : carefulService.Reachable state) :
    ∀ act ∈ state.acts, act.sound := by
  have sound : AllSound state := by
    refine Machine.Reachable.always ?_ ?_ state reachable
    · intro state start act member
      rw [start.2] at member
      cases member
    · intro state label after _ sound moved
      rcases Machine.restrict_next.mp moved with ⟨careful, moved⟩
      replace moved : state.step label = some after := moved
      cases label with
      | dispatch slot readable nbytes =>
          simp only [step] at moved
          split at moved
          · cases moved
            exact sound.serviceDispatch readable nbytes
          · cases moved
      | resume nbytes =>
          simp only [step] at moved
          split at moved
          case h_1 slot begun found =>
            cases moved
            exact sound.afterRequest nbytes (by simpa [ServSys.careful, found] using careful)
          case h_2 slot begun found =>
            cases moved
            exact sound.afterUpdate (by simpa [ServSys.careful, found] using careful)
          case h_3 => cases moved
      | _ =>
          have same := step_acts moved rfl
          intro act member
          rw [same] at member
          exact sound act member
  exact sound

theorem fill_read (state : ServSys) (slot begun : Nat) (nbytes : Int) :
    ⟨.read, begun, state.gen slot, (state.slots slot).status⟩ ∈
      (state.fill slot begun nbytes).acts := by
  have member : (⟨.read, begun, state.gen slot, (state.slots slot).status⟩ : Act) ∈
      (state.act .read slot begun).acts := List.mem_append_right _ (List.mem_singleton.mpr rfl)
  unfold fill
  dsimp only
  split
  · exact member
  · split
    · split
      · exact List.mem_append_left _ member
      · exact List.mem_append_left _ member
    · exact member

/-- The condition is exact: where it fails, the dispatch goes on with a channel that is
stopped or another one. -/
theorem resume_unsound {state after : ServSys} {nbytes : Int}
    (moved : state.step (.resume nbytes) = some after)
    (careless : state.careful (.resume nbytes) = false) : ∃ act ∈ after.acts, ¬ act.sound := by
  simp only [step] at moved
  split at moved
  case h_1 slot begun found =>
    have lost : (state.slots slot).status ≠ .none ∧ ¬ state.holds slot begun := by
      simpa [ServSys.careful, found] using careless
    cases moved
    unfold afterRequest
    dsimp only
    rw [if_neg lost.1]
    split
    · exact ⟨_, List.mem_append_right _ (List.mem_singleton.mpr rfl), lost.2⟩
    · refine ⟨_, fill_read _ slot begun nbytes, ?_⟩
      simpa [Act.sound, holds, setBuffer, setSlot] using lost.2
  case h_2 slot begun found =>
    have lost : (state.slots slot).status ≠ .none ∧ ¬ state.holds slot begun := by
      simpa [ServSys.careful, found] using careless
    cases moved
    unfold afterUpdate
    rw [if_neg lost.1]
    exact ⟨_, List.mem_append_right _ (List.mem_singleton.mpr rfl), lost.2⟩
  case h_3 => cases moved

/-- One enabled channel with both callbacks. -/
def oneService : ServSys where
  slots := Function.update (fun _ => .zero) 0
    ⟨typeIndex2Chid .services 0, .enable, 5, .zero, true, true⟩
  gen := fun _ => 0
  poll := .idle
  acts := []

theorem service_acts_sound_once : ∃ state, carefulService.Reachable state ∧
    state.acts.map Act.kind = [.read, .update] ∧ ∀ act ∈ state.acts, act.sound := by
  have ran : (carefulService.run oneService
      [.dispatch 0 true 0, .requestReturn true 184, .resume 184]).map
        (fun state => state.acts.map Act.kind) = some [.read, .update] := by
    decide +kernel
  rcases Option.map_eq_some_iff.mp ran with ⟨state, reached, kinds⟩
  have reachable : carefulService.Reachable state :=
    Machine.reachable_of_run (.initial ⟨rfl, rfl⟩) reached
  exact ⟨state, reachable, kinds, service_acts_sound state reachable⟩

/-- The channel is stopped while its `request_buffer` runs. -/
theorem service_reads_stopped : ¬ ∀ state, service.Reachable state → ∀ act ∈ state.acts, act.sound := by
  intro always
  have ran : (service.run oneService [.dispatch 0 true 0, .disable (typeIndex2Chid .services 0),
      .requestReturn true 184, .resume 184]).map (fun state => state.acts) =
        some [⟨.read, 0, 0, .disable⟩, ⟨.update, 0, 0, .disable⟩] := by
    decide +kernel
  rcases Option.map_eq_some_iff.mp ran with ⟨state, reached, acts⟩
  have reachable : service.Reachable state :=
    Machine.reachable_of_run (.initial ⟨rfl, rfl⟩) reached
  have sound := always state reachable ⟨.read, 0, 0, .disable⟩ (by simp [acts])
  exact absurd sound.2 (by decide)

end ServSys

end Alisl.Dmx
