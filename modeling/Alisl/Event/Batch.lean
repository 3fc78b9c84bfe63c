import Alisl.Event.Loop

/-! The events the loops of the module handle: what is registered, what is fetched, and what was
removed in between. -/

namespace Alisl.Event

open Alisl.Base

inductive ActKind where
  | read
  | start
  deriving DecidableEq, Repr

/-- A read of `*slev` or a start of `slev->cb`; `removed` says that the event was removed and not
added again. -/
structure Act where
  kind : ActKind
  slev : Nat
  removed : Bool
  deriving DecidableEq, Repr

/-- The module with its events. A thread handles an entry of its `evnts` in two unlocked pieces, the
copy of `*slev` before the flag is tested again and the callback after it; `handled` says that the
piece at hand is done. `instance_` is the epoll instance behind `eplfd`, `registered` gives the
events of each instance, `adding` are the events of the adds that have not yet taken the mutex.
`gone` and `acts` are only recorded. -/
structure Events where
  mod : Module
  instance_ : Option Nat
  fresh : Nat
  registered : Nat → List Nat
  adding : List Nat
  waits : Nat → Option Nat
  evnts : Nat → List Nat
  handled : Nat → Bool
  gone : Nat → Bool
  acts : List Act

inductive EventLabel where
  | openEvent (created : Option Nat)
  | close
  | addCtl (slev : Nat) (registered : Bool)
  | addLock (slev : Nat) (created : Bool)
  | del (slev : Nat)
  | thread (index : Nat) (wait : Wait) (ready : List Nat)
  | read (index : Nat)
  | start (index : Nat)
  deriving DecidableEq, Repr

namespace Events

-- The descriptor of each event.
variable (fd : Nat → Nat)

def lastClose (state : Events) : Bool := state.mod.openCnt = 1

/-- The instance in use has an event for the descriptor of `slev`. -/
def watched (state : Events) (slev : Nat) : Bool :=
  state.instance_.any (fun k => (state.registered k).any (fun other => fd other = fd slev))

/-- `EPOLL_CTL_DEL`, which goes by the descriptor. -/
def takeOut (state : Events) (slev : Nat) : Events :=
  { state with
    registered := state.instance_.elim state.registered (fun k =>
      Function.update state.registered k
        ((state.registered k).filter (fun other => fd other ≠ fd slev))) }

def alisleventOpen (state : Events) (created : Option Nat) : Events :=
  let mod := state.mod.alisleventOpen created
  if state.mod.openCnt < 1 then
    match created with
    | none => { state with mod, instance_ := none }
    | some _ => { state with mod, instance_ := some state.fresh, fresh := state.fresh + 1 }
  else { state with mod }

def alisleventClose (state : Events) : Events :=
  let mod := state.mod.alisleventClose
  if state.lastClose then { state with mod, instance_ := none, gone := fun _ => true }
  else { state with mod }

/-- `EPOLL_CTL_ADD`, which fails where the descriptor is registered. -/
def addCtl (state : Events) (slev : Nat) (registered : Bool) : Option Events :=
  (state.mod.step (.addCtl registered)).bind (fun mod =>
    if registered then
      if state.watched fd slev then none
      else
        state.instance_.map (fun k =>
          { state with
            mod
            registered := Function.update state.registered k (slev :: state.registered k)
            adding := slev :: state.adding
            gone := Function.update state.gone slev false })
    else some { state with mod })

/-- The rest of `alislevent_add`; where no thread is created the event is taken out again. -/
def addLock (state : Events) (slev : Nat) (created : Bool) : Option Events :=
  if slev ∈ state.adding then
    (state.mod.step (.addLock created)).map (fun mod =>
      let after := { state with mod, adding := state.adding.erase slev }
      if state.mod.running ∨ created then after else after.takeOut fd slev)
  else none

def alisleventDel (state : Events) (slev : Nat) : Events :=
  if state.watched fd slev then
    { state.takeOut fd slev with gone := Function.update state.gone slev true }
  else state

/-- A locked step of a thread, or one in the kernel. `epoll_wait` gives events of its instance. -/
def thread (state : Events) (index : Nat) (wait : Wait) (ready : List Nat) : Option Events :=
  (state.mod.threads[index]?).bind (fun pc =>
    (state.mod.step (.thread index wait)).bind (fun mod =>
      match pc with
      | .poll =>
          some { state with mod, waits := Function.update state.waits index state.instance_ }
      | .waiting _ =>
          match wait with
          | .events n =>
              (state.waits index).bind (fun k =>
                if n = ready.length ∧ ∀ slev ∈ ready, slev ∈ state.registered k then
                  some { state with
                    mod
                    evnts := Function.update state.evnts index ready
                    handled := Function.update state.handled index false }
                else none)
          | _ => some { state with mod }
      | .retest _ _ | .callback _ _ =>
          if state.handled index then
            some { state with mod, handled := Function.update state.handled index false }
          else none
      | _ => some { state with mod }))

/-- An unlocked piece. -/
def act (state : Events) (kind : ActKind) (index i : Nat) : Option Events :=
  if state.handled index then none
  else ((state.evnts index)[i]?).map (fun slev =>
    { state with
      handled := Function.update state.handled index true
      acts := state.acts ++ [⟨kind, slev, state.gone slev⟩] })

def step (state : Events) : EventLabel → Option Events
  | .openEvent created => some (state.alisleventOpen created)
  | .close => if state.mod.handle then some state.alisleventClose else none
  | .addCtl slev registered => state.addCtl fd slev registered
  | .addLock slev created => state.addLock fd slev created
  | .del slev => if state.mod.handle then some (state.alisleventDel fd slev) else none
  | .thread index wait ready => state.thread index wait ready
  | .read index =>
      match state.mod.threads[index]? with
      | some (.retest _ i) => state.act .read index i
      | _ => none
  | .start index =>
      match state.mod.threads[index]? with
      | some (.callback _ i) => state.act .start index i
      | _ => none

def zero : Events :=
  ⟨.zero, none, 0, fun _ => [], [], fun _ => none, fun _ => [], fun _ => false, fun _ => false, []⟩

end Events

/-- The module and its threads on events whose descriptors are `fd`. -/
def events (fd : Nat → Nat) : Machine Events EventLabel where
  Initial state := state = .zero
  next := Events.step fd

/-- The entries a thread still handles. -/
def Pc.pending (evnts : List Nat) (handled : Bool) : Pc → List Nat
  | .retest _ i => evnts.drop i
  | .callback _ i => evnts.drop (if handled then i + 1 else i)
  | _ => []

/-- The thread handles nothing and is not in `epoll_wait`. -/
def Pc.Idle (pc : Pc) : Prop := pc = .test ∨ pc = .poll ∨ pc = .out

theorem Pc.Idle.pending {pc : Pc} (idle : pc.Idle) (evnts : List Nat) (handled : Bool) :
    pc.pending evnts handled = [] := by
  rcases idle with rfl | rfl | rfl <;> rfl

namespace Events

def pending (state : Events) (index : Nat) : List Nat :=
  (state.mod.threads[index]?).elim [] (Pc.pending (state.evnts index) (state.handled index))

/-- The instance on which the thread is in `epoll_wait`. -/
def waitsOn (state : Events) (index : Nat) : Option Nat :=
  match state.mod.threads[index]? with
  | some (.waiting _) => state.waits index
  | _ => none

/-- What a step of a thread does: it keeps the other threads, and then handles no more of its batch
than before, or a batch of the instance it waited on. -/
structure Turn (state after : Events) (index : Nat) (pc next : Pc) : Prop where
  found : state.mod.threads[index]? = some pc
  mod : after = { state with
    mod := { state.mod with threads := state.mod.threads.set index next }
    waits := after.waits
    evnts := after.evnts
    handled := after.handled }
  others : ∀ other, other ≠ index → after.waits other = state.waits other ∧
    after.evnts other = state.evnts other ∧ after.handled other = state.handled other
  own : next.pending (after.evnts index) (after.handled index) ⊆
      pc.pending (state.evnts index) (state.handled index) ∨
    ∃ k, state.waitsOn index = some k ∧
      next.pending (after.evnts index) (after.handled index) ⊆ state.registered k
  onto : ∀ eplfd, next = .waiting eplfd → after.waits index = state.instance_

/-- A thread that becomes idle has dropped the rest of its batch. -/
theorem Turn.idle {state after : Events} {index : Nat} {pc next : Pc} (idle : next.Idle)
    (found : state.mod.threads[index]? = some pc)
    (mod : after = { state with
      mod := { state.mod with threads := state.mod.threads.set index next }
      waits := after.waits
      evnts := after.evnts
      handled := after.handled })
    (others : ∀ other, other ≠ index → after.waits other = state.waits other ∧
      after.evnts other = state.evnts other ∧ after.handled other = state.handled other) :
    Turn state after index pc next where
  found
  mod
  others
  own := by
    rw [idle.pending]
    exact Or.inl (List.nil_subset _)
  onto := by
    intro eplfd onto
    subst onto
    rcases idle with same | same | same <;> cases same

theorem thread_turn {state after : Events} {index : Nat} {wait : Wait} {ready : List Nat}
    (moved : state.thread index wait ready = some after) :
    ∃ pc next, state.mod.alisleventFunc wait pc = some next ∧ Turn state after index pc next := by
  rcases Option.bind_eq_some_iff.mp moved with ⟨pc, found, moved⟩
  rcases Option.bind_eq_some_iff.mp moved with ⟨mod, stepped, moved⟩
  rcases Option.bind_eq_some_iff.mp stepped with ⟨same, again, stepped⟩
  rw [found] at again
  cases again
  rcases Option.map_eq_some_iff.mp stepped with ⟨next, ran, rfl⟩
  refine ⟨pc, next, ran, ?_⟩
  have offHandled : ∀ other, other ≠ index →
      Function.update state.handled index false other = state.handled other :=
    fun other here => Function.update_of_ne here _ _
  cases pc with
  | first =>
      cases moved
      cases ran
      have idle : (if state.mod.running then Pc.poll else Pc.out).Idle := by
        split
        · exact Or.inr (Or.inl rfl)
        · exact Or.inr (Or.inr rfl)
      exact .idle idle found rfl (fun _ _ => ⟨rfl, rfl, rfl⟩)
  | test =>
      cases moved
      cases ran
      have idle : (if state.mod.running then Pc.poll else Pc.out).Idle := by
        split
        · exact Or.inr (Or.inl rfl)
        · exact Or.inr (Or.inr rfl)
      exact .idle idle found rfl (fun _ _ => ⟨rfl, rfl, rfl⟩)
  | poll =>
      cases moved
      cases ran
      exact {
        found
        mod := rfl
        others := fun other here => ⟨Function.update_of_ne here _ _, rfl, rfl⟩
        own := Or.inl (List.nil_subset _)
        onto := fun _ _ => Function.update_self _ _ _ }
  | waiting eplfd =>
      simp only [Module.alisleventFunc] at ran
      split at ran
      case isFalse => cases ran
      case isTrue =>
        cases wait with
        | events n =>
            cases ran
            rcases Option.bind_eq_some_iff.mp moved with ⟨k, waits, moved⟩
            split at moved
            case isFalse => cases moved
            case isTrue fetched =>
              cases moved
              have waiting : state.waitsOn index = some k := by
                rw [waitsOn, found]
                exact waits
              have batch : Pc.pending (Function.update state.evnts index ready index)
                  (Function.update state.handled index false index) (.retest n 0) = ready := by
                rw [Pc.pending, Function.update_self, List.drop_zero]
              exact {
                found
                mod := rfl
                others := fun other here =>
                  ⟨rfl, Function.update_of_ne here _ _, offHandled other here⟩
                own := by
                  refine Or.inr ⟨k, waiting, ?_⟩
                  dsimp only
                  rw [batch]
                  exact fetched.2
                onto := by
                  intro other onto
                  cases onto }
        | timeout =>
            cases ran
            cases moved
            exact .idle (Or.inl rfl) found rfl (fun _ _ => ⟨rfl, rfl, rfl⟩)
        | interrupted =>
            cases ran
            cases moved
            exact .idle (Or.inl rfl) found rfl (fun _ _ => ⟨rfl, rfl, rfl⟩)
        | error =>
            cases ran
            cases moved
            exact .idle (Or.inr (Or.inr rfl)) found rfl (fun _ _ => ⟨rfl, rfl, rfl⟩)
  | retest n i =>
      dsimp only at moved
      split at moved
      case isFalse => cases moved
      case isTrue =>
        cases moved
        simp only [Module.alisleventFunc] at ran
        split at ran
        · cases ran
          exact {
            found
            mod := rfl
            others := fun other here => ⟨rfl, rfl, offHandled other here⟩
            own := by
              dsimp only
              rw [Function.update_self]
              exact Or.inl (List.Subset.refl _)
            onto := by
              intro eplfd onto
              cases onto }
        · cases ran
          exact .idle (Or.inl rfl) found rfl (fun other here => ⟨rfl, rfl, offHandled other here⟩)
  | callback n i =>
      dsimp only at moved
      split at moved
      case isFalse => cases moved
      case isTrue handled =>
        cases moved
        simp only [Module.alisleventFunc] at ran
        split at ran
        · cases ran
          exact {
            found
            mod := rfl
            others := fun other here => ⟨rfl, rfl, offHandled other here⟩
            own := by
              rw [handled]
              exact Or.inl (List.Subset.refl _)
            onto := by
              intro eplfd onto
              cases onto }
        · cases ran
          exact .idle (Or.inl rfl) found rfl (fun other here => ⟨rfl, rfl, offHandled other here⟩)
  | out => cases ran

theorem act_mod {state after : Events} {kind : ActKind} {index i : Nat}
    (moved : state.act kind index i = some after) : after.mod = state.mod := by
  unfold act at moved
  split at moved
  · cases moved
  · rcases Option.map_eq_some_iff.mp moved with ⟨slev, _, rfl⟩
    rfl

/-- On the module itself a step is a step of the module, or none. -/
theorem step_mod {fd : Nat → Nat} {state after : Events} {label : EventLabel}
    (moved : state.step fd label = some after) :
    after.mod = state.mod ∨ ∃ moduleLabel, state.mod.step moduleLabel = some after.mod := by
  cases label with
  | openEvent created =>
      cases moved
      refine Or.inr ⟨.openEvent created, ?_⟩
      simp only [alisleventOpen]
      split
      · cases created <;> rfl
      · rfl
  | close =>
      simp only [step] at moved
      split at moved
      case isTrue handle =>
        cases moved
        refine Or.inr ⟨.close, ?_⟩
        simp only [Module.step, if_pos handle, alisleventClose]
        split <;> rfl
      case isFalse => cases moved
  | addCtl slev registered =>
      rcases Option.bind_eq_some_iff.mp moved with ⟨mod, stepped, moved⟩
      have same : after.mod = mod := by
        split at moved
        · split at moved
          · cases moved
          · rcases Option.map_eq_some_iff.mp moved with ⟨k, _, rfl⟩
            rfl
        · cases moved
          rfl
      rw [same]
      exact Or.inr ⟨.addCtl registered, stepped⟩
  | addLock slev created =>
      simp only [step, addLock] at moved
      split at moved
      · rcases Option.map_eq_some_iff.mp moved with ⟨mod, stepped, rfl⟩
        refine Or.inr ⟨.addLock created, ?_⟩
        rw [stepped]
        split <;> rfl
      · cases moved
  | del slev =>
      simp only [step] at moved
      split at moved
      · cases moved
        unfold alisleventDel
        split <;> exact Or.inl rfl
      · cases moved
  | thread index wait ready =>
      rcases thread_turn moved with ⟨pc, next, ran, turn⟩
      refine Or.inr ⟨.thread index wait, ?_⟩
      rw [turn.mod, Module.step, turn.found, Option.bind_some, ran, Option.map_some]
  | read index =>
      simp only [step] at moved
      split at moved
      · exact Or.inl (act_mod moved)
      · cases moved
  | start index =>
      simp only [step] at moved
      split at moved
      · exact Or.inl (act_mod moved)
      · cases moved

/-- The events are a view on runs of the module. -/
theorem reachable_mod {fd : Nat → Nat} {state : Events} (reachable : (events fd).Reachable state) :
    event.Reachable state.mod := by
  induction reachable with
  | initial start =>
      rw [show _ = zero from start]
      exact .initial rfl
  | step _ moved ih =>
      rcases step_mod moved with same | ⟨label, stepped⟩
      · rwa [same]
      · exact ih.step stepped

end Events

end Alisl.Event
