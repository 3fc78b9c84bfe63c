import Alisl.Event.Batch

/-! When a loop handles no event that was removed. -/

namespace Alisl.Event

open Alisl.Base

namespace Events

/-- An event is removed while no loop still handles it. The module is closed while no loop still
handles an event, and none is in `epoll_wait` for one. -/
def Meets (fd : Nat → Nat) (state : Events) : EventLabel → Prop
  | .close => state.lastClose = true → ∀ index < state.mod.threads.length,
      state.pending index = [] ∧ ∀ k ∈ state.waitsOn index, state.registered k = []
  | .del slev => state.watched fd slev = true → ∀ index < state.mod.threads.length,
      slev ∉ state.pending index
  | _ => True

instance (fd : Nat → Nat) (state : Events) (label : EventLabel) : Decidable (Meets fd state label) :=
  match label with
  | .close => inferInstanceAs (Decidable (state.lastClose = true →
      ∀ index < state.mod.threads.length,
        state.pending index = [] ∧ ∀ k ∈ state.waitsOn index, state.registered k = []))
  | .del slev => inferInstanceAs (Decidable (state.watched fd slev = true →
      ∀ index < state.mod.threads.length, slev ∉ state.pending index))
  | .openEvent _ | .addCtl _ _ | .addLock _ _ | .thread _ _ _ | .read _ | .start _ => .isTrue trivial

/-- What keeps the removed events away from the loops. -/
structure Sound (state : Events) : Prop where
  clean : ∀ act ∈ state.acts, act.removed = false
  held : ∀ index, ∀ slev ∈ state.pending index, state.gone slev = false
  current : ∀ k, state.instance_ = some k →
    k < state.fresh ∧ ∀ slev ∈ state.registered k, state.gone slev = false
  waiting : ∀ index k, state.waitsOn index = some k →
    state.instance_ = some k ∨ state.registered k = []
  later : ∀ k, state.fresh ≤ k → state.registered k = []
  closed : state.mod.openCnt < 1 → state.instance_ = none

/-- A step inside one instance keeps it, where what is newly handled or registered is not removed. -/
theorem Sound.keeps {state after : Events} (sound : Sound state)
    (same : after.instance_ = state.instance_) (fresh : after.fresh = state.fresh)
    (openCnt : after.mod.openCnt < 1 → state.mod.openCnt < 1)
    (gone : ∀ slev, state.gone slev = false → after.gone slev = false)
    (acts : ∀ act ∈ after.acts, act ∈ state.acts ∨ act.removed = false)
    (pending : ∀ index, ∀ slev ∈ after.pending index,
      slev ∈ state.pending index ∨ state.gone slev = false)
    (registered : ∀ k, ∀ slev ∈ after.registered k,
      slev ∈ state.registered k ∨ (state.instance_ = some k ∧ after.gone slev = false))
    (waits : ∀ index k, after.waitsOn index = some k →
      state.waitsOn index = some k ∨ state.instance_ = some k) : Sound after where
  clean := by
    intro act member
    rcases acts act member with old | clean
    · exact sound.clean act old
    · exact clean
  held := by
    intro index slev member
    rcases pending index slev member with old | kept
    · exact gone slev (sound.held index slev old)
    · exact gone slev kept
  current := by
    intro k used
    rw [same] at used
    rcases sound.current k used with ⟨below, kept⟩
    refine ⟨by rwa [fresh], ?_⟩
    intro slev member
    rcases registered k slev member with old | ⟨_, new⟩
    · exact gone slev (kept slev old)
    · exact new
  waiting := by
    intro index k waiting
    rw [same]
    by_cases used : state.instance_ = some k
    · exact Or.inl used
    · have old : state.waitsOn index = some k := (waits index k waiting).resolve_right used
      have empty : state.registered k = [] := (sound.waiting index k old).resolve_left used
      refine Or.inr (List.eq_nil_iff_forall_not_mem.mpr ?_)
      intro slev member
      rcases registered k slev member with older | ⟨new, _⟩
      · rw [empty] at older
        cases older
      · exact used new
  later := by
    intro k bound
    rw [fresh] at bound
    refine List.eq_nil_iff_forall_not_mem.mpr ?_
    intro slev member
    rcases registered k slev member with older | ⟨new, _⟩
    · rw [sound.later k bound] at older
      cases older
    · have below := (sound.current k new).1
      omega
  closed := by
    intro none
    rw [same]
    exact sound.closed (openCnt none)

theorem pending_beyond {state : Events} {index : Nat}
    (beyond : state.mod.threads.length ≤ index) : state.pending index = [] := by
  rw [pending, List.getElem?_eq_none beyond]
  rfl

theorem waitsOn_beyond {state : Events} {index : Nat}
    (beyond : state.mod.threads.length ≤ index) : state.waitsOn index = none := by
  rw [waitsOn, List.getElem?_eq_none beyond]

/-- A thread that has not begun is seen as no thread is. -/
theorem view_grown {Seen : Type} (view : Option Pc → Seen) (first : view (some .first) = view none)
    {threads after : List Pc} (grown : after = threads ∨ after = threads ++ [.first]) (index : Nat) :
    view after[index]? = view threads[index]? := by
  rcases grown with rfl | rfl
  · rfl
  · rw [List.getElem?_append]
    split
    case isTrue => rfl
    case isFalse beyond =>
      have none : threads[index]? = none := List.getElem?_eq_none (Nat.le_of_not_lt beyond)
      rw [none]
      cases found : ([Pc.first] : List Pc)[index - threads.length]? with
      | none => rfl
      | some pc =>
          have begins : pc = .first := by simpa using List.mem_of_getElem? found
          rw [begins, first]

theorem pending_grown {state after : Events} {index slev : Nat} (member : slev ∈ after.pending index)
    (evnts : after.evnts = state.evnts) (handled : after.handled = state.handled)
    (grown : after.mod.threads = state.mod.threads ∨
      after.mod.threads = state.mod.threads ++ [.first]) : slev ∈ state.pending index := by
  unfold pending at member
  rw [evnts, handled] at member
  rwa [view_grown (fun pc => pc.elim [] (Pc.pending (state.evnts index) (state.handled index)))
    rfl grown index] at member

theorem waitsOn_grown {state after : Events} {index k : Nat} (waiting : after.waitsOn index = some k)
    (waits : after.waits = state.waits)
    (grown : after.mod.threads = state.mod.threads ∨
      after.mod.threads = state.mod.threads ++ [.first]) : state.waitsOn index = some k := by
  unfold waitsOn at waiting
  rw [waits] at waiting
  split at waiting
  case h_1 timeout found =>
    have same := view_grown (fun seen => seen = some (.waiting timeout)) (by simp) grown
      index
    rw [waitsOn, same.mp found]
    exact waiting
  case h_2 => cases waiting

/-- A call keeps what the threads handle and wait for. -/
theorem Sound.calls {state after : Events} (sound : Sound state)
    (same : after.instance_ = state.instance_) (fresh : after.fresh = state.fresh)
    (openCnt : after.mod.openCnt < 1 → state.mod.openCnt < 1)
    (gone : ∀ slev, state.gone slev = false → after.gone slev = false)
    (acts : after.acts = state.acts) (evnts : after.evnts = state.evnts)
    (handled : after.handled = state.handled) (waits : after.waits = state.waits)
    (grown : after.mod.threads = state.mod.threads ∨
      after.mod.threads = state.mod.threads ++ [.first])
    (registered : ∀ k, ∀ slev ∈ after.registered k,
      slev ∈ state.registered k ∨ (state.instance_ = some k ∧ after.gone slev = false)) :
    Sound after := by
  refine sound.keeps same fresh openCnt gone ?_ ?_ registered ?_
  · intro act member
    rw [acts] at member
    exact Or.inl member
  · intro index slev member
    exact Or.inl (pending_grown member evnts handled grown)
  · intro index k waiting
    exact Or.inl (waitsOn_grown waiting waits grown)

theorem takeOut_registered {fd : Nat → Nat} {state : Events} {slev k other : Nat}
    (member : other ∈ (state.takeOut fd slev).registered k) : other ∈ state.registered k := by
  simp only [takeOut] at member
  cases used : state.instance_ with
  | none =>
      rw [used] at member
      exact member
  | some here =>
      rw [used] at member
      simp only [Option.elim_some] at member
      by_cases same : k = here
      · subst same
        rw [Function.update_self] at member
        exact List.mem_of_mem_filter member
      · rw [Function.update_of_ne same] at member
        exact member

theorem takeOut_empty {fd : Nat → Nat} {state : Events} {slev k : Nat}
    (empty : state.registered k = []) : (state.takeOut fd slev).registered k = [] := by
  refine List.eq_nil_iff_forall_not_mem.mpr ?_
  intro other member
  have old := takeOut_registered member
  rw [empty] at old
  cases old

/-- What is taken out is no longer registered in the instance in use. -/
theorem takeOut_current {fd : Nat → Nat} {state : Events} {slev k other : Nat}
    (used : state.instance_ = some k) (member : other ∈ (state.takeOut fd slev).registered k) :
    other ≠ slev := by
  intro same
  simp only [takeOut, used, Option.elim_some, Function.update_self] at member
  have differs := (List.mem_filter.mp member).2
  rw [same] at differs
  simp at differs

theorem Sound.opens {state : Events} (sound : Sound state) (created : Option Nat) :
    Sound (state.alisleventOpen created) := by
  have threads : (state.mod.alisleventOpen created).threads = state.mod.threads := by
    unfold Module.alisleventOpen
    split
    · cases created <;> rfl
    · rfl
  unfold alisleventOpen
  dsimp only
  split
  case isFalse opened =>
    refine sound.calls rfl rfl ?_ (fun _ kept => kept) rfl rfl rfl rfl (Or.inl threads)
      (fun _ _ member => Or.inl member)
    intro none
    simp only [Module.alisleventOpen, if_neg opened] at none
    omega
  case isTrue shut =>
    have unused : state.instance_ = none := sound.closed shut
    cases created with
    | none =>
        exact sound.calls unused.symm rfl (fun _ => shut) (fun _ kept => kept) rfl rfl rfl rfl
          (Or.inl threads) (fun _ _ member => Or.inl member)
    | some eplfd =>
        have emptied : ∀ index k, state.waitsOn index = some k → state.registered k = [] := by
          intro index k waiting
          rcases sound.waiting index k waiting with used | empty
          · rw [unused] at used
            cases used
          · exact empty
        exact {
          clean := sound.clean
          held := by
            intro index slev member
            exact sound.held index slev (pending_grown member rfl rfl (Or.inl threads))
          current := by
            intro k used
            cases used
            refine ⟨Nat.lt_succ_self _, ?_⟩
            intro slev member
            rw [sound.later state.fresh le_rfl] at member
            cases member
          waiting := by
            intro index k waiting
            exact Or.inr (emptied index k (waitsOn_grown waiting rfl (Or.inl threads)))
          later := fun k bound => sound.later k (Nat.le_of_succ_le bound)
          closed := by
            intro none
            simp [Module.alisleventOpen, shut] at none }

theorem Sound.closes {fd : Nat → Nat} {state : Events} (sound : Sound state)
    (meets : Meets fd state .close) : Sound state.alisleventClose := by
  have threads : state.mod.alisleventClose.threads = state.mod.threads := by
    unfold Module.alisleventClose
    dsimp only
    repeat' split
    all_goals rfl
  unfold alisleventClose
  dsimp only
  split
  case isFalse more =>
    refine sound.calls rfl rfl ?_ (fun _ kept => kept) rfl rfl rfl rfl (Or.inl threads)
      (fun _ _ member => Or.inl member)
    intro none
    have other : state.mod.openCnt ≠ 1 := by simpa [lastClose] using more
    unfold Module.alisleventClose at none
    dsimp only at none
    split at none
    · split at none
      · have fewer : state.mod.openCnt - 1 < 1 := none
        omega
      · omega
    · exact none
  case isTrue last =>
    have idle := meets last
    exact {
      clean := sound.clean
      held := by
        intro index slev member
        have old : slev ∈ state.pending index := pending_grown member rfl rfl (Or.inl threads)
        rcases Nat.lt_or_ge index state.mod.threads.length with inside | beyond
        · rw [(idle index inside).1] at old
          cases old
        · rw [pending_beyond beyond] at old
          cases old
      current := by
        intro k used
        cases used
      waiting := by
        intro index k waiting
        have old : state.waitsOn index = some k := waitsOn_grown waiting rfl (Or.inl threads)
        rcases Nat.lt_or_ge index state.mod.threads.length with inside | beyond
        · exact Or.inr ((idle index inside).2 k old)
        · rw [waitsOn_beyond beyond] at old
          cases old
      later := sound.later
      closed := fun _ => rfl }

theorem Sound.adds {fd : Nat → Nat} {state after : Events} (sound : Sound state) {slev : Nat}
    {registered : Bool} (moved : state.addCtl fd slev registered = some after) : Sound after := by
  rcases Option.bind_eq_some_iff.mp moved with ⟨mod, stepped, moved⟩
  have same : mod.threads = state.mod.threads ∧ mod.openCnt = state.mod.openCnt := by
    simp only [Module.step] at stepped
    repeat' split at stepped
    all_goals cases stepped
    all_goals exact ⟨rfl, rfl⟩
  have openCnt : mod.openCnt < 1 → state.mod.openCnt < 1 := by
    intro shut
    rwa [← same.2]
  split at moved
  case isFalse =>
    cases moved
    exact sound.calls rfl rfl openCnt (fun _ kept => kept) rfl rfl rfl rfl (Or.inl same.1)
      (fun _ _ member => Or.inl member)
  case isTrue =>
    split at moved
    · cases moved
    · rcases Option.map_eq_some_iff.mp moved with ⟨used, inUse, rfl⟩
      have kept : ∀ other, state.gone other = false →
          Function.update state.gone slev false other = false := by
        intro other kept
        by_cases here : other = slev
        · rw [here, Function.update_self]
        · rw [Function.update_of_ne here, kept]
      refine sound.calls rfl rfl openCnt kept rfl rfl rfl rfl (Or.inl same.1) ?_
      intro k other member
      dsimp only at member ⊢
      by_cases here : k = used
      · subst here
        rw [Function.update_self] at member
        rcases List.mem_cons.mp member with rfl | older
        · exact Or.inr ⟨inUse, Function.update_self _ _ _⟩
        · exact Or.inl older
      · rw [Function.update_of_ne here] at member
        exact Or.inl member

theorem Sound.locks {fd : Nat → Nat} {state after : Events} (sound : Sound state) {slev : Nat}
    {created : Bool} (moved : state.addLock fd slev created = some after) : Sound after := by
  unfold addLock at moved
  split at moved
  case isFalse => cases moved
  case isTrue =>
    rcases Option.map_eq_some_iff.mp moved with ⟨mod, stepped, rfl⟩
    have grown : (mod.threads = state.mod.threads ∨ mod.threads = state.mod.threads ++ [.first]) ∧
        mod.openCnt = state.mod.openCnt := by
      simp only [Module.step] at stepped
      split at stepped
      · cases stepped
        unfold Module.alisleventAdd
        dsimp only
        repeat' split
        · exact ⟨Or.inl rfl, rfl⟩
        · exact ⟨Or.inr rfl, rfl⟩
        · exact ⟨Or.inl rfl, rfl⟩
      · cases stepped
    have openCnt : mod.openCnt < 1 → state.mod.openCnt < 1 := by
      intro shut
      rwa [← grown.2]
    dsimp only
    split
    · exact sound.calls rfl rfl openCnt (fun _ kept => kept) rfl rfl rfl rfl grown.1
        (fun _ _ member => Or.inl member)
    · refine sound.calls rfl rfl openCnt (fun _ kept => kept) rfl rfl rfl rfl grown.1 ?_
      intro k other member
      exact Or.inl (takeOut_registered member)

theorem Sound.dels {fd : Nat → Nat} {state : Events} (sound : Sound state) {slev : Nat}
    (meets : Meets fd state (.del slev)) : Sound (state.alisleventDel fd slev) := by
  unfold alisleventDel
  split
  case isFalse => exact sound
  case isTrue watched =>
    have unheld := meets watched
    exact {
      clean := sound.clean
      held := by
        intro index other member
        have old : other ∈ state.pending index := member
        have differs : other ≠ slev := by
          intro same
          subst same
          rcases Nat.lt_or_ge index state.mod.threads.length with inside | beyond
          · exact unheld index inside old
          · rw [pending_beyond beyond] at old
            cases old
        dsimp only
        rw [Function.update_of_ne differs]
        exact sound.held index other old
      current := by
        intro k used
        have inUse : state.instance_ = some k := used
        refine ⟨(sound.current k inUse).1, ?_⟩
        intro other member
        dsimp only
        rw [Function.update_of_ne (takeOut_current inUse member)]
        exact (sound.current k inUse).2 other (takeOut_registered member)
      waiting := by
        intro index k waiting
        rcases sound.waiting index k waiting with used | empty
        · exact Or.inl used
        · exact Or.inr (takeOut_empty empty)
      later := fun k bound => takeOut_empty (sound.later k bound)
      closed := sound.closed }

theorem Sound.threads {state after : Events} (sound : Sound state) {index : Nat} {wait : Wait}
    {ready : List Nat} (moved : state.thread index wait ready = some after) : Sound after := by
  rcases thread_turn moved with ⟨pc, next, _, turn⟩
  have bound : index < state.mod.threads.length := (List.getElem?_eq_some_iff.mp turn.found).1
  have threads : after.mod.threads = state.mod.threads.set index next := by rw [turn.mod]
  refine sound.keeps (by rw [turn.mod]) (by rw [turn.mod]) ?_ ?_ ?_ ?_ ?_ ?_
  · intro shut
    rwa [turn.mod] at shut
  · intro slev kept
    rwa [turn.mod]
  · intro act member
    rw [turn.mod] at member
    exact Or.inl member
  · intro other slev member
    simp only [pending, threads] at member ⊢
    by_cases here : other = index
    · subst here
      rw [List.getElem?_set_self bound] at member
      rw [turn.found]
      rcases turn.own with less | ⟨k, waiting, batch⟩
      · exact Or.inl (less member)
      · have registered : slev ∈ state.registered k := batch member
        rcases sound.waiting other k waiting with used | empty
        · exact Or.inr ((sound.current k used).2 slev registered)
        · rw [empty] at registered
          cases registered
    · rcases turn.others other here with ⟨_, sameEvnts, sameHandled⟩
      rw [List.getElem?_set_ne (Ne.symm here), sameEvnts, sameHandled] at member
      exact Or.inl member
  · intro k slev member
    rw [turn.mod] at member
    exact Or.inl member
  · intro other k waiting
    simp only [waitsOn, threads] at waiting ⊢
    by_cases here : other = index
    · subst here
      rw [List.getElem?_set_self bound] at waiting
      cases next with
      | waiting eplfd =>
          rw [← turn.onto eplfd rfl]
          exact Or.inr waiting
      | _ => cases waiting
    · rw [List.getElem?_set_ne (Ne.symm here), (turn.others other here).1] at waiting
      exact Or.inl waiting

/-- The event of an unlocked piece is one the thread still handles, and the piece leaves no more. -/
theorem Sound.acts {state after : Events} (sound : Sound state) {kind : ActKind} {index i : Nat}
    {pc : Pc} (found : state.mod.threads[index]? = some pc)
    (before : ∀ evnts, pc.pending evnts false = evnts.drop i)
    (later : ∀ evnts, pc.pending evnts true ⊆ evnts.drop i)
    (moved : state.act kind index i = some after) : Sound after := by
  unfold act at moved
  split at moved
  case isTrue => cases moved
  case isFalse unhandled =>
    rcases Option.map_eq_some_iff.mp moved with ⟨slev, entry, rfl⟩
    have none : state.handled index = false := by simpa using unhandled
    have whole : state.pending index = (state.evnts index).drop i := by
      rw [pending, found, none]
      exact before _
    have member : slev ∈ state.pending index := by
      rw [whole]
      refine List.mem_of_getElem? (i := 0) ?_
      rw [List.getElem?_drop]
      exact entry
    refine sound.keeps rfl rfl (fun shut => shut) (fun _ kept => kept) ?_ ?_
      (fun _ _ member => Or.inl member) (fun _ _ waiting => Or.inl waiting)
    · intro piece done
      rcases List.mem_append.mp done with old | new
      · exact Or.inl old
      · rw [List.mem_singleton.mp new]
        exact Or.inr (sound.held index slev member)
    · intro other held stays
      by_cases here : other = index
      · subst here
        simp only [pending, found, Function.update_self, Option.elim_some] at stays
        rw [whole]
        exact Or.inl (later _ stays)
      · simp only [pending, Function.update_of_ne here] at stays
        exact Or.inl stays

theorem Sound.steps {fd : Nat → Nat} {state after : Events} (sound : Sound state)
    {label : EventLabel} (meets : Meets fd state label)
    (moved : state.step fd label = some after) : Sound after := by
  cases label with
  | openEvent created =>
      cases moved
      exact sound.opens created
  | close =>
      simp only [step] at moved
      split at moved
      · cases moved
        exact sound.closes meets
      · cases moved
  | addCtl slev registered => exact sound.adds moved
  | addLock slev created => exact sound.locks moved
  | del slev =>
      simp only [step] at moved
      split at moved
      · cases moved
        exact sound.dels meets
      · cases moved
  | thread index wait ready => exact sound.threads moved
  | read index =>
      simp only [step] at moved
      split at moved
      case h_1 found => exact sound.acts found (fun _ => rfl) (fun _ _ member => member) moved
      case h_2 => cases moved
  | start index =>
      simp only [step] at moved
      split at moved
      case h_1 n i found =>
        refine sound.acts found (fun _ => rfl) ?_ moved
        intro evnts slev member
        have rest : slev ∈ evnts.drop (i + 1) := member
        rw [← List.drop_drop] at rest
        exact List.mem_of_mem_drop rest
      case h_2 => cases moved

theorem zero_sound : Sound zero where
  clean := by
    intro act member
    cases member
  held := by
    intro index slev member
    cases member
  current := by
    intro k used
    cases used
  waiting := by
    intro index k waiting
    cases waiting
  later := fun _ _ => rfl
  closed := fun _ => rfl

/-- In a run that removes events only while no loop holds them, the loops never read a removed event
nor start its callback. -/
theorem removed_event_unhandled (fd : Nat → Nat) (state : Events)
    (reachable : ((events fd).restrict (Meets fd)).Reachable state) :
    ∀ act ∈ state.acts, act.removed = false := by
  have sound : Sound state := by
    refine Machine.Reachable.always ?_ ?_ state reachable
    · intro state start
      rw [show state = zero from start]
      exact zero_sound
    · intro state label after _ sound moved
      rcases Machine.restrict_next.mp moved with ⟨meets, moved⟩
      exact sound.steps meets moved
  exact sound.clean

/-- Two events are added, and the loop fetches both and starts the callback of the first. -/
def batch : List EventLabel := [.openEvent (some 3), .addCtl 1 true, .addLock 1 true, .addCtl 2 true,
  .addLock 2 false, .thread 0 .timeout [], .thread 0 .timeout [], .thread 0 (.events 2) [1, 2], .read 0,
  .thread 0 .timeout [], .start 0]

/-- The rest of the fetched events is handled before the second is removed and the module closed. -/
def handledFirst : List EventLabel := batch ++ [.thread 0 .timeout [], .read 0, .thread 0 .timeout [],
  .start 0, .del 2, .thread 0 .timeout [], .del 1, .close]

theorem removed_event_unhandled_handled : ∃ state, ((events id).restrict (Meets id)).Reachable state ∧
    state.mod.openCnt = 0 ∧ state.acts.length = 4 ∧ ∀ act ∈ state.acts, act.removed = false := by
  have ran : (((events id).restrict (Meets id)).run zero handledFirst).map
      (fun state => (state.mod.openCnt, state.acts.length)) = some (0, 4) := by
    decide +kernel
  rcases Option.map_eq_some_iff.mp ran with ⟨state, reached, result⟩
  rw [Prod.mk.injEq] at result
  have reachable : ((events id).restrict (Meets id)).Reachable state :=
    Machine.reachable_of_run (.initial rfl) reached
  exact ⟨state, reachable, result.1, result.2, removed_event_unhandled id state reachable⟩

/-- The callback of the first event removes the second, which the loop has already fetched. -/
theorem fetched_event_handled : ¬ ∀ fd state, (events fd).Reachable state →
    ∀ act ∈ state.acts, act.removed = false := by
  intro never
  have ran : ((events id).run zero (batch ++ [.del 2, .thread 0 .timeout [], .read 0,
      .thread 0 .timeout [], .start 0])).map Events.acts =
        some [⟨.read, 1, false⟩, ⟨.start, 1, false⟩, ⟨.read, 2, true⟩, ⟨.start, 2, true⟩] := by
    decide +kernel
  rcases Option.map_eq_some_iff.mp ran with ⟨state, reached, acts⟩
  have reachable : (events id).Reachable state := Machine.reachable_of_run (.initial rfl) reached
  have kept := never id state reachable ⟨.start, 2, true⟩ (by simp [acts])
  cases kept

/-- A callback that closes the module does not end the batch either. -/
example : ((events id).run zero (batch ++ [.close, .thread 0 .timeout [], .read 0])).map Events.acts =
    some [⟨.read, 1, false⟩, ⟨.start, 1, false⟩, ⟨.read, 2, true⟩] := by
  decide +kernel

end Events

end Alisl.Event
