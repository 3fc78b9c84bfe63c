import Alisl.Dmx.Windows

/-! Which filter a free removes, and when its callbacks are over. -/

namespace Alisl.Dmx

open Alisl.Base

namespace Sys

/-- The step frees no slot that another call of `alisldmx_free_filter` waits for. -/
def undisturbed (state : Sys) (label : Label) : Bool :=
  (state.freedBy label).all (fun i => (state.otherWaits label).all (fun wait => wait.slot ≠ i))

/-- The end of `alisldmx_free_channel` finds no filter on the channel. -/
def vacated (state : Sys) : Label → Bool
  | .finish _ channelid =>
      match state.dev.findChannel .sections channelid with
      | some (some ch) => listed state.dev ch = []
      | _ => true
  | _ => true

def careful (state : Sys) (label : Label) : Bool := state.undisturbed label && state.vacated label

def Live (state : Sys) (inc : Inc) : Prop :=
  state.gen inc.slot = inc.gen ∧ (state.dev.filter inc.slot).status ≠ .none

end Sys

/-- The runs whose steps all meet this. -/
def carefulDemux : Machine Sys Label :=
  demux.restrict (fun state label => state.careful label = true)

structure Guarded (state : Sys) : Prop where
  linked : ∃ lists, Linked state.dev lists
  waiting : ∀ wait ∈ state.waits, wait.slot < maxFilters ∧ state.Live wait
  dead : ∀ inc ∈ state.removed, inc.gen ≤ state.gen inc.slot ∧ ¬ state.Live inc
  once : state.removed.Nodup
  own : ∀ free ∈ state.frees, free.removed = free.found ∧ free.found ∈ state.removed
  bound : ∀ window, state.poll = .running window → window.gen ≤ state.gen window.slot
  callback : ∀ window, state.poll = .running window → state.Live window.inc →
    (state.dev.filter window.slot).flag = .cb
  late : ∀ window, state.poll = .running window → ∀ free ∈ state.frees, free.poll = false →
    free.found ≠ window.inc

/-! The poll thread. -/

theorem SameShape.live {state : Sys} {dev : Device} (same : SameShape state.dev dev) (inc : Inc) :
    (state.gen inc.slot = inc.gen ∧ (dev.filter inc.slot).status ≠ .none) ↔ state.Live inc := by
  rw [Sys.Live, ne_eq, ne_eq, same.fltStatus]

/-- No slot is taken or freed. -/
structure Quiet (state after : Sys) : Prop where
  same : SameShape state.dev after.dev
  gen : after.gen = state.gen
  waits : after.waits = state.waits
  frees : after.frees = state.frees
  removed : after.removed = state.removed

theorem Guarded.quiet {state after : Sys} (guarded : Guarded state) (quiet : Quiet state after)
    (callback : ∀ window, after.poll = .running window →
      after.Live window.inc ∧ (after.dev.filter window.slot).flag = .cb) : Guarded after := by
  have live : ∀ inc, after.Live inc ↔ state.Live inc := by
    intro inc
    rw [Sys.Live, quiet.gen]
    exact quiet.same.live inc
  constructor
  case linked =>
      rcases guarded.linked with ⟨lists, linked⟩
      exact ⟨lists, quiet.same.linked linked⟩
  case waiting =>
      intro wait member
      rw [quiet.waits] at member
      rw [live]
      exact guarded.waiting wait member
  case dead =>
      intro inc member
      rw [quiet.removed] at member
      rw [quiet.gen, live]
      exact guarded.dead inc member
  case once =>
      rw [quiet.removed]
      exact guarded.once
  case own =>
      rw [quiet.frees, quiet.removed]
      exact guarded.own
  case bound => exact fun window running => (callback window running).1.1.ge
  case callback => exact fun window running _ => (callback window running).2
  case late =>
      intro window running free member _ same
      rw [quiet.frees] at member
      have dead := (guarded.dead _ (guarded.own free member).2).2
      rw [same, ← live] at dead
      exact dead (callback window running).1

theorem Guarded.stop {state : Sys} (guarded : Guarded state) {stop : Stop} {dev : Device}
    (hands : Hands state.dev stop dev) (ch : Nat) (data : List Byte) :
    Guarded (state.stop ch data (stop, dev)) := by
  cases stop with
  | quit =>
      have quiet : Quiet state (state.stop ch data (.quit, dev)) :=
        ⟨hands.same, rfl, rfl, rfl, rfl⟩
      apply guarded.quiet quiet
      rintro window ⟨⟩
  | callback kind i upcall =>
      have quiet : Quiet state (state.stop ch data (.callback kind i upcall, dev)) :=
        ⟨hands.same, rfl, rfl, rfl, rfl⟩
      apply guarded.quiet quiet
      rintro window ⟨⟩
      rcases hands.callback kind i upcall rfl with ⟨flag, enabled⟩
      refine ⟨⟨rfl, ?_⟩, flag⟩
      simp [Sys.stop, Window.inc, enabled]

theorem stop_removed (state : Sys) (ch : Nat) (data : List Byte) (result : Stop × Device) :
    (state.stop ch data result).removed = state.removed := by
  rcases result with ⟨_ | _, dev⟩ <;> rfl

theorem guarded_polls {state after : Sys} {label : Label} (guarded : Guarded state)
    (polls : label.polls = true) (moved : state.step label = some after) :
    Guarded after ∧ after.removed = state.removed := by
  cases label with
  | dispatch ch readable data =>
      rw [Sys.step] at moved
      split at moved
      · rcases Option.map_eq_some_iff.mp moved with ⟨⟨stop, dev⟩, started, rfl⟩
        have renewed : Guarded { state with delivered := [] } :=
          ⟨guarded.linked, guarded.waiting, guarded.dead, guarded.once, guarded.own,
            guarded.bound, guarded.callback, guarded.late⟩
        exact ⟨renewed.stop (.sectionDispatch started) ch data, stop_removed ..⟩
      · cases moved
  | callbackReturn bufferOk =>
      rw [Sys.step] at moved
      split at moved
      · case h_1 window running =>
        split at moved
        · cases moved
          refine ⟨guarded.quiet ⟨setFilter_same ⟨.rfl, rfl, rfl⟩, rfl, rfl, rfl, rfl⟩ ?_, rfl⟩
          rintro other ⟨⟩
        · cases moved
      · cases moved
  | resume =>
      rw [Sys.step] at moved
      split at moved
      · case h_1 window bufferOk returned =>
        rcases Option.map_eq_some_iff.mp moved with ⟨⟨stop, dev⟩, resumed, rfl⟩
        exact ⟨guarded.stop (.resume resumed) window.ch window.data, stop_removed ..⟩
      · cases moved
  | call poll call => cases polls
  | retry found => cases polls
  | finish poll channelid => cases polls

/-! The calls. -/

theorem removeFilter_linked {dev after : Device} {lists : Lists} (linked : Linked dev lists) {i : Nat}
    (inside : i < maxFilters) (used : (dev.filter i).status ≠ .none)
    (removed : dev.removeFilter i = some after) : ∃ lists, Linked after lists := by
  rcases removeFilter_relists linked inside used with ⟨ch, after', _, removed', relists, _⟩
  cases removed.symm.trans removed'
  exact ⟨_, relists.linked linked⟩

theorem freeFilterAll_linked {dev after : Device} {lists : Lists} (linked : Linked dev lists)
    {channelid : Nat} {ret : Ret} (freed : dev.freeFilterAll channelid = some (ret, after)) :
    ∃ lists, Linked after lists := by
  rcases linked.freeFilterAll_cases freed with ⟨same, _⟩ | ⟨ch, cleared, _, _, emptied⟩
  · exact ⟨lists, same ▸ linked⟩
  · exact ⟨cleared, emptied.linked⟩

theorem markWait_linked {dev : Device} {lists : Lists} (linked : Linked dev lists) (i : Nat) :
    Linked (Sys.markWait dev i) lists := by
  apply SameShape.linked _ linked
  exact setFilter_same ⟨.rfl, rfl, rfl⟩

theorem removeChannel_linked {state : Sys} {lists : Lists} (linked : Linked state.dev lists)
    {poll : Bool} {channelid : Nat} (vacated : state.vacated (.finish poll channelid) = true)
    {type : ChType} {ret : Ret} {after : Device}
    (removed : state.dev.removeChannel type channelid = some (ret, after)) :
    ∃ lists, Linked after lists := by
  rcases linked.findChannel_of type channelid with ⟨_ | i, found⟩
  · rw [Device.removeChannel, found, Option.bind_some] at removed
    cases removed
    exact ⟨lists, linked⟩
  · have live := (linked.findChannel_some found).1
    have empty : lists.flts type i = [] := by
      by_cases here : type = .sections
      · subst here
        rw [Sys.vacated, found] at vacated
        rw [← linked.listed live]
        exact of_decide_eq_true vacated
      · exact linked.flts_empty live here
    rcases linked.removeChannel found empty with ⟨after', removed', linked', _⟩
    cases removed.symm.trans removed'
    exact linked'

/-- The lists stay in order if the end of a wait removes a filter that is in use. -/
theorem Outside.linked {state after : Sys} {label : Label} {lists : Lists}
    (linked : Linked state.dev lists) (vacated : state.vacated label = true)
    (late : ∀ found ∈ state.waits, ∀ dev, state.dev.removeFilter found.slot = some dev →
      found.slot < maxFilters ∧ (state.dev.filter found.slot).status ≠ .none)
    (outside : Outside state label after) : ∃ lists, Linked after.dev lists := by
  cases outside with
  | nothing => exact ⟨lists, linked⟩
  | waits => exact ⟨lists, markWait_linked linked _⟩
  | frees found _ _ removed =>
      rcases findFilter_some found with ⟨inside, _, used⟩
      exact removeFilter_linked linked inside used removed
  | freesAll _ _ _ freed => exact freeFilterAll_linked linked freed
  | @takes poll channelid i ret dev allocated =>
      have performed : state.dev.perform (.allocateFilter channelid) = some (ret, dev) := by
        rw [Device.perform, allocated, Option.map_some]
      exact (linked.allocateFilter channelid).linked performed
  | plain _ performed => exact (linked.perform _).linked performed
  | waitsOn => exact ⟨lists, markWait_linked linked _⟩
  | freesLate member _ _ removed =>
      rcases late _ member _ removed with ⟨inside, used⟩
      exact removeFilter_linked linked inside used removed
  | closes _ _ removed => exact removeChannel_linked linked vacated removed

theorem Guarded.linked_outside {state after : Sys} {label : Label} (guarded : Guarded state)
    (vacated : state.vacated label = true) (outside : Outside state label after) :
    ∃ lists, Linked after.dev lists := by
  rcases guarded.linked with ⟨lists, linked⟩
  apply outside.linked linked vacated
  intro found member dev _
  rcases guarded.waiting found member with ⟨inside, live⟩
  exact ⟨inside, live.2⟩

/-- What a step does to the calls of `alisldmx_free_filter`. -/
structure Accounts (state after : Sys) (label : Label) : Prop where
  waits : ∀ wait ∈ after.waits, wait ∈ state.otherWaits label ∨
    state.freedBy label = [] ∧ (wait ∈ state.waits ∨
      ∃ i, wait = state.inc i ∧ i < maxFilters ∧ (state.dev.filter i).status ≠ .none)
  frees : after.frees = state.frees ∨
    ∃ poll found, after.frees = state.frees ++ [⟨poll, found, state.inc found.slot⟩] ∧
      state.freedBy label = [found.slot] ∧ (found ∈ state.waits ∨
        found = state.inc found.slot ∧ (state.dev.filter found.slot).status ≠ .none) ∧
      (poll = false → (state.dev.filter found.slot).flag ≠ .cb)

theorem Accounts.unchanged {state after : Sys} {label : Label}
    (others : state.otherWaits label = state.waits) (waits : after.waits = state.waits)
    (frees : after.frees = state.frees) : Accounts state after label := by
  constructor
  case waits =>
      intro wait member
      rw [others, ← waits]
      exact .inl member
  case frees => exact .inl frees

theorem Outside.accounts {state after : Sys} {label : Label} (outside : Outside state label after) :
    Accounts state after label := by
  cases outside with
  | nothing => exact .unchanged rfl rfl rfl
  | @waits poll filterid i found none_ =>
      rcases findFilter_some found with ⟨inside, _, used⟩
      constructor
      case waits =>
          intro wait member
          rcases List.mem_cons.mp member with new | old
          · exact .inr ⟨none_, .inr ⟨i, new, inside, used⟩⟩
          · exact .inl old
      case frees => exact .inl rfl
  | @frees poll filterid i dev found one unflagged _ =>
      constructor
      case waits => exact fun wait member => .inl member
      case frees =>
          have used := (findFilter_some found).2.2
          exact .inr ⟨poll, state.inc i, rfl, one, .inr ⟨rfl, used⟩, unflagged⟩
  | freesAll => exact .unchanged rfl rfl rfl
  | takes => exact .unchanged rfl rfl rfl
  | plain => exact .unchanged rfl rfl rfl
  | waitsOn none_ =>
      constructor
      case waits => exact fun wait old => .inr ⟨none_, .inl old⟩
      case frees => exact .inl rfl
  | @freesLate found dev member one unflagged _ =>
      constructor
      case waits => exact fun wait old => .inl old
      case frees => exact .inr ⟨false, found, rfl, one, .inl member, fun _ => unflagged⟩
  | closes => exact .unchanged rfl rfl rfl

/-- Different slots in use are freed. -/
def Vacates (dev after : Device) (slots : List Nat) : Prop :=
  slots.Nodup ∧ ∀ i ∈ slots, (dev.filter i).status ≠ .none ∧ (after.filter i).status = .none

theorem vacates_nil (dev after : Device) : Vacates dev after [] :=
  ⟨List.nodup_nil, fun _ member => absurd member List.not_mem_nil⟩

theorem removeFilter_vacates {dev after : Device} {i : Nat} (used : (dev.filter i).status ≠ .none)
    (removed : dev.removeFilter i = some after) : Vacates dev after [i] := by
  refine ⟨List.nodup_singleton i, ?_⟩
  intro j member
  rw [List.mem_singleton] at member
  subst member
  refine ⟨used, ?_⟩
  rw [removeFilter_filter removed, if_pos rfl]
  rfl

theorem freeFilterAll_vacates {dev after : Device} {lists : Lists} (linked : Linked dev lists)
    {channelid : Nat} {ret : Ret} (freed : dev.freeFilterAll channelid = some (ret, after)) :
    Vacates dev after (Sys.listedUnder dev channelid) := by
  rcases linked.freeFilterAll_cases freed with ⟨_, listed⟩ | ⟨ch, cleared, live, listed, emptied⟩
  · rw [listed]
    exact vacates_nil dev after
  · rw [listed]
    refine ⟨linked.flts_nodup live, ?_⟩
    intro i member
    refine ⟨((linked.member .sections ch i live).mp member).2.1, ?_⟩
    rw [emptied.filter, if_pos member]
    rfl

theorem Guarded.vacates {state after : Sys} {label : Label} (guarded : Guarded state)
    (outside : Outside state label after) :
    Vacates state.dev after.dev (state.freedBy label) := by
  rcases guarded.linked with ⟨lists, linked⟩
  cases outside with
  | nothing none_ =>
      rw [none_]
      exact vacates_nil _ _
  | waits _ none_ =>
      rw [none_]
      exact vacates_nil _ _
  | frees found one _ removed =>
      rw [one]
      exact removeFilter_vacates (findFilter_some found).2.2 removed
  | freesAll _ _ listed freed =>
      rw [listed]
      exact freeFilterAll_vacates linked freed
  | takes => exact vacates_nil _ _
  | plain plain =>
      rw [plain_freedBy plain]
      exact vacates_nil _ _
  | waitsOn none_ =>
      rw [none_]
      exact vacates_nil _ _
  | freesLate member one _ removed =>
      rw [one]
      exact removeFilter_vacates (guarded.waiting _ member).2.2 removed
  | closes => exact vacates_nil _ _

/-- A filter lives after a call only if it did before, unless it is new. -/
theorem SlotMove.live_before {state after : Sys} {label : Label} {inc : Inc}
    (move : SlotMove state after label inc.slot) (old : inc.gen ≤ state.gen inc.slot)
    (live : after.Live inc) : state.Live inc ∧
      (after.dev.filter inc.slot).flag = (state.dev.filter inc.slot).flag := by
  rcases live with ⟨same, used⟩
  cases move with
  | freed _ zero _ =>
      rw [zero] at used
      exact absurd rfl used
  | born _ _ _ gen => omega
  | kept alike _ gen => exact ⟨⟨gen.symm.trans same, mt alike.status.mpr used⟩, alike.flag⟩

theorem SlotMove.live_after {state after : Sys} {label : Label} {inc : Inc}
    (move : SlotMove state after label inc.slot) (linked : ∃ lists, Linked state.dev lists)
    (spared : inc.slot ∉ state.freedBy label) (live : state.Live inc) : after.Live inc := by
  cases move with
  | freed doomed _ _ => exact absurd (doomed linked) spared
  | born unused _ _ _ => exact absurd unused live.2
  | kept alike _ gen => exact ⟨gen.trans live.1, mt alike.status.mp live.2⟩

theorem Guarded.outside {state after : Sys} {label : Label} (guarded : Guarded state)
    (careful : state.careful label = true) (outside : Outside state label after) :
    Guarded { after with removed := state.removed ++ (state.freedBy label).map state.inc } := by
  rw [Sys.careful, Bool.and_eq_true] at careful
  rcases guarded.vacates outside with ⟨nodup, vacates⟩
  have frame := outside.frame
  have slots := outside.slots
  have accounts := outside.accounts
  have linked := guarded.linked_outside careful.2 outside
  have current : ∀ inc, state.Live inc → state.inc inc.slot = inc := by
    intro inc live
    rw [Sys.inc, live.1]
  have foundLive : ∀ found, (found ∈ state.waits ∨ found = state.inc found.slot ∧
      (state.dev.filter found.slot).status ≠ .none) → state.Live found := by
    rintro found (waits | ⟨same, used⟩)
    · exact (guarded.waiting found waits).2
    · exact ⟨by rw [same]; rfl, used⟩
  constructor
  case linked => exact linked
  case waiting =>
      intro wait member
      have before : wait.slot < maxFilters ∧ state.Live wait ∧
          wait.slot ∉ state.freedBy label := by
        rcases accounts.waits wait member with other | ⟨none_, old | ⟨i, rfl, inside, used⟩⟩
        · have waits : wait ∈ state.waits := by
            cases label with
            | retry found => exact List.mem_of_mem_erase other
            | _ => exact other
          rcases guarded.waiting wait waits with ⟨inside, live⟩
          refine ⟨inside, live, ?_⟩
          intro doomed
          have apart := List.all_eq_true.mp (List.all_eq_true.mp careful.1 _ doomed) wait other
          simp at apart
        · rcases guarded.waiting wait old with ⟨inside, live⟩
          exact ⟨inside, live, by simp [none_]⟩
        · exact ⟨inside, ⟨rfl, used⟩, by simp [none_]⟩
      rcases before with ⟨inside, live, spared⟩
      exact ⟨inside, (slots wait.slot).live_after guarded.linked spared live⟩
  case dead =>
      intro inc member
      rcases List.mem_append.mp member with old | new
      · rcases guarded.dead inc old with ⟨bound, dead⟩
        refine ⟨bound.trans (slots inc.slot).gen_le, ?_⟩
        exact fun live => dead ((slots inc.slot).live_before bound live).1
      · rcases List.mem_map.mp new with ⟨i, doomed, rfl⟩
        exact ⟨(slots i).gen_le, fun live => live.2 (vacates i doomed).2⟩
  case once =>
      rw [List.nodup_append]
      refine ⟨guarded.once, ?_, ?_⟩
      · apply nodup.map
        intro i j same
        exact congrArg Inc.slot same
      · rintro inc old other new rfl
        rcases List.mem_map.mp new with ⟨i, doomed, rfl⟩
        exact (guarded.dead _ old).2 ⟨rfl, (vacates i doomed).1⟩
  case own =>
      intro free member
      rcases accounts.frees with same | ⟨poll, found, added, freed, origin, _⟩
      · rw [same] at member
        rcases guarded.own free member with ⟨own, removed⟩
        exact ⟨own, List.mem_append_left _ removed⟩
      · rw [added] at member
        rcases List.mem_append.mp member with old | new
        · rcases guarded.own free old with ⟨own, removed⟩
          exact ⟨own, List.mem_append_left _ removed⟩
        · have same := current found (foundLive found origin)
          rw [List.mem_singleton] at new
          subst new
          refine ⟨same, List.mem_append_right _ ?_⟩
          simp only [freed, List.map_cons, List.map_nil, List.mem_singleton, same]
  case bound =>
      intro window running
      rw [frame.poll] at running
      exact (guarded.bound window running).trans (slots window.slot).gen_le
  case callback =>
      intro window running live
      rw [frame.poll] at running
      have bound := guarded.bound window running
      rcases (slots window.inc.slot).live_before bound live with ⟨before, flag⟩
      exact flag.trans (guarded.callback window running before)
  case late =>
      intro window running free member other same
      rw [frame.poll] at running
      rcases accounts.frees with kept | ⟨poll, found, added, _, origin, flag⟩
      · rw [kept] at member
        exact guarded.late window running free member other same
      · rw [added] at member
        rcases List.mem_append.mp member with old | new
        · exact guarded.late window running free old other same
        · rw [List.mem_singleton] at new
          subst new
          -- the callback of a filter that is still there keeps its flag
          have live := foundLive found origin
          simp only at same
          rw [same] at live flag
          exact flag other (guarded.callback window running live)

theorem guarded_of_reachable (state : Sys) (reachable : carefulDemux.Reachable state) :
    Guarded state := by
  refine Machine.Reachable.always ?_ ?_ state reachable
  · rintro start ⟨linked, idle, _, waits, _, _, frees, removed⟩
    constructor
    case linked => exact linked
    case waiting => simp [waits]
    case dead => simp [removed]
    case once => simp [removed]
    case own => simp [frees]
    case bound => simp [idle]
    case callback => simp [idle]
    case late => simp [idle]
  · intro before label after _ guarded moved
    rcases Machine.restrict_next.mp moved with ⟨careful, next⟩
    rcases Option.map_eq_some_iff.mp next with ⟨middle, stepped, rfl⟩
    cases polls : label.polls with
    | false => exact guarded.outside careful (step_outside polls stepped)
    | true =>
        rcases guarded_polls guarded polls stepped with ⟨guarded', removed⟩
        have none_ : before.freedBy label = [] := by
          cases label <;> first | rfl | cases polls
        rw [none_, List.map_nil, List.append_nil, ← removed]
        exact guarded'

/-- A callback of a filter never runs once a call from another thread has freed it, as
long as no slot is freed that another such call still waits for. -/
theorem no_callback_after_free (state : Sys) (reachable : carefulDemux.Reachable state) :
    ∀ free ∈ state.frees, free.poll = false → ∀ window, state.poll = .running window →
      window.inc ≠ free.found := by
  intro free member other window running same
  exact (guarded_of_reachable state reachable).late window running free member other same.symm

def Poll.inc? : Poll → Option Inc
  | .running window => some window.inc
  | _ => none

theorem Poll.inc?_some {poll : Poll} {inc : Inc} (running : poll.inc? = some inc) :
    ∃ window, poll = .running window ∧ window.inc = inc := by
  cases poll with
  | running window => exact ⟨window, rfl, Option.some.inj running⟩
  | _ => cases running

/-- The first filter is freed while its callback runs, and the second gets the section. -/
theorem no_callback_after_free_second :
    ∃ state window, carefulDemux.Reachable state ∧ state.poll = .running window ∧
      state.frees = [⟨false, ⟨0, 0⟩, ⟨0, 0⟩⟩] ∧ ∀ free ∈ state.frees, free.poll = false →
        window.inc ≠ free.found := by
  have ran : ((pool.run (.opened 0 0 0 0 false) twoFilters).bind (fun dev =>
      carefulDemux.run (.atRest (dev.channelStart 0)) [.dispatch 0 true [0],
        .call false (.freeFilter 0), .callbackReturn true, .retry ⟨0, 0⟩, .resume])).map
          (fun state => (state.poll.inc?, state.frees)) =
        some (some ⟨1, 0⟩, [⟨false, ⟨0, 0⟩, ⟨0, 0⟩⟩]) := by
    decide +kernel
  rcases reached_by_run ran (fun _ start => start) with ⟨state, reachable, result⟩
  rw [Prod.mk.injEq] at result
  rcases Poll.inc?_some result.1 with ⟨window, running, _⟩
  refine ⟨state, window, reachable, running, result.2, ?_⟩
  intro free member other
  exact no_callback_after_free state reachable free member other window running

/-- A call waits for the first filter; all filters of the channel are freed and the slot
is taken again, so the call ends with the callback of the first filter still running. -/
theorem callback_outlives_free : ¬ ∀ state, demux.Reachable state → ∀ free ∈ state.frees,
    free.poll = false → ∀ window, state.poll = .running window → window.inc ≠ free.found := by
  intro never
  have ran : ((pool.run (.opened 0 0 0 0 false) twoFilters).bind (fun dev =>
      demux.run (.atRest (dev.channelStart 0)) [.dispatch 0 true [0],
        .call false (.freeFilter 0), .call false (.freeFilterAll 0x10000),
        .call false (.allocateFilter 0x10000), .retry ⟨0, 0⟩])).map
          (fun state => (state.poll.inc?, state.frees)) =
        some (some ⟨0, 0⟩, [⟨false, ⟨0, 0⟩, ⟨0, 1⟩⟩]) := by
    decide +kernel
  rcases reached_by_run ran (fun _ start => start) with ⟨state, reachable, result⟩
  rw [Prod.mk.injEq] at result
  rcases Poll.inc?_some result.1 with ⟨window, running, inc⟩
  exact never state reachable ⟨false, ⟨0, 0⟩, ⟨0, 1⟩⟩ (by simp [result.2]) rfl window running inc

/-- Every free removes the filter it found, no filter is removed twice, the channel of a
filter that is waited for or found is there, and the counts of the lists are right. -/
structure FreedOnce (state : Sys) : Prop where
  own : ∀ free ∈ state.frees, free.removed = free.found ∧ free.removed ∈ state.removed
  once : state.removed.Nodup
  owned : ∀ i, ((∃ filterid, state.dev.findFilter filterid = some i) ∨
    ∃ wait ∈ state.waits, wait.slot = i) → (state.dev.filter i).pCh ≠ none
  counted : ∀ type i, i < type.max → (state.dev.channel type i).status ≠ .none →
    ∃ slots : List Nat, state.dev.links.Ring (.filters type i) (slots.map .filter) ∧
      (state.dev.channel type i).fltCnt = slots.length

/-- This is so as long as no slot is freed that another call still waits for, and a
channel is freed without filters. -/
theorem freed_once (state : Sys) (reachable : carefulDemux.Reachable state) : FreedOnce state := by
  have guarded := guarded_of_reachable state reachable
  rcases guarded.linked with ⟨lists, linked⟩
  constructor
  case own =>
      intro free member
      rcases guarded.own free member with ⟨own, removed⟩
      exact ⟨own, own ▸ removed⟩
  case once => exact guarded.once
  case owned =>
      have owner : ∀ i, i < maxFilters → (state.dev.filter i).status ≠ .none →
          (state.dev.filter i).pCh ≠ none := by
        intro i inside used
        rcases linked.owner i inside used with ⟨_, ch, _, pCh⟩
        simp [pCh]
      rintro i (⟨filterid, found⟩ | ⟨wait, waits, rfl⟩)
      · rcases findFilter_some found with ⟨inside, _, used⟩
        exact owner i inside used
      · rcases guarded.waiting wait waits with ⟨inside, live⟩
        exact owner wait.slot inside live.2
  case counted =>
      intro type i inside used
      have live := (linked.chLive type i).mpr ⟨inside, used⟩
      exact ⟨lists.flts type i, linked.filters type i live, linked.count type i live⟩

theorem freed_once_waiting :
    ∃ state, carefulDemux.Reachable state ∧ state.removed = [⟨0, 0⟩, ⟨1, 0⟩] ∧
      FreedOnce state := by
  have ran : ((pool.run (.opened 0 0 0 0 false) twoFilters).bind (fun dev =>
      carefulDemux.run (.atRest (dev.channelStart 0)) [.dispatch 0 true [0],
        .call false (.freeFilter 0), .callbackReturn true, .retry ⟨0, 0⟩, .resume,
        .call true (.freeFilterAll 0x10000)])).map (fun state => state.removed) =
        some [⟨0, 0⟩, ⟨1, 0⟩] := by
    decide +kernel
  rcases reached_by_run ran (fun _ start => start) with ⟨state, reachable, removed⟩
  exact ⟨state, reachable, removed, freed_once state reachable⟩

/-- The call that waited removes the filter that took the slot. -/
theorem freed_for_another : ¬ ∀ state, demux.Reachable state → FreedOnce state := by
  intro always
  have ran : ((pool.run (.opened 0 0 0 0 false) twoFilters).bind (fun dev =>
      demux.run (.atRest (dev.channelStart 0)) [.dispatch 0 true [0],
        .call false (.freeFilter 0), .call false (.freeFilterAll 0x10000),
        .call false (.allocateFilter 0x10000), .retry ⟨0, 0⟩])).map
          (fun state => state.frees) = some [⟨false, ⟨0, 0⟩, ⟨0, 1⟩⟩] := by
    decide +kernel
  rcases reached_by_run ran (fun _ start => start) with ⟨state, reachable, frees⟩
  have once := always state reachable
  have own := (once.own ⟨false, ⟨0, 0⟩, ⟨0, 1⟩⟩ (by simp [frees])).1
  cases own

end Alisl.Dmx
