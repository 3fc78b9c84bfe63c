import Alisl.Dmx.Windows

/-! How often a section reaches a filter. -/

namespace Alisl.Dmx

open Alisl.Base

/-- The poll thread is in, or just behind, the update callback of a filter. -/
def Sys.updating (state : Sys) (inc : Inc) : Bool :=
  match state.poll.window? with
  | none => false
  | some window => window.kind = .update && window.inc = inc

/-- The step does not enable a filter that got the section of the dispatch in progress
and was left disabled, without its mark. -/
def keepsStopped (state : Sys) : Label → Bool
  | .call _ (.controlFilter filterid .enable) =>
      match state.dev.findFilter filterid with
      | none => true
      | some j =>
          !(state.poll ≠ .idle && state.inc j ∈ state.delivered && !state.updating (state.inc j) &&
            (state.dev.filter j).status ≠ .enable && !(state.dev.filter j).access)
  | _ => true

/-- The runs whose steps all meet this. -/
def calmDemux : Machine Sys Label :=
  demux.restrict (fun state label => keepsStopped state label = true)

/-- An enabled filter that got the section is marked. -/
def Spent (gen : Nat → Nat) (delivered : List Inc) (dev : Device) : Prop :=
  ∀ inc ∈ delivered, gen inc.slot = inc.gen → (dev.filter inc.slot).status = .enable →
    (dev.filter inc.slot).access = true

/-- What a dispatch in progress knows about the filter of its callback: the session id
tells whether it is still the one it was. -/
structure Watches (state : Sys) (window : Window) : Prop where
  mine : (state.dev.filter window.slot).sessionId = .mine →
    state.gen window.slot = window.gen ∧ (state.dev.filter window.slot).status ≠ .none
  update : window.kind = .update → state.gen window.slot = window.gen →
    (state.dev.filter window.slot).status ≠ .none →
    (state.dev.filter window.slot).sessionId = .mine
  request : window.kind = .request → window.inc ∉ state.delivered
  bound : window.gen ≤ state.gen window.slot

structure Sparing (state : Sys) : Prop where
  nodup : state.delivered.Nodup
  bound : ∀ inc ∈ state.delivered, inc.gen ≤ state.gen inc.slot
  spent : state.poll ≠ .idle → ∀ inc ∈ state.delivered, state.updating inc = false →
    state.gen inc.slot = inc.gen → (state.dev.filter inc.slot).status = .enable →
    (state.dev.filter inc.slot).access = true
  window : ∀ window, state.poll.window? = some window → Watches state window

/-- A filter that did not get the section is called back. -/
theorem sparing_enter {state : Sys} {ch i : Nat} {data : List Byte} {dev : Device}
    (nodup : state.delivered.Nodup) (bound : ∀ inc ∈ state.delivered, inc.gen ≤ state.gen inc.slot)
    (spent : Spent state.gen state.delivered dev) (enabled : (dev.filter i).status = .enable)
    (fresh : state.inc i ∉ state.delivered) (kind : Kind) (upcall : Upcall) :
    Sparing (state.stop ch data (.callback kind i upcall, dev.enter ch i)) := by
  have access : ∀ j, ((dev.enter ch i).filter j).access = (dev.filter j).access := by
    intro j
    by_cases here : j = i
    · simp [Device.enter, here]
    · simp [Device.enter, here]
  have status : ∀ j, ((dev.enter ch i).filter j).status = (dev.filter j).status := by
    intro j
    by_cases here : j = i
    · simp [Device.enter, here]
    · simp [Device.enter, here]
  have session : ((dev.enter ch i).filter i).sessionId = .mine := by simp [Device.enter]
  constructor
  case nodup =>
      simp only [Sys.stop]
      split
      · rw [List.nodup_append]
        refine ⟨nodup, List.nodup_singleton _, ?_⟩
        intro inc member last single
        rw [List.mem_singleton] at single
        rintro rfl
        exact fresh (single ▸ member)
      · exact nodup
  case bound =>
      intro inc member
      simp only [Sys.stop] at member
      split at member
      · rcases List.mem_append.mp member with before | last
        · exact bound inc before
        · rw [List.mem_singleton] at last
          rw [last]
          exact le_refl _
      · exact bound inc member
  case spent =>
      intro _ inc member away gen on
      have before : inc ∈ state.delivered := by
        simp only [Sys.stop] at member
        split at member
        case isTrue update =>
            rcases List.mem_append.mp member with before | last
            · exact before
            · rw [List.mem_singleton] at last
              simp [Sys.updating, Sys.stop, Poll.window?, Window.inc, update, last, Sys.inc] at away
        case isFalse => exact member
      simp only [Sys.stop, status, access] at on ⊢
      exact spent inc before gen on
  case window =>
      rintro window ⟨⟩
      constructor
      case mine =>
          intro _
          simp [Sys.stop, status, enabled]
      case update => exact fun _ _ _ => session
      case request =>
          intro request
          simp only at request
          simp only [Sys.stop, request, reduceCtorEq, if_false]
          exact fresh
      case bound => exact le_refl _

theorem sparing_halts {state : Sys} {ch : Nat} {data : List Byte} {stop : Stop} {dev : Device}
    (nodup : state.delivered.Nodup) (bound : ∀ inc ∈ state.delivered, inc.gen ≤ state.gen inc.slot)
    (halts : Halts (Spent state.gen state.delivered) ch stop dev) :
    Sparing (state.stop ch data (stop, dev)) := by
  cases halts with
  | quit =>
      constructor
      case nodup => exact nodup
      case bound => exact bound
      case spent => exact fun busy => absurd rfl busy
      case window => rintro window ⟨⟩
  | callback kind upcall spent enabled unmarked =>
      apply sparing_enter nodup bound spent enabled _ kind upcall
      intro member
      have marked := spent _ member rfl enabled
      simp only [Sys.inc] at marked
      rw [unmarked] at marked
      cases marked

theorem spent_scan {gen : Nat → Nat} {delivered : List Inc} {data : List Byte} {ch fuel : Nat}
    {dev after : Device} {pos : Node} {stop : Stop} (spent : Spent gen delivered dev)
    (scanned : Device.scan data ch fuel dev pos = some (stop, after)) :
    Halts (Spent gen delivered) ch stop after := by
  apply scan_halts _ _ spent scanned
  · intro middle i kept inc member same
    by_cases here : inc.slot = i
    · simp [Device.mark, here]
    · simpa [Device.mark, here] using kept inc member same
  · intro middle i kept inc member same
    rw [Device.finish]
    split
    · by_cases here : inc.slot = i
      · simp [here]
      · simpa [here] using kept inc member same
    · by_cases here : inc.slot = i
      · simp [Device.mark, here]
      · simpa [Device.mark, here] using kept inc member same

theorem spent_touch {gen : Nat → Nat} {delivered : List Inc} {dev : Device}
    (spent : Spent gen delivered dev) (pos : Node) : Spent gen delivered (dev.touch pos) := by
  cases pos with
  | filter i =>
      intro inc member same
      by_cases here : inc.slot = i
      · have kept := spent inc member same
        rw [here] at kept
        simpa [Device.touch, here] using kept
      · simpa [Device.touch, here] using spent inc member same
  | _ => exact spent

/-- What is known of the other filters while a callback runs. -/
theorem Sparing.others {state : Sys} (sparing : Sparing state) {window : Window}
    (busy : state.poll.window? = some window) (inc : Inc) (member : inc ∈ state.delivered)
    (other : window.kind = .update → inc ≠ window.inc) (gen : state.gen inc.slot = inc.gen)
    (enabled : (state.dev.filter inc.slot).status = .enable) :
    (state.dev.filter inc.slot).access = true := by
  have away : state.updating inc = false := by
    rw [Sys.updating, busy]
    cases kind : window.kind with
    | request => simp [kind]
    | update => simp [kind, Ne.symm (other kind)]
  have active : state.poll ≠ .idle := by
    intro idle
    rw [idle] at busy
    cases busy
  exact sparing.spent active inc member away gen enabled

/-- The loop goes on with every enabled filter that got the section marked, unless it is
the filter of the callback, enabled still. -/
theorem Sparing.settled {state : Sys} (sparing : Sparing state) {window : Window}
    (busy : state.poll.window? = some window)
    (over_ : window.kind = .update → (state.dev.filter window.slot).sessionId ≠ .mine ∨
      (state.dev.filter window.slot).status ≠ .enable) :
    Spent state.gen state.delivered (state.dev.settle window.ch) := by
  have watches := sparing.window window busy
  intro inc member gen enabled
  apply sparing.others busy inc member _ gen enabled
  rintro update rfl
  rcases over_ update with lost | disabled
  · exact lost (watches.update update gen (fun none_ => by cases none_.symm.trans enabled))
  · exact disabled enabled

theorem sparing_resume {state : Sys} (sparing : Sparing state) {window : Window}
    (busy : state.poll.window? = some window) {bufferOk : Bool} {stop : Stop} {dev : Device}
    (resumed : state.dev.resume window.data window.ch window.slot window.kind window.upcall
      bufferOk = some (stop, dev)) :
    Sparing (state.stop window.ch window.data (stop, dev)) := by
  have watches := sparing.window window busy
  cases resume_resumed resumed with
  | quit stopped same =>
      subst stopped
      constructor
      case nodup => exact sparing.nodup
      case bound => exact sparing.bound
      case spent => exact fun active => absurd rfl active
      case window => rintro other ⟨⟩
  | passed reason pos scanned =>
      have spent := sparing.settled busy (fun _ => reason)
      exact sparing_halts sparing.nodup sparing.bound (spent_scan (spent_touch spent pos) scanned)
  | refused request pos scanned =>
      have spent := sparing.settled busy (fun update => by rw [request] at update; cases update)
      exact sparing_halts sparing.nodup sparing.bound (spent_scan spent scanned)
  | delivers request mine enabled upcall stopped entered =>
      subst stopped entered
      have spent := sparing.settled busy (fun update => by rw [request] at update; cases update)
      apply sparing_enter sparing.nodup sparing.bound spent enabled
      have same : state.inc window.slot = window.inc := by
        rw [Sys.inc, Window.inc, (watches.mine mine).1]
      rw [same]
      exact watches.request request
  | finished pos scanned =>
      apply sparing_halts sparing.nodup sparing.bound (spent_scan _ scanned)
      intro inc member gen
      by_cases here : inc.slot = window.slot
      · rw [here, Device.finish]
        split
        · simp
        · simp [Device.mark]
      · have other : inc ≠ window.inc := fun same => here (by rw [same, Window.inc])
        have kept := sparing.others busy inc member (fun _ => other) gen
        rw [Device.finish]
        split
        · simpa [here, Device.settle] using kept
        · simpa [Device.mark, here, Device.settle] using kept

/-- A step of another function, or of another thread. -/
theorem sparing_outside {state after : Sys} {label : Label} (sparing : Sparing state)
    (meets : keepsStopped state label = true) (outside : Outside state label after) :
    Sparing after := by
  have frame := outside.frame
  have slots := outside.slots
  have updating : after.updating = state.updating := by
    funext inc
    rw [Sys.updating, Sys.updating, frame.poll]
  constructor
  case nodup =>
      rw [frame.delivered]
      exact sparing.nodup
  case bound =>
      intro inc member
      rw [frame.delivered] at member
      exact (sparing.bound inc member).trans (slots inc.slot).gen_le
  case spent =>
      intro busy inc member away same on
      rw [frame.poll] at busy
      rw [frame.delivered] at member
      rw [updating] at away
      cases slots inc.slot with
      | freed _ zero _ =>
          rw [zero] at on
          cases on
      | born _ _ _ gen =>
          have before := sparing.bound inc member
          omega
      | kept alike enabled gen =>
          rw [gen] at same
          rw [alike.access]
          rcases enabled on with before | ⟨poll, filterid, labelled, found⟩
          · exact sparing.spent busy inc member away same before
          · have here : state.inc inc.slot = inc := by rw [Sys.inc, same]
            rw [labelled, keepsStopped, found] at meets
            by_cases before : (state.dev.filter inc.slot).status = .enable
            · exact sparing.spent busy inc member away same before
            · simpa [busy, here, member, away, before] using meets
  case window =>
      intro window current
      rw [frame.poll] at current
      have watches := sparing.window window current
      have request : window.kind = .request → window.inc ∉ after.delivered := by
        rw [frame.delivered]
        exact watches.request
      have bound := watches.bound.trans (slots window.slot).gen_le
      cases slots window.slot with
      | freed _ zero gen => exact ⟨by simp [zero, Filter.zero], by simp [zero, Filter.zero], request, bound⟩
      | born unused used sessionId gen =>
          refine ⟨?_, ?_, request, bound⟩
          · rw [sessionId]
            exact fun mine => absurd unused (watches.mine mine).2
          · intro _ same
            have before := watches.bound
            omega
      | kept alike enabled gen =>
          refine ⟨?_, ?_, request, bound⟩
          · rw [alike.sessionId, gen, ne_eq, alike.status]
            exact watches.mine
          · rw [alike.sessionId, gen, ne_eq, alike.status]
            exact watches.update

/-- The end of a callback only changes the flag of its filter. -/
theorem sparing_return {state : Sys} {window : Window} (sparing : Sparing state)
    (running : state.poll = .running window) (bufferOk : Bool) :
    Sparing { state with
      dev := state.dev.setFilter window.slot
        { state.dev.filter window.slot with flag := .dispatch }
      poll := .returned window bufferOk } := by
  have filter : ∀ j, ∃ flag, (state.dev.setFilter window.slot
      { state.dev.filter window.slot with flag := .dispatch }).filter j =
        { state.dev.filter j with flag } := by
    intro j
    rw [Device.setFilter_filter]
    split
    case isTrue here => exact ⟨.dispatch, by rw [here]⟩
    case isFalse => exact ⟨(state.dev.filter j).flag, rfl⟩
  have current : state.poll.window? = some window := by rw [running]; rfl
  constructor
  case nodup => exact sparing.nodup
  case bound => exact sparing.bound
  case spent =>
      intro _ inc member away gen enabled
      rcases filter inc.slot with ⟨flag, same⟩
      simp only [same] at enabled ⊢
      apply sparing.spent (by simp [running]) inc member _ gen enabled
      simpa [Sys.updating, running, Poll.window?] using away
  case window =>
      rintro other ⟨⟩
      have watches := sparing.window window current
      rcases filter window.slot with ⟨flag, same⟩
      constructor
      case mine => simpa only [same] using watches.mine
      case update => simpa only [same] using watches.update
      case request => exact watches.request
      case bound => exact watches.bound

theorem sparing_step {state after : Sys} {label : Label} (sparing : Sparing state)
    (meets : keepsStopped state label = true) (moved : state.step label = some after) :
    Sparing after := by
  cases label with
  | dispatch ch readable data =>
      rw [Sys.step] at moved
      split at moved
      · rcases Option.map_eq_some_iff.mp moved with ⟨⟨stop, dev⟩, started, rfl⟩
        apply sparing_halts List.nodup_nil (by simp)
        have spent : ∀ dev, Spent state.gen [] dev := by simp [Spent]
        rw [Device.sectionDispatch] at started
        split at started
        · cases started
          exact .quit (spent _)
        · rcases Option.bind_eq_some_iff.mp started with ⟨cleared, _, rest⟩
          rcases Option.bind_eq_some_iff.mp rest with ⟨pos, _, scanned⟩
          exact spent_scan (spent cleared) scanned
      · cases moved
  | callbackReturn bufferOk =>
      rw [Sys.step] at moved
      split at moved
      · case h_1 window running =>
        split at moved
        · cases moved
          exact sparing_return sparing running bufferOk
        · cases moved
      · cases moved
  | resume =>
      rw [Sys.step] at moved
      split at moved
      · case h_1 window bufferOk returned =>
        rcases Option.map_eq_some_iff.mp moved with ⟨⟨stop, dev⟩, resumed, rfl⟩
        exact sparing_resume sparing (by rw [returned]; rfl) resumed
      · cases moved
  | call poll call => exact sparing_outside sparing meets (step_outside rfl moved)
  | retry found => exact sparing_outside sparing meets (step_outside rfl moved)
  | finish poll channelid => exact sparing_outside sparing meets (step_outside rfl moved)

/-- As long as no filter that got the section and was left disabled is enabled again
before the dispatch ends, the section reaches every filter at most once. -/
theorem delivered_once (state : Sys) (reachable : calmDemux.Reachable state) :
    state.delivered.Nodup := by
  apply Sparing.nodup
  refine Machine.Reachable.always ?_ ?_ state reachable
  · rintro start ⟨_, idle, _, _, _, none_, _, _⟩
    constructor
    case nodup => simp [none_]
    case bound => simp [none_]
    case spent => exact fun busy => absurd idle busy
    case window => simp [idle, Poll.window?]
  · intro before label after _ sparing moved
    rcases Machine.restrict_next.mp moved with ⟨meets, next⟩
    rcases Option.map_eq_some_iff.mp next with ⟨middle, stepped, rfl⟩
    have kept := sparing_step sparing meets stepped
    exact ⟨kept.nodup, kept.bound, kept.spent, fun window current =>
      ⟨(kept.window window current).mine, (kept.window window current).update,
        (kept.window window current).request, (kept.window window current).bound⟩⟩

theorem delivered_once_both_filters :
    ∃ state, calmDemux.Reachable state ∧ state.delivered = [⟨0, 0⟩, ⟨1, 0⟩] ∧ state.delivered.Nodup := by
  have ran : ((pool.run (.opened 0 0 0 0 false) twoFilters).bind (fun dev =>
      calmDemux.run (.atRest (dev.channelStart 0)) [.dispatch 0 true [0], .callbackReturn true,
        .resume])).map (fun state => state.delivered) = some [⟨0, 0⟩, ⟨1, 0⟩] := by
    decide +kernel
  rcases reached_by_run ran (fun _ start => start) with ⟨state, reachable, delivered⟩
  exact ⟨state, reachable, delivered, delivered_once state reachable⟩

/-- The first filter is disabled in its own callback and enabled in that of the second,
which frees itself, so that the loop starts again at the list head. -/
theorem delivered_twice : ¬ ∀ state, demux.Reachable state → state.delivered.Nodup := by
  intro once
  have ran : ((pool.run (.opened 0 0 0 0 false) twoFilters).bind (fun dev =>
      demux.run (.atRest (dev.channelStart 0)) [.dispatch 0 true [0],
        .call false (.controlFilter 0 .disable), .callbackReturn true, .resume,
        .call false (.controlFilter 0 .enable), .call true (.freeFilter 1), .callbackReturn true,
        .resume])).map (fun state => state.delivered) = some [⟨0, 0⟩, ⟨1, 0⟩, ⟨0, 0⟩] := by
    decide +kernel
  rcases reached_by_run ran (fun _ start => start) with ⟨state, reachable, delivered⟩
  have nodup := once state reachable
  rw [delivered] at nodup
  exact absurd nodup (by decide)

end Alisl.Dmx
