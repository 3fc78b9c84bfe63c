import Alisl.Dmx.Frees

/-! Where `section_dispatch` writes through its filter cursor. The cursor is taken from a list
before it is compared with the list head, so the node behind it may be the head. -/

namespace Alisl.Dmx

open Alisl.Base

namespace Device

/-- The nodes the loop over the filters writes to. -/
def scanWrites (data : List Byte) (ch : Nat) : Nat → Device → Node → List Node
  | 0, _, _ => []
  | fuel + 1, dev, pos =>
      if pos = .filters .sections ch then []
      else match pos with
        | .filter i =>
            let filter := dev.filter i
            let onward := fun after : Device =>
              (after.links.next (.filter i)).elim [] (fun next => scanWrites data ch fuel after next)
            if filter.status ≠ .enable ∨ filter.access ∨ filter.waitClose then onward dev
            else if ¬ sectionHit filter data then .filter i :: onward (dev.mark i)
            else if filter.crcCheck ∧ calcCrc32 data ≠ 0 then .filter i :: onward (dev.mark i)
            else match filter.callback.requestBuffer, filter.callback.updateBuffer with
              | some _, _ => [.filter i]
              | none, some _ => [.filter i]
              | none, none => .filter i :: onward (dev.finish ch i)
        | _ => []

/-- The nodes of a critical section that begins with the cursor at `pos`. -/
def writesFrom (dev : Device) (data : List Byte) (ch : Nat) : Option Node → List Node
  | none => []
  | some pos => scanWrites data ch scanFuel dev pos

/-- A cursor that is written to before it is compared with the list head. -/
def writesTouched (dev : Device) (data : List Byte) (ch : Nat) : Option Node → List Node
  | none => []
  | some pos => pos :: scanWrites data ch scanFuel (dev.touch pos) pos

/-- What `section_dispatch` writes up to its first callback. -/
def dispatchWrites (dev : Device) (ch : Nat) (readable : Bool) (data : List Byte) : List Node :=
  if (dev.channel .sections ch).status ≠ .enable ∨ ¬ readable ∨ data = [] then []
  else match dev.links.entries (.filters .sections ch) scanFuel with
    | none => []
    | some nodes =>
        let cleared := nodes.foldl unmark dev
        nodes ++ cleared.writesFrom data ch (cleared.links.next (.filters .sections ch))

/-- What `section_dispatch` writes after a callback. -/
def resumeWrites (dev : Device) (data : List Byte) (ch i : Nat) (kind : Kind) (bufferOk : Bool) :
    List Node :=
  let channel := dev.channel .sections ch
  if channel.status ≠ .enable ∨ channel.sessionId ≠ .mine then []
  else
    let settled := dev.settle ch
    let filter := settled.filter i
    let finished := settled.finish ch i
    if filter.sessionId ≠ .mine ∨ filter.status = .none then
      settled.writesTouched data ch (settled.links.next (.filters .sections ch))
    else if filter.status ≠ .enable then
      settled.writesTouched data ch (settled.links.next (.filter i))
    else match kind with
      | .request =>
          if ¬ bufferOk then settled.writesFrom data ch (settled.links.next (.filter i))
          else match filter.callback.updateBuffer with
            | some _ => [.filter i]
            | none => .filter i :: finished.writesFrom data ch (finished.links.next (.filter i))
      | .update => .filter i :: finished.writesFrom data ch (finished.links.next (.filter i))

/-- The critical section of `channel_stop`. -/
def channelStop (dev : Device) (ch : Nat) : Device :=
  dev.setChannel .sections ch { dev.channel .sections ch with status := .disable }

end Device

/-- The nodes written through the cursor in a step. -/
def Sys.writes (state : Sys) : Label → List Node
  | .dispatch ch readable data => state.dev.dispatchWrites ch readable data
  | .callbackReturn _ =>
      match state.poll with
      | .running window => [.filter window.slot]
      | _ => []
  | .resume =>
      match state.poll with
      | .returned window bufferOk =>
          state.dev.resumeWrites window.data window.ch window.slot window.kind bufferOk
      | _ => []
  | _ => []

/-- Everything written through the cursor so far. -/
structure Traced where
  sys : Sys
  written : List Node

inductive CursorLabel where
  | step (label : Label)
  | channelStart (ch : Nat)
  | channelStop (ch : Nat)

/-- The poll thread dispatches the section channels of the pool. -/
def Label.pooled : Label → Bool
  | .dispatch ch _ _ => decide (ch < ChType.sections.max)
  | _ => true

namespace Traced

def step (state : Traced) : CursorLabel → Option Traced
  | .step label =>
      if label.pooled then
        (demux.next state.sys label).map (fun sys =>
          ⟨sys, state.written ++ state.sys.writes label⟩)
      else none
  | .channelStart ch =>
      if (state.sys.dev.channel .sections ch).status = .disable then
        some { state with sys := { state.sys with dev := state.sys.dev.channelStart ch } }
      else none
  | .channelStop ch =>
      if (state.sys.dev.channel .sections ch).status = .enable then
        some { state with sys := { state.sys with dev := state.sys.dev.channelStop ch } }
      else none

end Traced

/-- The threads of `demux`, with channels that are started and stopped in between. -/
def cursor : Machine Traced CursorLabel where
  Initial state := demux.Initial state.sys ∧ state.written = []
  next := Traced.step

/-! The cursor on the list of its channel. -/

section Scan

variable {links : Links Node} {ch : Nat} {slots : List Nat}

/-- A step of the poll thread writes to filters of the list only, and calls back one of them. -/
structure OnList (slots : List Nat) (writes : List Node) (outcome : Option (Stop × Device)) :
    Prop where
  writes : ∀ node ∈ writes, ∃ i ∈ slots, node = .filter i
  callback : ∀ kind i upcall after, outcome = some (.callback kind i upcall, after) → i ∈ slots

theorem OnList.cons {i : Nat} {writes : List Node} {outcome : Option (Stop × Device)}
    (rest : OnList slots writes outcome) (member : i ∈ slots) :
    OnList slots (.filter i :: writes) outcome := by
  constructor
  case writes =>
      intro node found
      rcases List.mem_cons.mp found with rfl | later
      · exact ⟨i, member, rfl⟩
      · exact rest.writes node later
  case callback => exact rest.callback

theorem OnList.nothing {outcome : Option (Stop × Device)}
    (quit : ∀ stop after, outcome = some (stop, after) → stop = .quit) : OnList slots [] outcome := by
  constructor
  case writes => exact List.forall_mem_nil _
  case callback =>
      intro kind i upcall after stopped
      cases quit _ _ stopped

theorem OnList.enter {i : Nat} (member : i ∈ slots) (kind : Kind) (upcall : Upcall) (dev : Device) :
    OnList slots [.filter i] (some (.callback kind i upcall, dev)) := by
  constructor
  case writes =>
      intro node found
      exact ⟨i, member, List.mem_singleton.mp found⟩
  case callback =>
      rintro kind' i' upcall' after ⟨⟩
      exact member

/-- So does the loop from a node of the ring. -/
theorem scan_onList (data : List Byte) (ring : links.Ring (.filters .sections ch) (slots.map .filter))
    (fuel : Nat) (dev : Device) (pos : Node) (same : dev.links = links)
    (on : pos ∈ .filters .sections ch :: slots.map Node.filter) :
    OnList slots (Device.scanWrites data ch fuel dev pos) (Device.scan data ch fuel dev pos) := by
  induction fuel generalizing dev pos with
  | zero => exact .nothing (by simp [Device.scan])
  | succ fuel ih =>
      rw [Device.scanWrites.eq_def, Device.scan.eq_def]
      rcases List.mem_cons.mp on with rfl | listed
      · simp only [if_true]
        apply OnList.nothing
        rintro stop after ⟨⟩
        rfl
      · rcases List.mem_map.mp listed with ⟨i, member, rfl⟩
        have onward : ∀ middle : Device, middle.links = links →
            OnList slots ((middle.links.next (.filter i)).elim []
                (fun next => Device.scanWrites data ch fuel middle next))
              ((middle.links.next (.filter i)).bind
                (fun next => Device.scan data ch fuel middle next)) := by
          intro middle shape
          cases ahead : middle.links.next (.filter i) with
          | none => exact .nothing (by simp)
          | some next =>
              rw [shape] at ahead
              exact ih middle next shape (ring.next_mem on ahead)
        have marked := onward (dev.mark i) same
        have finished := onward (dev.finish ch i) (by rw [(dev.finish_same ch i).links, same])
        have off : Node.filter i ≠ .filters .sections ch := by simp
        simp only [if_neg off]
        split
        · exact onward dev same
        · split
          · exact marked.cons member
          · split
            · exact marked.cons member
            · cases (dev.filter i).callback.requestBuffer with
              | some function => exact .enter member _ _ _
              | none =>
                  cases (dev.filter i).callback.updateBuffer with
                  | some function => exact .enter member _ _ _
                  | none => exact finished.cons member

/-- The loop from the node behind one of the ring. -/
theorem onList_from (data : List Byte)
    (ring : links.Ring (.filters .sections ch) (slots.map .filter)) {dev : Device}
    (same : dev.links = links) {node : Node}
    (on : node ∈ .filters .sections ch :: slots.map Node.filter) :
    OnList slots (dev.writesFrom data ch (dev.links.next node))
      ((dev.links.next node).bind (fun pos => Device.scan data ch Device.scanFuel dev pos)) := by
  cases ahead : dev.links.next node with
  | none => exact .nothing (by simp)
  | some pos =>
      rw [same] at ahead
      exact scan_onList data ring Device.scanFuel dev pos same (ring.next_mem on ahead)

/-- The same where that node is written to first and is not the list head. -/
theorem onList_touched (data : List Byte)
    (ring : links.Ring (.filters .sections ch) (slots.map .filter)) {dev : Device}
    (same : dev.links = links) {node : Node}
    (on : node ∈ .filters .sections ch :: slots.map Node.filter)
    (off : dev.links.next node ≠ some (.filters .sections ch)) :
    OnList slots (dev.writesTouched data ch (dev.links.next node))
      ((dev.links.next node).bind (fun pos =>
        Device.scan data ch Device.scanFuel (dev.touch pos) pos)) := by
  cases ahead : dev.links.next node with
  | none => exact .nothing (by simp)
  | some pos =>
      rw [ahead] at off
      rw [same] at ahead
      have still := ring.next_mem on ahead
      have kept : (dev.touch pos).links = links := by rw [(dev.touch_same pos).links, same]
      have scanned := scan_onList data ring Device.scanFuel (dev.touch pos) pos kept still
      rcases List.mem_cons.mp still with rfl | listed
      · exact absurd rfl off
      · rcases List.mem_map.mp listed with ⟨i, member, rfl⟩
        exact scanned.cons member

theorem sectionDispatch_onList {dev : Device}
    (ring : dev.links.Ring (.filters .sections ch) (slots.map .filter))
    (short : slots.length ≤ maxFilters) (readable : Bool) (data : List Byte) :
    OnList slots (dev.dispatchWrites ch readable data) (dev.sectionDispatch ch readable data) := by
  have entries : dev.links.entries (.filters .sections ch) Device.scanFuel =
      some (slots.map .filter) := by
    apply ring.entries
    rw [List.length_map]
    exact Nat.succ_le_succ short
  unfold Device.dispatchWrites Device.sectionDispatch
  split
  · apply OnList.nothing
    rintro stop after ⟨⟩
    rfl
  · rw [Device.clearAccess, entries]
    dsimp only [Option.map_some, Option.bind_some]
    have links := (Device.foldl_unmark_same (slots.map Node.filter) dev).links
    have rest := onList_from data ring links (List.mem_cons_self ..)
    constructor
    case writes =>
        intro node found
        rcases List.mem_append.mp found with unmarked | later
        · rcases List.mem_map.mp unmarked with ⟨i, member, rfl⟩
          exact ⟨i, member, rfl⟩
        · exact rest.writes node later
    case callback => exact rest.callback

end Scan

namespace Sys

/-- Where `section_dispatch` writes to a cursor it has not compared with the list head, that cursor
is a filter: the list of a filter that is gone is not empty, and a filter that was stopped is not
the last one. -/
def aimed (state : Sys) : Label → Bool
  | .resume =>
      match state.poll with
      | .returned window _ =>
          let channel := state.dev.channel .sections window.ch
          let filter := state.dev.filter window.slot
          let head := Node.filters .sections window.ch
          if channel.status ≠ .enable ∨ channel.sessionId ≠ .mine then true
          else if filter.sessionId ≠ .mine ∨ filter.status = .none then
            state.dev.links.next head ≠ some head
          else if filter.status ≠ .enable then
            state.dev.links.next (.filter window.slot) ≠ some head
          else true
      | _ => true
  | _ => true

end Sys

theorem resume_onList {state : Sys} {window : Window} {bufferOk : Bool} {slots : List Nat}
    (returned : state.poll = .returned window bufferOk)
    (ring : state.dev.links.Ring (.filters .sections window.ch) (slots.map .filter))
    (own : (state.dev.filter window.slot).sessionId = .mine → window.slot ∈ slots)
    (aimed : state.aimed .resume = true) :
    OnList slots (state.dev.resumeWrites window.data window.ch window.slot window.kind bufferOk)
      (state.dev.resume window.data window.ch window.slot window.kind window.upcall bufferOk) := by
  have head : Node.filters .sections window.ch ∈
      .filters .sections window.ch :: slots.map Node.filter := List.mem_cons_self ..
  have settled := (state.dev.settle_same window.ch).links
  simp only [Sys.aimed, returned] at aimed
  unfold Device.resumeWrites Device.resume
  simp only [show (state.dev.settle window.ch).filter = state.dev.filter from rfl]
  split
  · apply OnList.nothing
    rintro stop after ⟨⟩
    rfl
  case isFalse live =>
    rw [if_neg live] at aimed
    split
    case isTrue lost =>
      rw [if_pos lost] at aimed
      exact onList_touched window.data ring settled head (of_decide_eq_true aimed)
    case isFalse alive =>
      rw [if_neg alive] at aimed
      rw [not_or, not_not] at alive
      have member := own alive.1
      have on : Node.filter window.slot ∈
          .filters .sections window.ch :: slots.map Node.filter :=
        List.mem_cons_of_mem _ (List.mem_map_of_mem member)
      have finished := ((state.dev.settle window.ch).finish_same window.ch window.slot).links
      have after := onList_from window.data ring (finished.trans settled) on
      split
      case isTrue stopped =>
        rw [if_pos stopped] at aimed
        exact onList_touched window.data ring settled on (of_decide_eq_true aimed)
      case isFalse =>
        cases window.kind with
        | request =>
            dsimp only
            split
            · exact onList_from window.data ring settled on
            · cases (state.dev.filter window.slot).callback.updateBuffer with
              | some function => exact OnList.enter member _ _ _
              | none => exact after.cons member
        | update => exact after.cons member

/-! The log of writes misses none. -/

section Unwritten

variable {data : List Byte} {ch j : Nat}

theorem setFilter_other {dev : Device} {i : Nat} {filter : Filter} (other : j ≠ i) :
    (dev.setFilter i filter).filter j = dev.filter j := by
  rw [Device.setFilter_filter, if_neg other]

theorem finish_other {dev : Device} {i : Nat} (other : j ≠ i) :
    (dev.finish ch i).filter j = dev.filter j := by
  rw [Device.finish]
  split
  · exact setFilter_other other
  · exact setFilter_other other

theorem scan_unwritten {fuel : Nat} {dev after : Device} {pos : Node} {stop : Stop}
    (scanned : Device.scan data ch fuel dev pos = some (stop, after))
    (unwritten : .filter j ∉ Device.scanWrites data ch fuel dev pos) :
    after.filter j = dev.filter j := by
  induction fuel generalizing dev pos with
  | zero => cases scanned
  | succ fuel ih =>
      have onward : ∀ (middle : Device) (i : Nat), middle.filter j = dev.filter j →
          ((middle.links.next (.filter i)).bind
            (fun next => Device.scan data ch fuel middle next)) = some (stop, after) →
          .filter j ∉ (middle.links.next (.filter i)).elim []
            (fun next => Device.scanWrites data ch fuel middle next) →
          after.filter j = dev.filter j := by
        intro middle i same moved unwritten'
        rcases Option.bind_eq_some_iff.mp moved with ⟨next, ahead, scanned'⟩
        rw [ahead] at unwritten'
        exact (ih scanned' unwritten').trans same
      rw [Device.scan.eq_def] at scanned
      rw [Device.scanWrites.eq_def] at unwritten
      simp only at scanned unwritten
      split at scanned
      · cases scanned
        rfl
      case isFalse inside =>
        rw [if_neg inside] at unwritten
        cases pos with
        | filter i =>
            simp only at scanned unwritten
            split at scanned
            case isTrue skipped =>
              rw [if_pos skipped] at unwritten
              exact onward dev i rfl scanned unwritten
            case isFalse open_ =>
              rw [if_neg open_] at unwritten
              split at scanned
              case isTrue missed =>
                rw [if_pos missed, List.mem_cons, not_or, Node.filter.injEq] at unwritten
                exact onward _ i (setFilter_other unwritten.1) scanned unwritten.2
              case isFalse hit =>
                rw [if_neg hit] at unwritten
                split at scanned
                case isTrue wrong =>
                  rw [if_pos wrong, List.mem_cons, not_or, Node.filter.injEq] at unwritten
                  exact onward _ i (setFilter_other unwritten.1) scanned unwritten.2
                case isFalse sound =>
                  rw [if_neg sound] at unwritten
                  cases requested : (dev.filter i).callback.requestBuffer with
                  | some function =>
                      simp only [requested, List.mem_singleton, Node.filter.injEq] at scanned unwritten
                      cases scanned
                      exact setFilter_other unwritten
                  | none =>
                      cases updated : (dev.filter i).callback.updateBuffer with
                      | some function =>
                          simp only [requested, updated, List.mem_singleton,
                            Node.filter.injEq] at scanned unwritten
                          cases scanned
                          exact setFilter_other unwritten
                      | none =>
                          simp only [requested, updated, List.mem_cons, not_or,
                            Node.filter.injEq] at scanned unwritten
                          exact onward _ i (finish_other unwritten.1) scanned unwritten.2
        | _ => cases scanned

theorem touch_other {dev : Device} {pos : Node} (other : .filter j ≠ pos) :
    (dev.touch pos).filter j = dev.filter j := by
  cases pos with
  | filter i => exact setFilter_other (fun same => other (congrArg Node.filter same))
  | _ => rfl

theorem foldl_unmark_other {nodes : List Node} {dev : Device} (others : .filter j ∉ nodes) :
    (nodes.foldl Device.unmark dev).filter j = dev.filter j := by
  induction nodes generalizing dev with
  | nil => rfl
  | cons node nodes ih =>
      rw [List.mem_cons, not_or] at others
      rw [List.foldl_cons, ih others.2]
      cases node with
      | filter i => exact setFilter_other (fun same => others.1 (congrArg Node.filter same))
      | _ => rfl

theorem from_unwritten {dev after : Device} {node : Node} {stop : Stop}
    (scanned : ((dev.links.next node).bind (fun pos =>
      Device.scan data ch Device.scanFuel dev pos)) = some (stop, after))
    (unwritten : .filter j ∉ dev.writesFrom data ch (dev.links.next node)) :
    after.filter j = dev.filter j := by
  rcases Option.bind_eq_some_iff.mp scanned with ⟨pos, ahead, scanned⟩
  rw [ahead] at unwritten
  exact scan_unwritten scanned unwritten

theorem touched_unwritten {dev after : Device} {node : Node} {stop : Stop}
    (scanned : ((dev.links.next node).bind (fun pos =>
      Device.scan data ch Device.scanFuel (dev.touch pos) pos)) = some (stop, after))
    (unwritten : .filter j ∉ dev.writesTouched data ch (dev.links.next node)) :
    after.filter j = dev.filter j := by
  rcases Option.bind_eq_some_iff.mp scanned with ⟨pos, ahead, scanned⟩
  rw [ahead, Device.writesTouched, List.mem_cons, not_or] at unwritten
  exact (scan_unwritten scanned unwritten.2).trans (touch_other unwritten.1)

end Unwritten

/-- A filter that is not written through the cursor is left as it is. -/
theorem dispatch_unwritten {dev after : Device} {ch j : Nat} {readable : Bool} {data : List Byte}
    {stop : Stop} (started : dev.sectionDispatch ch readable data = some (stop, after))
    (unwritten : .filter j ∉ dev.dispatchWrites ch readable data) :
    after.filter j = dev.filter j := by
  unfold Device.sectionDispatch at started
  unfold Device.dispatchWrites at unwritten
  split at started
  · cases started
    rfl
  case isFalse goes =>
    rw [if_neg goes] at unwritten
    rcases Option.bind_eq_some_iff.mp started with ⟨cleared, unmarked, scanned⟩
    rcases Option.map_eq_some_iff.mp unmarked with ⟨nodes, entries, rfl⟩
    simp only [entries, List.mem_append, not_or] at unwritten
    exact (from_unwritten scanned unwritten.2).trans (foldl_unmark_other unwritten.1)

theorem resume_unwritten {dev after : Device} {data : List Byte} {ch i j : Nat} {kind : Kind}
    {upcall : Upcall} {bufferOk : Bool} {stop : Stop}
    (resumed : dev.resume data ch i kind upcall bufferOk = some (stop, after))
    (unwritten : .filter j ∉ dev.resumeWrites data ch i kind bufferOk) :
    after.filter j = dev.filter j := by
  have finished : ∀ middle, middle = (dev.settle ch).finish ch i → middle.advance data ch i =
      some (stop, after) → .filter j ∉ Node.filter i ::
        middle.writesFrom data ch (middle.links.next (.filter i)) →
      after.filter j = dev.filter j := by
    rintro middle rfl advanced unwritten'
    rw [List.mem_cons, not_or, Node.filter.injEq] at unwritten'
    exact (from_unwritten advanced unwritten'.2).trans (finish_other unwritten'.1)
  show after.filter j = (dev.settle ch).filter j
  unfold Device.resume at resumed
  unfold Device.resumeWrites at unwritten
  simp only at resumed unwritten
  split at resumed
  · cases resumed
    rfl
  case isFalse live =>
    rw [if_neg live] at unwritten
    split at resumed
    case isTrue lost =>
      rw [if_pos lost] at unwritten
      exact touched_unwritten resumed unwritten
    case isFalse alive =>
      rw [if_neg alive] at unwritten
      split at resumed
      case isTrue stopped =>
        rw [if_pos stopped] at unwritten
        exact touched_unwritten resumed unwritten
      case isFalse enabled =>
        rw [if_neg enabled] at unwritten
        cases kind with
        | request =>
            simp only at resumed unwritten
            split at resumed
            case isTrue refused =>
              rw [if_pos refused] at unwritten
              exact from_unwritten resumed unwritten
            case isFalse granted =>
              rw [if_neg granted] at unwritten
              cases updated : ((dev.settle ch).filter i).callback.updateBuffer with
              | some function =>
                  simp only [updated, List.mem_singleton, Node.filter.injEq] at resumed unwritten
                  cases resumed
                  exact setFilter_other unwritten
              | none =>
                  simp only [updated] at resumed unwritten
                  exact finished _ rfl resumed unwritten
        | update => exact finished _ rfl resumed unwritten

/-- A step of the poll thread changes no filter that is not in the log of its writes. -/
theorem step_unwritten {state after : Sys} {label : Label} (polls : label.polls = true)
    (moved : state.step label = some after) {j : Nat} (unwritten : .filter j ∉ state.writes label) :
    after.dev.filter j = state.dev.filter j := by
  have stopped : ∀ (state : Sys) ch data result,
      (state.stop ch data result).dev = result.2 := by
    rintro state ch data ⟨_ | _, dev⟩
    · rfl
    · rfl
  cases label with
  | dispatch ch readable data =>
      rw [Sys.step] at moved
      split at moved
      · rcases Option.map_eq_some_iff.mp moved with ⟨⟨stop, dev⟩, started, rfl⟩
        rw [stopped]
        exact dispatch_unwritten started unwritten
      · cases moved
  | callbackReturn bufferOk =>
      cases running : state.poll with
      | running window =>
          simp only [Sys.step, running] at moved
          simp only [Sys.writes, running, List.mem_singleton, Node.filter.injEq] at unwritten
          split at moved
          · cases moved
            exact setFilter_other unwritten
          · cases moved
      | _ =>
          rw [Sys.step, running] at moved
          cases moved
  | resume =>
      cases returned : state.poll with
      | returned window bufferOk =>
          simp only [Sys.step, returned] at moved
          simp only [Sys.writes, returned] at unwritten
          rcases Option.map_eq_some_iff.mp moved with ⟨⟨stop, dev⟩, resumed, rfl⟩
          rw [stopped]
          exact resume_unwritten resumed unwritten
      | _ =>
          rw [Sys.step, returned] at moved
          cases moved
  | call poll call => cases polls
  | retry found => cases polls
  | finish poll channelid => cases polls

/-! The slot of a window under the calls of other threads. -/

/-- What a call does to the channel of a filter and its session. -/
inductive Held (before after : Filter) : Prop where
  | freed (zero : after = .zero)
  | born (unused : before.status = .none) (used : after.status ≠ .none)
      (sessionId : after.sessionId = before.sessionId)
  | kept (status : after.status = .none ↔ before.status = .none) (pCh : after.pCh = before.pCh)
      (sessionId : after.sessionId = before.sessionId)

namespace Held

theorem refl (filter : Filter) : Held filter filter := .kept .rfl rfl rfl

theorem of_eq {before after : Filter} (same : after = before) : Held before after := by
  rw [same]
  exact .refl before

theorem configureFilter {dev after : Device} {filterid j : Nat} {change : Filter → Filter}
    (keeps : ∀ filter, filter.status ≠ .none → Keeps filter (change filter) ∧
      (change filter).sessionId = filter.sessionId)
    (configured : (dev.configureFilter filterid change).2 = after) :
    Held (dev.filter j) (after.filter j) := by
  rw [Device.configureFilter] at configured
  cases found : dev.findFilter filterid with
  | none =>
      rw [found] at configured
      exact .of_eq (by rw [← configured])
  | some i =>
      rw [found] at configured
      by_cases here : j = i
      · subst here
        rcases keeps (dev.filter j) (findFilter_some found).2.2 with ⟨kept, sessionId⟩
        rw [← configured, Device.setFilter_filter, if_pos rfl]
        exact .kept kept.status kept.pCh sessionId
      · exact .of_eq (by rw [← configured, Device.setFilter_filter, if_neg here])

theorem perform {dev after : Device} {call : Call} {ret : Ret} {j : Nat}
    (plain : call.plain = true) (performed : dev.perform call = some (ret, after)) :
    Held (dev.filter j) (after.filter j) := by
  cases call with
  | allocateChannel type =>
      rcases Option.map_eq_some_iff.mp performed with ⟨⟨ret', id, dev'⟩, allocated, result⟩
      cases result
      exact .of_eq (congrFun (allocateChannel_filter allocated) j)
  | controlFilter filterid ctrl =>
      have dev := congrArg (fun outcome => outcome.map Prod.snd) performed
      apply configureFilter _ (Option.some.inj dev)
      intro filter used
      cases ctrl with
      | reset => exact ⟨⟨.rfl, rfl, rfl⟩, rfl⟩
      | enable => exact ⟨⟨by simp [used], rfl, rfl⟩, rfl⟩
      | disable => exact ⟨⟨by simp [used], rfl, rfl⟩, rfl⟩
  | setFilter filterid size value mask mode continuous =>
      have dev := congrArg (fun outcome => outcome.map Prod.snd) performed
      simp only [Device.perform, Device.setFilterBytes] at dev
      split at dev
      · have same : _ = after := Option.some.inj dev
        exact .of_eq (by rw [← same])
      · apply configureFilter _ (Option.some.inj dev)
        exact fun _ _ => ⟨⟨.rfl, rfl, rfl⟩, rfl⟩
  | setFilterCrcCheck filterid crcCheck =>
      have dev := congrArg (fun outcome => outcome.map Prod.snd) performed
      apply configureFilter _ (Option.some.inj dev)
      exact fun _ _ => ⟨⟨.rfl, rfl, rfl⟩, rfl⟩
  | registerFilterCallback filterid callback =>
      have dev := congrArg (fun outcome => outcome.map Prod.snd) performed
      apply configureFilter _ (Option.some.inj dev)
      exact fun _ _ => ⟨⟨.rfl, rfl, rfl⟩, rfl⟩
  | freeFilterAll channelid => cases plain
  | freeFilter filterid => cases plain
  | freeChannel channelid => cases plain
  | allocateFilter channelid => cases plain

theorem remove {dev after : Device} {i j : Nat} (removed : dev.removeFilter i = some after) :
    Held (dev.filter j) (after.filter j) := by
  rw [removeFilter_filter removed]
  split
  · exact .freed rfl
  · exact .refl _

theorem markWait (dev : Device) (i j : Nat) :
    Held (dev.filter j) ((Sys.markWait dev i).filter j) := by
  rw [Sys.markWait, Device.setFilter_filter]
  split
  case isTrue here =>
      subst here
      exact .kept .rfl rfl rfl
  case isFalse => exact .refl _

end Held

theorem Outside.held {state after : Sys} {label : Label} (outside : Outside state label after)
    (j : Nat) : Held (state.dev.filter j) (after.dev.filter j) := by
  cases outside with
  | nothing => exact .refl _
  | waits => exact .markWait state.dev _ j
  | frees _ _ _ removed => exact .remove removed
  | freesAll _ _ _ freed =>
      rcases freeFilterAll_slot freed j with same | zero
      · exact .of_eq same
      · exact .freed zero
  | takes allocated =>
      rcases allocateFilter_slot allocated with ⟨_, same⟩ | ⟨_, slot, ch, filter⟩
      · exact .of_eq (by rw [same])
      · rw [filter]
        split
        case isTrue here =>
            subst here
            exact .born (freeFilterSlot_some slot).2 (by simp) rfl
        case isFalse => exact .refl _
  | plain plain performed => exact .perform plain performed
  | waitsOn => exact .markWait state.dev _ j
  | freesLate _ _ _ removed => exact .remove removed
  | closes _ _ removed => exact .of_eq (congrFun (removeChannel_filter removed) j)

/-- The lists are in order; a slot that is waited for has no channel once it is free; and a
window's filter, as long as it has the session, is on the list of the window's channel. -/
structure Steady (state : Sys) : Prop where
  linked : ∃ lists, Linked state.dev lists
  waiting : ∀ wait ∈ state.waits, wait.slot < maxFilters ∧
    ((state.dev.filter wait.slot).status = .none → (state.dev.filter wait.slot).pCh = none)
  window : ∀ window, state.poll.window? = some window → window.ch < ChType.sections.max ∧
    window.slot < maxFilters ∧ ((state.dev.filter window.slot).sessionId = .mine →
      (state.dev.filter window.slot).status ≠ .none ∧
        (state.dev.filter window.slot).pCh = some (.sections, window.ch))

theorem Held.pCh_none {before after : Filter} (held : Held before after)
    (empty : before.status = .none → before.pCh = none) (unused : after.status = .none) :
    after.pCh = none := by
  cases held with
  | freed zero => rw [zero]; rfl
  | born _ used _ => exact absurd unused used
  | kept status pCh _ => rw [pCh, empty (status.mp unused)]

theorem Held.mine {before after : Filter} (held : Held before after) {ch : Nat}
    (own : before.sessionId = .mine → before.status ≠ .none ∧ before.pCh = some (.sections, ch))
    (mine : after.sessionId = .mine) :
    after.status ≠ .none ∧ after.pCh = some (.sections, ch) := by
  cases held with
  | freed zero =>
      rw [zero] at mine
      cases mine
  | born unused _ sessionId =>
      rw [sessionId] at mine
      exact absurd unused (own mine).1
  | kept status pCh sessionId =>
      rw [sessionId] at mine
      rcases own mine with ⟨used, channel⟩
      exact ⟨mt status.mp used, pCh.trans channel⟩

theorem Steady.linked_outside {state after : Sys} {label : Label} (steady : Steady state)
    (vacated : state.vacated label = true) (outside : Outside state label after) :
    ∃ lists, Linked after.dev lists := by
  rcases steady.linked with ⟨lists, linked⟩
  apply outside.linked linked vacated
  intro found member dev removed
  rcases steady.waiting found member with ⟨inside, empty⟩
  refine ⟨inside, ?_⟩
  -- a slot that is free has no channel, so its removal would follow a NULL pointer
  intro unused
  rw [Device.removeFilter, empty unused] at removed
  cases removed

theorem Steady.outside {state after : Sys} {label : Label} (steady : Steady state)
    (vacated : state.vacated label = true) (outside : Outside state label after) : Steady after := by
  constructor
  case linked => exact steady.linked_outside vacated outside
  case waiting =>
      intro wait member
      have before : wait.slot < maxFilters ∧ ((state.dev.filter wait.slot).status = .none →
          (state.dev.filter wait.slot).pCh = none) := by
        rcases outside.accounts.waits wait member with other | ⟨_, old | ⟨i, rfl, inside, used⟩⟩
        · apply steady.waiting
          cases label with
          | retry found => exact List.mem_of_mem_erase other
          | _ => exact other
        · exact steady.waiting wait old
        · exact ⟨inside, fun unused => absurd unused used⟩
      exact ⟨before.1, (outside.held wait.slot).pCh_none before.2⟩
  case window =>
      intro window inside
      rw [outside.frame.poll] at inside
      rcases steady.window window inside with ⟨pooled, bound, own⟩
      exact ⟨pooled, bound, (outside.held window.slot).mine own⟩

/-! The poll thread itself. -/

theorem SameShape.waiting {state : Sys} {dev : Device} (same : SameShape state.dev dev)
    (steady : Steady state) : ∀ wait ∈ state.waits, wait.slot < maxFilters ∧
      ((dev.filter wait.slot).status = .none → (dev.filter wait.slot).pCh = none) := by
  intro wait member
  rcases steady.waiting wait member with ⟨inside, empty⟩
  rw [same.fltStatus, same.pCh]
  exact ⟨inside, empty⟩

/-- A section channel of the pool that is enabled has a filter list in order. -/
theorem Linked.enabled {dev : Device} {lists : Lists} (linked : Linked dev lists) {ch : Nat}
    (pooled : ch < ChType.sections.max) (enabled : (dev.channel .sections ch).status = .enable) :
    ch ∈ lists.chs .sections := by
  rw [linked.chLive]
  exact ⟨pooled, by simp [enabled]⟩

theorem Steady.stop {state : Sys} {lists : Lists} {ch : Nat} {data : List Byte} {stop : Stop}
    {dev : Device} (steady : Steady state) (linked : Linked state.dev lists)
    (same : SameShape state.dev dev) (pooled : ch < ChType.sections.max)
    (called : ∀ kind i upcall, stop = .callback kind i upcall →
      ch ∈ lists.chs .sections ∧ i ∈ lists.flts .sections ch) :
    Steady (state.stop ch data (stop, dev)) := by
  cases stop with
  | quit => exact ⟨⟨lists, same.linked linked⟩, same.waiting steady, by simp [Sys.stop, Poll.window?]⟩
  | callback kind i upcall =>
      rcases called kind i upcall rfl with ⟨live, listed⟩
      rcases (linked.member .sections ch i live).mp listed with ⟨inside, used, channel⟩
      refine ⟨⟨lists, same.linked linked⟩, same.waiting steady, ?_⟩
      rintro window ⟨⟩
      refine ⟨pooled, inside, ?_⟩
      intro _
      show (dev.filter i).status ≠ .none ∧ (dev.filter i).pCh = some (.sections, ch)
      rw [ne_eq, same.fltStatus, same.pCh]
      exact ⟨used, channel⟩

/-- The filters a step may write to. -/
def Slot (node : Node) : Prop := ∃ i, i < maxFilters ∧ node = .filter i

theorem OnList.slots {dev : Device} {lists : Lists} {ch : Nat} {writes : List Node}
    {outcome : Option (Stop × Device)} (linked : Linked dev lists) (live : ch ∈ lists.chs .sections)
    (onList : OnList (lists.flts .sections ch) writes outcome) : ∀ node ∈ writes, Slot node := by
  intro node member
  rcases onList.writes node member with ⟨i, listed, rfl⟩
  exact ⟨i, ((linked.member .sections ch i live).mp listed).1, rfl⟩

/-- A channel that is not enabled is not dispatched. -/
theorem sectionDispatch_off {dev : Device} {ch : Nat}
    (off : (dev.channel .sections ch).status ≠ .enable) (readable : Bool) (data : List Byte) :
    dev.sectionDispatch ch readable data = some (.quit, dev) ∧
      dev.dispatchWrites ch readable data = [] := by
  rw [Device.sectionDispatch, Device.dispatchWrites, if_pos (.inl off), if_pos (.inl off)]
  exact ⟨rfl, rfl⟩

theorem resume_off {dev : Device} {ch : Nat} (off : (dev.channel .sections ch).status ≠ .enable)
    (data : List Byte) (i : Nat) (kind : Kind) (upcall : Upcall) (bufferOk : Bool) :
    dev.resume data ch i kind upcall bufferOk = some (.quit, dev) ∧
      dev.resumeWrites data ch i kind bufferOk = [] := by
  constructor
  · exact if_pos (.inl off)
  · exact if_pos (.inl off)

theorem Steady.dispatch {state after : Sys} {ch : Nat} {readable : Bool} {data : List Byte}
    (steady : Steady state) (pooled : ch < ChType.sections.max)
    (moved : state.step (.dispatch ch readable data) = some after) :
    Steady after ∧ ∀ node ∈ state.writes (.dispatch ch readable data), Slot node := by
  rcases steady.linked with ⟨lists, linked⟩
  have renewed : Steady { state with delivered := [] } :=
    ⟨steady.linked, steady.waiting, steady.window⟩
  rw [Sys.step] at moved
  split at moved
  case isTrue =>
    rcases Option.map_eq_some_iff.mp moved with ⟨⟨stop, dev⟩, started, rfl⟩
    have hands := Hands.sectionDispatch started
    by_cases enabled : (state.dev.channel .sections ch).status = .enable
    · have live := linked.enabled pooled enabled
      have onList := sectionDispatch_onList (linked.filters .sections ch live)
        (linked.flts_length live) readable data
      refine ⟨renewed.stop linked hands.same pooled ?_, onList.slots linked live⟩
      rintro kind i upcall rfl
      exact ⟨live, onList.callback kind i upcall dev started⟩
    · rcases sectionDispatch_off enabled readable data with ⟨quit, unwritten⟩
      rw [started] at quit
      cases quit
      refine ⟨renewed.stop linked hands.same pooled (by simp), ?_⟩
      rw [Sys.writes, unwritten]
      exact List.forall_mem_nil _
  case isFalse => cases moved

theorem Steady.callbackReturn {state after : Sys} {bufferOk : Bool} (steady : Steady state)
    (moved : state.step (.callbackReturn bufferOk) = some after) :
    Steady after ∧ ∀ node ∈ state.writes (.callbackReturn bufferOk), Slot node := by
  rcases steady.linked with ⟨lists, linked⟩
  rw [Sys.step] at moved
  cases running : state.poll with
  | running window =>
      simp only [running] at moved
      split at moved
      case isTrue =>
        cases moved
        have same : SameShape state.dev (state.dev.setFilter window.slot
            { state.dev.filter window.slot with flag := .dispatch }) :=
          setFilter_same ⟨.rfl, rfl, rfl⟩
        rcases steady.window window (by rw [running]; rfl) with ⟨pooled, inside, own⟩
        constructor
        · refine ⟨⟨lists, same.linked linked⟩, same.waiting steady, ?_⟩
          rintro _ ⟨⟩
          refine ⟨pooled, inside, ?_⟩
          intro mine
          rw [ne_eq, same.fltStatus, same.pCh]
          apply own
          simpa using mine
        · intro node written
          rw [Sys.writes, running] at written
          exact ⟨window.slot, inside, List.mem_singleton.mp written⟩
      case isFalse => cases moved
  | _ =>
      rw [running] at moved
      cases moved

theorem Steady.resume {state after : Sys} (steady : Steady state)
    (aimed : state.aimed .resume = true) (moved : state.step .resume = some after) :
    Steady after ∧ ∀ node ∈ state.writes .resume, Slot node := by
  rcases steady.linked with ⟨lists, linked⟩
  rw [Sys.step] at moved
  cases returned : state.poll with
  | returned window bufferOk =>
      simp only [returned] at moved
      rcases Option.map_eq_some_iff.mp moved with ⟨⟨stop, dev⟩, resumed, rfl⟩
      have hands := Hands.resume resumed
      rcases steady.window window (by rw [returned]; rfl) with ⟨pooled, inside, own⟩
      rw [Sys.writes, returned]
      by_cases enabled : (state.dev.channel .sections window.ch).status = .enable
      · have live := linked.enabled pooled enabled
        have listed : (state.dev.filter window.slot).sessionId = .mine →
            window.slot ∈ lists.flts .sections window.ch := by
          intro mine
          rw [linked.member .sections window.ch window.slot live]
          exact ⟨inside, own mine⟩
        have onList := resume_onList returned (linked.filters .sections window.ch live) listed aimed
        refine ⟨steady.stop linked hands.same pooled ?_, onList.slots linked live⟩
        rintro kind i upcall rfl
        exact ⟨live, onList.callback kind i upcall dev resumed⟩
      · rcases resume_off enabled window.data window.slot window.kind window.upcall bufferOk with
          ⟨quit, unwritten⟩
        rw [resumed] at quit
        cases quit
        refine ⟨steady.stop linked hands.same pooled (by simp), ?_⟩
        dsimp only
        rw [unwritten]
        exact List.forall_mem_nil _
  | _ =>
      rw [returned] at moved
      cases moved

theorem Steady.step {state after : Sys} {label : Label} (steady : Steady state)
    (pooled : label.pooled = true) (aimed : state.aimed label = true)
    (vacated : state.vacated label = true) (moved : state.step label = some after) :
    Steady after ∧ ∀ node ∈ state.writes label, Slot node := by
  cases label with
  | dispatch ch readable data => exact steady.dispatch (of_decide_eq_true pooled) moved
  | callbackReturn bufferOk => exact steady.callbackReturn moved
  | resume => exact steady.resume aimed moved
  | call poll call => exact ⟨steady.outside vacated (step_outside rfl moved), List.forall_mem_nil _⟩
  | retry found => exact ⟨steady.outside vacated (step_outside rfl moved), List.forall_mem_nil _⟩
  | finish poll channelid => exact ⟨steady.outside vacated (step_outside rfl moved), List.forall_mem_nil _⟩

/-- Another device of the same shape. -/
theorem Steady.same {state : Sys} {dev : Device} (steady : Steady state)
    (same : SameShape state.dev dev) (filter : dev.filter = state.dev.filter) :
    Steady { state with dev := dev } := by
  rcases steady.linked with ⟨lists, linked⟩
  constructor
  case linked => exact ⟨lists, same.linked linked⟩
  case waiting => exact same.waiting steady
  case window =>
      intro window inside
      dsimp only
      rw [filter]
      exact steady.window window inside

/-- `section_dispatch` aims at a filter, and the end of `alisldmx_free_channel` finds no filter on
the channel. -/
def Traced.aimed (state : Traced) : CursorLabel → Bool
  | .step label => state.sys.aimed label && state.sys.vacated label
  | _ => true

/-- The runs whose steps all meet this. -/
def aimedCursor : Machine Traced CursorLabel :=
  cursor.restrict (fun state label => state.aimed label = true)

structure Kept (state : Traced) : Prop where
  steady : Steady state.sys
  slots : ∀ node ∈ state.written, Slot node

theorem kept_of_reachable : ∀ state, aimedCursor.Reachable state → Kept state := by
  apply Machine.Reachable.always
  case initially =>
      rintro state ⟨⟨linked, idle, _, waits, _⟩, unwritten⟩
      constructor
      case steady =>
          refine ⟨linked, ?_, ?_⟩
          · rw [waits]
            exact List.forall_mem_nil _
          · simp [idle, Poll.window?]
      case slots =>
          rw [unwritten]
          exact List.forall_mem_nil _
  case kept =>
      intro state label after _ kept moved
      rcases Machine.restrict_next.mp moved with ⟨aimed, moved⟩
      replace moved : state.step label = some after := moved
      cases label with
      | step label =>
          rw [Traced.step] at moved
          split at moved
          case isTrue pooled =>
            rw [Traced.aimed, Bool.and_eq_true] at aimed
            rcases Option.map_eq_some_iff.mp moved with ⟨sys, recorded, rfl⟩
            rcases Option.map_eq_some_iff.mp recorded with ⟨middle, stepped, rfl⟩
            rcases kept.steady.step pooled aimed.1 aimed.2 stepped with ⟨steady, slots⟩
            refine ⟨⟨steady.linked, steady.waiting, steady.window⟩, ?_⟩
            intro node written
            rcases List.mem_append.mp written with old | new
            · exact kept.slots node old
            · exact slots node new
          case isFalse => cases moved
      | channelStart ch =>
          rw [Traced.step] at moved
          split at moved
          case isTrue disabled =>
            cases moved
            have used : (state.sys.dev.channel .sections ch).status ≠ .none := by
              simp [disabled]
            exact ⟨kept.steady.same (channelStart_same ch used) rfl, kept.slots⟩
          case isFalse => cases moved
      | channelStop ch =>
          rw [Traced.step] at moved
          split at moved
          case isTrue enabled =>
            cases moved
            have same : SameShape state.sys.dev (state.sys.dev.channelStop ch) :=
              setChannel_same (by simp [enabled]) rfl rfl
            exact ⟨kept.steady.same same rfl, kept.slots⟩
          case isFalse => cases moved

/-- Everything `section_dispatch` writes through its cursor is a slot of the pool, as long as it aims
at a filter each time it resumes. -/
theorem cursor_on_slots (state : Traced) (reachable : aimedCursor.Reachable state) :
    ∀ node ∈ state.written, Slot node :=
  (kept_of_reachable state reachable).slots

/-- Where it does not, the list head of the channel is written. -/
theorem unaimed_writes_head {state : Sys} (unaimed : state.aimed .resume = false) :
    ∃ ch, .filters .sections ch ∈ state.writes .resume := by
  cases returned : state.poll with
  | returned window bufferOk =>
      have settled := (state.dev.settle_same window.ch).links
      refine ⟨window.ch, ?_⟩
      simp only [Sys.aimed, returned] at unaimed
      simp only [Sys.writes, returned]
      unfold Device.resumeWrites
      simp only [show (state.dev.settle window.ch).filter = state.dev.filter from rfl, settled]
      split at unaimed
      · cases unaimed
      case isFalse live =>
        rw [if_neg live]
        split at unaimed
        case isTrue lost =>
          rw [decide_eq_false_iff_not, not_not] at unaimed
          rw [if_pos lost, unaimed]
          exact List.mem_cons_self ..
        case isFalse alive =>
          rw [if_neg alive]
          split at unaimed
          case isTrue stopped =>
            rw [decide_eq_false_iff_not, not_not] at unaimed
            rw [if_pos stopped, unaimed]
            exact List.mem_cons_self ..
          case isFalse => cases unaimed
  | _ =>
      rw [Sys.aimed, returned] at unaimed
      cases unaimed

theorem initial_cursor {dev : Device}
    (prepared : pool.run (.opened 0 0 0 0 false) twoFilters = some dev) :
    cursor.Initial ⟨.atRest (dev.channelStart 0), []⟩ :=
  ⟨initial_atRest twoFilters_ready prepared, rfl⟩

/-- The first filter is freed in its own callback, and the second still gets the section. -/
theorem cursor_on_slots_second :
    ∃ state, aimedCursor.Reachable state ∧
      state.written = [.filter 0, .filter 1, .filter 0, .filter 0, .filter 1, .filter 1] ∧
      ∀ node ∈ state.written, Slot node := by
  have ran : ((pool.run (.opened 0 0 0 0 false) twoFilters).bind (fun dev =>
      aimedCursor.run ⟨.atRest (dev.channelStart 0), []⟩ [.step (.dispatch 0 true [0]),
        .step (.call true (.freeFilter 0)), .step (.callbackReturn true), .step .resume])).map
          (fun state => state.written) =
        some [.filter 0, .filter 1, .filter 0, .filter 0, .filter 1, .filter 1] := by
    decide +kernel
  rcases Option.map_eq_some_iff.mp ran with ⟨state, ran, written⟩
  rcases Option.bind_eq_some_iff.mp ran with ⟨dev, prepared, ran⟩
  have start : aimedCursor.Initial ⟨.atRest (dev.channelStart 0), []⟩ := initial_cursor prepared
  have reachable := Machine.reachable_of_run (.initial start) ran
  exact ⟨state, reachable, written, cursor_on_slots state reachable⟩

/-- Both filters are freed in the callback of the first: the list is empty, and the list head of the
channel is written to as if it were a filter. -/
theorem cursor_on_head :
    ¬ ∀ state, cursor.Reachable state → ∀ node ∈ state.written, Slot node := by
  intro always
  have ran : ((pool.run (.opened 0 0 0 0 false) twoFilters).bind (fun dev =>
      cursor.run ⟨.atRest (dev.channelStart 0), []⟩ [.step (.dispatch 0 true [0]),
        .step (.call true (.freeFilterAll 0x10000)), .step (.callbackReturn true),
        .step .resume])).map (fun state => state.written) =
        some [.filter 0, .filter 1, .filter 0, .filter 0, .filters .sections 0] := by
    decide +kernel
  rcases Option.map_eq_some_iff.mp ran with ⟨state, ran, written⟩
  rcases Option.bind_eq_some_iff.mp ran with ⟨dev, prepared, ran⟩
  have reachable := Machine.reachable_of_run (.initial (initial_cursor prepared)) ran
  rcases always state reachable (.filters .sections 0) (by simp [written]) with ⟨_, _, slot⟩
  cases slot

end Alisl.Dmx
