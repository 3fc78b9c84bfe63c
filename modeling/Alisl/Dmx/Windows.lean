import Alisl.Dmx.Dispatch

/-! What the critical sections of the poll thread and of the calls do to the slots. -/

namespace Alisl.Dmx

open Alisl.Base

theorem setChannel_same {dev : Device} {type : ChType} {i : Nat} {channel : Channel}
    (status : channel.status = .none ↔ (dev.channel type i).status = .none)
    (id : channel.id = (dev.channel type i).id)
    (fltCnt : channel.fltCnt = (dev.channel type i).fltCnt) :
    SameShape dev (dev.setChannel type i channel) := by
  constructor
  case links => rfl
  case chStatus =>
      intro other k
      rw [Device.setChannel_channel]
      split
      case isTrue here => rw [here.1, here.2, status]
      case isFalse => rfl
  case chId =>
      intro other k
      rw [Device.setChannel_channel]
      split
      case isTrue here => rw [here.1, here.2, id]
      case isFalse => rfl
  case fltCnt =>
      intro other k
      rw [Device.setChannel_channel]
      split
      case isTrue here => rw [here.1, here.2, fltCnt]
      case isFalse => rfl
  case fltStatus => exact fun _ => .rfl
  case fltId => exact fun _ => rfl
  case pCh => exact fun _ => rfl

namespace Device

theorem settle_same (dev : Device) (ch : Nat) : SameShape dev (dev.settle ch) :=
  setChannel_same .rfl rfl rfl

theorem mark_same (dev : Device) (i : Nat) : SameShape dev (dev.mark i) :=
  setFilter_same ⟨.rfl, rfl, rfl⟩

theorem unmark_same (dev : Device) (node : Node) : SameShape dev (dev.unmark node) := by
  cases node with
  | filter i => exact setFilter_same ⟨.rfl, rfl, rfl⟩
  | _ => exact .refl dev

theorem touch_same (dev : Device) (node : Node) : SameShape dev (dev.touch node) := by
  cases node with
  | filter i => exact setFilter_same ⟨.rfl, rfl, rfl⟩
  | _ => exact .refl dev

theorem setFlag_same (dev : Device) (bit : Nat) (value : Bool) :
    SameShape dev (dev.setFlag bit value) :=
  ⟨rfl, fun _ _ => .rfl, fun _ _ => rfl, fun _ _ => rfl, fun _ => .rfl, fun _ => rfl, fun _ => rfl⟩

theorem finish_same (dev : Device) (ch i : Nat) : SameShape dev (dev.finish ch i) := by
  rw [finish]
  split
  case isTrue enabled =>
      apply (setFlag_same dev _ true).trans
      exact setFilter_same ⟨by simp [enabled.1], rfl, rfl⟩
  case isFalse => exact mark_same dev i

theorem enter_same (dev : Device) (ch i : Nat) : SameShape dev (dev.enter ch i) := by
  have entered : SameShape dev (dev.setFilter i
      { dev.filter i with flag := .cb, sessionId := .mine }) := setFilter_same ⟨.rfl, rfl, rfl⟩
  exact entered.trans (setChannel_same .rfl rfl rfl)

theorem foldl_unmark_same (nodes : List Node) (dev : Device) :
    SameShape dev (nodes.foldl unmark dev) := by
  induction nodes generalizing dev with
  | nil => exact .refl dev
  | cons node nodes ih => exact (unmark_same dev node).trans (ih (dev.unmark node))

end Device

/-- How the loop over the filters halts when what it does on its way keeps a property:
at the list head, or at an enabled filter that is not marked. -/
inductive Halts (Kept : Device → Prop) (ch : Nat) : Stop → Device → Prop where
  | quit {dev : Device} (kept : Kept dev) : Halts Kept ch .quit dev
  | callback {dev : Device} {i : Nat} (kind : Kind) (upcall : Upcall) (kept : Kept dev)
      (enabled : (dev.filter i).status = .enable) (unmarked : (dev.filter i).access = false) :
      Halts Kept ch (.callback kind i upcall) (dev.enter ch i)

theorem scan_halts {Kept : Device → Prop} {data : List Byte} {ch : Nat}
    (mark : ∀ dev i, Kept dev → Kept (dev.mark i))
    (finish : ∀ dev i, Kept dev → Kept (dev.finish ch i))
    {fuel : Nat} {dev after : Device} {pos : Node} {stop : Stop} (kept : Kept dev)
    (scanned : Device.scan data ch fuel dev pos = some (stop, after)) :
    Halts Kept ch stop after := by
  induction fuel generalizing dev pos with
  | zero => cases scanned
  | succ fuel ih =>
      -- the cursor moves on from a device that still has the property
      have onward : ∀ middle i, Kept middle → ((middle.links.next (.filter i)).bind
          (fun next => Device.scan data ch fuel middle next)) = some (stop, after) →
          Halts Kept ch stop after := by
        intro middle i kept' moved
        rcases Option.bind_eq_some_iff.mp moved with ⟨next, _, scanned'⟩
        exact ih kept' scanned'
      rw [Device.scan.eq_def] at scanned
      simp only at scanned
      split at scanned
      · cases scanned
        exact .quit kept
      · cases pos with
        | filter i =>
            simp only at scanned
            split at scanned
            · exact onward dev i kept scanned
            · case isFalse open_ =>
              simp only [not_or, not_not, Bool.not_eq_true] at open_
              split at scanned
              · exact onward _ i (mark dev i kept) scanned
              · split at scanned
                · exact onward _ i (mark dev i kept) scanned
                · split at scanned
                  · cases scanned
                    exact .callback _ _ kept open_.1 open_.2.1
                  · cases scanned
                    exact .callback _ _ kept open_.1 open_.2.1
                  · exact onward _ i (finish dev i kept) scanned
        | _ => cases scanned

/-- What `section_dispatch` does after a callback. -/
inductive Resumed (dev : Device) (data : List Byte) (ch i : Nat) (kind : Kind) (stop : Stop)
    (after : Device) : Prop where
  | quit (stopped : stop = .quit) (same : after = dev)
  | passed (reason : (dev.filter i).sessionId ≠ .mine ∨ (dev.filter i).status ≠ .enable)
      (pos : Node) (scanned : Device.scan data ch Device.scanFuel ((dev.settle ch).touch pos) pos =
        some (stop, after))
  | refused (request : kind = .request) (pos : Node)
      (scanned : Device.scan data ch Device.scanFuel (dev.settle ch) pos = some (stop, after))
  | delivers (request : kind = .request) (mine : (dev.filter i).sessionId = .mine)
      (enabled : (dev.filter i).status = .enable) (upcall : Upcall)
      (stopped : stop = .callback .update i upcall) (entered : after = (dev.settle ch).enter ch i)
  | finished (pos : Node)
      (scanned : Device.scan data ch Device.scanFuel ((dev.settle ch).finish ch i) pos =
        some (stop, after))

theorem resume_resumed {dev after : Device} {data : List Byte} {ch i : Nat} {kind : Kind}
    {upcall : Upcall} {bufferOk : Bool} {stop : Stop}
    (resumed : dev.resume data ch i kind upcall bufferOk = some (stop, after)) :
    Resumed dev data ch i kind stop after := by
  rw [Device.resume] at resumed
  simp only [show (dev.settle ch).filter = dev.filter from rfl] at resumed
  split at resumed
  · cases resumed
    exact .quit rfl rfl
  · split at resumed
    case isTrue lost =>
        rcases Option.bind_eq_some_iff.mp resumed with ⟨pos, _, scanned⟩
        have reason : (dev.filter i).sessionId ≠ .mine ∨ (dev.filter i).status ≠ .enable := by
          rcases lost with changed | dead
          · exact .inl changed
          · exact .inr (by simp [dead])
        exact .passed reason pos scanned
    case isFalse alive =>
        split at resumed
        case isTrue disabled =>
            rcases Option.bind_eq_some_iff.mp resumed with ⟨pos, _, scanned⟩
            exact .passed (.inr disabled) pos scanned
        case isFalse enabled =>
            rw [not_or, not_not] at alive
            rw [not_not] at enabled
            cases kind with
            | request =>
                simp only at resumed
                split at resumed
                · rcases Option.bind_eq_some_iff.mp resumed with ⟨pos, _, scanned⟩
                  exact .refused rfl pos scanned
                · split at resumed
                  · cases resumed
                    exact .delivers rfl alive.1 enabled _ rfl rfl
                  · rcases Option.bind_eq_some_iff.mp resumed with ⟨pos, _, scanned⟩
                    exact .finished pos scanned
            | update =>
                rcases Option.bind_eq_some_iff.mp resumed with ⟨pos, _, scanned⟩
                exact .finished pos scanned

/-- A critical section of the poll thread leaves the lists alone, and the filter it
calls back is enabled and flagged. -/
structure Hands (dev : Device) (stop : Stop) (after : Device) : Prop where
  same : SameShape dev after
  callback : ∀ kind i upcall, stop = .callback kind i upcall →
    (after.filter i).flag = .cb ∧ (after.filter i).status = .enable

namespace Hands

variable {dev middle after : Device} {data : List Byte} {ch : Nat} {stop : Stop}

theorem enter {i : Nat} (same : SameShape dev middle) (enabled : (middle.filter i).status = .enable)
    (kind : Kind) (upcall : Upcall) : Hands dev (.callback kind i upcall) (middle.enter ch i) := by
  constructor
  case same => exact same.trans (middle.enter_same ch i)
  case callback =>
      rintro kind' i' upcall' ⟨⟩
      simp [Device.enter, enabled]

theorem scan {fuel : Nat} {pos : Node} (same : SameShape dev middle)
    (scanned : Device.scan data ch fuel middle pos = some (stop, after)) :
    Hands dev stop after := by
  have halts : Halts (SameShape dev) ch stop after := by
    apply scan_halts _ _ same scanned
    · exact fun step i kept => kept.trans (step.mark_same i)
    · exact fun step i kept => kept.trans (step.finish_same ch i)
  cases halts with
  | quit kept => exact ⟨kept, fun _ _ _ stopped => by cases stopped⟩
  | callback kind upcall kept enabled _ => exact enter kept enabled kind upcall

theorem sectionDispatch {readable : Bool}
    (started : dev.sectionDispatch ch readable data = some (stop, after)) :
    Hands dev stop after := by
  rw [Device.sectionDispatch] at started
  split at started
  · cases started
    exact ⟨.refl dev, fun _ _ _ stopped => by cases stopped⟩
  · rcases Option.bind_eq_some_iff.mp started with ⟨cleared, unmarked, rest⟩
    rcases Option.map_eq_some_iff.mp unmarked with ⟨nodes, _, rfl⟩
    rcases Option.bind_eq_some_iff.mp rest with ⟨pos, _, scanned⟩
    exact scan (Device.foldl_unmark_same nodes dev) scanned

theorem resume {i : Nat} {kind : Kind} {upcall : Upcall} {bufferOk : Bool}
    (resumed : dev.resume data ch i kind upcall bufferOk = some (stop, after)) :
    Hands dev stop after := by
  have settled := dev.settle_same ch
  cases resume_resumed resumed with
  | quit stopped same =>
      subst stopped same
      exact ⟨.refl _, fun _ _ _ stopped => by cases stopped⟩
  | passed _ pos scanned => exact scan (settled.trans (Device.touch_same _ pos)) scanned
  | refused _ pos scanned => exact scan settled scanned
  | delivers _ _ enabled upcall stopped entered =>
      subst stopped entered
      exact enter settled enabled .update upcall
  | finished pos scanned => exact scan (settled.trans (Device.finish_same _ ch i)) scanned

end Hands

/-! The slots under a call. -/

theorem removeFilter_filter {dev after : Device} {i : Nat}
    (removed : dev.removeFilter i = some after) (j : Nat) :
    after.filter j = if j = i then .zero else dev.filter j := by
  rcases Option.bind_eq_some_iff.mp removed with ⟨ch, _, rest⟩
  rcases Option.map_eq_some_iff.mp rest with ⟨links, _, rfl⟩
  simp

theorem freeFilterLoop_slot {type : ChType} {ch fuel : Nat} {dev after : Device} {pos ahead : Node}
    (freed : Device.freeFilterLoop type ch fuel dev pos ahead = some after) (j : Nat) :
    after.filter j = dev.filter j ∨ after.filter j = .zero := by
  induction fuel generalizing dev pos ahead with
  | zero => cases freed
  | succ fuel ih =>
      rw [Device.freeFilterLoop.eq_def] at freed
      simp only at freed
      split at freed
      · cases freed
        exact .inl rfl
      · cases pos with
        | filter i =>
            simp only at freed
            rcases Option.bind_eq_some_iff.mp freed with ⟨links, _, rest⟩
            rcases Option.bind_eq_some_iff.mp rest with ⟨later, _, looped⟩
            rcases ih looped with same | zero
            · rw [same, Device.setFilter_filter]
              split
              · exact .inr rfl
              · exact .inl rfl
            · exact .inr zero
        | _ => cases freed

theorem freeFilterAll_slot {dev after : Device} {channelid : Nat} {ret : Ret}
    (freed : dev.freeFilterAll channelid = some (ret, after)) (j : Nat) :
    after.filter j = dev.filter j ∨ after.filter j = .zero := by
  rw [Device.freeFilterAll] at freed
  split at freed
  · cases freed
    exact .inl rfl
  · rcases Option.bind_eq_some_iff.mp freed with ⟨_ | ch, _, rest⟩
    · cases rest
      exact .inl rfl
    · rcases Option.bind_eq_some_iff.mp rest with ⟨pos, _, rest⟩
      rcases Option.bind_eq_some_iff.mp rest with ⟨ahead, _, rest⟩
      rcases Option.map_eq_some_iff.mp rest with ⟨middle, looped, same⟩
      cases same
      exact freeFilterLoop_slot looped j

theorem allocateFilter_slot {dev after : Device} {channelid filterid : Nat} {ret : Ret}
    (allocated : dev.allocateFilter channelid = some (ret, filterid, after)) :
    (ret ≠ .ok ∧ after = dev) ∨ (ret = .ok ∧ dev.freeFilterSlot = some filterid ∧
      ∃ ch, ∀ j, after.filter j = if j = filterid then
        { dev.filter j with id := j, status := .disable, pCh := some (.sections, ch) }
        else dev.filter j) := by
  rw [Device.allocateFilter] at allocated
  split at allocated
  · cases allocated
    exact .inl ⟨by simp, rfl⟩
  · rcases Option.bind_eq_some_iff.mp allocated with ⟨_ | ch, _, rest⟩
    · cases rest
      exact .inl ⟨by simp, rfl⟩
    · simp only at rest
      split at rest
      · cases rest
        exact .inl ⟨by simp, rfl⟩
      · case h_2 i slot =>
        rcases Option.map_eq_some_iff.mp rest with ⟨links, _, same⟩
        cases same
        refine .inr ⟨rfl, slot, ch, ?_⟩
        intro j
        by_cases here : j = filterid
        · simp [here]
        · simp [here]

theorem removeChannel_filter {dev after : Device} {type : ChType} {channelid : Nat} {ret : Ret}
    (removed : dev.removeChannel type channelid = some (ret, after)) : after.filter = dev.filter := by
  rcases Option.bind_eq_some_iff.mp removed with ⟨_ | i, _, rest⟩
  · cases rest
    rfl
  · rcases Option.map_eq_some_iff.mp rest with ⟨links, _, same⟩
    cases same
    rfl

theorem allocateChannel_filter {dev after : Device} {type channelid : Nat} {ret : Ret}
    (allocated : dev.allocateChannel type = some (ret, channelid, after)) :
    after.filter = dev.filter := by
  rw [Device.allocateChannel] at allocated
  split at allocated
  · cases allocated
    rfl
  · split at allocated
    · cases allocated
      rfl
    · rcases Option.map_eq_some_iff.mp allocated with ⟨links, _, same⟩
      cases same
      split <;> rfl

/-- A filter is the same as far as the poll thread looks at it. -/
structure Alike (before after : Filter) : Prop where
  status : after.status = .none ↔ before.status = .none
  access : after.access = before.access
  sessionId : after.sessionId = before.sessionId
  flag : after.flag = before.flag

theorem Alike.refl (filter : Filter) : Alike filter filter := ⟨.rfl, rfl, rfl, rfl⟩

/-- With the lists in order, the filters met on a list are those that are on it. -/
theorem Linked.listed {dev : Device} {lists : Lists} (linked : Linked dev lists) {ch : Nat}
    (live : ch ∈ lists.chs .sections) : Sys.listed dev ch = lists.flts .sections ch := by
  have enough : ((lists.flts .sections ch).map Node.filter).length + 1 ≤ Device.scanFuel := by
    rw [List.length_map]
    exact Nat.succ_le_succ (linked.flts_length live)
  rw [Sys.listed, (linked.filters .sections ch live).entries enough, Option.getD_some]
  induction lists.flts .sections ch with
  | nil => rfl
  | cons i rest ih =>
      rw [List.map_cons, List.filterMap_cons]
      simp only [ih]

/-- The three things `alisldmx_free_filter_all` can do. -/
theorem Linked.freeFilterAll_cases {dev after : Device} {lists : Lists} (linked : Linked dev lists)
    {channelid : Nat} {ret : Ret} (freed : dev.freeFilterAll channelid = some (ret, after)) :
    (after = dev ∧ Sys.listedUnder dev channelid = []) ∨
      ∃ ch cleared, ch ∈ lists.chs .sections ∧
        Sys.listedUnder dev channelid = lists.flts .sections ch ∧
        Emptied dev after lists cleared ch := by
  by_cases type : chid2Type channelid = ChType.sections.code
  · rcases linked.findChannel_of .sections channelid with ⟨_ | ch, found⟩
    · rw [Device.freeFilterAll, if_neg (not_not.mpr type), found, Option.bind_some] at freed
      cases freed
      exact .inl ⟨rfl, by rw [Sys.listedUnder, if_neg (not_not.mpr type), found]⟩
    · have live := (linked.findChannel_some found).1
      rcases freeFilterAll_emptied linked type found with ⟨after', cleared, freed', emptied⟩
      cases freed.symm.trans freed'
      refine .inr ⟨ch, cleared, live, ?_, emptied⟩
      rw [Sys.listedUnder, if_neg (not_not.mpr type), found]
      exact linked.listed live
  · rw [Device.freeFilterAll, if_pos type] at freed
    cases freed
    exact .inl ⟨rfl, by rw [Sys.listedUnder, if_pos type]⟩

theorem Linked.freed_listed {dev after : Device} {lists : Lists} (linked : Linked dev lists)
    {channelid : Nat} {ret : Ret} (freed : dev.freeFilterAll channelid = some (ret, after)) (j : Nat)
    (changed : after.filter j ≠ dev.filter j) : j ∈ Sys.listedUnder dev channelid := by
  rcases linked.freeFilterAll_cases freed with ⟨same, _⟩ | ⟨ch, cleared, _, listed, emptied⟩
  · exact absurd (by rw [same]) changed
  · rw [listed]
    by_contra outside
    exact changed (by rw [emptied.filter, if_neg outside])

/-- The calls of one critical section that neither take nor free a filter slot. -/
def Call.plain : Call → Bool
  | .freeChannel _ => false
  | .allocateFilter _ => false
  | .freeFilter _ => false
  | .freeFilterAll _ => false
  | _ => true

/-- A step that only the poll thread takes in `section_dispatch`. -/
def Label.polls : Label → Bool
  | .dispatch _ _ _ => true
  | .callbackReturn _ => true
  | .resume => true
  | _ => false

/-- What a call does to a slot. -/
inductive SlotMove (state after : Sys) (label : Label) (j : Nat) : Prop where
  | freed (doomed : (∃ lists, Linked state.dev lists) → j ∈ state.freedBy label)
      (zero : after.dev.filter j = .zero) (gen : after.gen j = state.gen j)
  | born (unused : (state.dev.filter j).status = .none)
      (used : (after.dev.filter j).status = .disable)
      (sessionId : (after.dev.filter j).sessionId = (state.dev.filter j).sessionId)
      (gen : after.gen j = state.gen j + 1)
  | kept (alike : Alike (state.dev.filter j) (after.dev.filter j))
      (enabled : (after.dev.filter j).status = .enable → (state.dev.filter j).status = .enable ∨
        ∃ poll filterid, label = .call poll (.controlFilter filterid .enable) ∧
          state.dev.findFilter filterid = some j)
      (gen : after.gen j = state.gen j)

namespace SlotMove

variable {state after : Sys} {label : Label}

theorem same {j : Nat} (filter : after.dev.filter j = state.dev.filter j)
    (gen : after.gen j = state.gen j) : SlotMove state after label j := by
  apply SlotMove.kept _ _ gen
  · rw [filter]
    exact .refl _
  · rw [filter]
    exact .inl

theorem gen_le {j : Nat} (move : SlotMove state after label j) : state.gen j ≤ after.gen j := by
  cases move with
  | freed _ _ gen => exact gen.ge
  | born _ _ _ gen =>
      rw [gen]
      exact Nat.le_succ _
  | kept _ _ gen => exact gen.ge

theorem remove {i j : Nat} (removed : state.dev.removeFilter i = some after.dev)
    (gen : after.gen = state.gen) (doomed : i ∈ state.freedBy label) :
    SlotMove state after label j := by
  have filter := removeFilter_filter removed j
  by_cases here : j = i
  · subst here
    exact .freed (fun _ => doomed) (by simpa using filter) (congrFun gen j)
  · exact .same (by simpa [here] using filter) (congrFun gen j)

/-- A wait only sets `wait_close`. -/
theorem markWait {i j : Nat} (dev : after.dev = Sys.markWait state.dev i)
    (gen : after.gen = state.gen) : SlotMove state after label j := by
  apply SlotMove.kept _ _ (congrFun gen j)
  · rw [dev, Sys.markWait, Device.setFilter_filter]
    split
    case isTrue here =>
        subst here
        exact ⟨.rfl, rfl, rfl, rfl⟩
    case isFalse => exact .refl _
  · rw [dev, Sys.markWait, Device.setFilter_filter]
    split
    case isTrue here =>
        subst here
        exact .inl
    case isFalse => exact .inl

theorem configureFilter {filterid j : Nat} {change : Filter → Filter}
    (alike : ∀ filter, filter.status ≠ .none → Alike filter (change filter))
    (enabled : ∀ j, state.dev.findFilter filterid = some j →
      (change (state.dev.filter j)).status = .enable → (state.dev.filter j).status = .enable ∨
        ∃ poll filterid, label = .call poll (.controlFilter filterid .enable) ∧
          state.dev.findFilter filterid = some j)
    (dev : after.dev = (state.dev.configureFilter filterid change).2)
    (gen : after.gen = state.gen) : SlotMove state after label j := by
  rw [Device.configureFilter] at dev
  cases found : state.dev.findFilter filterid with
  | none =>
      rw [found] at dev
      exact .same (by rw [dev]) (congrFun gen j)
  | some i =>
      rw [found] at dev
      by_cases here : j = i
      · subst here
        have used := (findFilter_some found).2.2
        apply SlotMove.kept _ _ (congrFun gen j)
        · simpa [dev] using alike _ used
        · simpa [dev] using enabled j found
      · exact .same (by simp [dev, here]) (congrFun gen j)

theorem freeFilterAll {channelid j : Nat} {ret : Ret}
    (freed : state.dev.freeFilterAll channelid = some (ret, after.dev))
    (gen : after.gen = state.gen)
    (listed : state.freedBy label = Sys.listedUnder state.dev channelid) :
    SlotMove state after label j := by
  by_cases filter : after.dev.filter j = state.dev.filter j
  · exact .same filter (congrFun gen j)
  · have zero := (freeFilterAll_slot freed j).resolve_left filter
    refine .freed ?_ zero (congrFun gen j)
    rintro ⟨lists, linked⟩
    rw [listed]
    exact linked.freed_listed freed j filter

theorem perform {poll : Bool} {call : Call} {ret : Ret} {j : Nat}
    (performed : state.dev.perform call = some (ret, after.dev)) (gen : after.gen = state.gen)
    (labelled : label = .call poll call) (plain : call.plain = true) :
    SlotMove state after label j := by
  cases call with
  | allocateChannel type =>
      rcases Option.map_eq_some_iff.mp performed with ⟨⟨ret', id, dev'⟩, allocated, result⟩
      cases result
      exact .same (congrFun (allocateChannel_filter allocated) j) (congrFun gen j)
  | controlFilter filterid ctrl =>
      have dev := congrArg (fun outcome => outcome.map Prod.snd) performed
      apply configureFilter _ _ (Option.some.inj dev).symm gen
      · intro filter used
        cases ctrl with
        | reset => exact .refl _
        | enable => exact ⟨by simp [used], rfl, rfl, rfl⟩
        | disable => exact ⟨by simp [used], rfl, rfl, rfl⟩
      · intro j found on
        cases ctrl with
        | reset => exact .inl on
        | enable => exact .inr ⟨poll, filterid, labelled, found⟩
        | disable => cases on
  | setFilter filterid size value mask mode continuous =>
      have dev := congrArg (fun outcome => outcome.map Prod.snd) performed
      simp only [Device.perform, Device.setFilterBytes] at dev
      split at dev
      · have same : after.dev = state.dev := (Option.some.inj dev).symm
        exact .same (by rw [same]) (congrFun gen j)
      · apply configureFilter _ _ (Option.some.inj dev).symm gen
        · exact fun filter _ => ⟨.rfl, rfl, rfl, rfl⟩
        · exact fun _ _ on => .inl on
  | setFilterCrcCheck filterid crcCheck =>
      have dev := congrArg (fun outcome => outcome.map Prod.snd) performed
      apply configureFilter _ _ (Option.some.inj dev).symm gen
      · exact fun filter _ => ⟨.rfl, rfl, rfl, rfl⟩
      · exact fun _ _ on => .inl on
  | registerFilterCallback filterid callback =>
      have dev := congrArg (fun outcome => outcome.map Prod.snd) performed
      apply configureFilter _ _ (Option.some.inj dev).symm gen
      · exact fun filter _ => ⟨.rfl, rfl, rfl, rfl⟩
      · exact fun _ _ on => .inl on
  | freeFilterAll channelid => cases plain
  | freeFilter filterid => cases plain
  | freeChannel channelid => cases plain
  | allocateFilter channelid => cases plain

theorem allocateFilter {channelid i j : Nat} {ret : Ret}
    (allocated : state.dev.allocateFilter channelid = some (ret, i, after.dev))
    (gen : after.gen =
      if ret = .ok then Function.update state.gen i (state.gen i + 1) else state.gen) :
    SlotMove state after label j := by
  rcases allocateFilter_slot allocated with ⟨failed, same⟩ | ⟨ok, slot, ch, filter⟩
  · exact .same (by rw [same]) (by rw [gen, if_neg failed])
  · by_cases here : j = i
    · subst here
      apply SlotMove.born (freeFilterSlot_some slot).2
      · simp [filter]
      · simp [filter]
      · simp [gen, ok]
    · exact .same (by simp [filter, here]) (by simp [gen, ok, here])

end SlotMove

/-- What a call leaves to the poll thread and to the record of removals. -/
structure Frame (state after : Sys) : Prop where
  poll : after.poll = state.poll
  delivered : after.delivered = state.delivered
  removed : after.removed = state.removed

theorem plain_call {call : Call} (plain : call.plain = true) (state : Sys) (poll : Bool) :
    state.call poll call =
      (state.dev.perform call).map (fun result => { state with dev := result.2 }) := by
  cases call <;> first | rfl | cases plain

theorem plain_freedBy {call : Call} (plain : call.plain = true) (state : Sys) (poll : Bool) :
    state.freedBy (.call poll call) = [] := by
  cases call <;> first | rfl | cases plain

/-- What a step outside `section_dispatch` can do. -/
inductive Outside (state : Sys) : Label → Sys → Prop where
  | nothing {poll : Bool} {call : Call} (none_ : state.freedBy (.call poll call) = []) :
      Outside state (.call poll call) state
  | waits {poll : Bool} {filterid i : Nat} (found : state.dev.findFilter filterid = some i)
      (none_ : state.freedBy (.call poll (.freeFilter filterid)) = []) :
      Outside state (.call poll (.freeFilter filterid))
        { state with dev := Sys.markWait state.dev i, waits := state.inc i :: state.waits }
  | frees {poll : Bool} {filterid i : Nat} {dev : Device}
      (found : state.dev.findFilter filterid = some i)
      (one : state.freedBy (.call poll (.freeFilter filterid)) = [i])
      (unflagged : poll = false → (state.dev.filter i).flag ≠ .cb)
      (removed : state.dev.removeFilter i = some dev) :
      Outside state (.call poll (.freeFilter filterid))
        { state with dev, frees := state.frees ++ [⟨poll, state.inc i, state.inc i⟩] }
  | freesAll {poll : Bool} {call : Call} {channelid : Nat} {ret : Ret} {dev : Device}
      (pollClosing : Option Nat) (closing : List Nat)
      (listed : state.freedBy (.call poll call) = Sys.listedUnder state.dev channelid)
      (freed : state.dev.freeFilterAll channelid = some (ret, dev)) :
      Outside state (.call poll call) { state with dev, pollClosing, closing }
  | takes {poll : Bool} {channelid i : Nat} {ret : Ret} {dev : Device}
      (allocated : state.dev.allocateFilter channelid = some (ret, i, dev)) :
      Outside state (.call poll (.allocateFilter channelid))
        { state with
          dev
          gen := if ret = .ok then Function.update state.gen i (state.gen i + 1) else state.gen }
  | plain {poll : Bool} {call : Call} {ret : Ret} {dev : Device} (plain : call.plain = true)
      (performed : state.dev.perform call = some (ret, dev)) :
      Outside state (.call poll call) { state with dev }
  | waitsOn {found : Inc} (none_ : state.freedBy (.retry found) = []) :
      Outside state (.retry found) { state with dev := Sys.markWait state.dev found.slot }
  | freesLate {found : Inc} {dev : Device} (member : found ∈ state.waits)
      (one : state.freedBy (.retry found) = [found.slot])
      (unflagged : (state.dev.filter found.slot).flag ≠ .cb)
      (removed : state.dev.removeFilter found.slot = some dev) :
      Outside state (.retry found)
        { state with
          dev
          waits := state.waits.erase found
          frees := state.frees ++ [⟨false, found, state.inc found.slot⟩] }
  | closes {poll : Bool} {channelid : Nat} {type : ChType} {ret : Ret} {dev : Device}
      (pollClosing : Option Nat) (closing : List Nat)
      (removed : state.dev.removeChannel type channelid = some (ret, dev)) :
      Outside state (.finish poll channelid) { state with dev, pollClosing, closing }

theorem call_outside {state after : Sys} {poll : Bool} {call : Call}
    (moved : state.call poll call = some after) : Outside state (.call poll call) after := by
  have plainly : call.plain = true → Outside state (.call poll call) after := by
    intro plain
    rw [plain_call plain] at moved
    rcases Option.map_eq_some_iff.mp moved with ⟨⟨ret, dev⟩, performed, rfl⟩
    exact .plain plain performed
  cases call with
  | freeFilter filterid =>
      rw [Sys.call] at moved
      cases found : state.dev.findFilter filterid with
      | none =>
          rw [found] at moved
          cases moved
          exact .nothing (by rw [Sys.freedBy, found])
      | some i =>
          simp only [found] at moved
          split at moved
          case isTrue held =>
              cases moved
              exact .waits found (by simp only [Sys.freedBy, found, if_pos held])
          case isFalse open_ =>
              rcases Option.map_eq_some_iff.mp moved with ⟨dev, removed, rfl⟩
              apply Outside.frees found _ _ removed
              · simp only [Sys.freedBy, found, if_neg open_]
              · exact fun other flag => open_ ⟨other, flag⟩
  | freeChannel channelid =>
      rw [Sys.call] at moved
      cases typed : ChType.ofCode (chid2Type channelid) with
      | none =>
          rw [typed] at moved
          cases moved
          have other : chid2Type channelid ≠ ChType.sections.code := by
            intro same
            rw [same] at typed
            cases typed
          exact .nothing (by rw [Sys.freedBy, Sys.listedUnder, if_pos other])
      | some type =>
          simp only [typed] at moved
          rcases Option.map_eq_some_iff.mp moved with ⟨⟨ret, dev⟩, freed, rfl⟩
          split
          · exact .freesAll (some channelid) state.closing rfl freed
          · exact .freesAll state.pollClosing (channelid :: state.closing) rfl freed
  | allocateFilter channelid =>
      rcases Option.map_eq_some_iff.mp moved with ⟨⟨ret, i, dev⟩, allocated, rfl⟩
      exact .takes allocated
  | freeFilterAll channelid =>
      rcases Option.map_eq_some_iff.mp moved with ⟨⟨ret, dev⟩, freed, rfl⟩
      exact .freesAll state.pollClosing state.closing rfl freed
  | allocateChannel type => exact plainly rfl
  | controlFilter filterid ctrl => exact plainly rfl
  | setFilter filterid size value mask mode continuous => exact plainly rfl
  | setFilterCrcCheck filterid crcCheck => exact plainly rfl
  | registerFilterCallback filterid callback => exact plainly rfl

theorem retry_outside {state after : Sys} {found : Inc} (moved : state.retry found = some after) :
    Outside state (.retry found) after := by
  rw [Sys.retry] at moved
  split at moved
  case isTrue => cases moved
  case isFalse member =>
      split at moved
      case isTrue held =>
          cases moved
          exact .waitsOn (by simp only [Sys.freedBy, if_pos held])
      case isFalse open_ =>
          rcases Option.map_eq_some_iff.mp moved with ⟨dev, removed, rfl⟩
          exact .freesLate (not_not.mp member) (by simp only [Sys.freedBy, if_neg open_]) open_
            removed

theorem step_outside {state after : Sys} {label : Label} (outside : label.polls = false)
    (moved : state.step label = some after) : Outside state label after := by
  cases label with
  | dispatch ch readable data => cases outside
  | callbackReturn bufferOk => cases outside
  | resume => cases outside
  | call poll call =>
      rw [Sys.step] at moved
      split at moved
      · cases moved
      · exact call_outside moved
  | retry found => exact retry_outside moved
  | finish poll channelid =>
      rw [Sys.step] at moved
      split at moved
      · split at moved
        · rcases Option.bind_eq_some_iff.mp moved with ⟨type, _, rest⟩
          rcases Option.map_eq_some_iff.mp rest with ⟨⟨ret, dev⟩, removed, rfl⟩
          exact .closes none state.closing removed
        · cases moved
      · split at moved
        · rcases Option.bind_eq_some_iff.mp moved with ⟨type, _, rest⟩
          rcases Option.map_eq_some_iff.mp rest with ⟨⟨ret, dev⟩, removed, rfl⟩
          exact .closes state.pollClosing (state.closing.erase channelid) removed
        · cases moved

namespace Outside

variable {state after : Sys} {label : Label}

theorem frame (outside : Outside state label after) : Frame state after := by
  cases outside <;> exact ⟨rfl, rfl, rfl⟩

theorem slots (outside : Outside state label after) (j : Nat) : SlotMove state after label j := by
  cases outside with
  | nothing => exact .same rfl rfl
  | waits => exact .markWait rfl rfl
  | frees found one _ removed => exact .remove removed rfl (by simp [one])
  | freesAll pollClosing closing listed freed => exact .freeFilterAll freed rfl listed
  | takes allocated => exact .allocateFilter allocated rfl
  | plain plain performed => exact .perform performed rfl rfl plain
  | waitsOn => exact .markWait rfl rfl
  | freesLate _ one _ removed => exact .remove removed rfl (by simp [one])
  | closes _ _ removed => exact .same (congrFun (removeChannel_filter removed) j) rfl

end Outside

theorem channelStart_same {dev : Device} (ch : Nat) (used : (dev.channel .sections ch).status ≠ .none) :
    SameShape dev (dev.channelStart ch) :=
  setChannel_same (by simp [used]) rfl rfl

/-- A run can begin on a device that calls have prepared, with a channel started. -/
theorem initial_atRest {dev : Device} {calls : List Invocation} {ch : Nat}
    (ready : (pool.run (.opened 0 0 0 0 false) calls).map
      (fun dev => (dev.channel .sections ch).status) = some .disable)
    (prepared : pool.run (.opened 0 0 0 0 false) calls = some dev) :
    demux.Initial (.atRest (dev.channelStart ch)) := by
  rw [prepared, Option.map_some, Option.some.injEq] at ready
  have used : (dev.channel .sections ch).status ≠ .none := by simp [ready]
  have start : pool.Initial (.opened 0 0 0 0 false) := ⟨0, 0, 0, 0, false, rfl⟩
  have orderly := orderly_of_reachable dev (Machine.reachable_of_run (.initial start) prepared)
  rcases orderly.linked with ⟨lists, linked⟩
  exact ⟨⟨lists, (channelStart_same ch used).linked linked⟩, rfl, rfl, rfl, rfl, rfl, rfl, rfl⟩

/-- Two filters of one channel, both with an update callback only. -/
def twoFilters : List Invocation :=
  [⟨false, .allocateChannel 1⟩, ⟨false, .allocateFilter 0x10000⟩, ⟨false, .allocateFilter 0x10000⟩,
    ⟨false, .registerFilterCallback 0 ⟨none, some 1, 0⟩⟩,
    ⟨false, .registerFilterCallback 1 ⟨none, some 1, 0⟩⟩,
    ⟨false, .controlFilter 0 .enable⟩, ⟨false, .controlFilter 1 .enable⟩]

theorem twoFilters_ready : (pool.run (.opened 0 0 0 0 false) twoFilters).map
    (fun dev => (dev.channel .sections 0).status) = some .disable := by
  decide +kernel

/-- What a run on such a device ends with is seen in a reachable state. -/
theorem reached_by_run {View : Type} {machine : Machine Sys Label} {labels : List Label}
    {view : Sys → View} {seen : View}
    (ran : ((pool.run (.opened 0 0 0 0 false) twoFilters).bind (fun dev =>
      machine.run (.atRest (dev.channelStart 0)) labels)).map view = some seen)
    (initial : ∀ state, demux.Initial state → machine.Initial state) :
    ∃ state, machine.Reachable state ∧ view state = seen := by
  rcases Option.map_eq_some_iff.mp ran with ⟨state, ran, result⟩
  rcases Option.bind_eq_some_iff.mp ran with ⟨dev, prepared, ran⟩
  have start := initial _ (initial_atRest twoFilters_ready prepared)
  exact ⟨state, Machine.reachable_of_run (.initial start) ran, result⟩

end Alisl.Dmx
