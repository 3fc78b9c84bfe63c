import Alisl.Dmx.Calls

/-! `alisldmx_set_filter_attr`: the cursor of the search is written through after the
loop, whatever it stands on. -/

namespace Alisl.Dmx

open Alisl.Base

/-- A device with, for each channel, the byte that lies behind the head of its filter
list where a filter has `continuous`. -/
structure AttrState where
  dev : Device
  behind : ChType → Nat → Byte

def Device.continuousByte (continuous : Bool) : Byte :=
  if continuous then 1 else 0

/-- The loop over `ch->filter`; the result is the node of the cursor when it ends,
which is the head of the list if no entry has the id. -/
def Device.filterCursor (dev : Device) (type : ChType) (ch filterid : Nat) :
    Nat → Node → Node → Option Node
  | 0, _, _ => none
  | fuel + 1, pos, ahead =>
      if pos = .filters type ch then some pos
      else match pos with
        | .filter i =>
            if (dev.filter i).id = filterid then some pos
            else (dev.links.next ahead).bind (fun later =>
              dev.filterCursor type ch filterid fuel ahead later)
        | _ => none

namespace AttrState

def setDev (state : AttrState) (dev : Device) : AttrState :=
  { state with dev }

/-- The store to `filter->continuous`, where the cursor is an entry or the head. -/
def writeContinuous (state : AttrState) (cursor : Node) (continuous : Bool) : AttrState :=
  match cursor with
  | .filter i => state.setDev (state.dev.setFilter i { state.dev.filter i with continuous })
  | .filters type ch =>
      { state with
        behind := Function.update state.behind type
          (Function.update (state.behind type) ch (Device.continuousByte continuous)) }
  | _ => state

/-- Of the attribute only `continuous` is read. -/
def setFilterAttr (state : AttrState) (nullHandle : Bool) (channelid filterid : Nat)
    (attr : Option Bool) : Option (Ret × AttrState) :=
  if nullHandle then some (.nullDev, state)
  else match ChType.ofCode (chid2Type channelid) with
    | none => some (.chType, state)
    | some type =>
        (state.dev.findChannel type channelid).bind (fun
          | none => some (.noCh, state)
          | some ch =>
              (state.dev.links.next (.filters type ch)).bind (fun pos =>
                (state.dev.links.next pos).bind (fun ahead =>
                  (state.dev.filterCursor type ch filterid (maxFilters + 1) pos ahead).map
                    (fun cursor =>
                      match attr with
                      | none => (.ok, state)
                      | some continuous => (.ok, state.writeContinuous cursor continuous)))))

end AttrState

/-- The channel of an id has the filter in its list. -/
structure InList (dev : Device) (lists : Lists) (channelid filterid i : Nat) : Prop where
  channel : ∃ type ch, ChType.ofCode (chid2Type channelid) = some type ∧
    dev.findChannel type channelid = some (some ch) ∧ i ∈ lists.flts type ch
  id : (dev.filter i).id = filterid

/-- At most `continuous` of the filter with the id in the list of the channel is new. -/
def Confined (state : AttrState) (lists : Lists) (channelid filterid : Nat)
    (after : AttrState) : Prop :=
  after = state ∨ ∃ i continuous, InList state.dev lists channelid filterid i ∧
    after = state.setDev (state.dev.setFilter i { state.dev.filter i with continuous })

namespace Confined

variable {state after : AttrState} {lists : Lists} {channelid filterid : Nat}

/-- Without such a filter nothing is new. -/
theorem same (confined : Confined state lists channelid filterid after)
    (missing : ∀ i, ¬ InList state.dev lists channelid filterid i) : after = state := by
  rcases confined with same | ⟨i, continuous, inList, _⟩
  · exact same
  · exact absurd inList (missing i)

/-- Nothing outside the filters is new. -/
theorem behind (confined : Confined state lists channelid filterid after) :
    after.behind = state.behind := by
  rcases confined with same | ⟨i, continuous, _, same⟩
  · rw [same]
  · rw [same]
    rfl

theorem channel (confined : Confined state lists channelid filterid after) :
    after.dev.channel = state.dev.channel := by
  rcases confined with same | ⟨i, continuous, _, same⟩
  · rw [same]
  · rw [same]
    rfl

end Confined

namespace Linked

variable {dev : Device} {lists : Lists}

/-- The cursor ends on the first entry with the id, else on the head of the list. -/
theorem filterCursor (linked : Linked dev lists) {type : ChType} {ch : Nat}
    (live : ch ∈ lists.chs type) (filterid : Nat) (front slots : List Nat)
    (here : lists.flts type ch = front ++ slots) {fuel : Nat} (enough : slots.length < fuel)
    {ahead : Node}
    (next : dev.links.next ((slots.map Node.filter).headD (.filters type ch)) = some ahead) :
    dev.filterCursor type ch filterid fuel ((slots.map Node.filter).headD (.filters type ch))
        ahead =
      some ((slots.find? (fun i => (dev.filter i).id = filterid)).elim (.filters type ch)
        Node.filter) := by
  have ring := linked.filters type ch live
  induction slots generalizing front fuel ahead with
  | nil =>
      rcases fuel with _ | fuel
      · simp at enough
      · simp [Device.filterCursor]
  | cons i rest ih =>
      rcases fuel with _ | fuel
      · simp at enough
      · rw [List.map_cons, List.headD_cons, Device.filterCursor, if_neg (by simp)]
        by_cases found : (dev.filter i).id = filterid
        · simp [found]
        · have inner := ring
          rw [here, List.map_append, List.map_cons] at inner
          have aheadEq : ahead = (rest.map Node.filter).headD (.filters type ch) :=
            Option.some.inj (next.symm.trans inner.next_inner)
          have later : ∃ later, dev.links.next ((rest.map Node.filter).headD (.filters type ch)) =
              some later := by
            cases rest with
            | nil => exact ⟨_, inner.next_head⟩
            | cons k more =>
                rw [List.map_cons, List.append_cons] at inner
                exact ⟨_, inner.next_inner⟩
          rcases later with ⟨later, laterEq⟩
          have shorter : rest.length < fuel := by simpa using enough
          have rested := ih (front ++ [i]) (by simpa using here) shorter laterEq
          simp only [if_neg found, aheadEq, laterEq, Option.bind_some, rested]
          rw [List.find?_cons_of_neg (by simpa using found)]

/-- Where the call gets as far as the store. -/
theorem setFilterAttr {state : AttrState} (linked : Linked state.dev lists) {type : ChType}
    {channelid ch : Nat} (typed : ChType.ofCode (chid2Type channelid) = some type)
    (found : state.dev.findChannel type channelid = some (some ch)) (filterid : Nat)
    (attr : Option Bool) :
    state.setFilterAttr false channelid filterid attr =
      some (.ok, attr.elim state (state.writeContinuous
        (((lists.flts type ch).find? (fun i => (state.dev.filter i).id = filterid)).elim
          (.filters type ch) Node.filter))) := by
  have live := (linked.findChannel_some found).1
  have ring := linked.filters type ch live
  have first : state.dev.links.next (.filters type ch) =
      some (((lists.flts type ch).map Node.filter).headD (.filters type ch)) := ring.next_head
  have second : ∃ ahead, state.dev.links.next
      (((lists.flts type ch).map Node.filter).headD (.filters type ch)) = some ahead := by
    cases slots : lists.flts type ch with
    | nil =>
        rw [slots] at ring
        exact ⟨_, ring.next_head⟩
    | cons i rest =>
        rw [slots] at ring
        exact ⟨_, ring.next_first⟩
  rcases second with ⟨ahead, second⟩
  have enough := Nat.lt_succ_of_le (linked.flts_length live)
  have ended := linked.filterCursor live filterid [] (lists.flts type ch) rfl enough second
  rw [AttrState.setFilterAttr, if_neg Bool.false_ne_true, typed]
  simp only [found, Option.bind_some, first, second, ended, Option.map_some]
  cases attr with
  | none => rfl
  | some continuous => rfl

end Linked

namespace AttrState

variable {state : AttrState} {lists : Lists} {channelid filterid : Nat}

/-- The store where the search ends on the head of the list. -/
theorem writeContinuous_head (state : AttrState) (type : ChType) (ch : Nat) (continuous : Bool) :
    state.writeContinuous (.filters type ch) continuous = state ↔
      state.behind type ch = Device.continuousByte continuous := by
  constructor
  · intro same
    have stored : (state.writeContinuous (.filters type ch) continuous).behind type ch =
        Device.continuousByte continuous := by
      simp [writeContinuous]
    rw [same] at stored
    exact stored
  · intro stored
    rw [writeContinuous, ← stored, Function.update_eq_self, Function.update_eq_self]

theorem writeContinuous_linked (linked : Linked state.dev lists) (cursor : Node)
    (continuous : Bool) : Linked (state.writeContinuous cursor continuous).dev lists := by
  cases cursor with
  | filter i =>
      have keeps : Keeps (state.dev.filter i) { state.dev.filter i with continuous } :=
        ⟨.rfl, rfl, rfl⟩
      exact (setFilter_same keeps).linked linked
  | channels type => exact linked
  | channel type idx => exact linked
  | filters type idx => exact linked

/-- Where the call gets as far as the store, the channel has the filter or the byte
behind the head of its list already holds the value. -/
def Harmless (state : AttrState) (lists : Lists) (nullHandle : Bool) (channelid filterid : Nat)
    (attr : Option Bool) : Prop :=
  ∀ type ch continuous, nullHandle = false → ChType.ofCode (chid2Type channelid) = some type →
    state.dev.findChannel type channelid = some (some ch) → attr = some continuous →
      (∃ i ∈ lists.flts type ch, (state.dev.filter i).id = filterid) ∨
        state.behind type ch = Device.continuousByte continuous

/-- One store through the cursor, wherever the search has left it. -/
theorem writeContinuous_confined_iff {type : ChType} {ch : Nat}
    (typed : ChType.ofCode (chid2Type channelid) = some type)
    (found : state.dev.findChannel type channelid = some (some ch)) (continuous : Bool) :
    Confined state lists channelid filterid (state.writeContinuous
        (((lists.flts type ch).find? (fun i => (state.dev.filter i).id = filterid)).elim
          (.filters type ch) Node.filter) continuous) ↔
      (∃ i ∈ lists.flts type ch, (state.dev.filter i).id = filterid) ∨
        state.behind type ch = Device.continuousByte continuous := by
  cases searched : (lists.flts type ch).find? (fun i => (state.dev.filter i).id = filterid) with
  | some i =>
      have member := List.mem_of_find?_eq_some searched
      have id : (state.dev.filter i).id = filterid := by
        simpa using List.find?_some searched
      constructor
      · intro confined
        exact .inl ⟨i, member, id⟩
      · intro aimed
        exact .inr ⟨i, continuous, ⟨⟨type, ch, typed, found, member⟩, id⟩, rfl⟩
  | none =>
      have missing : ∀ i ∈ lists.flts type ch, (state.dev.filter i).id ≠ filterid := by
        simpa using List.find?_eq_none.mp searched
      rw [Option.elim_none, ← writeContinuous_head]
      constructor
      · intro confined
        apply Or.inr
        apply confined.same
        intro i inList
        rcases inList.channel with ⟨other, k, typed', found', member⟩
        obtain rfl := Option.some.inj (typed'.symm.trans typed)
        obtain rfl := Option.some.inj (Option.some.inj (found'.symm.trans found))
        exact missing i member inList.id
      · intro either
        rcases either with ⟨i, member, id⟩ | same
        · exact absurd id (missing i member)
        · exact .inl same

/-- The call returns, and at most `continuous` of the filter it names is new exactly
where the search finds the filter or the stray store changes nothing. -/
theorem setFilterAttr_confined_iff (linked : Linked state.dev lists) (nullHandle : Bool)
    (channelid filterid : Nat) (attr : Option Bool) :
    ∃ ret after, state.setFilterAttr nullHandle channelid filterid attr = some (ret, after) ∧
      Linked after.dev lists ∧ (Confined state lists channelid filterid after ↔
        state.Harmless lists nullHandle channelid filterid attr) := by
  have kept : Confined state lists channelid filterid state := .inl rfl
  cases nullHandle with
  | true =>
      have harmless : state.Harmless lists true channelid filterid attr :=
        fun _ _ _ opened => absurd opened.symm Bool.false_ne_true
      exact ⟨.nullDev, state, rfl, linked, iff_of_true kept harmless⟩
  | false =>
      cases typed : ChType.ofCode (chid2Type channelid) with
      | none =>
          have harmless : state.Harmless lists false channelid filterid attr := by
            intro type ch continuous _ typed'
            rw [typed] at typed'
            exact absurd typed' (by simp)
          refine ⟨.chType, state, ?_, linked, iff_of_true kept harmless⟩
          rw [setFilterAttr, if_neg Bool.false_ne_true, typed]
      | some type =>
          rcases linked.findChannel_of type channelid with ⟨_ | ch, found⟩
          · have harmless : state.Harmless lists false channelid filterid attr := by
              intro other ch continuous _ typed' found'
              obtain rfl := Option.some.inj (typed'.symm.trans typed)
              rw [found] at found'
              exact absurd found' (by simp)
            refine ⟨.noCh, state, ?_, linked, iff_of_true kept harmless⟩
            rw [setFilterAttr, if_neg Bool.false_ne_true, typed]
            simp only [found, Option.bind_some]
          · refine ⟨.ok, _, linked.setFilterAttr typed found filterid attr, ?_⟩
            cases attr with
            | none =>
                have harmless : state.Harmless lists false channelid filterid none :=
                  fun _ _ _ _ _ _ given => absurd given (by simp)
                exact ⟨linked, iff_of_true kept harmless⟩
            | some continuous =>
                constructor
                · exact writeContinuous_linked linked _ continuous
                · rw [Option.elim_some, writeContinuous_confined_iff typed found]
                  constructor
                  · intro either other k value _ typed' found' given
                    obtain rfl := Option.some.inj (typed'.symm.trans typed)
                    obtain rfl := Option.some.inj (Option.some.inj (found'.symm.trans found))
                    obtain rfl := Option.some.inj given
                    exact either
                  · intro harmless
                    exact harmless type ch continuous rfl typed found rfl

/-- A filter of the channel is set, for a channel with one filter. -/
theorem setFilterAttr_confined_one_filter :
    ∃ dev lists, pool.run (.opened 0 0 0 0 false) [⟨false, .allocateChannel 1⟩,
        ⟨false, .allocateFilter 0x10000⟩] = some dev ∧ Linked dev lists ∧
      ∃ ret after, (⟨dev, fun _ _ => 0⟩ : AttrState).setFilterAttr false 0x10000 0 (some true) =
          some (ret, after) ∧
        Linked after.dev lists ∧ (Confined ⟨dev, fun _ _ => 0⟩ lists 0x10000 0 after ↔
          (⟨dev, fun _ _ => 0⟩ : AttrState).Harmless lists false 0x10000 0 (some true)) := by
  have ran : ((pool.run (.opened 0 0 0 0 false) [⟨false, .allocateChannel 1⟩,
      ⟨false, .allocateFilter 0x10000⟩]).map (fun dev => (dev.filter 0).id)) = some 0 := by
    decide +kernel
  rcases Option.map_eq_some_iff.mp ran with ⟨dev, ran, _⟩
  have start : pool.Initial (.opened 0 0 0 0 false) := ⟨0, 0, 0, 0, false, rfl⟩
  have reachable := Machine.reachable_of_run (.initial start) ran
  rcases (orderly_of_reachable dev reachable).linked with ⟨lists, linked⟩
  exact ⟨dev, lists, ran, linked, setFilterAttr_confined_iff linked false 0x10000 0 (some true)⟩

/-- The channel has filter 0 alone; the call for filter 1 writes behind the head. -/
theorem missing_filter_writes_behind :
    ∃ dev ret after, pool.run (.opened 0 0 0 0 false) [⟨false, .allocateChannel 1⟩,
        ⟨false, .allocateFilter 0x10000⟩] = some dev ∧
      (⟨dev, fun _ _ => 0⟩ : AttrState).setFilterAttr false 0x10000 1 (some true) =
        some (ret, after) ∧
      after.behind .sections 0 = 1 ∧
      ∀ lists, ¬ Confined ⟨dev, fun _ _ => 0⟩ lists 0x10000 1 after := by
  have ran : (((pool.run (.opened 0 0 0 0 false) [⟨false, .allocateChannel 1⟩,
      ⟨false, .allocateFilter 0x10000⟩]).bind (fun dev =>
        ((⟨dev, fun _ _ => 0⟩ : AttrState).setFilterAttr false 0x10000 1 (some true)).map
          (fun answer => (dev, answer)))).map (fun pair => pair.2.2.behind .sections 0)) =
        some 1 := by
    decide +kernel
  rcases Option.map_eq_some_iff.mp ran with ⟨⟨dev, ret, after⟩, called, stored⟩
  rcases Option.bind_eq_some_iff.mp called with ⟨dev', opened, answered⟩
  rcases Option.map_eq_some_iff.mp answered with ⟨answer, returned, same⟩
  obtain ⟨rfl, rfl⟩ := Prod.mk.inj same
  refine ⟨dev', ret, after, opened, returned, stored, ?_⟩
  intro lists confined
  have kept : (1 : Byte) = 0 :=
    stored.symm.trans (congrFun (congrFun confined.behind .sections) 0)
  exact absurd kept (by decide)

end AttrState

end Alisl.Dmx
