import Alisl.Dmx.Pool

/-! The calls on a demux device, one after another. -/

namespace Alisl.Dmx

open Alisl.Base

def Lists.setChs (lists : Lists) (type : ChType) (i : Nat) (slots : List Nat) : Lists where
  chs other := if other = type then slots else lists.chs other
  flts other k := if other = type ∧ k = i then [] else lists.flts other k

/-- One slot without filters enters or leaves the channel list of its type. -/
structure Rechannels (dev after : Device) (lists : Lists) (type : ChType) (i : Nat)
    (slots : List Nat) : Prop where
  inside : i < type.max
  vacant : ∀ j, j < maxFilters → (dev.filter j).status ≠ .none →
    (dev.filter j).pCh ≠ some (type, i)
  agree : dev.links.AgreeOff after.links
    (.filters type i :: .channel type i :: .channels type :: (lists.chs type).map (.channel type))
  ring : after.links.Ring (.channels type) (slots.map (.channel type))
  filter : after.filter = dev.filter
  channel : ∀ other k, ¬ (other = type ∧ k = i) → after.channel other k = dev.channel other k
  others : ∀ k, k ≠ i → (k ∈ slots ↔ k ∈ lists.chs type)
  slot : i ∈ slots ↔ (after.channel type i).status ≠ .none
  used : i ∈ slots → (after.channel type i).id = typeIndex2Chid type i ∧
    (after.channel type i).fltCnt = 0 ∧ after.links.Ring (.filters type i) []

namespace Rechannels

variable {dev after : Device} {lists : Lists} {type : ChType} {i : Nat} {slots : List Nat}

/-- Another channel stays where it is. -/
theorem before (rechannels : Rechannels dev after lists type i slots) {other : ChType} {k : Nat}
    (away : ¬ (other = type ∧ k = i)) (live : k ∈ (lists.setChs type i slots).chs other) :
    k ∈ lists.chs other := by
  rw [Lists.setChs] at live
  by_cases here : other = type
  · subst here
    simp only [if_true] at live
    exact (rechannels.others k (fun same => away ⟨rfl, same⟩)).mp live
  · simpa only [if_neg here] using live

theorem linked (rechannels : Rechannels dev after lists type i slots) (linked : Linked dev lists) :
    Linked after (lists.setChs type i slots) := by
  constructor
  case channels =>
      intro other
      rw [Lists.setChs]
      by_cases here : other = type
      · subst here
        simpa using rechannels.ring
      · simp only [if_neg here]
        apply (linked.channels other).agreeOff rechannels.agree
        intro node member
        rcases List.mem_cons.mp member with rfl | inner
        · simp [here]
        · rcases List.mem_map.mp inner with ⟨k, _, rfl⟩
          simp [here, Ne.symm here]
  case chLive =>
      intro other k
      rw [Lists.setChs]
      by_cases here : other = type
      · subst here
        simp only [if_true]
        by_cases slot : k = i
        · subst slot
          rw [rechannels.slot, and_iff_right rechannels.inside]
        · rw [rechannels.others k slot, rechannels.channel other k (fun same => slot same.2)]
          exact linked.chLive other k
      · simp only [if_neg here]
        rw [rechannels.channel other k (fun same => here same.1)]
        exact linked.chLive other k
  case chId =>
      intro other k live
      by_cases here : other = type ∧ k = i
      · rcases here with ⟨rfl, rfl⟩
        exact (rechannels.used (by simpa [Lists.setChs] using live)).1
      · rw [rechannels.channel other k here]
        exact linked.chId other k (rechannels.before here live)
  case filters =>
      intro other k live
      by_cases here : other = type ∧ k = i
      · rcases here with ⟨rfl, rfl⟩
        simpa [Lists.setChs] using (rechannels.used (by simpa [Lists.setChs] using live)).2.2
      · have ring := linked.filters other k (rechannels.before here live)
        simp only [Lists.setChs, if_neg here]
        apply ring.agreeOff rechannels.agree
        intro node member
        rcases List.mem_cons.mp member with rfl | inner
        · simp [here]
        · rcases List.mem_map.mp inner with ⟨j, _, rfl⟩
          simp
  case count =>
      intro other k live
      by_cases here : other = type ∧ k = i
      · rcases here with ⟨rfl, rfl⟩
        simpa [Lists.setChs] using (rechannels.used (by simpa [Lists.setChs] using live)).2.1
      · rw [rechannels.channel other k here]
        simp only [Lists.setChs, if_neg here]
        exact linked.count other k (rechannels.before here live)
  case member =>
      intro other k j live
      rw [rechannels.filter]
      by_cases here : other = type ∧ k = i
      · rcases here with ⟨rfl, rfl⟩
        simp only [Lists.setChs, and_self, if_true, List.not_mem_nil, false_iff]
        rintro ⟨inside, used, pCh⟩
        exact rechannels.vacant j inside used pCh
      · simp only [Lists.setChs, if_neg here]
        exact linked.member other k j (rechannels.before here live)
  case owner =>
      intro j inside used
      rw [rechannels.filter] at used ⊢
      rcases linked.owner j inside used with ⟨id, k, live, pCh⟩
      refine ⟨id, k, ?_, pCh⟩
      rw [Lists.setChs]
      by_cases here : ChType.sections = type
      · subst here
        simp only [if_true]
        have away : k ≠ i := by
          rintro rfl
          exact rechannels.vacant j inside used pCh
        exact (rechannels.others k away).mpr live
      · simpa only [if_neg here] using live

theorem clean (rechannels : Rechannels dev after lists type i slots) (linked : Linked dev lists)
    (reset : (after.channel type i).status = .none → after.channel type i = .zero ∧
      after.links.next (.channel type i) = none ∧ after.links.prev (.channel type i) = none ∧
      after.links.next (.filters type i) = none ∧ after.links.prev (.filters type i) = none)
    (clean : Clean dev) : Clean after := by
  constructor
  case filter =>
      intro j inside unused
      rw [rechannels.filter] at unused ⊢
      have same := rechannels.agree (.filter j) (by simp)
      rw [same.1, same.2]
      exact clean.filter j inside unused
  case channel =>
      intro other k inside unused
      by_cases here : other = type ∧ k = i
      · rcases here with ⟨rfl, rfl⟩
        exact reset unused
      · rw [rechannels.channel other k here] at unused ⊢
        have outside : k ∉ lists.chs other :=
          fun live => ((linked.chLive other k).mp live).2 unused
        have node := rechannels.agree (.channel other k) (by
          simp only [List.mem_cons, List.mem_map, not_or, reduceCtorEq, not_false_eq_true, true_and]
          constructor
          · simpa using here
          · rintro ⟨k', live, same⟩
            cases same
            exact outside live)
        have head := rechannels.agree (.filters other k) (by simp [here])
        rw [node.1, node.2, head.1, head.2]
        exact clean.channel other k inside unused

end Rechannels

/-- A live channel never has the id 0 of a free slot. -/
theorem freeChannelSlot_some {dev : Device} {lists : Lists} (linked : Linked dev lists)
    {type : ChType} {i : Nat} (found : dev.freeChannelSlot type = some i) :
    i < type.max ∧ (dev.channel type i).status = .none := by
  have inside := List.mem_range.mp (List.mem_of_find?_eq_some found)
  have same := List.find?_some found
  rw [decide_eq_true_eq] at same
  refine ⟨inside, ?_⟩
  by_contra used
  have id := linked.chId type i ((linked.chLive type i).mpr ⟨inside, used⟩)
  rcases same with unused | zero
  · exact used unused
  · exact typeIndex2Chid_ne_zero inside (id.symm.trans zero)

theorem allocateChannel_rechannels {dev : Device} {lists : Lists} (linked : Linked dev lists)
    {code : Nat} {type : ChType} (typed : ChType.ofCode code = some type) {i : Nat}
    (slot : dev.freeChannelSlot type = some i) :
    ∃ after, dev.allocateChannel code = some (.ok, typeIndex2Chid type i, after) ∧
      Rechannels dev after lists type i (lists.chs type ++ [i]) ∧
      (after.channel type i).status ≠ .none := by
  rcases freeChannelSlot_some linked slot with ⟨inside, unused⟩
  have outside : i ∉ lists.chs type := fun live => ((linked.chLive type i).mp live).2 unused
  have headed : (dev.links.initHead (.filters type i)).Ring (.channels type)
      ((lists.chs type).map (.channel type)) := by
    apply (linked.channels type).agreeOff Links.initHead_agreeOff
    intro node member
    rcases List.mem_cons.mp member with rfl | inner
    · simp
    · rcases List.mem_map.mp inner with ⟨k, _, rfl⟩
      simp
  have fresh : Node.channel type i ∉ Node.channels type :: (lists.chs type).map (.channel type) := by
    simp [outside]
  rcases headed.addTail fresh with ⟨links, added, ring, agree⟩
  have agreeAll : dev.links.AgreeOff links (.filters type i :: .channel type i :: .channels type ::
      (lists.chs type).map (.channel type)) :=
    (Links.initHead_agreeOff.mono (by simp)).trans (agree.mono (List.subset_cons_self ..))
  have empty : links.Ring (.filters type i) [] :=
    Links.ring_initHead.agreeOff agree (by simp)
  rw [Device.allocateChannel, typed]
  simp only [slot, added, Option.map_some]
  refine ⟨_, rfl, ?_, ?_⟩
  · constructor
    case inside => exact inside
    case vacant =>
        intro j low used pCh
        rcases linked.owner j low used with ⟨_, k, live, same⟩
        rw [pCh, Option.some.injEq, Prod.mk.injEq] at same
        rcases same with ⟨rfl, rfl⟩
        exact outside live
    case agree => split <;> exact agreeAll
    case ring => split <;> simpa using ring
    case filter => split <;> rfl
    case channel =>
        intro other k away
        split <;> simp [away]
    case others =>
        intro k away
        simp [away]
    case slot => split <;> simp
    case used =>
        intro _
        split <;> simpa using empty
  · split <;> simp

/-- A channel without filters can be taken out of its list. -/
theorem removeChannel_rechannels {dev : Device} {lists : Lists} (linked : Linked dev lists)
    {type : ChType} {channelid i : Nat} (found : dev.findChannel type channelid = some (some i))
    (empty : lists.flts type i = []) :
    ∃ after, dev.removeChannel type channelid = some (.ok, after) ∧
      Rechannels dev after lists type i ((lists.chs type).erase i) ∧
      after.channel type i = .zero ∧
      after.links.next (.channel type i) = none ∧ after.links.prev (.channel type i) = none ∧
      after.links.next (.filters type i) = none ∧ after.links.prev (.filters type i) = none := by
  have live := (linked.findChannel_some found).1
  have inside := ((linked.chLive type i).mp live).1
  rcases (linked.channels type).remove (List.mem_map_of_mem live) with
    ⟨links, deleted, ring, agree, next, prev⟩
  have gone : i ∉ (lists.chs type).erase i := (linked.chs_nodup type).not_mem_erase
  have clearAgree : links.AgreeOff (links.clear (.filters type i)) [.filters type i] :=
    Links.clear_agreeOff
  have removed : dev.removeChannel type channelid =
      some (.ok, { dev with links := links.clear (.filters type i) }.setChannel type i .zero) := by
    rw [Device.removeChannel, found, Option.bind_some]
    simp only [deleted, Option.map_some, Links.clear_of_none next prev]
  have node := clearAgree (.channel type i) (by simp)
  refine ⟨_, removed, ?_, by simp, node.1.trans next, node.2.trans prev, by simp [Links.clear],
    by simp [Links.clear]⟩
  constructor
  case inside => exact inside
  case vacant =>
      intro j low used pCh
      have member := (linked.member type i j live).mpr ⟨low, used, pCh⟩
      rw [empty] at member
      exact List.not_mem_nil member
  case agree =>
      apply Links.AgreeOff.trans (agree.mono _) (clearAgree.mono _)
      · intro touched member
        exact List.mem_cons_of_mem _ (List.mem_cons_of_mem _ member)
      · simp
  case ring =>
      rw [← List.map_erase (fun _ _ same => (Node.channel.inj same).2)] at ring
      apply ring.agreeOff clearAgree
      intro touched member
      rcases List.mem_cons.mp member with rfl | inner
      · simp
      · rcases List.mem_map.mp inner with ⟨k, _, rfl⟩
        simp
  case filter => rfl
  case channel =>
      intro other k away
      simp [away]
  case others =>
      intro k away
      exact List.mem_erase_of_ne away
  case slot => simp [gone, Channel.zero]
  case used => exact fun member => absurd member gone

/-! The sequential interface. -/

inductive Call where
  | allocateChannel (type : Nat)
  | freeChannel (channelid : Nat)
  | allocateFilter (channelid : Nat)
  | freeFilter (filterid : Nat)
  | freeFilterAll (channelid : Nat)
  | controlFilter (filterid : Nat) (ctrl : Device.Control)
  | setFilter (filterid size : Nat) (value mask mode : Option (List Byte)) (continuous : Bool)
  | setFilterCrcCheck (filterid : Nat) (crcCheck : Bool)
  | registerFilterCallback (filterid : Nat) (callback : Callback)
  deriving DecidableEq

/-- What a call returns on a handle that is NULL. -/
def Call.onNull : Call → Ret
  | .freeFilter _ => .ok
  | _ => .nullDev

/-- One call with no other thread in between. -/
def Device.perform (dev : Device) : Call → Option (Ret × Device)
  | .allocateChannel type => (dev.allocateChannel type).map (fun result => (result.1, result.2.2))
  | .freeChannel channelid => dev.freeChannel channelid
  | .allocateFilter channelid =>
      (dev.allocateFilter channelid).map (fun result => (result.1, result.2.2))
  | .freeFilter filterid => dev.freeFilter filterid
  | .freeFilterAll channelid => dev.freeFilterAll channelid
  | .controlFilter filterid ctrl => some (dev.controlFilter filterid ctrl)
  | .setFilter filterid size value mask mode continuous =>
      some (dev.setFilterBytes filterid size value mask mode continuous)
  | .setFilterCrcCheck filterid crcCheck => some (dev.setFilterCrcCheck filterid crcCheck)
  | .registerFilterCallback filterid callback =>
      some (dev.registerFilterCallback filterid callback)

structure Invocation where
  nullHandle : Bool
  call : Call

def Device.invoke (dev : Device) (invocation : Invocation) : Option (Ret × Device) :=
  if invocation.nullHandle then some (invocation.call.onNull, dev)
  else dev.perform invocation.call

/-- A device as `alisldmx_open` leaves it. -/
def Device.opened (path : Nat) (seefd : Int) (frontEnd nimChipId : Nat) (fastcopy : Bool) :
    Device where
  links := ((((⟨fun _ => none, fun _ => none⟩ : Links Node).initHead (.channels .sections)).initHead
    (.channels .records)).initHead (.channels .services)).initHead (.channels .streams)
  channel := fun _ _ => .zero
  filter := fun _ => .zero
  flag := fun _ => false
  path
  seefd
  frontEnd
  nimChipId
  fastcopy

/-- The calls on an open device, one after another. -/
def pool : Machine Device Invocation where
  Initial dev := ∃ path seefd frontEnd nimChipId fastcopy,
    dev = .opened path seefd frontEnd nimChipId fastcopy
  next dev invocation := (dev.invoke invocation).map Prod.snd

/-- A call that returns keeps the lists, and one that returns an error changes nothing. -/
structure Answers (dev : Device) (outcome : Option (Ret × Device)) : Prop where
  answer : ∃ ret after, outcome = some (ret, after) ∧ (∃ lists, Linked after lists) ∧
    (Clean dev → Clean after) ∧ (ret ≠ .ok → after = dev)

namespace Answers

variable {dev after : Device} {lists : Lists}

theorem fails (linked : Linked dev lists) (ret : Ret) : Answers dev (some (ret, dev)) :=
  ⟨ret, dev, rfl, ⟨lists, linked⟩, id, fun _ => rfl⟩

theorem ok (linked : Linked after lists) (clean : Clean dev → Clean after) :
    Answers dev (some (.ok, after)) :=
  ⟨.ok, after, rfl, ⟨lists, linked⟩, clean, fun error => absurd rfl error⟩

theorem linked {outcome : Option (Ret × Device)} {ret : Ret} (answers : Answers dev outcome)
    (returned : outcome = some (ret, after)) : ∃ lists, Linked after lists := by
  rcases answers.answer with ⟨ret', after', returned', linked, _⟩
  cases returned.symm.trans returned'
  exact linked

end Answers

namespace Linked

variable {dev : Device} {lists : Lists}

theorem allocateFilter (linked : Linked dev lists) (channelid : Nat) :
    Answers dev (dev.perform (.allocateFilter channelid)) := by
  rw [Device.perform, Device.allocateFilter]
  by_cases type : chid2Type channelid = ChType.sections.code
  · rw [if_neg (not_not.mpr type)]
    rcases linked.findChannel_of .sections channelid with ⟨_ | ch, found⟩
    · rw [found, Option.bind_some]
      exact .fails linked .noCh
    · rw [found, Option.bind_some]
      cases slot : dev.freeFilterSlot with
      | none => exact .fails linked .noFilter
      | some i =>
          have live := (linked.findChannel_some found).1
          rcases allocateFilter_relists linked live slot with ⟨links, added, relists⟩
          simp only [added, Option.map_some]
          exact .ok (relists.linked linked) (relists.clean linked (by simp))
  · rw [if_pos type]
    exact .fails linked .chType

theorem freeFilter (linked : Linked dev lists) (filterid : Nat) :
    Answers dev (dev.perform (.freeFilter filterid)) := by
  rw [Device.perform, Device.freeFilter]
  cases found : dev.findFilter filterid with
  | none => exact .fails linked .noFilter
  | some i =>
      rcases findFilter_some found with ⟨inside, _, used⟩
      rcases removeFilter_relists linked inside used with
        ⟨ch, after, _, removed, relists, reset, unlinked⟩
      simp only [removed, Option.map_some]
      exact .ok (relists.linked linked) (relists.clean linked (fun _ => ⟨reset, unlinked⟩))

theorem freeFilterAll (linked : Linked dev lists) (channelid : Nat) :
    Answers dev (dev.perform (.freeFilterAll channelid)) := by
  rw [Device.perform]
  by_cases type : chid2Type channelid = ChType.sections.code
  · rcases linked.findChannel_of .sections channelid with ⟨_ | ch, found⟩
    · rw [Device.freeFilterAll, if_neg (not_not.mpr type), found, Option.bind_some]
      exact .fails linked .noCh
    · rcases freeFilterAll_emptied linked type found with ⟨after, cleared, freed, emptied⟩
      rw [freed]
      exact .ok emptied.linked emptied.clean
  · rw [Device.freeFilterAll, if_pos type]
    exact .fails linked .chType

theorem allocateChannel (linked : Linked dev lists) (code : Nat) :
    Answers dev (dev.perform (.allocateChannel code)) := by
  rw [Device.perform]
  cases typed : ChType.ofCode code with
  | none =>
      rw [Device.allocateChannel, typed]
      exact .fails linked .chType
  | some type =>
      cases slot : dev.freeChannelSlot type with
      | none =>
          rw [Device.allocateChannel, typed]
          simp only [slot, Option.map_some]
          exact .fails linked .noCh
      | some i =>
          rcases allocateChannel_rechannels linked typed slot with ⟨after, taken, rechannels, used⟩
          rw [taken, Option.map_some]
          exact .ok (rechannels.linked linked)
            (rechannels.clean linked (fun unused => absurd unused used))

theorem removeChannel (linked : Linked dev lists) {type : ChType} {channelid i : Nat}
    (found : dev.findChannel type channelid = some (some i)) (empty : lists.flts type i = []) :
    ∃ after, dev.removeChannel type channelid = some (.ok, after) ∧
      (∃ lists, Linked after lists) ∧ (Clean dev → Clean after) := by
  rcases removeChannel_rechannels linked found empty with ⟨after, removed, rechannels, reset⟩
  exact ⟨after, removed, ⟨_, rechannels.linked linked⟩, rechannels.clean linked (fun _ => reset)⟩

theorem freeChannel (linked : Linked dev lists) (channelid : Nat) :
    Answers dev (dev.perform (.freeChannel channelid)) := by
  rw [Device.perform, Device.freeChannel]
  cases typed : ChType.ofCode (chid2Type channelid) with
  | none => exact .fails linked .chType
  | some type =>
      have code := ChType.ofCode_some typed
      have other : type ≠ .sections → dev.freeFilterAll channelid = some (.chType, dev) := by
        intro different
        rw [Device.freeFilterAll, if_pos]
        exact fun same => different (ChType.code_sections type (code.symm.trans same))
      simp only
      rcases linked.findChannel_of type channelid with ⟨_ | i, found⟩
      · have kept : ∃ ret, dev.freeFilterAll channelid = some (ret, dev) := by
          by_cases here : type = .sections
          · subst here
            refine ⟨.noCh, ?_⟩
            rw [Device.freeFilterAll, if_neg (not_not.mpr code), found, Option.bind_some]
          · exact ⟨.chType, other here⟩
        rcases kept with ⟨ret, kept⟩
        rw [kept, Option.bind_some, Device.removeChannel, found, Option.bind_some]
        exact .fails linked .noCh
      · by_cases here : type = .sections
        · subst here
          rcases freeFilterAll_emptied linked code found with ⟨middle, cleared, freed, emptied⟩
          have again : middle.findChannel .sections channelid = some (some i) := by
            rw [emptied.linked.findChannel, emptied.chs, ← linked.findChannel, found]
          rcases emptied.linked.removeChannel again emptied.empty with
            ⟨after, removed, ⟨rest, linked'⟩, clean⟩
          rw [freed, Option.bind_some, removed]
          exact .ok linked' (fun before => clean (emptied.clean before))
        · have empty := linked.flts_empty (linked.findChannel_some found).1 here
          rcases linked.removeChannel found empty with ⟨after, removed, ⟨rest, linked'⟩, clean⟩
          rw [other here, Option.bind_some, removed]
          exact .ok linked' clean

theorem configureFilter (linked : Linked dev lists) (filterid : Nat) {change : Filter → Filter}
    (keeps : ∀ filter, filter.status ≠ .none → Keeps filter (change filter)) :
    Answers dev (some (dev.configureFilter filterid change)) := by
  rw [Device.configureFilter]
  cases found : dev.findFilter filterid with
  | none => exact .fails linked .noFilter
  | some i =>
      rcases findFilter_some found with ⟨inside, _, used⟩
      have kept := keeps (dev.filter i) used
      apply Answers.ok ((setFilter_same kept).linked linked)
      intro clean
      constructor
      case filter =>
          intro j low unused
          by_cases here : j = i
          · subst here
            rw [Device.setFilter_filter, if_pos rfl, kept.status] at unused
            exact absurd unused used
          · rw [Device.setFilter_filter, if_neg here] at unused ⊢
            exact clean.filter j low unused
      case channel => exact clean.channel

/-- Every call returns. -/
theorem perform (linked : Linked dev lists) (call : Call) : Answers dev (dev.perform call) := by
  cases call with
  | allocateChannel type => exact linked.allocateChannel type
  | freeChannel channelid => exact linked.freeChannel channelid
  | allocateFilter channelid => exact linked.allocateFilter channelid
  | freeFilter filterid => exact linked.freeFilter filterid
  | freeFilterAll channelid => exact linked.freeFilterAll channelid
  | controlFilter filterid ctrl =>
      apply linked.configureFilter
      intro filter used
      cases ctrl with
      | reset => exact ⟨.rfl, rfl, rfl⟩
      | enable => exact ⟨by simp [used], rfl, rfl⟩
      | disable => exact ⟨by simp [used], rfl, rfl⟩
  | setFilter filterid size value mask mode continuous =>
      rw [Device.perform, Device.setFilterBytes]
      by_cases long : maxFilterSize < size
      · rw [if_pos long]
        exact .fails linked .inval
      · rw [if_neg long]
        apply linked.configureFilter
        exact fun filter _ => ⟨.rfl, rfl, rfl⟩
  | setFilterCrcCheck filterid crcCheck =>
      apply linked.configureFilter
      exact fun filter _ => ⟨.rfl, rfl, rfl⟩
  | registerFilterCallback filterid callback =>
      apply linked.configureFilter
      exact fun filter _ => ⟨.rfl, rfl, rfl⟩

theorem invoke (linked : Linked dev lists) (invocation : Invocation) :
    Answers dev (dev.invoke invocation) := by
  rw [Device.invoke]
  split
  · exact .fails linked _
  · exact linked.perform invocation.call

end Linked

/-- The pools are in order, whatever the lists hold. -/
structure Orderly (dev : Device) : Prop where
  linked : ∃ lists, Linked dev lists
  clean : Clean dev

theorem orderly_opened (path : Nat) (seefd : Int) (frontEnd nimChipId : Nat) (fastcopy : Bool) :
    Orderly (.opened path seefd frontEnd nimChipId fastcopy) := by
  constructor
  case linked =>
      refine ⟨⟨fun _ => [], fun _ _ => []⟩, ?_⟩
      constructor
      case channels =>
          intro type
          constructor
          case path => cases type <;> simp [Links.Path, Links.Joined, Device.opened, Links.initHead]
          case nodup => simp
      case chLive => simp [Device.opened, Channel.zero]
      case chId => simp
      case filters => simp
      case count => simp
      case member => simp
      case owner => simp [Device.opened, Filter.zero]
  case clean =>
      constructor
      case filter => simp [Device.opened, Links.initHead]
      case channel => simp [Device.opened, Links.initHead]

theorem orderly_of_reachable (dev : Device) (reachable : pool.Reachable dev) : Orderly dev := by
  refine Machine.Reachable.always ?_ ?_ dev reachable
  · rintro state ⟨path, seefd, frontEnd, nimChipId, fastcopy, rfl⟩
    exact orderly_opened path seefd frontEnd nimChipId fastcopy
  · intro state invocation after _ orderly moved
    rcases orderly.linked with ⟨lists, linked⟩
    rcases (linked.invoke invocation).answer with ⟨ret, next, answered, linked', clean, _⟩
    simp only [pool, answered, Option.map_some, Option.some.injEq] at moved
    exact moved ▸ ⟨linked', clean orderly.clean⟩

/-- In every run of calls the pools stay in order: the list of a channel type holds
its slots in use, a filter in use is on the list of its channel alone, and a free slot
is all zero. Every call returns, and one that returns an error changes nothing. -/
theorem pool_orderly (dev : Device) (reachable : pool.Reachable dev) :
    (∃ lists, Linked dev lists) ∧ Clean dev ∧
      ∀ invocation, ∃ ret after, dev.invoke invocation = some (ret, after) ∧
        (ret ≠ .ok → after = dev) := by
  have orderly := orderly_of_reachable dev reachable
  refine ⟨orderly.linked, orderly.clean, ?_⟩
  intro invocation
  rcases orderly.linked with ⟨lists, linked⟩
  rcases (linked.invoke invocation).answer with ⟨ret, after, answered, _, _, unchanged⟩
  exact ⟨ret, after, answered, unchanged⟩

theorem pool_orderly_one_filter :
    ∃ dev, pool.run (.opened 0 0 0 0 false) [⟨false, .allocateChannel 1⟩,
        ⟨false, .allocateFilter 0x10000⟩] = some dev ∧
      (dev.filter 0).pCh = some (.sections, 0) ∧ (∃ lists, Linked dev lists) ∧ Clean dev ∧
      ∀ invocation, ∃ ret after, dev.invoke invocation = some (ret, after) ∧
        (ret ≠ .ok → after = dev) := by
  have ran : ((pool.run (.opened 0 0 0 0 false) [⟨false, .allocateChannel 1⟩,
      ⟨false, .allocateFilter 0x10000⟩]).map (fun dev => (dev.filter 0).pCh)) =
        some (some (.sections, 0)) := by
    decide +kernel
  rcases Option.map_eq_some_iff.mp ran with ⟨dev, ran, owner⟩
  have start : pool.Initial (.opened 0 0 0 0 false) := ⟨0, 0, 0, 0, false, rfl⟩
  have reachable := Machine.reachable_of_run (.initial start) ran
  exact ⟨dev, ran, owner, pool_orderly dev reachable⟩

end Alisl.Dmx
