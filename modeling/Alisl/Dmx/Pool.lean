import Alisl.Base.Machine
import Alisl.Dmx.Device

/-! The invariant of the two pools over any sequence of calls. -/

namespace Alisl.Dmx

open Alisl.Base

/-- The slots on each list, in order. -/
structure Lists where
  chs : ChType → List Nat
  flts : ChType → Nat → List Nat

/-- The lists hold exactly the slots in use, and every slot in use knows where. -/
structure Linked (dev : Device) (lists : Lists) : Prop where
  channels : ∀ type, dev.links.Ring (.channels type) ((lists.chs type).map (.channel type))
  chLive : ∀ type i, i ∈ lists.chs type ↔ i < type.max ∧ (dev.channel type i).status ≠ .none
  chId : ∀ type i, i ∈ lists.chs type → (dev.channel type i).id = typeIndex2Chid type i
  filters : ∀ type i, i ∈ lists.chs type →
    dev.links.Ring (.filters type i) ((lists.flts type i).map .filter)
  count : ∀ type i, i ∈ lists.chs type →
    (dev.channel type i).fltCnt = (lists.flts type i).length
  member : ∀ type i j, i ∈ lists.chs type → (j ∈ lists.flts type i ↔
    j < maxFilters ∧ (dev.filter j).status ≠ .none ∧ (dev.filter j).pCh = some (type, i))
  owner : ∀ j, j < maxFilters → (dev.filter j).status ≠ .none → (dev.filter j).id = j ∧
    ∃ i ∈ lists.chs .sections, (dev.filter j).pCh = some (.sections, i)

/-- A slot that is not in use is all zero, its list nodes included. -/
structure Clean (dev : Device) : Prop where
  filter : ∀ j, j < maxFilters → (dev.filter j).status = .none → dev.filter j = .zero ∧
    dev.links.next (.filter j) = none ∧ dev.links.prev (.filter j) = none
  channel : ∀ type i, i < type.max → (dev.channel type i).status = .none →
    dev.channel type i = .zero ∧
    dev.links.next (.channel type i) = none ∧ dev.links.prev (.channel type i) = none ∧
    dev.links.next (.filters type i) = none ∧ dev.links.prev (.filters type i) = none

namespace Device

@[simp] theorem setFilter_links (dev : Device) (i : Nat) (filter : Filter) :
    (dev.setFilter i filter).links = dev.links := rfl

@[simp] theorem setFilter_channel (dev : Device) (i : Nat) (filter : Filter) :
    (dev.setFilter i filter).channel = dev.channel := rfl

@[simp] theorem setFilter_filter (dev : Device) (i j : Nat) (filter : Filter) :
    (dev.setFilter i filter).filter j = if j = i then filter else dev.filter j := by
  simp [setFilter, Function.update_apply]

@[simp] theorem setChannel_links (dev : Device) (type : ChType) (i : Nat) (channel : Channel) :
    (dev.setChannel type i channel).links = dev.links := rfl

@[simp] theorem setChannel_filter (dev : Device) (type : ChType) (i : Nat) (channel : Channel) :
    (dev.setChannel type i channel).filter = dev.filter := rfl

@[simp] theorem setChannel_channel (dev : Device) (type other : ChType) (i j : Nat)
    (channel : Channel) : (dev.setChannel type i channel).channel other j =
      if other = type ∧ j = i then channel else dev.channel other j := by
  by_cases same : other = type
  · subst same
    simp [setChannel, Function.update_apply]
  · simp [setChannel, same]

@[simp] theorem setFlag_links (dev : Device) (bit : Nat) (value : Bool) :
    (dev.setFlag bit value).links = dev.links := rfl

@[simp] theorem setFlag_channel (dev : Device) (bit : Nat) (value : Bool) :
    (dev.setFlag bit value).channel = dev.channel := rfl

@[simp] theorem setFlag_filter (dev : Device) (bit : Nat) (value : Bool) :
    (dev.setFlag bit value).filter = dev.filter := rfl

@[simp] theorem dropFlt_links (dev : Device) (type : ChType) (i : Nat) :
    (dev.dropFlt type i).links = dev.links := rfl

@[simp] theorem dropFlt_filter (dev : Device) (type : ChType) (i : Nat) :
    (dev.dropFlt type i).filter = dev.filter := rfl

end Device

theorem typeIndex2Chid_eq {type : ChType} {i : Nat} (inside : i < type.max) :
    typeIndex2Chid type i = type.code * 65536 + i := by
  have small : i < 2 ^ 16 := by
    cases type <;> simp only [ChType.max] at inside <;> omega
  have mask : i &&& 65535 = i := Nat.and_two_pow_sub_one_of_lt_two_pow small
  rw [typeIndex2Chid, mask, ← Nat.shiftLeft_add_eq_or_of_lt small, Nat.shiftLeft_eq]

theorem typeIndex2Chid_ne_zero {type : ChType} {i : Nat} (inside : i < type.max) :
    typeIndex2Chid type i ≠ 0 := by
  rw [typeIndex2Chid_eq inside]
  cases type <;> simp [ChType.code]

theorem ChType.ofCode_some {code : Nat} {type : ChType} (typed : ChType.ofCode code = some type) :
    code = type.code := by
  revert typed
  rw [ChType.ofCode.eq_def]
  split <;> rintro ⟨⟩ <;> rfl

theorem ChType.code_sections (type : ChType) (same : type.code = ChType.sections.code) :
    type = .sections := by
  cases type <;> simp [ChType.code] at same ⊢

theorem ulongSub_one (value : Nat) : ulongSub (value + 1) 1 = value := by
  rw [ulongSub, if_pos (Nat.le_add_left 1 value), Nat.add_sub_cancel]

/-- Different slots of a nonempty range are at most as many as the range. -/
theorem length_le_of_nodup {slots : List Nat} {max : Nat} (nodup : slots.Nodup)
    (inside : ∀ i ∈ slots, i < max) : slots.length ≤ max := by
  have subset : slots ⊆ List.range max := fun i member => List.mem_range.mpr (inside i member)
  have subperm := (List.subperm_of_subset nodup subset).length_le
  rwa [List.length_range] at subperm

namespace Linked

variable {dev : Device} {lists : Lists}

theorem chs_nodup (linked : Linked dev lists) (type : ChType) : (lists.chs type).Nodup :=
  List.Nodup.of_map _ (List.nodup_cons.mp (linked.channels type).nodup).2

theorem flts_nodup (linked : Linked dev lists) {type : ChType} {i : Nat}
    (live : i ∈ lists.chs type) : (lists.flts type i).Nodup :=
  List.Nodup.of_map _ (List.nodup_cons.mp (linked.filters type i live).nodup).2

theorem flts_length (linked : Linked dev lists) {type : ChType} {i : Nat}
    (live : i ∈ lists.chs type) : (lists.flts type i).length ≤ maxFilters :=
  length_le_of_nodup (linked.flts_nodup live)
    (fun j member => ((linked.member type i j live).mp member).1)

theorem channelList (linked : Linked dev lists) (type : ChType) :
    dev.channelList type = some (lists.chs type) := by
  have length : (lists.chs type).length ≤ type.max :=
    length_le_of_nodup (linked.chs_nodup type) (fun i member => ((linked.chLive type i).mp member).1)
  have walked : dev.links.entries (.channels type) (type.max + 1) =
      some ((lists.chs type).map (.channel type)) := by
    apply (linked.channels type).entries
    rw [List.length_map]
    omega
  rw [Device.channelList, walked, Option.bind_some]
  induction lists.chs type with
  | nil => rfl
  | cons i rest ih => simp [ih]

/-- The slots on the list decide which channel an id finds. -/
theorem findChannel (linked : Linked dev lists) (type : ChType) (id : Nat) :
    dev.findChannel type id =
      some ((lists.chs type).find? (fun i => typeIndex2Chid type i = id)) := by
  rw [Device.findChannel, linked.channelList, Option.map_some, Option.some.injEq]
  apply List.find?_congr
  intro i live
  rw [linked.chId type i live]

theorem findChannel_some (linked : Linked dev lists) {type : ChType} {id i : Nat}
    (found : dev.findChannel type id = some (some i)) :
    i ∈ lists.chs type ∧ id = typeIndex2Chid type i := by
  rw [linked.findChannel, Option.some.injEq] at found
  have same := List.find?_some found
  rw [decide_eq_true_eq] at same
  exact ⟨List.mem_of_find?_eq_some found, same.symm⟩

theorem findChannel_of (linked : Linked dev lists) (type : ChType) (id : Nat) :
    ∃ found, dev.findChannel type id = some found :=
  ⟨_, linked.findChannel type id⟩

/-- Only section channels have filters. -/
theorem flts_empty (linked : Linked dev lists) {type : ChType} {i : Nat}
    (live : i ∈ lists.chs type) (other : type ≠ .sections) : lists.flts type i = [] := by
  rw [List.eq_nil_iff_forall_not_mem]
  intro j member
  rcases (linked.member type i j live).mp member with ⟨inside, used, pCh⟩
  rcases linked.owner j inside used with ⟨_, k, _, same⟩
  rw [pCh, Option.some.injEq, Prod.mk.injEq] at same
  exact other same.1

theorem apart (linked : Linked dev lists) {type other : ChType} {i k j : Nat}
    (live : i ∈ lists.chs type) (otherLive : k ∈ lists.chs other) (here : j ∈ lists.flts type i)
    (there : j ∈ lists.flts other k) : other = type ∧ k = i := by
  have first := ((linked.member type i j live).mp here).2.2
  have second := ((linked.member other k j otherLive).mp there).2.2
  rw [first, Option.some.injEq, Prod.mk.injEq] at second
  exact ⟨second.1.symm, second.2.symm⟩

end Linked

theorem findFilter_some {dev : Device} {filterid i : Nat}
    (found : dev.findFilter filterid = some i) :
    i < maxFilters ∧ (dev.filter i).id = filterid ∧ (dev.filter i).status ≠ .none := by
  have member := List.mem_range.mp (List.mem_of_find?_eq_some found)
  have same := List.find?_some found
  rw [decide_eq_true_eq] at same
  exact ⟨member, same⟩

theorem freeFilterSlot_some {dev : Device} {i : Nat} (found : dev.freeFilterSlot = some i) :
    i < maxFilters ∧ (dev.filter i).status = .none := by
  have member := List.mem_range.mp (List.mem_of_find?_eq_some found)
  have same := List.find?_some found
  rw [decide_eq_true_eq] at same
  exact ⟨member, same⟩

/-! What each call does to the lists. -/

def Lists.setFlts (lists : Lists) (type : ChType) (i : Nat) (slots : List Nat) : Lists :=
  { lists with
    flts := fun other k => if other = type ∧ k = i then slots else lists.flts other k }

/-- The slots and lists of two devices are the same, whatever else differs. -/
structure SameShape (dev after : Device) : Prop where
  links : after.links = dev.links
  chStatus : ∀ type i, (after.channel type i).status = .none ↔ (dev.channel type i).status = .none
  chId : ∀ type i, (after.channel type i).id = (dev.channel type i).id
  fltCnt : ∀ type i, (after.channel type i).fltCnt = (dev.channel type i).fltCnt
  fltStatus : ∀ j, (after.filter j).status = .none ↔ (dev.filter j).status = .none
  fltId : ∀ j, (after.filter j).id = (dev.filter j).id
  pCh : ∀ j, (after.filter j).pCh = (dev.filter j).pCh

theorem SameShape.refl (dev : Device) : SameShape dev dev :=
  ⟨rfl, fun _ _ => .rfl, fun _ _ => rfl, fun _ _ => rfl, fun _ => .rfl, fun _ => rfl, fun _ => rfl⟩

theorem SameShape.trans {dev middle after : Device} (first : SameShape dev middle)
    (second : SameShape middle after) : SameShape dev after where
  links := second.links.trans first.links
  chStatus type i := (second.chStatus type i).trans (first.chStatus type i)
  chId type i := (second.chId type i).trans (first.chId type i)
  fltCnt type i := (second.fltCnt type i).trans (first.fltCnt type i)
  fltStatus j := (second.fltStatus j).trans (first.fltStatus j)
  fltId j := (second.fltId j).trans (first.fltId j)
  pCh j := (second.pCh j).trans (first.pCh j)

theorem SameShape.linked {dev after : Device} {lists : Lists} (same : SameShape dev after)
    (linked : Linked dev lists) : Linked after lists := by
  constructor
  case channels =>
      rw [same.links]
      exact linked.channels
  case chLive =>
      intro type i
      rw [linked.chLive, ne_eq, ne_eq, same.chStatus]
  case chId =>
      intro type i live
      rw [same.chId]
      exact linked.chId type i live
  case filters =>
      rw [same.links]
      exact linked.filters
  case count =>
      intro type i live
      rw [same.fltCnt]
      exact linked.count type i live
  case member =>
      intro type i j live
      rw [linked.member type i j live, ne_eq, ne_eq, same.fltStatus, same.pCh]
  case owner =>
      intro j inside used
      rw [ne_eq, same.fltStatus] at used
      rw [same.fltId, same.pCh]
      exact linked.owner j inside used

/-- A change to a filter that leaves its id, its channel and its use alone. -/
structure Keeps (before after : Filter) : Prop where
  status : after.status = .none ↔ before.status = .none
  id : after.id = before.id
  pCh : after.pCh = before.pCh

theorem setFilter_same {dev : Device} {i : Nat} {filter : Filter}
    (keeps : Keeps (dev.filter i) filter) : SameShape dev (dev.setFilter i filter) := by
  constructor
  case links => rfl
  case chStatus => exact fun _ _ => .rfl
  case chId => exact fun _ _ => rfl
  case fltCnt => exact fun _ _ => rfl
  case fltStatus =>
      intro j
      by_cases here : j = i
      · simp [here, keeps.status]
      · simp [here]
  case fltId =>
      intro j
      by_cases here : j = i
      · simp [here, keeps.id]
      · simp [here]
  case pCh =>
      intro j
      by_cases here : j = i
      · simp [here, keeps.pCh]
      · simp [here]

/-- One slot enters or leaves the filter list of one channel. -/
structure Relists (dev after : Device) (lists : Lists) (ch i : Nat) (slots : List Nat) : Prop where
  live : ch ∈ lists.chs .sections
  inside : i < maxFilters
  elsewhere : ∀ type k, k ∈ lists.chs type → ¬ (type = .sections ∧ k = ch) → i ∉ lists.flts type k
  agree : dev.links.AgreeOff after.links
    (.filter i :: .filters .sections ch :: (lists.flts .sections ch).map .filter)
  ring : after.links.Ring (.filters .sections ch) (slots.map .filter)
  filter : ∀ j, j ≠ i → after.filter j = dev.filter j
  channel : ∀ type k, ¬ (type = .sections ∧ k = ch) → after.channel type k = dev.channel type k
  chStatus : (after.channel .sections ch).status = (dev.channel .sections ch).status
  chId : (after.channel .sections ch).id = (dev.channel .sections ch).id
  count : (after.channel .sections ch).fltCnt = slots.length
  others : ∀ j, j ≠ i → (j ∈ slots ↔ j ∈ lists.flts .sections ch)
  slot : i ∈ slots ↔ (after.filter i).status ≠ .none
  used : (after.filter i).status ≠ .none →
    (after.filter i).id = i ∧ (after.filter i).pCh = some (.sections, ch)

namespace Relists

variable {dev after : Device} {lists : Lists} {ch i : Nat} {slots : List Nat}

theorem status (relists : Relists dev after lists ch i slots) (type : ChType) (k : Nat) :
    (after.channel type k).status = (dev.channel type k).status := by
  by_cases here : type = .sections ∧ k = ch
  · rw [here.1, here.2, relists.chStatus]
  · rw [relists.channel type k here]

theorem linked (relists : Relists dev after lists ch i slots) (linked : Linked dev lists) :
    Linked after (lists.setFlts .sections ch slots) := by
  constructor
  case channels =>
      intro type
      apply (linked.channels type).agreeOff relists.agree
      intro node member
      rcases List.mem_cons.mp member with rfl | inner
      · simp
      · rcases List.mem_map.mp inner with ⟨k, _, rfl⟩
        simp
  case chLive =>
      intro type k
      rw [relists.status]
      exact linked.chLive type k
  case chId =>
      intro type k live
      by_cases here : type = .sections ∧ k = ch
      · rw [here.1, here.2, relists.chId]
        exact linked.chId .sections ch relists.live
      · rw [relists.channel type k here]
        exact linked.chId type k live
  case filters =>
      intro type k live
      rw [Lists.setFlts]
      by_cases here : type = .sections ∧ k = ch
      · rw [here.1, here.2]
        simpa using relists.ring
      · simp only [if_neg here]
        apply (linked.filters type k live).agreeOff relists.agree
        intro node member
        rcases List.mem_cons.mp member with rfl | inner
        · simp [here]
        · rcases List.mem_map.mp inner with ⟨j, there, rfl⟩
          have notSlot : j ≠ i := by
            rintro rfl
            exact relists.elsewhere type k live here there
          have notHere : j ∉ lists.flts .sections ch :=
            fun member => here (linked.apart relists.live live member there)
          simp [notSlot, notHere]
  case count =>
      intro type k live
      rw [Lists.setFlts]
      by_cases here : type = .sections ∧ k = ch
      · simp [here, relists.count]
      · simp only [if_neg here]
        rw [relists.channel type k here]
        exact linked.count type k live
  case member =>
      intro type k j live
      rw [Lists.setFlts]
      by_cases here : type = .sections ∧ k = ch
      · rcases here with ⟨rfl, rfl⟩
        simp only [and_self, if_true]
        by_cases slot : j = i
        · subst slot
          rw [relists.slot]
          exact ⟨fun used => ⟨relists.inside, used, (relists.used used).2⟩, fun all => all.2.1⟩
        · rw [relists.others j slot, relists.filter j slot]
          exact linked.member .sections k j live
      · simp only [if_neg here]
        by_cases slot : j = i
        · subst slot
          constructor
          · intro there
            exact absurd there (relists.elsewhere type k live here)
          · rintro ⟨_, used, same⟩
            rw [(relists.used used).2, Option.some.injEq, Prod.mk.injEq] at same
            exact absurd ⟨same.1.symm, same.2.symm⟩ here
        · rw [relists.filter j slot]
          exact linked.member type k j live
  case owner =>
      intro j low used
      by_cases slot : j = i
      · subst slot
        exact ⟨(relists.used used).1, ch, relists.live, (relists.used used).2⟩
      · rw [relists.filter j slot] at used ⊢
        exact linked.owner j low used

theorem clean (relists : Relists dev after lists ch i slots) (linked : Linked dev lists)
    (reset : (after.filter i).status = .none → after.filter i = .zero ∧
      after.links.next (.filter i) = none ∧ after.links.prev (.filter i) = none)
    (clean : Clean dev) : Clean after := by
  constructor
  case filter =>
      intro j low none_
      by_cases slot : j = i
      · subst slot
        exact reset none_
      · rw [relists.filter j slot] at none_ ⊢
        have notHere : j ∉ lists.flts .sections ch :=
          fun member => ((linked.member .sections ch j relists.live).mp member).2.1 none_
        have same := relists.agree (.filter j) (by simp [slot, notHere])
        rw [same.1, same.2]
        exact clean.filter j low none_
  case channel =>
      intro type k low none_
      rw [relists.status] at none_
      have notHere : ¬ (type = .sections ∧ k = ch) := by
        rintro ⟨rfl, rfl⟩
        exact ((linked.chLive .sections k).mp relists.live).2 none_
      have node := relists.agree (.channel type k) (by simp)
      have head := relists.agree (.filters type k) (by simp [notHere])
      rw [relists.channel type k notHere, node.1, node.2, head.1, head.2]
      exact clean.channel type k low none_

end Relists

/-- A new filter goes to the end of its channel's list. -/
theorem allocateFilter_relists {dev : Device} {lists : Lists} (linked : Linked dev lists)
    {ch i : Nat} (live : ch ∈ lists.chs .sections) (slot : dev.freeFilterSlot = some i) :
    ∃ links, dev.links.addTail (.filter i) (.filters .sections ch) = some links ∧
      Relists dev (({ dev with links }.setFilter i
          { dev.filter i with id := i, status := .disable, pCh := some (.sections, ch) }).setChannel
        .sections ch { dev.channel .sections ch with fltCnt := (dev.channel .sections ch).fltCnt + 1 })
        lists ch i (lists.flts .sections ch ++ [i]) := by
  rcases freeFilterSlot_some slot with ⟨inside, unused⟩
  have outside : ∀ type k, k ∈ lists.chs type → i ∉ lists.flts type k := by
    intro type k liveK member
    exact ((linked.member type k i liveK).mp member).2.1 unused
  have fresh : Node.filter i ∉ Node.filters .sections ch ::
      (lists.flts .sections ch).map .filter := by
    simp [outside .sections ch live]
  rcases (linked.filters .sections ch live).addTail fresh with ⟨links, added, ring, agree⟩
  refine ⟨links, added, ?_⟩
  constructor
  case live => exact live
  case inside => exact inside
  case elsewhere => exact fun type k liveK _ => outside type k liveK
  case agree => exact agree
  case ring => simpa using ring
  case filter =>
      intro j other
      simp [other]
  case channel =>
      intro type k other
      simp [other]
  case chStatus => simp
  case chId => simp
  case count => simp [linked.count .sections ch live]
  case others =>
      intro j other
      simp [other]
  case slot => simp
  case used => simp

/-- A filter in use can be taken out of its channel's list. -/
theorem removeFilter_relists {dev : Device} {lists : Lists} (linked : Linked dev lists)
    {i : Nat} (inside : i < maxFilters) (used : (dev.filter i).status ≠ .none) :
    ∃ ch after, (dev.filter i).pCh = some (.sections, ch) ∧ dev.removeFilter i = some after ∧
      Relists dev after lists ch i ((lists.flts .sections ch).erase i) ∧ after.filter i = .zero ∧
      after.links.next (.filter i) = none ∧ after.links.prev (.filter i) = none := by
  rcases linked.owner i inside used with ⟨_, ch, live, pCh⟩
  have member : i ∈ lists.flts .sections ch :=
    (linked.member .sections ch i live).mpr ⟨inside, used, pCh⟩
  have nodup := linked.flts_nodup live
  rcases (linked.filters .sections ch live).remove (List.mem_map_of_mem member) with
    ⟨links, deleted, ring, agree, next, prev⟩
  have removed : dev.removeFilter i =
      some (({ dev with links }.dropFlt .sections ch).setFilter i .zero) := by
    rw [Device.removeFilter, pCh, Option.bind_some, deleted, Option.map_some,
      Links.clear_of_none next prev]
  have gone : i ∉ (lists.flts .sections ch).erase i := nodup.not_mem_erase
  refine ⟨ch, _, pCh, removed, ?_, by simp, next, prev⟩
  constructor
  case live => exact live
  case inside => exact inside
  case elsewhere =>
      intro type k liveK other there
      exact other (linked.apart live liveK member there)
  case agree => exact agree.mono (List.subset_cons_self ..)
  case ring =>
      rw [List.map_erase (fun _ _ same => Node.filter.inj same)]
      exact ring
  case filter =>
      intro j other
      simp [other]
  case channel =>
      intro type k other
      simp [Device.dropFlt, other]
  case chStatus => simp [Device.dropFlt]
  case chId => simp [Device.dropFlt]
  case count =>
      have count := linked.count .sections ch live
      rw [← List.length_erase_add_one member] at count
      simp only [Device.dropFlt, Device.setFilter_channel, Device.setChannel_channel, and_self,
        if_true, count, ulongSub_one]
  case others =>
      intro j other
      exact List.mem_erase_of_ne other
  case slot => simp [gone, Filter.zero]
  case used => simp [Filter.zero]

/-- The body of the loop of `alisldmx_free_filter_all` removes one filter. -/
theorem freeFilterLoop_filter {type : ChType} {ch fuel i : Nat} {dev : Device} {ahead : Node}
    (pCh : (dev.filter i).pCh = some (type, ch)) :
    Device.freeFilterLoop type ch (fuel + 1) dev (.filter i) ahead =
      (dev.removeFilter i).bind (fun after => (after.links.next ahead).bind (fun later =>
        Device.freeFilterLoop type ch fuel after ahead later)) := by
  rw [Device.freeFilterLoop, if_neg (by simp), Device.removeFilter, pCh, Option.bind_some,
    Device.dropFlt_links]
  cases dev.links.del (.filter i) with
  | none => rfl
  | some links => rfl

/-- What is left when all filters of a channel are freed. -/
structure Emptied (dev after : Device) (lists cleared : Lists) (ch : Nat) : Prop where
  linked : Linked after cleared
  chs : cleared.chs = lists.chs
  empty : cleared.flts .sections ch = []
  clean : Clean dev → Clean after
  filter : ∀ j, after.filter j = if j ∈ lists.flts .sections ch then .zero else dev.filter j

theorem freeFilterLoop_emptied {ch : Nat} (slots : List Nat) {dev : Device} {lists : Lists}
    (linked : Linked dev lists) (live : ch ∈ lists.chs .sections)
    (here : lists.flts .sections ch = slots) {fuel : Nat} (enough : slots.length + 1 ≤ fuel)
    {ahead : Node} (next : dev.links.next ((slots.map Node.filter).headD (.filters .sections ch)) =
      some ahead) :
    ∃ after cleared, Device.freeFilterLoop .sections ch fuel dev
        ((slots.map Node.filter).headD (.filters .sections ch)) ahead = some after ∧
      Emptied dev after lists cleared ch := by
  induction slots generalizing dev lists fuel ahead with
  | nil =>
      rcases fuel with _ | fuel
      · simp at enough
      · refine ⟨dev, lists, by simp [Device.freeFilterLoop], ?_⟩
        exact ⟨linked, rfl, here, id, fun j => by simp [here]⟩
  | cons i rest ih =>
      rcases fuel with _ | fuel
      · simp at enough
      · have member : i ∈ lists.flts .sections ch := by
          rw [here]
          exact List.mem_cons_self ..
        rcases (linked.member .sections ch i live).mp member with ⟨inside, used, pCh⟩
        rcases removeFilter_relists linked inside used with
          ⟨other, middle, same, removed, relists, reset, unlinked⟩
        rw [pCh, Option.some.injEq, Prod.mk.injEq] at same
        rcases same with ⟨_, rfl⟩
        have ring := linked.filters .sections ch live
        rw [here, List.map_cons] at ring
        rw [here, List.erase_cons_head] at relists
        have aheadEq : ahead = (rest.map Node.filter).headD (.filters .sections ch) :=
          Option.some.inj (next.symm.trans ring.next_first)
        have linked' := relists.linked linked
        have ring' := relists.ring
        have later : ∃ later, middle.links.next ((rest.map Node.filter).headD
            (.filters .sections ch)) = some later := by
          cases rest with
          | nil => exact ⟨_, ring'.next_head⟩
          | cons k more => exact ⟨_, ring'.next_first⟩
        rcases later with ⟨later, laterEq⟩
        rcases ih linked' live (by simp [Lists.setFlts]) (by simpa using enough) laterEq with
          ⟨after, cleared, looped, emptied⟩
        refine ⟨after, cleared, ?_, ?_⟩
        · rw [List.map_cons, List.headD_cons, freeFilterLoop_filter pCh, removed, Option.bind_some,
            aheadEq, laterEq, Option.bind_some]
          exact looped
        · constructor
          case linked => exact emptied.linked
          case chs => exact emptied.chs
          case empty => exact emptied.empty
          case clean =>
              intro clean
              exact emptied.clean (relists.clean linked (fun _ => ⟨reset, unlinked⟩) clean)
          case filter =>
              intro j
              rw [emptied.filter j, here]
              simp only [Lists.setFlts, and_self, if_true, List.mem_cons]
              by_cases first : j = i
              · simp [first, reset]
              · simp [first, relists.filter j first]

theorem freeFilterAll_emptied {dev : Device} {lists : Lists} (linked : Linked dev lists)
    {channelid ch : Nat} (type : chid2Type channelid = ChType.sections.code)
    (found : dev.findChannel .sections channelid = some (some ch)) :
    ∃ after cleared, dev.freeFilterAll channelid = some (.ok, after) ∧
      Emptied dev after lists cleared ch := by
  have live := (linked.findChannel_some found).1
  have ring := linked.filters .sections ch live
  have ahead : ∃ ahead, dev.links.next (((lists.flts .sections ch).map Node.filter).headD
      (.filters .sections ch)) = some ahead := by
    cases slots : lists.flts .sections ch with
    | nil =>
        rw [slots] at ring
        exact ⟨_, ring.next_head⟩
    | cons i rest =>
        rw [slots] at ring
        exact ⟨_, ring.next_first⟩
  rcases ahead with ⟨ahead, aheadEq⟩
  have enough := Nat.succ_le_succ (linked.flts_length live)
  rcases freeFilterLoop_emptied _ linked live rfl enough aheadEq with
    ⟨after, cleared, looped, emptied⟩
  refine ⟨after, cleared, ?_, emptied⟩
  rw [Device.freeFilterAll, if_neg (not_not.mpr type), found, Option.bind_some]
  simp only [ring.next_head, Option.bind_some, aheadEq]
  rw [looped, Option.map_some]

end Alisl.Dmx
