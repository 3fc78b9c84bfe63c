import Alisl.Base.Flag
import Alisl.Base.Machine
import Alisl.Dmx.Device

/-! The flag word of the section channels: hits of one-shot filters, the thread in
`alisldmx_section_request_poll` and the calls that stop a poll. -/

namespace Alisl.Dmx

open Alisl.Base

def sectionFlagAllId : BitVec 32 := 0x3FFFFFFF#32

def sectionFlagStopPoll : BitVec 32 := Flag.bit 30

def sectionFlagStopRequest : BitVec 32 := Flag.bit 31

/-- Where the thread is in `alisldmx_section_request_poll`; `flag` is its result parameter. -/
inductive RequestPoll where
  | idle
  | waits (idMask : BitVec 32)
  | woken (idMask : BitVec 32)
  | filled (idMask flag : BitVec 32)
  deriving DecidableEq, Repr

def RequestPoll.idMask : RequestPoll → BitVec 32
  | .idle => 0
  | .waits idMask => idMask
  | .woken idMask => idMask
  | .filled idMask _ => idMask

/-- `live` are the section channels allocated. What was hit and not reported, what was hit and not
cleared, and which of the two stops was asked for is only recorded. -/
structure SectionFlag where
  flag : Flag
  live : Nat → Bool
  request : RequestPoll
  unseen : Nat → Bool
  hit : Nat → Bool
  stopPoll : Bool
  stopRequest : Bool

inductive FlagLabel where
  | hit (index : Nat)
  | allocateChannel
  | freeChannel (index : Nat)
  | pollRelease
  | pollReset
  | requestPoll (idMask : BitVec 32)
  | timeout
  | wake
  | fill
  | clear
  | requestPollRelease
  deriving DecidableEq, Repr

namespace SectionFlag

/-- The first free entry of the pool of section channels. -/
def freeSlot (state : SectionFlag) : Option Nat :=
  (List.range ChType.sections.max).find? (fun i => !state.live i)

def step (state : SectionFlag) : FlagLabel → Option SectionFlag
  | .hit index =>
      if state.live index then
        some { state with
          flag := state.flag.set (Flag.bit index)
          unseen := Function.update state.unseen index true
          hit := Function.update state.hit index true }
      else none
  | .allocateChannel =>
      match state.freeSlot with
      | none => some state
      | some index =>
          some { state with
            flag := state.flag.clear (Flag.bit index)
            live := Function.update state.live index true
            unseen := Function.update state.unseen index false
            hit := Function.update state.hit index false }
  | .freeChannel index => some { state with live := Function.update state.live index false }
  | .pollRelease =>
      some { state with flag := state.flag.set sectionFlagStopPoll, stopPoll := true }
  | .pollReset =>
      some { state with flag := state.flag.clear sectionFlagStopPoll, stopPoll := false }
  | .requestPoll idMask =>
      if state.request = .idle then some { state with request := .waits idMask } else none
  | .timeout =>
      match state.request with
      | .waits _ => some { state with request := .idle }
      | _ => none
  | .wake =>
      match state.request with
      | .waits idMask =>
          if state.flag.testAny (idMask ||| sectionFlagStopRequest) then
            some { state with request := .woken idMask }
          else none
      | _ => none
  | .fill =>
      match state.request with
      | .woken idMask => some { state with request := .filled idMask (state.flag.flg &&& idMask) }
      | _ => none
  | .clear =>
      match state.request with
      | .filled idMask flag =>
          some { state with
            flag := state.flag.clear (idMask ||| sectionFlagStopRequest)
            request := .idle
            unseen := fun i => state.unseen i && !flag.getLsbD i
            hit := fun i => state.hit i && !idMask.getLsbD i
            stopRequest := false }
      | _ => none
  | .requestPollRelease =>
      some { state with flag := state.flag.set sectionFlagStopRequest, stopRequest := true }

/-- `alisldmx_open` clears the word. -/
def opened : SectionFlag where
  flag := ⟨0⟩
  live := fun _ => false
  request := .idle
  unseen := fun _ => false
  hit := fun _ => false
  stopPoll := false
  stopRequest := false

end SectionFlag

def sectionFlag : Machine SectionFlag FlagLabel where
  Initial state := state = .opened
  next := SectionFlag.step

namespace SectionFlag

theorem freeSlot_lt {state : SectionFlag} {index : Nat} (found : state.freeSlot = some index) :
    index < 32 := by
  have member := List.mem_of_find?_eq_some found
  exact List.mem_range.mp member

/-- Every step, with the guards it has passed. -/
inductive Moves (state : SectionFlag) : FlagLabel → SectionFlag → Prop where
  | hit (index : Nat) (live : state.live index = true) :
      Moves state (.hit index)
        { state with
          flag := state.flag.set (Flag.bit index)
          unseen := Function.update state.unseen index true
          hit := Function.update state.hit index true }
  | full (none : state.freeSlot = none) : Moves state .allocateChannel state
  | takes (index : Nat) (found : state.freeSlot = some index) :
      Moves state .allocateChannel
        { state with
          flag := state.flag.clear (Flag.bit index)
          live := Function.update state.live index true
          unseen := Function.update state.unseen index false
          hit := Function.update state.hit index false }
  | frees (index : Nat) :
      Moves state (.freeChannel index)
        { state with live := Function.update state.live index false }
  | stops :
      Moves state .pollRelease
        { state with flag := state.flag.set sectionFlagStopPoll, stopPoll := true }
  | resets :
      Moves state .pollReset
        { state with flag := state.flag.clear sectionFlagStopPoll, stopPoll := false }
  | requests (idMask : BitVec 32) (idle : state.request = .idle) :
      Moves state (.requestPoll idMask) { state with request := .waits idMask }
  | expires (idMask : BitVec 32) (waits : state.request = .waits idMask) :
      Moves state .timeout { state with request := .idle }
  | wakes (idMask : BitVec 32) (waits : state.request = .waits idMask) :
      Moves state .wake { state with request := .woken idMask }
  | fills (idMask : BitVec 32) (woken : state.request = .woken idMask) :
      Moves state .fill { state with request := .filled idMask (state.flag.flg &&& idMask) }
  | clears (idMask flag : BitVec 32) (filled : state.request = .filled idMask flag) :
      Moves state .clear
        { state with
          flag := state.flag.clear (idMask ||| sectionFlagStopRequest)
          request := .idle
          unseen := fun i => state.unseen i && !flag.getLsbD i
          hit := fun i => state.hit i && !idMask.getLsbD i
          stopRequest := false }
  | stopsRequest :
      Moves state .requestPollRelease
        { state with flag := state.flag.set sectionFlagStopRequest, stopRequest := true }

theorem step_moves {state after : SectionFlag} {label : FlagLabel}
    (moved : state.step label = some after) : Moves state label after := by
  cases label with
  | hit index =>
      simp only [step] at moved
      split at moved
      case isTrue live =>
        cases moved
        exact .hit index live
      case isFalse => cases moved
  | allocateChannel =>
      simp only [step] at moved
      split at moved
      case h_1 none =>
        cases moved
        exact .full none
      case h_2 index found =>
        cases moved
        exact .takes index found
  | freeChannel index =>
      cases moved
      exact .frees index
  | pollRelease =>
      cases moved
      exact .stops
  | pollReset =>
      cases moved
      exact .resets
  | requestPoll idMask =>
      simp only [step] at moved
      split at moved
      case isTrue idle =>
        cases moved
        exact .requests idMask idle
      case isFalse => cases moved
  | timeout =>
      simp only [step] at moved
      split at moved
      case h_1 idMask waits =>
        cases moved
        exact .expires idMask waits
      case h_2 => cases moved
  | wake =>
      simp only [step] at moved
      split at moved
      case h_1 idMask waits =>
        split at moved
        case isTrue =>
          cases moved
          exact .wakes idMask waits
        case isFalse => cases moved
      case h_2 => cases moved
  | fill =>
      simp only [step] at moved
      split at moved
      case h_1 idMask woken =>
        cases moved
        exact .fills idMask woken
      case h_2 => cases moved
  | clear =>
      simp only [step] at moved
      split at moved
      case h_1 idMask flag filled =>
        cases moved
        exact .clears idMask flag filled
      case h_2 => cases moved
  | requestPollRelease =>
      cases moved
      exact .stopsRequest

/-- The channels of the pool have the bits of the word. -/
def Bounded (state : SectionFlag) : Prop := ∀ i, state.live i = true → i < 32

theorem Bounded.moves {state after : SectionFlag} {label : FlagLabel} (bounded : Bounded state)
    (moves : Moves state label after) : Bounded after := by
  cases moves with
  | takes index found =>
      intro i live
      rcases eq_or_ne i index with rfl | other
      · exact freeSlot_lt found
      · exact bounded i (by simpa [other] using live)
  | frees index =>
      intro i live
      rcases eq_or_ne i index with rfl | other
      · simp at live
      · exact bounded i (by simpa [other] using live)
  | _ => exact bounded

/-- The bits the end of `alisldmx_section_request_poll` clears. -/
def clearedBy (idMask : BitVec 32) (i : Nat) : Bool :=
  (idMask ||| sectionFlagStopRequest).getLsbD i

/-- The calls that stop a poll. -/
def stopsPoll : FlagLabel → Bool
  | .pollRelease => true
  | .pollReset => true
  | .requestPollRelease => true
  | _ => false

/-- No channel is hit between the read of the word and the end of the call on a bit the call clears
and has not read, and when the word is read, the mask covers channel 31 unless it is not hit. -/
def unmissed (state : SectionFlag) : FlagLabel → Bool
  | .hit index =>
      match state.request with
      | .filled idMask flag => !clearedBy idMask index || flag.getLsbD index
      | _ => true
  | .fill =>
      match state.request with
      | .woken idMask => !state.flag.has 31 || idMask.getLsbD 31
      | _ => true
  | _ => true

/-- What the call clears at its end, it reports. -/
structure Reported (state : SectionFlag) : Prop where
  bounded : Bounded state
  pending : ∀ i, state.unseen i = true → state.flag.has i = true
  covered : ∀ idMask flag, state.request = .filled idMask flag →
    ∀ i, state.flag.has i = true → clearedBy idMask i = true → flag.getLsbD i = true

theorem clearedBy_cases {idMask : BitVec 32} {i : Nat} (cleared : clearedBy idMask i = true) :
    idMask.getLsbD i = true ∨ i = 31 := by
  rw [clearedBy, BitVec.getLsbD_or, Bool.or_eq_true] at cleared
  rcases cleared with masked | stop
  · exact .inl masked
  · exact .inr (Flag.eq_of_getLsbD_bit stop)

theorem Reported.moves {state after : SectionFlag} {label : FlagLabel} (reported : Reported state)
    (polls : stopsPoll label = false) (meets : unmissed state label = true)
    (moves : Moves state label after) : Reported after := by
  have bounded := reported.bounded.moves moves
  have pending := reported.pending
  have covered := reported.covered
  cases moves with
  | hit index live =>
      have inside := reported.bounded index live
      constructor
      case bounded => exact bounded
      case pending =>
        intro i unseen
        rcases eq_or_ne i index with rfl | other
        · simp [Flag.getLsbD_bit i i inside]
        · have before := pending i (by simpa [other] using unseen)
          simp [before]
      case covered =>
        intro idMask flag filled i set cleared
        rw [Flag.has_set, Bool.or_eq_true] at set
        rcases set with before | now
        · exact covered idMask flag filled i before cleared
        · have same := Flag.eq_of_getLsbD_bit now
          subst same
          have met : (!clearedBy idMask i || flag.getLsbD i) = true := by
            simpa only [unmissed, show state.request = .filled idMask flag from filled] using meets
          simpa [cleared] using met
  | full => exact ⟨bounded, pending, covered⟩
  | takes index found =>
      constructor
      case bounded => exact bounded
      case pending =>
        intro i unseen
        rcases eq_or_ne i index with rfl | other
        · simp at unseen
        · have before := pending i (by simpa [other] using unseen)
          have apart : (Flag.bit index).getLsbD i = false := by
            by_contra set
            exact other (Flag.eq_of_getLsbD_bit (Bool.eq_true_of_not_eq_false set))
          simp [before, apart]
      case covered =>
        intro idMask flag filled i set cleared
        rw [Flag.has_clear, Bool.and_eq_true] at set
        exact covered idMask flag filled i set.1 cleared
  | frees index => exact ⟨bounded, pending, covered⟩
  | stops => cases polls
  | resets => cases polls
  | requests idMask => exact ⟨bounded, pending, by simp⟩
  | expires idMask => exact ⟨bounded, pending, by simp⟩
  | wakes idMask => exact ⟨bounded, pending, by simp⟩
  | fills idMask woken =>
      constructor
      case bounded => exact bounded
      case pending => exact pending
      case covered =>
        intro other flag filled i set cleared
        cases filled
        have met : (!state.flag.has 31 || idMask.getLsbD 31) = true := by
          simpa only [unmissed, woken] using meets
        have masked : idMask.getLsbD i = true := by
          rcases clearedBy_cases cleared with masked | rfl
          · exact masked
          · simpa [show state.flag.has 31 = true from set] using met
        rw [BitVec.getLsbD_and, Bool.and_eq_true]
        exact ⟨set, masked⟩
  | clears idMask flag filled =>
      constructor
      case bounded => exact bounded
      case pending =>
        intro i unseen
        rw [Bool.and_eq_true, Bool.not_eq_true'] at unseen
        have set := pending i unseen.1
        have stays : clearedBy idMask i = false := by
          by_contra cleared
          have reads := covered idMask flag filled i set (Bool.eq_true_of_not_eq_false cleared)
          simp [unseen.2] at reads
        rw [Flag.has_clear, set, show (idMask ||| sectionFlagStopRequest).getLsbD i = false from stays]
        rfl
      case covered => simp
  | stopsRequest => cases polls

end SectionFlag

/-- Hits and `alisldmx_section_request_poll`, on channels that come and go. -/
def sectionHits : Machine SectionFlag FlagLabel :=
  sectionFlag.restrict (fun _ label => SectionFlag.stopsPoll label = false)

def unmissedHits : Machine SectionFlag FlagLabel :=
  sectionHits.restrict (fun state label => state.unmissed label = true)

namespace SectionFlag

/-- Where every step is unmissed, a hit that no call has reported is still in the word. -/
theorem hit_not_lost (state : SectionFlag) (reachable : unmissedHits.Reachable state) :
    ∀ i, state.unseen i = true → state.flag.has i = true := by
  have reported : Reported state := by
    refine Machine.Reachable.always ?_ ?_ state reachable
    · intro state start
      rw [show state = opened from start]
      exact ⟨by simp [opened, Bounded], by simp [opened], by simp [opened]⟩
    · intro state label after _ reported moved
      rcases Machine.restrict_next.mp moved with ⟨meets, moved⟩
      rcases Machine.restrict_next.mp moved with ⟨polls, moved⟩
      exact reported.moves polls meets (step_moves moved)
  exact reported.pending

/-- A call polls for the first two channels, and the first one is hit. -/
def pollTwo : List FlagLabel :=
  [.allocateChannel, .allocateChannel, .hit 0, .requestPoll 3, .wake, .fill]

theorem hit_not_lost_two : ∃ state, unmissedHits.Reachable state ∧
    state.unseen 1 = true ∧ state.flag.has 1 = true := by
  have ran : (unmissedHits.run opened (pollTwo ++ [.clear, .hit 1])).map
      (fun state => state.unseen 1) = some true := by
    decide +kernel
  rcases Option.map_eq_some_iff.mp ran with ⟨state, reached, unseen⟩
  have reachable : unmissedHits.Reachable state := Machine.reachable_of_run (.initial rfl) reached
  exact ⟨state, reachable, unseen, hit_not_lost state reachable 1 unseen⟩

/-- The second channel is hit after the word was read. -/
theorem hit_lost : ¬ ∀ state, sectionHits.Reachable state →
    ∀ i, state.unseen i = true → state.flag.has i = true := by
  intro kept
  have ran : (sectionHits.run opened (pollTwo ++ [.hit 1, .clear])).map
      (fun state => (state.unseen 1, state.flag.has 1)) = some (true, false) := by
    decide +kernel
  rcases Option.map_eq_some_iff.mp ran with ⟨state, reached, result⟩
  have reachable : sectionHits.Reachable state := Machine.reachable_of_run (.initial rfl) reached
  rw [Prod.mk.injEq] at result
  have set := kept state reachable 1 result.1
  simp [result.2] at set

/-- A channel is allocated only while one of the first thirty is free, and the masks name only
these. -/
def within (state : SectionFlag) : FlagLabel → Bool
  | .allocateChannel => (List.range 30).any (fun i => !state.live i)
  | .requestPoll idMask => idMask &&& ~~~sectionFlagAllId == 0
  | _ => true

/-- What each bit of the word is for. -/
def meant (state : SectionFlag) (i : Nat) : Bool :=
  if i = 30 then state.stopPoll else if i = 31 then state.stopRequest else state.hit i

structure Apart (state : SectionFlag) : Prop where
  live : ∀ i, state.live i = true → i < 30
  masked : ∀ i, state.request.idMask.getLsbD i = true → i < 30
  bits : ∀ i, i < 32 → state.flag.has i = state.meant i

theorem getLsbD_allId (i : Nat) : sectionFlagAllId.getLsbD i = decide (i < 30) := by
  by_cases inside : i < 32
  · interval_cases i <;> rfl
  · rw [BitVec.getLsbD_of_ge _ _ (by omega)]
    simp
    omega

theorem lt_of_masked {idMask : BitVec 32} (meets : (idMask &&& ~~~sectionFlagAllId == 0) = true)
    {i : Nat} (set : idMask.getLsbD i = true) : i < 30 := by
  by_contra large
  have inside : i < 32 := by
    by_contra outside
    rw [BitVec.getLsbD_of_ge _ _ (by omega)] at set
    cases set
  have bit : (idMask &&& ~~~sectionFlagAllId).getLsbD i = true := by
    rw [BitVec.getLsbD_and, BitVec.getLsbD_not, getLsbD_allId, set]
    simp [inside]
    omega
  rw [eq_of_beq meets] at bit
  simp at bit

theorem freeSlot_lt_within {state : SectionFlag} {index : Nat}
    (meets : state.within .allocateChannel = true) (found : state.freeSlot = some index) :
    index < 30 := by
  rcases List.any_eq_true.mp meets with ⟨i, below, free⟩
  rcases List.find?_range_eq_some.mp found with ⟨-, -, taken⟩
  by_contra large
  have live := taken i (by have := List.mem_range.mp below; omega)
  rw [free] at live
  cases live

theorem Apart.moves {state after : SectionFlag} {label : FlagLabel} (apart : Apart state)
    (meets : state.within label = true) (moves : Moves state label after) : Apart after := by
  have live := apart.live
  have masked := apart.masked
  have bits := apart.bits
  cases moves with
  | hit index found =>
      have below := live index found
      refine ⟨live, masked, ?_⟩
      intro i inside
      rw [Flag.has_set, bits i inside, Flag.getLsbD_bit _ _ inside]
      rcases eq_or_ne i index with rfl | other
      · simp [meant, show i ≠ 30 by omega, show i ≠ 31 by omega]
      · simp [meant, other]
  | full => exact apart
  | takes index found =>
      have below := freeSlot_lt_within meets found
      constructor
      case live =>
        intro i taken
        rcases eq_or_ne i index with rfl | other
        · exact below
        · exact live i (by simpa [other] using taken)
      case masked => exact masked
      case bits =>
        intro i inside
        rw [Flag.has_clear, bits i inside, Flag.getLsbD_bit _ _ inside]
        rcases eq_or_ne i index with rfl | other
        · simp [meant, show i ≠ 30 by omega, show i ≠ 31 by omega]
        · simp [meant, other]
  | frees index =>
      refine ⟨?_, masked, bits⟩
      intro i taken
      rcases eq_or_ne i index with rfl | other
      · simp at taken
      · exact live i (by simpa [other] using taken)
  | stops =>
      refine ⟨live, masked, ?_⟩
      intro i inside
      rw [Flag.has_set, bits i inside, sectionFlagStopPoll, Flag.getLsbD_bit _ _ inside]
      rcases eq_or_ne i 30 with rfl | other
      · simp [meant]
      · simp [meant, other]
  | resets =>
      refine ⟨live, masked, ?_⟩
      intro i inside
      rw [Flag.has_clear, bits i inside, sectionFlagStopPoll, Flag.getLsbD_bit _ _ inside]
      rcases eq_or_ne i 30 with rfl | other
      · simp [meant]
      · simp [meant, other]
  | requests idMask idle => exact ⟨live, fun i set => lt_of_masked meets set, bits⟩
  | expires idMask waits => exact ⟨live, by simp [RequestPoll.idMask], bits⟩
  | wakes idMask waits =>
      rw [waits] at masked
      exact ⟨live, masked, bits⟩
  | fills idMask woken =>
      rw [woken] at masked
      exact ⟨live, masked, bits⟩
  | clears idMask flag filled =>
      rw [filled] at masked
      refine ⟨live, by simp [RequestPoll.idMask], ?_⟩
      intro i inside
      rw [Flag.has_clear, bits i inside, BitVec.getLsbD_or, sectionFlagStopRequest,
        Flag.getLsbD_bit _ _ inside]
      rcases Nat.lt_or_ge i 30 with below | above
      · simp [meant, show i ≠ 30 by omega, show i ≠ 31 by omega]
      · have unmasked : idMask.getLsbD i = false := by
          by_contra set
          have below := masked i (Bool.eq_true_of_not_eq_false set)
          omega
        rcases (show i = 30 ∨ i = 31 by omega) with rfl | rfl
        · rw [unmasked]
          simp [meant]
        · simp [meant]
  | stopsRequest =>
      refine ⟨live, masked, ?_⟩
      intro i inside
      rw [Flag.has_set, bits i inside, sectionFlagStopRequest, Flag.getLsbD_bit _ _ inside]
      rcases eq_or_ne i 31 with rfl | other
      · simp [meant]
      · simp [meant, other]

end SectionFlag

def fewSections : Machine SectionFlag FlagLabel :=
  sectionFlag.restrict (fun state label => state.within label = true)

namespace SectionFlag

/-- With at most the first thirty channels the stops are exactly the ones asked for, and a channel
whose bit is set was hit. -/
theorem control_bits_apart (state : SectionFlag) (reachable : fewSections.Reachable state) :
    state.flag.has 30 = state.stopPoll ∧ state.flag.has 31 = state.stopRequest ∧
      ∀ i, state.live i = true → state.flag.has i = true → state.hit i = true := by
  have apart : Apart state := by
    refine Machine.Reachable.always ?_ ?_ state reachable
    · intro state start
      rw [show state = opened from start]
      refine ⟨by simp [opened], by simp [opened, RequestPoll.idMask], ?_⟩
      intro i _
      simp [opened, Flag.has, meant]
    · intro state label after _ apart moved
      rcases Machine.restrict_next.mp moved with ⟨meets, moved⟩
      exact apart.moves meets (step_moves moved)
  refine ⟨apart.bits 30 (by decide), apart.bits 31 (by decide), ?_⟩
  intro i live set
  have below := apart.live i live
  rw [apart.bits i (by omega)] at set
  simpa [meant, show i ≠ 30 by omega, show i ≠ 31 by omega] using set

theorem control_bits_apart_thirty : ∃ state, fewSections.Reachable state ∧
    state.live 29 = true ∧ state.stopRequest = true ∧ state.flag.has 31 = true := by
  have ran : (fewSections.run opened
      (List.replicate 30 .allocateChannel ++ [.hit 29, .requestPollRelease])).map
        (fun state => (state.live 29, state.stopRequest)) = some (true, true) := by
    decide +kernel
  rcases Option.map_eq_some_iff.mp ran with ⟨state, reached, result⟩
  rw [Prod.mk.injEq] at result
  have reachable : fewSections.Reachable state := Machine.reachable_of_run (.initial rfl) reached
  refine ⟨state, reachable, result.1, result.2, ?_⟩
  rw [(control_bits_apart state reachable).2.1, result.2]

/-- A hit of the thirty-first channel sets the bit that stops a poll. -/
theorem hit_stops_poll : ¬ ∀ state, sectionFlag.Reachable state →
    state.flag.has 30 = state.stopPoll ∧ state.flag.has 31 = state.stopRequest ∧
      ∀ i, state.live i = true → state.flag.has i = true → state.hit i = true := by
  intro always
  have ran : (sectionFlag.run opened (List.replicate 31 .allocateChannel ++ [.hit 30])).map
      (fun state => (state.flag.has 30, state.stopPoll)) = some (true, false) := by
    decide +kernel
  rcases Option.map_eq_some_iff.mp ran with ⟨state, reached, result⟩
  rw [Prod.mk.injEq] at result
  have reachable : sectionFlag.Reachable state := Machine.reachable_of_run (.initial rfl) reached
  have same := (always state reachable).1
  rw [result.1, result.2] at same
  cases same

end SectionFlag

end Alisl.Dmx
