import Alisl.Base.Machine
import Alisl.Base.Distinct
import Mathlib.Data.List.Basic
import Mathlib.Tactic.Common

/-! The PID list of a record channel and its copy in the driver's parameters. -/

namespace Alisl.Dmx.PidList

open Alisl.Base

abbrev Pid := BitVec 16

def dmxIllegalPid : Pid := 0x1FFF

/-- The 13 bits of a PID. -/
def pidMask (pid : Pid) : Pid := pid &&& 0x1FFF

def pidValid (pid : Pid) : Bool := pidMask pid != dmxIllegalPid

/-- The lengths of the two arrays, which the driver's headers fix. -/
structure Lengths where
  recPidListMaxLen : Nat
  tsPidListLen : Nat
  positive : 0 < recPidListMaxLen
  copied : recPidListMaxLen ≤ tsPidListLen

/-- An array and one more than the highest index written so far; a write past the array lands in
memory behind it. -/
structure PidArray where
  entry : Nat → Pid
  written : Nat

namespace PidArray

def zero : PidArray := ⟨fun _ => 0, 0⟩

def store (array : PidArray) (index : Nat) (pid : Pid) : PidArray :=
  ⟨fun i => if i = index then pid else array.entry i, max array.written (index + 1)⟩

/-- The first `count` entries. -/
def first (array : PidArray) (count : Nat) : List Pid := (List.range count).map array.entry

/-- `memset` of the first `count` entries to 0. -/
def clear (array : PidArray) (count : Nat) : PidArray :=
  ⟨fun i => if i < count then 0 else array.entry i, max array.written count⟩

/-- `memcpy` of `pids` to the start. -/
def fill (array : PidArray) (pids : List Pid) : PidArray :=
  ⟨fun i => pids.getD i (array.entry i), max array.written pids.length⟩

end PidArray

structure TsParam where
  pidList : PidArray
  pidListLen : Nat

/-- What the calls read and write of a record channel: `wholeTp` is `rec_whole_tp`, `pcr` says that its
stream is `DMX_STREAM_PCR`. -/
structure Channel where
  enabled : Bool
  wholeTp : Bool
  pcr : Bool
  pidList : PidArray
  nbPid : Nat
  tsParam : TsParam
  pesPid : Pid
  secPid : Pid
  pcrPid : Pid

/-- The loop of `channel_pidlist_update` and `add_pidlist`: the new `nb` and the array. -/
def insertPids (lengths : Lengths) : List Pid → Nat → PidArray → Nat × PidArray
  | [], nb, array => (nb, array)
  | given :: pids, nb, array =>
      let pid := pidMask given
      if ¬ pidValid pid then insertPids lengths pids nb array
      else if pid ∈ array.first nb then insertPids lengths pids nb array
      else
        let array := array.store nb pid
        if lengths.recPidListMaxLen ≤ nb + 1 then (nb + 1, array)
        else insertPids lengths pids (nb + 1) array

/-- `for (k = j; k < nb - 1; k++)`, with `count` rounds to go. -/
def shiftDown : Nat → Nat → PidArray → PidArray
  | 0, _, array => array
  | count + 1, k, array => shiftDown count (k + 1) (array.store k (array.entry (k + 1)))

/-- The loop of `delete_pidlist`. -/
def removePids : List Pid → Nat → PidArray → Nat × PidArray
  | [], nb, array => (nb, array)
  | given :: pids, nb, array =>
      let pid := pidMask given
      if ¬ pidValid pid then removePids pids nb array
      else
        let j := (array.first nb).idxOf pid
        if j < nb then removePids pids (nb - 1) (shiftDown (nb - 1 - j) j array)
        else removePids pids nb array

namespace Channel

/-- The current list. -/
def pids (ch : Channel) : List Pid := ch.pidList.first ch.nbPid

/-- The driver's copy of it. -/
def tsPids (ch : Channel) : List Pid := ch.tsParam.pidList.first ch.tsParam.pidListLen

def channelStop (ch : Channel) : Channel := { ch with enabled := false }

/-- `channel_start`, as far as it reads the list; `opened` when the device opens and starts. -/
def channelStart (ch : Channel) (opened : Bool) : Channel :=
  if ch.enabled then ch
  else if ch.nbPid = 0 ∧ ¬ ch.wholeTp then ch
  else { ch with enabled := opened }

def channelPidlistUpdate (lengths : Lengths) (ch : Channel) (pids : List Pid) : Channel :=
  let (nb, pidList) := insertPids lengths pids 0 ch.pidList
  { ch with pidList, nbPid := nb }

def alisldmxSetChannelPidlist (lengths : Lengths) (ch : Channel) (pids : List Pid) (opened : Bool) :
    Channel :=
  let restart := ch.enabled
  let ch := if restart then ch.channelStop else ch
  let ch := ch.channelPidlistUpdate lengths pids
  let ch :=
    if 0 < ch.nbPid then
      { ch with
        pesPid := ch.pidList.entry 0
        secPid := ch.pidList.entry 0
        tsParam := ⟨ch.tsParam.pidList.fill ch.pids, ch.nbPid⟩
        pcrPid := if ch.pcr then ch.pidList.entry 0 else ch.pcrPid }
    else ch
  if restart then ch.channelStart opened else ch

/-- The end of `add_pidlist` and `delete_pidlist`. -/
def renew (ch : Channel) (nb : Nat) (pidList : PidArray) : Channel :=
  { ch with
    pidList
    nbPid := nb
    tsParam := ⟨(ch.tsParam.pidList.clear ch.tsParam.pidListLen).fill (pidList.first nb), nb⟩ }

def addPidlist (lengths : Lengths) (ch : Channel) (pids : List Pid) : Channel :=
  let (nb, pidList) := insertPids lengths pids ch.nbPid ch.pidList
  ch.renew nb pidList

def deletePidlist (ch : Channel) (pids : List Pid) : Channel :=
  let (nb, pidList) := removePids pids ch.nbPid ch.pidList
  ch.renew nb pidList

end Channel

/-- The channel, and `ts_param` of the `dmx_param` that the last call handed to the driver. -/
structure State where
  ch : Channel
  dmxParam : TsParam

inductive Call where
  | set (pids : List Pid) (opened : Bool)
  | add (pids : List Pid)
  | del (pids : List Pid)

/-- `dmx_param` of one call. -/
def handed (pids : List Pid) : TsParam := ⟨PidArray.zero.fill pids, pids.length⟩

def State.next (lengths : Lengths) (state : State) : Call → State
  | .set pids opened => { state with ch := state.ch.alisldmxSetChannelPidlist lengths pids opened }
  | .add pids => ⟨state.ch.addPidlist lengths pids, handed pids⟩
  | .del pids => ⟨state.ch.deletePidlist pids, handed pids⟩

/-- A channel is allocated without PIDs. -/
def machine (lengths : Lengths) : Machine State Call where
  Initial state := state.ch.nbPid = 0 ∧ state.ch.pidList.written = 0 ∧
    state.ch.tsParam.pidListLen = 0 ∧ state.ch.tsParam.pidList.written = 0 ∧
    state.dmxParam.pidList.written = 0
  next state call := some (state.next lengths call)

/-- The valid PIDs of an argument. -/
def validPids (pids : List Pid) : List Pid := (pids.map pidMask).filter pidValid

/-- What a call should make of the list: set construction, ordered union and difference. -/
def meant (held : List Pid) : Call → List Pid
  | .set pids _ => (validPids pids).eraseDups
  | .add pids => orderedUnion held (validPids pids)
  | .del pids => held.removeAll (validPids pids)

/-- What should hold of a record channel. -/
structure Consistent (lengths : Lengths) (state : State) : Prop where
  bounded : state.ch.nbPid ≤ lengths.recPidListMaxLen
  inside : state.ch.pidList.written ≤ lengths.recPidListMaxLen
  ts_inside : state.ch.tsParam.pidList.written ≤ lengths.tsPidListLen
  handed_inside : state.dmxParam.pidList.written ≤ lengths.tsPidListLen
  distinct : state.ch.pids.Nodup
  valid : ∀ pid ∈ state.ch.pids, pid.toNat < 0x1FFF
  copied : state.ch.tsPids = state.ch.pids

/-- The call does not reach a defect: a set gives some valid PID or the driver's copy is empty, an add
to a full list brings nothing new, and the argument of an add or a delete fits `dmx_param`. -/
def Meets (lengths : Lengths) (state : State) : Call → Prop
  | .set pids _ => validPids pids ≠ [] ∨ state.ch.tsParam.pidListLen = 0
  | .add pids => pids.length ≤ lengths.tsPidListLen ∧
      (state.ch.nbPid < lengths.recPidListMaxLen ∨ validPids pids ⊆ state.ch.pids)
  | .del pids => pids.length ≤ lengths.tsPidListLen

instance (lengths : Lengths) (state : State) : (call : Call) → Decidable (Meets lengths state call)
  | .set pids _ =>
      inferInstanceAs (Decidable (validPids pids ≠ [] ∨ state.ch.tsParam.pidListLen = 0))
  | .add pids => inferInstanceAs (Decidable (pids.length ≤ lengths.tsPidListLen ∧
      (state.ch.nbPid < lengths.recPidListMaxLen ∨ validPids pids ⊆ state.ch.pids)))
  | .del pids => inferInstanceAs (Decidable (pids.length ≤ lengths.tsPidListLen))

namespace PidArray

@[simp] theorem length_first (array : PidArray) (count : Nat) :
    (array.first count).length = count := by
  simp [first]

@[simp] theorem first_zero (array : PidArray) : array.first 0 = [] := rfl

@[simp] theorem getElem_first (array : PidArray) (count i : Nat)
    (inside : i < (array.first count).length) : (array.first count)[i] = array.entry i := by
  simp [first]

@[simp] theorem written_store (array : PidArray) (index : Nat) (pid : Pid) :
    (array.store index pid).written = max array.written (index + 1) := rfl

@[simp] theorem written_fill (array : PidArray) (pids : List Pid) :
    (array.fill pids).written = max array.written pids.length := rfl

@[simp] theorem written_clear (array : PidArray) (count : Nat) :
    (array.clear count).written = max array.written count := rfl

theorem first_store (array : PidArray) (nb : Nat) (pid : Pid) :
    (array.store nb pid).first (nb + 1) = array.first nb ++ [pid] := by
  have kept : ∀ i ∈ List.range nb, (array.store nb pid).entry i = array.entry i := by
    intro i member
    simp [store, Nat.ne_of_lt (List.mem_range.mp member)]
  simp only [first, List.range_succ, List.map_append, List.map_congr_left kept]
  simp [store]

theorem first_fill (array : PidArray) (pids : List Pid) :
    (array.fill pids).first pids.length = pids := by
  apply List.ext_getElem
  · simp
  · intro i inside within
    simp [fill, within]

theorem entry_shiftDown (count k i : Nat) (array : PidArray) :
    (shiftDown count k array).entry i =
      if k ≤ i ∧ i < k + count then array.entry (i + 1) else array.entry i := by
  induction count generalizing k array with
  | zero =>
      have outside : ¬ (k ≤ i ∧ i < k + 0) := by omega
      simp only [shiftDown, if_neg outside]
  | succ count ih =>
      rw [shiftDown, ih]
      simp only [store]
      grind

/-- The entry at `j` is gone. -/
theorem first_shiftDown (array : PidArray) {j nb : Nat} (inside : j < nb) :
    (shiftDown (nb - 1 - j) j array).first (nb - 1) = (array.first nb).eraseIdx j := by
  apply List.ext_getElem
  · simp [List.length_eraseIdx, inside]
  · intro i within _
    have bound : i < nb - 1 := by simpa using within
    rw [getElem_first, entry_shiftDown, List.getElem_eraseIdx]
    by_cases before : i < j
    · simp [before, Nat.not_le.mpr before]
    · have moved : j ≤ i ∧ i < j + (nb - 1 - j) := by omega
      simp [before, moved]

theorem written_shiftDown (count k : Nat) (array : PidArray) :
    (shiftDown count k array).written ≤ max array.written (k + count) := by
  induction count generalizing k array with
  | zero => exact Nat.le_max_left _ _
  | succ count ih =>
      have rest := ih (k + 1) (array.store k (array.entry (k + 1)))
      simp only [written_store] at rest
      rw [shiftDown]
      omega

end PidArray

theorem toNat_pidMask {pid : Pid} (valid : pidValid (pidMask pid) = true) :
    (pidMask pid).toNat < 0x1FFF := by
  have bound : (pidMask pid).toNat ≤ 0x1FFF := by
    rw [pidMask, BitVec.toNat_and]
    exact Nat.and_le_right
  have twice : pidMask (pidMask pid) = pidMask pid := by
    simp only [pidMask, BitVec.and_assoc, BitVec.and_self]
  have other : (pidMask pid).toNat ≠ 0x1FFF := by
    intro same
    have illegal : pidMask pid = dmxIllegalPid := BitVec.eq_of_toNat_eq same
    rw [illegal] at twice
    simp [pidValid, illegal, twice] at valid
  omega

theorem validPids_cons (given : Pid) (pids : List Pid) :
    validPids (given :: pids) =
      if pidValid (pidMask given) then pidMask given :: validPids pids else validPids pids := by
  simp [validPids, List.filter_cons]

theorem toNat_of_mem_validPids {pid : Pid} {pids : List Pid} (member : pid ∈ validPids pids) :
    pid.toNat < 0x1FFF := by
  obtain ⟨masked, valid⟩ := List.mem_filter.mp member
  obtain ⟨given, _, rfl⟩ := List.mem_map.mp masked
  exact toNat_pidMask valid

/-- Below capacity the loop makes the ordered union, cut at the capacity. -/
theorem insertPids_spec (lengths : Lengths) (pids : List Pid) (nb : Nat) (array : PidArray)
    (room : nb < lengths.recPidListMaxLen) :
    (insertPids lengths pids nb array).2.first (insertPids lengths pids nb array).1 =
        (orderedUnion (array.first nb) (validPids pids)).take lengths.recPidListMaxLen ∧
      (insertPids lengths pids nb array).1 ≤ lengths.recPidListMaxLen ∧
      (insertPids lengths pids nb array).2.written ≤
        max array.written lengths.recPidListMaxLen := by
  induction pids generalizing nb array with
  | nil =>
      have all : (array.first nb).take lengths.recPidListMaxLen = array.first nb :=
        List.take_of_length_le (by simp; omega)
      refine ⟨?_, Nat.le_of_lt room, Nat.le_max_left _ _⟩
      simp [insertPids, validPids, all]
  | cons given pids ih =>
      rw [validPids_cons]
      by_cases valid : pidValid (pidMask given)
      · by_cases held : pidMask given ∈ array.first nb
        · simpa [insertPids, valid, held, orderedUnion_cons_mem held] using ih nb array room
        · by_cases full : lengths.recPidListMaxLen ≤ nb + 1
          · -- the array is full with this entry
            have last : nb + 1 = lengths.recPidListMaxLen := by omega
            have cut : (orderedUnion (array.first nb ++ [pidMask given]) (validPids pids)).take
                lengths.recPidListMaxLen = array.first nb ++ [pidMask given] := by
              rw [orderedUnion, List.take_append_of_le_length (by simp [last])]
              exact List.take_of_length_le (by simp [last])
            have stored := PidArray.first_store array nb (pidMask given)
            rw [last] at stored
            simp [insertPids, valid, held, orderedUnion_cons_notMem held, stored, cut, last]
          · have rest := ih (nb + 1) (array.store nb (pidMask given)) (by omega)
            rw [PidArray.first_store, PidArray.written_store] at rest
            simp only [insertPids, valid, held, full, orderedUnion_cons_notMem held, not_true_eq_false,
              if_true, if_false]
            exact ⟨rest.1, rest.2.1, Nat.le_trans rest.2.2 (by omega)⟩
      · simpa [insertPids, valid] using ih nb array room

/-- Nothing new changes nothing. -/
theorem insertPids_subset (lengths : Lengths) (pids : List Pid) (nb : Nat) (array : PidArray)
    (held : validPids pids ⊆ array.first nb) : insertPids lengths pids nb array = (nb, array) := by
  induction pids with
  | nil => rfl
  | cons given pids ih =>
      rw [validPids_cons] at held
      by_cases valid : pidValid (pidMask given)
      · rw [if_pos valid] at held
        have present := List.cons_subset.mp held
        simpa [insertPids, valid, present.1] using ih present.2
      · rw [if_neg valid] at held
        simpa [insertPids, valid] using ih held

/-- A full array is written behind its end. -/
theorem insertPids_full (lengths : Lengths) (pids : List Pid) (array : PidArray)
    (new : ¬ validPids pids ⊆ array.first lengths.recPidListMaxLen) :
    (insertPids lengths pids lengths.recPidListMaxLen array).1 = lengths.recPidListMaxLen + 1 := by
  induction pids with
  | nil => exact absurd (List.nil_subset _) new
  | cons given pids ih =>
      rw [validPids_cons] at new
      by_cases valid : pidValid (pidMask given)
      · rw [if_pos valid] at new
        by_cases held : pidMask given ∈ array.first lengths.recPidListMaxLen
        · have rest : ¬ validPids pids ⊆ array.first lengths.recPidListMaxLen :=
            fun present => new (List.cons_subset.mpr ⟨held, present⟩)
          simpa [insertPids, valid, held] using ih rest
        · simp [insertPids, valid, held]
      · rw [if_neg valid] at new
        simpa [insertPids, valid] using ih new

theorem removePids_spec (pids : List Pid) (nb : Nat) (array : PidArray)
    (distinct : (array.first nb).Nodup) :
    (removePids pids nb array).2.first (removePids pids nb array).1 =
        (array.first nb).removeAll (validPids pids) ∧
      (removePids pids nb array).1 ≤ nb ∧
      (removePids pids nb array).2.written ≤ max array.written nb := by
  induction pids generalizing nb array with
  | nil => exact ⟨by simp [removePids, validPids], Nat.le_refl _, Nat.le_max_left _ _⟩
  | cons given pids ih =>
      rw [validPids_cons]
      by_cases valid : pidValid (pidMask given)
      · rw [if_pos valid, removeAll_cons_mem distinct]
        by_cases inside : (array.first nb).idxOf (pidMask given) < nb
        · generalize position : (array.first nb).idxOf (pidMask given) = j at inside
          have erased : (shiftDown (nb - 1 - j) j array).first (nb - 1) =
              (array.first nb).erase (pidMask given) := by
            rw [PidArray.first_shiftDown array inside, List.erase_eq_eraseIdx_of_idxOf position]
          have rest := ih (nb - 1) (shiftDown (nb - 1 - j) j array) (by
            rw [erased]
            exact distinct.erase _)
          have written := PidArray.written_shiftDown (nb - 1 - j) j array
          rw [erased] at rest
          simp only [removePids, valid, position, inside, not_true_eq_false, if_true, if_false]
          exact ⟨rest.1, by omega, by omega⟩
        · have absent : pidMask given ∉ array.first nb := by
            intro member
            exact inside (by simpa using List.idxOf_lt_length_of_mem member)
          simpa [removePids, valid, inside, List.erase_of_not_mem absent] using ih nb array distinct
      · simpa [removePids, valid] using ih nb array distinct

namespace Channel

theorem channelStart_lists (ch : Channel) (opened : Bool) :
    (ch.channelStart opened).pidList = ch.pidList ∧ (ch.channelStart opened).nbPid = ch.nbPid ∧
      (ch.channelStart opened).tsParam = ch.tsParam := by
  unfold channelStart
  split_ifs <;> exact ⟨rfl, rfl, rfl⟩

/-- Stopping and restarting the channel does not touch the lists. -/
theorem set_lists (lengths : Lengths) (ch : Channel) (pids : List Pid) (opened : Bool) {nb : Nat}
    {pidList : PidArray} (inserted : insertPids lengths pids 0 ch.pidList = (nb, pidList)) :
    (ch.alisldmxSetChannelPidlist lengths pids opened).pidList = pidList ∧
      (ch.alisldmxSetChannelPidlist lengths pids opened).nbPid = nb ∧
      (ch.alisldmxSetChannelPidlist lengths pids opened).tsParam =
        if 0 < nb then ⟨ch.tsParam.pidList.fill (pidList.first nb), nb⟩ else ch.tsParam := by
  have started := channelStart_lists
  cases enabled : ch.enabled <;> by_cases some : 0 < nb <;>
    simp [alisldmxSetChannelPidlist, channelPidlistUpdate, channelStop, Channel.pids, inserted,
      enabled, some, started]

theorem renew_tsPids (ch : Channel) (nb : Nat) (pidList : PidArray) :
    (ch.renew nb pidList).tsPids = (ch.renew nb pidList).pids := by
  have filled := PidArray.first_fill (ch.tsParam.pidList.clear ch.tsParam.pidListLen)
    (pidList.first nb)
  rwa [PidArray.length_first] at filled

end Channel

/-- What one call makes of a consistent channel, where it does not reach a defect. -/
theorem next_pids (lengths : Lengths) {state : State} (consistent : Consistent lengths state)
    (call : Call) (meets : Meets lengths state call) :
    (state.next lengths call).ch.pids =
      (meant state.ch.pids call).take lengths.recPidListMaxLen := by
  cases call with
  | set pids opened =>
      obtain ⟨pidList, nbPid, _⟩ := state.ch.set_lists lengths pids opened rfl
      have inserted := insertPids_spec lengths pids 0 state.ch.pidList lengths.positive
      simpa [State.next, Channel.pids, meant, pidList, nbPid] using inserted.1
  | add pids =>
      rcases meets.2 with room | held
      · exact (insertPids_spec lengths pids state.ch.nbPid state.ch.pidList room).1
      · have kept := insertPids_subset lengths pids state.ch.nbPid state.ch.pidList held
        have short : state.ch.pids.length ≤ lengths.recPidListMaxLen := by
          simpa [Channel.pids] using consistent.bounded
        simp only [meant, orderedUnion_subset held, List.take_of_length_le short]
        simp [State.next, Channel.addPidlist, Channel.renew, Channel.pids, kept]
  | del pids =>
      have removed := removePids_spec pids state.ch.nbPid state.ch.pidList consistent.distinct
      have short : (state.ch.pids.removeAll (validPids pids)).length ≤ lengths.recPidListMaxLen := by
        refine Nat.le_trans (List.length_filter_le _ _) ?_
        simpa [Channel.pids] using consistent.bounded
      simp only [meant, List.take_of_length_le short]
      exact removed.1

theorem nodup_meant {held : List Pid} (distinct : held.Nodup) (call : Call) :
    (meant held call).Nodup := by
  cases call with
  | set pids opened => exact nodup_eraseDups _
  | add pids => exact nodup_orderedUnion distinct _
  | del pids => exact distinct.filter _

theorem valid_meant {held : List Pid} (valid : ∀ pid ∈ held, pid.toNat < 0x1FFF) (call : Call) :
    ∀ pid ∈ meant held call, pid.toNat < 0x1FFF := by
  intro pid member
  cases call with
  | set pids opened => exact toNat_of_mem_validPids (List.mem_eraseDups.mp member)
  | add pids => exact (mem_orderedUnion.mp member).elim (valid pid) toNat_of_mem_validPids
  | del pids => exact valid pid (mem_removeAll.mp member).1

theorem written_handed (pids : List Pid) : (handed pids).pidList.written = pids.length := by
  simp [handed, PidArray.zero]

/-- An add keeps its writes inside the array, where it does not reach a defect. -/
theorem insertPids_written (lengths : Lengths) {state : State} (consistent : Consistent lengths state)
    (pids : List Pid)
    (fits : state.ch.nbPid < lengths.recPidListMaxLen ∨ validPids pids ⊆ state.ch.pids) :
    (insertPids lengths pids state.ch.nbPid state.ch.pidList).2.written ≤
      lengths.recPidListMaxLen := by
  have inside := consistent.inside
  rcases fits with room | held
  · have inserted := (insertPids_spec lengths pids state.ch.nbPid state.ch.pidList room).2.2
    omega
  · rw [insertPids_subset lengths pids state.ch.nbPid state.ch.pidList held]
    exact inside

theorem consistent_next (lengths : Lengths) {state : State} (consistent : Consistent lengths state)
    (call : Call) (meets : Meets lengths state call) :
    Consistent lengths (state.next lengths call) := by
  have pids_eq := next_pids lengths consistent call meets
  have bounded : (state.next lengths call).ch.nbPid ≤ lengths.recPidListMaxLen := by
    have size := congrArg List.length pids_eq
    simp only [Channel.pids, PidArray.length_first, List.length_take] at size
    omega
  have distinct : (state.next lengths call).ch.pids.Nodup := by
    rw [pids_eq]
    exact (nodup_meant consistent.distinct call).sublist (List.take_sublist _ _)
  have valid : ∀ pid ∈ (state.next lengths call).ch.pids, pid.toNat < 0x1FFF := by
    intro pid member
    rw [pids_eq] at member
    exact valid_meant consistent.valid call pid (List.mem_of_mem_take member)
  have inside := consistent.inside
  have ts_inside := consistent.ts_inside
  have copied := lengths.copied
  have old_len : state.ch.tsParam.pidListLen ≤ lengths.tsPidListLen := by
    have same := congrArg List.length consistent.copied
    have old := consistent.bounded
    simp only [Channel.tsPids, Channel.pids, PidArray.length_first] at same
    omega
  cases call with
  | set pids opened =>
      obtain ⟨pidList, nbPid, tsParam⟩ := state.ch.set_lists lengths pids opened rfl
      have inserted := insertPids_spec lengths pids 0 state.ch.pidList lengths.positive
      have written := inserted.2.2
      refine ⟨bounded, ?_, ?_, consistent.handed_inside, distinct, valid, ?_⟩
      · simp only [State.next, pidList]
        omega
      · simp only [State.next, tsParam]
        split_ifs
        · simp only [PidArray.written_fill, PidArray.length_first]
          omega
        · exact ts_inside
      · simp only [State.next, Channel.tsPids, Channel.pids, tsParam, nbPid, pidList]
        split_ifs with some
        · have filled := PidArray.first_fill state.ch.tsParam.pidList
            ((insertPids lengths pids 0 state.ch.pidList).2.first
              (insertPids lengths pids 0 state.ch.pidList).1)
          rwa [PidArray.length_first] at filled
        · -- no valid PID was given
          have none : (insertPids lengths pids 0 state.ch.pidList).1 = 0 := by omega
          have empty : validPids pids = [] := by
            have firsts := inserted.1
            simp only [none, PidArray.first_zero, nil_orderedUnion] at firsts
            have nothing : (validPids pids).eraseDups = [] := by
              simpa [List.take_eq_nil_iff, Nat.ne_of_gt lengths.positive] using firsts.symm
            refine List.eq_nil_iff_forall_not_mem.mpr (fun pid member => ?_)
            exact List.not_mem_nil (nothing ▸ List.mem_eraseDups.mpr member)
          have stale : state.ch.tsParam.pidListLen = 0 := meets.resolve_left (not_not_intro empty)
          simp [none, stale]
  | add pids =>
      have written := insertPids_written lengths consistent pids meets.2
      have size : (insertPids lengths pids state.ch.nbPid state.ch.pidList).1 ≤
          lengths.recPidListMaxLen := bounded
      refine ⟨bounded, written, ?_, ?_, distinct, valid, Channel.renew_tsPids _ _ _⟩
      · simp only [State.next, Channel.addPidlist, Channel.renew, PidArray.written_fill,
          PidArray.written_clear, PidArray.length_first]
        omega
      · exact Nat.le_trans (Nat.le_of_eq (written_handed pids)) meets.1
  | del pids =>
      have removed := removePids_spec pids state.ch.nbPid state.ch.pidList consistent.distinct
      have old := consistent.bounded
      have size : (removePids pids state.ch.nbPid state.ch.pidList).1 ≤
          lengths.recPidListMaxLen := bounded
      refine ⟨bounded, ?_, ?_, ?_, distinct, valid, Channel.renew_tsPids _ _ _⟩
      · simp only [State.next, Channel.deletePidlist, Channel.renew]
        omega
      · simp only [State.next, Channel.deletePidlist, Channel.renew, PidArray.written_fill,
          PidArray.written_clear, PidArray.length_first]
        omega
      · exact Nat.le_trans (Nat.le_of_eq (written_handed pids)) meets

/-- A call that reaches a defect leaves the channel inconsistent. -/
theorem meets_of_consistent_next (lengths : Lengths) {state : State}
    (consistent : Consistent lengths state) (call : Call)
    (after : Consistent lengths (state.next lengths call)) : Meets lengths state call := by
  cases call with
  | set pids opened =>
      by_cases empty : validPids pids = []
      · obtain ⟨pidList, nbPid, tsParam⟩ := state.ch.set_lists lengths pids opened rfl
        have none := insertPids_subset lengths pids 0 state.ch.pidList (by simp [empty])
        have same := congrArg List.length after.copied
        simp only [State.next, Channel.tsPids, Channel.pids, PidArray.length_first, tsParam, nbPid,
          none, Nat.lt_irrefl, if_false] at same
        exact .inr same
      · exact .inl empty
  | add pids =>
      refine ⟨?_, ?_⟩
      · exact Nat.le_trans (Nat.le_of_eq (written_handed pids).symm) after.handed_inside
      · by_cases room : state.ch.nbPid < lengths.recPidListMaxLen
        · exact .inl room
        · have full : state.ch.nbPid = lengths.recPidListMaxLen :=
            Nat.le_antisymm consistent.bounded (Nat.le_of_not_lt room)
          by_cases held : validPids pids ⊆ state.ch.pids
          · exact .inr held
          · rw [Channel.pids, full] at held
            have overrun := insertPids_full lengths pids state.ch.pidList held
            rw [← full] at overrun
            have bounded : (insertPids lengths pids state.ch.nbPid state.ch.pidList).1 ≤
                lengths.recPidListMaxLen := after.bounded
            omega
  | del pids => exact Nat.le_trans (Nat.le_of_eq (written_handed pids).symm) after.handed_inside

theorem consistent_initial (lengths : Lengths) {state : State}
    (start : (machine lengths).Initial state) : Consistent lengths state := by
  obtain ⟨nbPid, written, tsLen, tsWritten, handed⟩ := start
  exact ⟨by omega, by omega, by omega, by omega, by simp [Channel.pids, nbPid],
    by simp [Channel.pids, nbPid], by simp [Channel.tsPids, Channel.pids, nbPid, tsLen]⟩

/-- The list of a record channel and the driver's copy stay consistent over every run of calls that
reach no defect, and no longer; below the capacity the calls are set construction, ordered union and
difference. -/
theorem pidlist_consistent (lengths : Lengths) (state : State)
    (reachable : ((machine lengths).restrict (Meets lengths)).Reachable state) :
    Consistent lengths state ∧
      ∀ call, (Consistent lengths (state.next lengths call) ↔ Meets lengths state call) ∧
        (Meets lengths state call → (state.next lengths call).ch.pids =
          (meant state.ch.pids call).take lengths.recPidListMaxLen) := by
  have consistent : Consistent lengths state := by
    induction reachable with
    | initial start => exact consistent_initial lengths start
    | step before moved ih =>
        obtain ⟨meets, rfl⟩ : Meets lengths _ _ ∧ State.next lengths _ _ = _ := by
          simpa [machine] using Machine.restrict_next.mp moved
        exact consistent_next lengths ih _ meets
  refine ⟨consistent, fun call => ⟨⟨?_, ?_⟩, ?_⟩⟩
  · exact meets_of_consistent_next lengths consistent call
  · exact consistent_next lengths consistent call
  · exact next_pids lengths consistent call

/-- A record channel just allocated. -/
def allocated : State where
  ch := ⟨false, false, false, .zero, 0, ⟨.zero, 0⟩, 0, 0, 0⟩
  dmxParam := ⟨.zero, 0⟩

def shortLengths : Lengths := ⟨2, 2, by decide, by decide⟩

theorem pidlist_consistent_run :
    ∃ state, ((machine shortLengths).restrict (Meets shortLengths)).Reachable state ∧
      state.ch.pids = [0x100, 0x200] ∧ Consistent shortLengths state := by
  have ran : (((machine shortLengths).restrict (Meets shortLengths)).run allocated
      [.set [0x1FFF, 0x2100, 0x100] false, .add [0x300, 0x400], .del [0x300], .add [0x200]]).any
        (fun state => state.ch.pids = [0x100, 0x200]) = true := by decide +kernel
  obtain ⟨state, reached, pids⟩ := (Option.any_eq_true _ _).mp ran
  have start : ((machine shortLengths).restrict (Meets shortLengths)).Initial allocated :=
    ⟨rfl, rfl, rfl, rfl, rfl⟩
  have reachable := Machine.reachable_of_run (.initial start) reached
  exact ⟨state, reachable, of_decide_eq_true pids, (pidlist_consistent _ state reachable).1⟩

/-- An add to a full list writes behind the array, and a set of invalid PIDs leaves the driver's copy
behind. -/
theorem full_list_overrun :
    (∃ state, (machine shortLengths).Reachable state ∧ state.ch.nbPid = 3 ∧
      state.ch.pidList.written = 3 ∧ ¬ Consistent shortLengths state) ∧
      ∃ state, (machine shortLengths).Reachable state ∧ state.ch.pids = [] ∧
        state.ch.tsPids = [0x100] ∧ ¬ Consistent shortLengths state := by
  have overrun : ((machine shortLengths).run allocated [.add [0x100, 0x200], .add [0x300]]).any
      (fun state => state.ch.nbPid = 3 ∧ state.ch.pidList.written = 3) = true := by decide +kernel
  have stale : ((machine shortLengths).run allocated [.set [0x100] false, .set [0x1FFF] false]).any
      (fun state => state.ch.pids = [] ∧ state.ch.tsPids = [0x100]) = true := by decide +kernel
  refine ⟨?_, ?_⟩
  · obtain ⟨state, reached, holds⟩ := (Option.any_eq_true _ _).mp overrun
    obtain ⟨nbPid, written⟩ := of_decide_eq_true holds
    refine ⟨state, Machine.reachable_of_run (.initial ⟨rfl, rfl, rfl, rfl, rfl⟩) reached, nbPid,
      written, ?_⟩
    intro consistent
    exact absurd (nbPid ▸ consistent.bounded) (by decide)
  · obtain ⟨state, reached, holds⟩ := (Option.any_eq_true _ _).mp stale
    obtain ⟨pids, tsPids⟩ := of_decide_eq_true holds
    refine ⟨state, Machine.reachable_of_run (.initial ⟨rfl, rfl, rfl, rfl, rfl⟩) reached, pids,
      tsPids, ?_⟩
    intro consistent
    have same := consistent.copied
    rw [pids, tsPids] at same
    exact absurd same (by decide)

end Alisl.Dmx.PidList
