import Alisl.Upgrade.Handoff.Model

/-! The chunks on their way from the source to flash: mutual exclusion by the two
semaphores, and from it the order of what is written. -/

namespace Alisl.Upgrade.Handoff

open Alisl.Base

/-! Mutual exclusion. A thread is inside between its wait and its post. -/

def SourcePc.inside : SourcePc → Bool
  | .check | .setElem | .read | .publish | .post | .failPost => true
  | .test | .wait | .over => false

def WritterPc.inside : WritterPc → Bool
  | .check | .take | .prepare | .write | .account | .post => true
  | .wait | .exitTest | .finished | .fault => false

def State.baton (state : State) : Baton where
  holdsFirst := state.source.pc.inside
  holdsSecond := state.pc.inside
  toFirst := state.tune.writersem
  toSecond := state.tune.sourcesem

theorem SourceStep.baton_move {state after : State} (step : SourceStep state after) :
    Baton.Move state.baton after.baton := by
  cases step with
  | enter pc => simpa [State.baton, SourcePc.inside, pc] using Baton.Move.pass (.stay _)
  | leave pc => simpa [State.baton, SourcePc.inside, pc] using Baton.Move.pass (.stay _)
  | wait pc writersem token =>
      simpa [State.baton, SourcePc.inside, pc, token] using Baton.Move.pass (.takeFirst _ _ _)
  | giveUp pc => simpa [State.baton, SourcePc.inside, pc] using Baton.Move.dropFirst _ _ _
  | goOn pc => simpa [State.baton, SourcePc.inside, pc] using Baton.Move.pass (.stay _)
  | setElem pc => simpa [State.baton, SourcePc.inside, pc] using Baton.Move.pass (.stay _)
  | copy pc => simpa [State.baton, SourcePc.inside, pc] using Baton.Move.pass (.stay _)
  | readDone pc => simpa [State.baton, SourcePc.inside, pc] using Baton.Move.pass (.stay _)
  | readFail pc => simpa [State.baton, SourcePc.inside, pc] using Baton.Move.pass (.stay _)
  | publish pc => simpa [State.baton, SourcePc.inside, pc] using Baton.Move.pass (.stay _)
  | post pc => simpa [State.baton, SourcePc.inside, pc] using Baton.Move.pass (.giveFirst _ _ _)
  | failPost pc => simpa [State.baton, SourcePc.inside, pc] using Baton.Move.pass (.giveFirst _ _ _)

theorem WritterStep.baton_move {state after : State} (step : WritterStep state after) :
    Baton.Move state.baton after.baton := by
  cases step with
  | wait pc sourcesem token =>
      simpa [State.baton, WritterPc.inside, pc, token] using Baton.Move.pass (.takeSecond _ _ _)
  | stop pc => simpa [State.baton, WritterPc.inside, pc] using Baton.Move.dropSecond _ _ _
  | goOn pc => simpa [State.baton, WritterPc.inside, pc] using Baton.Move.pass (.stay _)
  | take pc => simpa [State.baton, WritterPc.inside, pc] using Baton.Move.pass (.stay _)
  | prepareFail pc => simpa [State.baton, WritterPc.inside, pc] using Baton.Move.dropSecond _ _ _
  | prepare pc => simpa [State.baton, WritterPc.inside, pc] using Baton.Move.pass (.stay _)
  | write pc => simpa [State.baton, WritterPc.inside, pc] using Baton.Move.pass (.stay _)
  | fault pc => simpa [State.baton, WritterPc.inside, pc] using Baton.Move.dropSecond _ _ _
  | account pc => simpa [State.baton, WritterPc.inside, pc] using Baton.Move.pass (.stay _)
  | post pc => simpa [State.baton, WritterPc.inside, pc] using Baton.Move.pass (.giveSecond _ _ _)
  | finish pc => simpa [State.baton, WritterPc.inside, pc] using Baton.Move.pass (.stay _)
  | again pc => simpa [State.baton, WritterPc.inside, pc] using Baton.Move.pass (.stay _)

/-! How the source cuts an image into chunks. -/

def imageChunks (size : Nat) : List Nat :=
  List.replicate (size / upgBufSize) upgBufSize ++
    if size % upgBufSize = 0 then [] else [size % upgBufSize]

def elemChunks (elem : Elem) (size : Nat) : List (Elem × Nat) :=
  (imageChunks size).map (fun len => (elem, len))

def chunkPlan (elems : List Elem) : List (Elem × Nat) :=
  elems.flatMap (fun elem => elemChunks elem elem.imgSize)

def Source.due (source : Source) (elem : Elem) : Nat :=
  min upgBufSize (elem.imgSize - source.elemread)

def Source.restPlan (source : Source) : List (Elem × Nat) :=
  match source.elems with
  | [] => []
  | elem :: rest => elemChunks elem (elem.imgSize - source.elemread) ++ chunkPlan rest

theorem upgBufSize_pos : 0 < upgBufSize := by decide

theorem imageChunks_zero : imageChunks 0 = [] := by
  simp [imageChunks]

theorem imageChunks_cons (size : Nat) (some : 0 < size) :
    imageChunks size = min upgBufSize size :: imageChunks (size - min upgBufSize size) := by
  have pos := upgBufSize_pos
  rcases Nat.lt_or_ge size upgBufSize with small | large
  · have self : size - min upgBufSize size = 0 := by omega
    have least : min upgBufSize size = size := by omega
    rw [self, least, imageChunks_zero]
    simp [imageChunks, Nat.div_eq_of_lt small, Nat.mod_eq_of_lt small, Nat.ne_of_gt some]
  · have least : min upgBufSize size = upgBufSize := by omega
    obtain ⟨rest, rfl⟩ := Nat.exists_eq_add_of_le' large
    rw [least, Nat.add_sub_cancel]
    simp [imageChunks, Nat.add_div_right rest pos, List.replicate_succ]

/-- What holds of the source's bookkeeping between any two of its steps. -/
structure Source.Ready (source : Source) (shared : Option Elem) : Prop where
  positive : ∀ elem ∈ source.elems, 0 < elem.imgSize
  within : ∀ elem ∈ source.elems.head?, source.elemread < elem.imgSize
  whole : ∀ elem ∈ source.elems.head?, elem.imgSize < upgBufSize → source.elemread = 0
  large : ∀ elem ∈ source.elems.head?, upgBufSize ≤ elem.imgSize → source.perread = source.due elem
  reading : source.pc = .read ∨ source.pc = .publish →
    shared = source.elems.head? ∧ ∀ elem ∈ source.elems.head?, source.perread = source.due elem

theorem Source.Ready.advanced {source : Source} {shared : Option Elem} {elem : Elem}
    {rest : List Elem} (ready : source.Ready shared) (pc : source.pc = .publish)
    (elems : source.elems = elem :: rest) :
    Source.Ready { source.advance elem with pc := .post } shared ∧
      source.restPlan = (elem, source.perread) ::
        Source.restPlan { source.advance elem with pc := .post } := by
  have pos := upgBufSize_pos
  have within := ready.within elem (by simp [elems])
  have due := (ready.reading (.inr pc)).2 elem (by simp [elems])
  simp only [Source.due] at due
  have remain : ulongSub elem.imgSize (source.elemread + source.perread) =
      elem.imgSize - source.elemread - source.perread := by
    have bound : source.elemread + source.perread ≤ elem.imgSize := by omega
    simp [ulongSub, bound, Nat.sub_sub]
  have plan : source.restPlan = (elem, source.perread) ::
      (elemChunks elem (elem.imgSize - source.elemread - source.perread) ++ chunkPlan rest) := by
    simp [restPlan, elems, elemChunks, imageChunks_cons (elem.imgSize - source.elemread) (by omega),
      due]
  by_cases spent : elem.imgSize - source.elemread - source.perread = 0
  · have left : source.advance elem = { source with
        elems := rest, elemread := 0, perread := upgBufSize,
        totalread := source.totalread + source.perread } := by
      simp [Source.advance, remain, spent, pos, elems]
    have tail : ∀ next ∈ rest, 0 < next.imgSize := by
      intro next member
      exact ready.positive next (by simp [elems, member])
    rw [left, plan, spent]
    refine ⟨⟨tail, ?_, ?_, ?_, ?_⟩, ?_⟩
    · intro next member
      exact tail next (List.mem_of_mem_head? member)
    · intro _ _ _
      rfl
    · intro next _ size
      simp only [Source.due]
      omega
    · simp
    · cases rest <;> simp [restPlan, elemChunks, imageChunks_zero, chunkPlan]
  · have stay : source.advance elem = { source with
        elemread := source.elemread + source.perread,
        perread := min upgBufSize (elem.imgSize - source.elemread - source.perread),
        totalread := source.totalread + source.perread } := by
      have full : source.perread = upgBufSize := by omega
      rcases Nat.lt_or_ge (elem.imgSize - source.elemread - source.perread) upgBufSize
        with small | big
      · simp [Source.advance, remain, small, spent, Nat.min_eq_right small.le]
      · have nonzero : source.perread ≠ 0 := by omega
        simp only [Source.advance, remain, Nat.not_lt.mpr big, Nat.min_eq_left big, nonzero,
          if_false]
        rw [← full]
    rw [stay, plan]
    refine ⟨⟨ready.positive, ?_, ?_, ?_, ?_⟩, ?_⟩
    · simp only [elems, List.head?_cons, Option.mem_some_iff, forall_eq']
      omega
    · simp only [elems, List.head?_cons, Option.mem_some_iff, forall_eq']
      omega
    · simp only [elems, List.head?_cons, Option.mem_some_iff, forall_eq', Source.due]
      omega
    · simp
    · simp [restPlan, elems, Nat.sub_sub]

/-! The chunk on its way from the source to flash. -/

/-- A published chunk stands in the buffer and the writer has not taken it. -/
def State.Full (state : State) : Prop :=
  state.source.pc = .post ∨ 0 < state.tune.sourcesem ∨ state.pc = .check ∨ state.pc = .take

structure Handed (state : State) : Prop where
  full : state.Full → ∃ elem, state.tune.elem = some elem ∧
    state.produced = state.consumed ++ [state.tune.chunk elem]
  empty : ¬ state.Full → state.produced = state.consumed

/-- The chunks taken are on flash, up to the one being worked on. -/
structure Stored (state : State) : Prop where
  preparing : state.pc = .prepare → ∃ elem earlier, state.elem = some elem ∧
    state.consumed = earlier ++ [state.tune.chunk elem] ∧
    List.Forall₂ Writter.Flashed earlier (writes state.writter.calls)
  writing : state.pc = .write → ∃ chunk earlier, state.consumed = earlier ++ [chunk] ∧
    Writter.Flashed chunk (slice state.tune.buf 0 state.tune.size) ∧
    List.Forall₂ Writter.Flashed earlier (writes state.writter.calls)
  settled : state.pc ≠ .prepare → state.pc ≠ .write →
    List.Forall₂ Writter.Flashed state.consumed (writes state.writter.calls)

def signature (chunk : Chunk) : Elem × Nat := (chunk.elem, chunk.data.length)

structure Inv (elems : List Elem) (state : State) : Prop where
  one : state.baton.tokens ≤ 1
  ready : state.source.Ready state.tune.elem
  plan : state.produced.map signature ++ state.source.restPlan = chunkPlan elems
  failed : state.source.pc = .failPost → state.writter.error ≠ .none
  handed : state.writter.error = .none → Handed state
  stored : state.writter.error = .none → Stored state

theorem Inv.source_inside {elems : List Elem} {state : State} (inv : Inv elems state)
    (inside : state.source.pc.inside = true) :
    state.pc.inside = false ∧ state.tune.writersem = 0 ∧ state.tune.sourcesem = 0 :=
  Baton.not_second_of_first inv.one inside

theorem Inv.writter_inside {elems : List Elem} {state : State} (inv : Inv elems state)
    (inside : state.pc.inside = true) :
    state.source.pc.inside = false ∧ state.tune.writersem = 0 ∧ state.tune.sourcesem = 0 :=
  Baton.not_first_of_second inv.one inside

theorem Inv.not_full {elems : List Elem} {state : State} (inv : Inv elems state)
    (inside : state.source.pc.inside = true) (other : state.source.pc ≠ .post) : ¬ state.Full := by
  obtain ⟨outside, _, none⟩ := inv.source_inside inside
  rintro (post | token | check | take)
  · exact other post
  · omega
  · simp [check, WritterPc.inside] at outside
  · simp [take, WritterPc.inside] at outside

theorem Inv.taken_not_full {elems : List Elem} {state : State} (inv : Inv elems state)
    (inside : state.pc.inside = true) (check : state.pc ≠ .check) (take : state.pc ≠ .take) :
    ¬ state.Full := by
  obtain ⟨outside, _, none⟩ := inv.writter_inside inside
  rintro (post | token | same | same)
  · simp [post, SourcePc.inside] at outside
  · omega
  · exact check same
  · exact take same

theorem Handed.same {state after : State} (handed : Handed state) (full : after.Full ↔ state.Full)
    (elem : after.tune.elem = state.tune.elem) (chunk : after.tune.chunk = state.tune.chunk)
    (produced : after.produced = state.produced) (consumed : after.consumed = state.consumed) :
    Handed after := by
  refine ⟨fun filled => ?_, fun empty => ?_⟩
  · rw [elem, chunk, produced, consumed]
    exact handed.full (full.mp filled)
  · rw [produced, consumed]
    exact handed.empty (fun filled => empty (full.mpr filled))

theorem Handed.drained {state after : State} (handed : Handed state) (before : ¬ state.Full)
    (empty : ¬ after.Full) (produced : after.produced = state.produced)
    (consumed : after.consumed = state.consumed) : Handed after := by
  refine ⟨fun filled => absurd filled empty, fun _ => ?_⟩
  rw [produced, consumed]
  exact handed.empty before

theorem SourceStep.error_back {state after : State} (step : SourceStep state after)
    (quiet : after.writter.error = .none) : state.writter.error = .none := by
  cases step
  case readFail => cases quiet
  all_goals exact quiet

theorem WritterStep.error_back {state after : State} (step : WritterStep state after)
    (quiet : after.writter.error = .none) : state.writter.error = .none := by
  cases step
  case stop _ _ loud => exact absurd quiet loud
  case prepareFail _ _ _ loud => exact absurd quiet loud
  case prepare _ env elem _ _ => exact Writter.prepare_error env _ _ quiet
  case account _ percent late =>
    obtain ⟨error, _⟩ := Writter.settle_frame state.progressScale percent late state.writter
    have top : (state.writter.raise late).error = .none := error ▸ quiet
    exact Writter.raise_none state.writter late top ▸ top
  all_goals exact quiet

theorem SourceStep.ready_plan {elems : List Elem} {state after : State}
    (step : SourceStep state after) (inv : Inv elems state) :
    after.source.Ready after.tune.elem ∧
      after.produced.map signature ++ after.source.restPlan = chunkPlan elems := by
  obtain ⟨positive, within, whole, large, reading⟩ := inv.ready
  have plan := inv.plan
  cases step
  case setElem pc elem rest same =>
    refine ⟨⟨positive, within, whole, ?_, ?_⟩, plan⟩
    · intro next member size
      have head : next = elem := by simpa [same, eq_comm] using member
      subst head
      simpa [Nat.not_lt.mpr size, Source.due] using large next member size
    · intro _
      refine ⟨by simp [same], ?_⟩
      intro next member
      have head : next = elem := by simpa [same, eq_comm] using member
      subst head
      have inside := within next member
      by_cases small : next.imgSize < upgBufSize
      · have start := whole next member small
        simp only [small, if_true, Source.due, start]
        omega
      · simpa [small, Source.due] using large next member (Nat.not_lt.mp small)
  case publish pc elem rest same =>
    obtain ⟨ready, next⟩ := inv.ready.advanced pc same
    refine ⟨ready, ?_⟩
    rw [next] at plan
    simpa [signature, Tune.chunk] using plan
  case copy pc bytes => exact ⟨⟨positive, within, whole, large, fun _ => reading (.inl pc)⟩, plan⟩
  case readDone pc => exact ⟨⟨positive, within, whole, large, fun _ => reading (.inl pc)⟩, plan⟩
  all_goals exact ⟨⟨positive, within, whole, large, by simp⟩, plan⟩

theorem SourceStep.handed {elems : List Elem} {state after : State}
    (step : SourceStep state after) (inv : Inv elems state)
    (quiet : after.writter.error = .none) : Handed after := by
  have before := inv.handed (step.error_back quiet)
  cases step
  case setElem pc elem rest same =>
    exact before.drained (inv.not_full (by simp [pc, SourcePc.inside]) (by simp [pc]))
      (by simpa [State.Full, pc] using inv.not_full (by simp [pc, SourcePc.inside]) (by simp [pc]))
      rfl rfl
  case copy pc bytes =>
    exact before.drained (inv.not_full (by simp [pc, SourcePc.inside]) (by simp [pc]))
      (by simpa [State.Full, pc] using inv.not_full (by simp [pc, SourcePc.inside]) (by simp [pc]))
      rfl rfl
  case publish pc elem rest same =>
    have shared := (inv.ready.reading (.inr pc)).1
    rw [same, List.head?_cons] at shared
    refine ⟨fun _ => ⟨elem, shared, ?_⟩, fun empty => absurd (.inl rfl) empty⟩
    rw [before.empty (inv.not_full (by simp [pc, SourcePc.inside]) (by simp [pc]))]
  case readFail => cases quiet
  case post pc => exact before.same (by simp [State.Full, pc]) rfl rfl rfl rfl
  case failPost pc => exact absurd quiet (inv.failed pc)
  all_goals exact before.same (by simp [State.Full, *]) rfl rfl rfl rfl

theorem SourceStep.stored {elems : List Elem} {state after : State}
    (step : SourceStep state after) (inv : Inv elems state)
    (quiet : after.writter.error = .none) : Stored after := by
  obtain ⟨preparing, writing, settled⟩ := inv.stored (step.error_back quiet)
  have apart (inside : state.source.pc.inside = true) :
      state.pc ≠ .prepare ∧ state.pc ≠ .write := by
    have outside := (inv.source_inside inside).1
    refine ⟨fun same => ?_, fun same => ?_⟩ <;> simp [same, WritterPc.inside] at outside
  cases step
  case setElem pc elem rest same =>
    exact ⟨preparing, writing, settled⟩
  case copy pc bytes =>
    obtain ⟨noPrepare, noWrite⟩ := apart (by simp [pc, SourcePc.inside])
    exact ⟨fun same => absurd same noPrepare, fun same => absurd same noWrite, settled⟩
  case publish pc elem rest same =>
    obtain ⟨noPrepare, noWrite⟩ := apart (by simp [pc, SourcePc.inside])
    exact ⟨fun same => absurd same noPrepare, fun same => absurd same noWrite, settled⟩
  case readFail => cases quiet
  all_goals exact ⟨preparing, writing, settled⟩

theorem WritterStep.source_kept {state after : State} (step : WritterStep state after) :
    after.source = state.source ∧ after.tune.elem = state.tune.elem ∧
      after.produced = state.produced := by
  cases step <;> exact ⟨rfl, rfl, rfl⟩

theorem WritterStep.handed {elems : List Elem} {state after : State}
    (step : WritterStep state after) (inv : Inv elems state)
    (quiet : after.writter.error = .none) : Handed after := by
  have before := inv.handed (step.error_back quiet)
  cases step
  case wait pc sourcesem token =>
    exact before.same (by simp [State.Full, pc, token]) rfl rfl rfl rfl
  case stop _ _ loud => exact absurd quiet loud
  case goOn pc => exact before.same (by simp [State.Full, pc]) rfl rfl rfl rfl
  case take pc elem shared =>
    obtain ⟨outside, _, none⟩ := inv.writter_inside (by simp [pc, WritterPc.inside])
    have away : state.source.pc ≠ .post := by
      intro post
      simp [post, SourcePc.inside] at outside
    obtain ⟨same, sharedSame, produced⟩ := before.full (.inr (.inr (.inr pc)))
    rw [shared, Option.some.injEq] at sharedSame
    subst sharedSame
    exact ⟨fun full => absurd full (by simp [State.Full, away, none]), fun _ => produced⟩
  case prepareFail _ _ _ loud => exact absurd quiet loud
  case prepare pc env elem taken _ =>
    have empty := inv.taken_not_full (by simp [pc, WritterPc.inside]) (by simp [pc]) (by simp [pc])
    exact before.drained empty (by simpa [State.Full, pc] using empty) rfl rfl
  all_goals exact before.same (by simp [State.Full, *]) rfl rfl rfl rfl

theorem WritterStep.stored {elems : List Elem} {state after : State}
    (step : WritterStep state after) (inv : Inv elems state)
    (quiet : after.writter.error = .none) : Stored after := by
  obtain ⟨preparing, writing, settled⟩ := inv.stored (step.error_back quiet)
  cases step
  case take pc elem shared =>
    refine ⟨fun _ => ⟨elem, state.consumed, rfl, rfl, ?_⟩, by simp, by simp⟩
    exact settled (by simp [pc]) (by simp [pc])
  case stop _ _ loud => exact absurd quiet loud
  case prepareFail _ _ _ loud => exact absurd quiet loud
  case prepare pc env elem taken _ =>
    obtain ⟨same, earlier, takenSame, consumed, flashed⟩ := preparing pc
    rw [taken, Option.some.injEq] at takenSame
    subst takenSame
    obtain ⟨_, kept, sized⟩ := Writter.prepare_frame env (state.tune.chunk elem) state.writter
    refine ⟨by simp, fun _ => ⟨state.tune.chunk elem, earlier, consumed, ?_, kept ▸ flashed⟩,
      by simp⟩
    have size : (Writter.prepare env (state.tune.chunk elem) state.writter).2.length =
        state.tune.size := by
      rw [sized]
      simp [Tune.chunk]
    simp only [slice_store_of_length _ _ _ _ size]
    exact Writter.prepare_flashed env _ state.writter
  case write pc =>
    obtain ⟨chunk, earlier, consumed, sent, flashed⟩ := writing pc
    refine ⟨by simp, by simp, fun _ _ => ?_⟩
    have record : writes (Writter.write (slice state.tune.buf 0 state.tune.size)
        state.writter).calls =
        writes state.writter.calls ++ [slice state.tune.buf 0 state.tune.size] := by
      simp [Writter.write, Writter.call, writes_append, writes]
    simp only [record, consumed]
    exact List.rel_append flashed (.cons sent .nil)
  case account pc percent late =>
    obtain ⟨_, _, _, calls⟩ :=
      Writter.settle_frame state.progressScale percent late state.writter
    refine ⟨by simp, by simp, fun _ _ => ?_⟩
    simp only [calls]
    exact settled (by simp [pc]) (by simp [pc])
  case finish pc =>
    refine ⟨by simp, by simp, fun _ _ => ?_⟩
    simp only [Writter.finish_writes]
    exact settled (by simp [pc]) (by simp [pc])
  all_goals exact ⟨by simp, by simp, fun _ _ => settled (by simp [*]) (by simp [*])⟩

theorem SourceStep.inv {elems : List Elem} {state after : State} (step : SourceStep state after)
    (inv : Inv elems state) : Inv elems after where
  one := le_trans step.baton_move.tokens_le inv.one
  ready := (step.ready_plan inv).1
  plan := (step.ready_plan inv).2
  failed := by
    cases step
    case readFail => simp
    all_goals simp
    all_goals simp [*]
  handed := step.handed inv
  stored := step.stored inv

theorem WritterStep.inv {elems : List Elem} {state after : State} (step : WritterStep state after)
    (inv : Inv elems state) : Inv elems after := by
  obtain ⟨source, elem, produced⟩ := step.source_kept
  refine ⟨le_trans step.baton_move.tokens_le inv.one, ?_, ?_, ?_, step.handed inv, step.stored inv⟩
  · rw [source, elem]
    exact inv.ready
  · rw [source, produced]
    exact inv.plan
  · intro pc quiet
    exact inv.failed (source ▸ pc) (step.error_back quiet)

theorem initial_inv (elems : List Elem) (positive : ∀ elem ∈ elems, 1 ≤ elem.imgSize)
    (state : State) (initial : Initial elems state) : Inv elems state := by
  obtain ⟨writersem, sourcesem, _, source, pc, ⟨elemOld, writter⟩, produced, consumed⟩ := initial
  have empty : ¬ state.Full := by
    simp [State.Full, source, sourcesem, pc]
  refine ⟨?_, ?_, ?_, ?_, fun _ => ⟨fun full => absurd full empty, fun _ => ?_⟩, fun _ => ?_⟩
  · simp [State.baton, Baton.tokens, source, pc, writersem, sourcesem, SourcePc.inside,
      WritterPc.inside]
  · rw [source]
    refine ⟨positive, ?_, fun _ _ _ => rfl, ?_, by simp⟩
    · intro elem member
      exact positive elem (List.mem_of_mem_head? member)
    · intro elem _ size
      simp only [Source.due]
      omega
  · rw [source, produced]
    cases elems <;> simp [Source.restPlan, chunkPlan]
  · simp [source]
  · rw [produced, consumed]
  · refine ⟨by simp [pc], by simp [pc], fun _ _ => ?_⟩
    simp [consumed, writter, Writter.start, writes]

theorem reachable_inv (elems : List Elem) (positive : ∀ elem ∈ elems, 1 ≤ elem.imgSize)
    (state : State) (reachable : (machine elems).Reachable state) : Inv elems state := by
  refine Machine.Reachable.always (initial_inv elems positive) ?_ state reachable
  intro before label after _ inv moved
  cases label with
  | source act => exact (source_step before after act moved).inv inv
  | writter env => exact (writter_step before after env moved).inv inv

/-! What every run gives. -/

/-- The same state but for the shared buffer, size and element. -/
def State.withShared (state : State) (buf : Memory) (size : Nat) (elem : Option Elem) : State :=
  { state with tune := { state.tune with buf := buf, size := size, elem := elem } }

/-- No step of the source reads or writes the shared data. -/
def SourceApart (state : State) : Prop :=
  ∀ act buf size elem, sourceNext (state.withShared buf size elem) act =
    (sourceNext state act).map (fun after => after.withShared buf size elem)

def WritterApart (state : State) : Prop :=
  ∀ env buf size elem, writterNext (state.withShared buf size elem) env =
    (writterNext state env).map (fun after => after.withShared buf size elem)

theorem source_apart (state : State) (outside : state.source.pc.inside = false) :
    SourceApart state := by
  intro act buf size elem
  cases pc : state.source.pc <;> simp only [pc, SourcePc.inside] at outside <;> cases act <;>
    simp only [sourceNext, State.withShared, pc, Option.map_none]
  all_goals try contradiction
  all_goals
    rw [apply_ite (Option.map _)]
    rfl

theorem writter_apart (state : State) (outside : state.pc.inside = false) : WritterApart state := by
  intro env buf size elem
  cases pc : state.pc <;> simp only [pc, WritterPc.inside] at outside <;>
    simp only [writterNext, State.withShared, pc, Option.map_none]
  all_goals try contradiction
  all_goals
    rw [apply_ite (Option.map _)]
    rfl

/-- The shared data belongs to one thread at a time, and chunks arrive complete
and in order: those produced are those consumed and at most one more, which
still stands in the buffer; those consumed are on flash but for the last. -/
structure Orderly (elems : List Elem) (state : State) : Prop where
  exclusive : ¬ (state.source.pc.inside = true ∧ state.pc.inside = true)
  sourceApart : state.pc.inside = true → SourceApart state
  writterApart : state.source.pc.inside = true → WritterApart state
  consumed : state.consumed <+: state.produced
  pending : ∃ pending, state.produced = state.consumed ++ pending ∧ pending.length ≤ 1 ∧
    ∀ chunk ∈ pending, state.tune.elem = some chunk.elem ∧ chunk = state.tune.chunk chunk.elem
  produced : state.produced.map signature <+: chunkPlan elems
  flashed : ∃ done working, state.consumed = done ++ working ∧ working.length ≤ 1 ∧
    List.Forall₂ Writter.Flashed done (writes state.writter.calls)

theorem Handed.pending {state : State} (handed : Handed state) :
    ∃ pending, state.produced = state.consumed ++ pending ∧ pending.length ≤ 1 ∧
      ∀ chunk ∈ pending, state.tune.elem = some chunk.elem ∧ chunk = state.tune.chunk chunk.elem := by
  by_cases full : state.Full
  · obtain ⟨elem, shared, produced⟩ := handed.full full
    refine ⟨[state.tune.chunk elem], produced, by simp, ?_⟩
    intro chunk member
    rw [List.mem_singleton] at member
    subst member
    exact ⟨shared, rfl⟩
  · exact ⟨[], by simpa using handed.empty full, by simp, by simp⟩

theorem Stored.flashed {state : State} (stored : Stored state) :
    ∃ done working, state.consumed = done ++ working ∧ working.length ≤ 1 ∧
      List.Forall₂ Writter.Flashed done (writes state.writter.calls) := by
  by_cases prepare : state.pc = .prepare
  · obtain ⟨elem, earlier, _, consumed, flashed⟩ := stored.preparing prepare
    exact ⟨earlier, [state.tune.chunk elem], consumed, by simp, flashed⟩
  · by_cases write : state.pc = .write
    · obtain ⟨chunk, earlier, consumed, _, flashed⟩ := stored.writing write
      exact ⟨earlier, [chunk], consumed, by simp, flashed⟩
    · exact ⟨state.consumed, [], by simp, by simp, stored.settled prepare write⟩

theorem handoff_orderly (elems : List Elem) (positive : ∀ elem ∈ elems, 1 ≤ elem.imgSize)
    (state : State) (reachable : (machine elems).Reachable state)
    (quiet : state.writter.error = .none) : Orderly elems state := by
  have inv := reachable_inv elems positive state reachable
  obtain ⟨pending, produced, short, standing⟩ := (inv.handed quiet).pending
  refine ⟨?_, ?_, ?_, ⟨pending, produced.symm⟩, ⟨pending, produced, short, standing⟩,
    ⟨_, inv.plan⟩, (inv.stored quiet).flashed⟩
  · rintro ⟨source, writter⟩
    have outside := (inv.source_inside source).1
    rw [writter] at outside
    contradiction
  · intro inside
    exact source_apart state (inv.writter_inside inside).1
  · intro inside
    exact writter_apart state (inv.source_inside inside).1

def start (elems : List Elem) : State where
  tune := ⟨fun _ => 0, 0, none, 1, 0⟩
  total := (elems.map Elem.imgSize).sum
  source := ⟨.test, elems, 0, upgBufSize, 0, 0⟩
  pc := .wait
  writter := Writter.start none
  elem := none
  progressScale := 1
  produced := []
  consumed := []

theorem initial_start (elems : List Elem) : Initial elems (start elems) :=
  ⟨rfl, rfl, rfl, rfl, rfl, ⟨none, rfl⟩, rfl, rfl⟩

/-- The source hands over one chunk of three bytes and the writer takes it. -/
def oneChunk : List Act :=
  [.source .step, .source .step, .source .step, .source .step, .source (.copy [7, 8, 9]),
    .source .step, .source .step, .source .step, .writter calmEnv, .writter calmEnv,
    .writter calmEnv]

theorem handoff_orderly_one_chunk :
    ∃ state, (machine [⟨1, "kernel", 3, 0⟩]).run (start [⟨1, "kernel", 3, 0⟩]) oneChunk =
        some state ∧
      state.consumed = [⟨⟨1, "kernel", 3, 0⟩, [7, 8, 9]⟩] ∧
      Orderly [⟨1, "kernel", 3, 0⟩] state := by
  have ran : ∃ state, (machine [⟨1, "kernel", 3, 0⟩]).run (start [⟨1, "kernel", 3, 0⟩]) oneChunk =
      some state ∧ state.consumed = [⟨⟨1, "kernel", 3, 0⟩, [7, 8, 9]⟩] ∧
      state.writter.error = .none := ⟨_, rfl, rfl, rfl⟩
  obtain ⟨state, ran, consumed, quiet⟩ := ran
  have reachable := Machine.reachable_of_run (.initial (initial_start _)) ran
  exact ⟨state, ran, consumed, handoff_orderly _ (by decide) state reachable quiet⟩

end Alisl.Upgrade.Handoff
