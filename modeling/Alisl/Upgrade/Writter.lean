import Alisl.Upgrade.Tune

/-! The flash writer thread, `upgrade_writter_loop` of writter.c.

The loop is run over the chunks the source hands over, in order. What other
code answers (the storage library, malloc, an error another thread stores in the
descriptor) is given per turn. `is_pmi_bootrom()` returns 0 in this version, so
the boot partition is always the one without PMI. -/

namespace Alisl.Upgrade

open Alisl.Base

/-- Calls into the storage library. A handle is the name of the opened
partition, `none` for the initial NULL. -/
inductive StoCall where
  | mtdOpenByName (partName : String)
  | lseek (handle : Option String) (offset : Nat)
  | read (handle : Option String) (len : Nat)
  | erase (handle : Option String) (offset len : Nat)
  | write (handle : Option String) (data : List Byte)
  | mtdClose (handle : Option String)
  deriving DecidableEq, Repr

/-- What the surroundings answer during one turn of the loop. `raised` and
`raisedLate` are errors other threads have stored in `desc->error` by the test at
the top and by the one at the bottom of the turn. -/
structure WritterEnv where
  raised : UpgErr
  opened : Bool
  allocated : Bool
  bootParam : Memory
  partSize : Nat
  raisedLate : UpgErr

structure Writter where
  error : UpgErr
  descPercent : Int
  percent : Int
  totalwrite : Nat
  elemOld : Option Nat
  mtdHandle : Option String
  calls : List StoCall
  signals : Nat
  oversem : Nat
  deriving DecidableEq, Repr

/-- The locals as the thread starts; `elem_old` is static and keeps its value. -/
def Writter.start (elemOld : Option Nat) : Writter where
  error := .none
  descPercent := 0
  percent := 0
  totalwrite := 0
  elemOld := elemOld
  mtdHandle := none
  calls := []
  signals := 0
  oversem := 0

namespace Writter

def raise (writter : Writter) (error : UpgErr) : Writter :=
  if error = .none then writter else { writter with error := error }

def call (writter : Writter) (call : StoCall) : Writter :=
  { writter with calls := writter.calls ++ [call] }

def signal (writter : Writter) : Writter := { writter with signals := writter.signals + 1 }

def isBoot (partName : String) : Bool := partName == bootName || partName == bootNameBak

/-- The boot parameters found on flash replace those of the image. -/
def patchBootParam (bootParam : Memory) (data : List Byte) : List Byte :=
  data.mapIdx (fun i byte =>
    if scsHashLevel1Len + scsSigLen ≤ i ∧ i < scsHashLevel1Len + scsSigLen + bootParamTotalSize
    then bootParam (i - (scsHashLevel1Len + scsSigLen)) else byte)

def backupBootParam (env : WritterEnv) (data : List Byte) (writter : Writter) :
    Writter × List Byte :=
  if data.length < scsHashLevel1Len + scsSigLen + bootParamTotalSize then
    ({ writter with error := .other }, data)
  else if env.allocated then
    let handle := writter.mtdHandle
    (((writter.call (.lseek handle (scsHashLevel1Len + scsSigLen))).call
        (.read handle bootParamTotalSize)).call (.lseek handle 0),
      patchBootParam env.bootParam data)
  else
    ({ writter with error := .other }, data)

def erasePart (env : WritterEnv) (elem : Elem) (writter : Writter) : Writter :=
  let len := if elem.partName = sflashName then elem.imgSize else env.partSize
  let writter := (writter.call (.erase writter.mtdHandle 0 len)).call (.lseek writter.mtdHandle 0)
  { writter with elemOld := some elem.addr }

/-- Open and erase the partition when the element changes. -/
def prepare (env : WritterEnv) (chunk : Chunk) (writter : Writter) : Writter × List Byte :=
  if writter.elemOld = some chunk.elem.addr then (writter, chunk.data)
  else
    let writter := writter.call (.mtdOpenByName chunk.elem.partName)
    if env.opened then
      let writter := { writter with mtdHandle := some chunk.elem.partName }
      let (writter, data) :=
        if isBoot chunk.elem.partName then backupBootParam env chunk.data writter
        else (writter, chunk.data)
      if writter.error = .none then (erasePart env chunk.elem writter, data) else (writter, data)
    else ({ writter with error := .other }, chunk.data)

def write (data : List Byte) (writter : Writter) : Writter :=
  { writter.call (.write writter.mtdHandle data) with
    totalwrite := writter.totalwrite + data.length }

/-- The integer percentage; `none` is the division by zero. -/
def progress (total totalwrite : Nat) : Option Nat :=
  if total ≤ totalwrite then some 100
  else if total / 100 = 0 then none
  else some (totalwrite / (total / 100))

def report (progressScale : Int) (writter : Writter) : Writter :=
  if writter.descPercent - writter.percent ≥ progressScale ∨ writter.descPercent = 100 ∨
      writter.error ≠ .none
  then { writter.signal with percent := writter.descPercent } else writter

/-- The progress message of one turn, and the error another thread may have
stored meanwhile. -/
def settle (progressScale : Int) (percent : Nat) (late : UpgErr) (writter : Writter) : Writter :=
  report progressScale ({ writter with descPercent := percent }.raise late)

/-- Behind the loop: close the partition and post `oversem`. -/
def finish (writter : Writter) : Writter :=
  { writter.call (.mtdClose writter.mtdHandle) with oversem := writter.oversem + 1 }

end Writter

/-- How far a run over the handed-over chunks gets: still polling `sourcesem`
for more, out of the loop with chunks left behind, or killed by a division. -/
inductive Outcome where
  | polling (writter : Writter)
  | left (writter : Writter) (pending : List Chunk)
  | fault (writter : Writter)
  deriving DecidableEq, Repr

def Outcome.writter : Outcome → Writter
  | .polling writter => writter
  | .left writter _ => writter
  | .fault writter => writter

open Writter in
def upgradeWritterLoop (progressScale : Int) (total : Nat) :
    List (WritterEnv × Chunk) → Writter → Outcome
  | [], writter => .polling writter
  | (env, chunk) :: rest, writter =>
      let writter := writter.raise env.raised
      if writter.error ≠ .none then
        .left writter.signal.finish (chunk :: rest.map Prod.snd)
      else
        let (writter, data) := prepare env chunk writter
        if writter.error ≠ .none then
          .left writter.signal.finish (chunk :: rest.map Prod.snd)
        else
          let writter := write data writter
          match progress total writter.totalwrite with
          | none => .fault writter
          | some percent =>
              let writter := settle progressScale percent env.raisedLate writter
              if writter.descPercent = 100 ∨ writter.error ≠ .none then
                .left writter.finish (rest.map Prod.snd)
              else upgradeWritterLoop progressScale total rest writter

/-- The data of the `alislsto_write` calls, in order. -/
def writes : List StoCall → List (List Byte)
  | [] => []
  | .write _ data :: calls => data :: writes calls
  | _ :: calls => writes calls

/-- No division by zero, and the exit taken without an error is taken with the
whole package written: no chunk is pending, each one went to flash in full. -/
def RunSafe (total : Nat) (chunks : List Chunk) : Outcome → Prop
  | .polling _ => True
  | .left writter pending => writter.error = .none →
      total ≤ writter.totalwrite ∧ pending = [] ∧
        (writes writter.calls).map List.length = chunks.map (fun chunk => chunk.data.length)
  | .fault _ => False

/-- A partial amount at which the percentage is defined and is not 100. -/
def Clear (total totalwrite : Nat) : Prop :=
  100 ≤ total ∧ (totalwrite < 100 * (total / 100) ∨ 101 * (total / 100) ≤ totalwrite)

theorem writes_append (front back : List StoCall) :
    writes (front ++ back) = writes front ++ writes back := by
  induction front with
  | nil => rfl
  | cons call calls ih => cases call <;> simp [writes, ih]

namespace Writter

theorem progress_complete (total totalwrite : Nat) (complete : total ≤ totalwrite) :
    progress total totalwrite = some 100 := by
  simp [progress, complete]

theorem progress_partial (total totalwrite : Nat) (part : totalwrite < total) :
    (∃ percent, progress total totalwrite = some percent ∧ percent ≠ 100) ↔
      Clear total totalwrite := by
  have short : ¬ total ≤ totalwrite := by omega
  by_cases small : total / 100 = 0
  · have below : ¬ 100 ≤ total := by omega
    simp [progress, short, small, Clear, below]
  · have enough : 100 ≤ total := by omega
    have positive : 0 < total / 100 := by omega
    have hundred : totalwrite / (total / 100) = 100 ↔
        100 * (total / 100) ≤ totalwrite ∧ totalwrite < 101 * (total / 100) := by
      rw [Nat.div_eq_iff positive]
      omega
    simp only [progress, short, small, if_false, Clear, enough, true_and, Option.some.injEq,
      exists_eq_left', ne_eq, hundred]
    omega

theorem patchBootParam_length (bootParam : Memory) (data : List Byte) :
    (patchBootParam bootParam data).length = data.length := by
  simp [patchBootParam]

theorem raise_none (writter : Writter) (error : UpgErr)
    (quiet : (writter.raise error).error = .none) : writter.raise error = writter := by
  by_cases same : error = .none
  · simp [raise, same]
  · simp [raise, same] at quiet

/-- Preparing a partition neither writes nor counts; it may patch the chunk,
never resize it. -/
theorem prepare_frame (env : WritterEnv) (chunk : Chunk) (writter : Writter) :
    (prepare env chunk writter).1.totalwrite = writter.totalwrite ∧
      writes (prepare env chunk writter).1.calls = writes writter.calls ∧
      (prepare env chunk writter).2.length = chunk.data.length := by
  unfold prepare
  by_cases same : writter.elemOld = some chunk.elem.addr
  · simp [same]
  · by_cases opened : env.opened <;> by_cases boot : isBoot chunk.elem.partName <;>
      by_cases room : chunk.data.length < scsHashLevel1Len + scsSigLen + bootParamTotalSize <;>
      by_cases allocated : env.allocated <;>
      by_cases quiet : writter.error = .none <;>
      simp [same, opened, boot, room, allocated, quiet, backupBootParam, erasePart, call,
        writes_append, writes, patchBootParam_length]

theorem prepare_error (env : WritterEnv) (chunk : Chunk) (writter : Writter)
    (quiet : (prepare env chunk writter).1.error = .none) : writter.error = .none := by
  by_contra loud
  unfold prepare at quiet
  by_cases same : writter.elemOld = some chunk.elem.addr
  · simp [same, loud] at quiet
  · by_cases opened : env.opened <;> by_cases boot : isBoot chunk.elem.partName <;>
      by_cases room : chunk.data.length < scsHashLevel1Len + scsSigLen + bootParamTotalSize <;>
      by_cases allocated : env.allocated <;>
      simp [same, opened, boot, room, allocated, loud, backupBootParam, call] at quiet

/-- The bytes sent to flash are those of the chunk, but for the boot parameters. -/
def Flashed (chunk : Chunk) (data : List Byte) : Prop :=
  data = chunk.data ∨
    isBoot chunk.elem.partName = true ∧ ∃ bootParam, data = patchBootParam bootParam chunk.data

theorem prepare_flashed (env : WritterEnv) (chunk : Chunk) (writter : Writter) :
    Flashed chunk (prepare env chunk writter).2 := by
  unfold prepare
  by_cases same : writter.elemOld = some chunk.elem.addr
  · exact .inl (by simp [same])
  · by_cases boot : env.opened ∧ isBoot chunk.elem.partName
    · by_cases patched : ¬ chunk.data.length < scsHashLevel1Len + scsSigLen + bootParamTotalSize ∧
          env.allocated
      · refine .inr ⟨boot.2, env.bootParam, ?_⟩
        by_cases quiet : writter.error = .none <;>
          simp [same, boot, patched, quiet, backupBootParam, call]
      · refine .inl ?_
        by_cases room : chunk.data.length < scsHashLevel1Len + scsSigLen + bootParamTotalSize
        · simp [same, boot, room, backupBootParam]
        · have missing : env.allocated = false := by
            simpa [room] using patched
          simp [same, boot, room, missing, backupBootParam]
    · refine .inl ?_
      by_cases opened : env.opened
      · have plain : isBoot chunk.elem.partName = false := by simpa [opened] using boot
        by_cases quiet : writter.error = .none <;> simp [same, opened, plain, quiet, call]
      · simp [same, opened]

@[simp] theorem finish_totalwrite (writter : Writter) :
    writter.finish.totalwrite = writter.totalwrite := rfl

@[simp] theorem finish_writes (writter : Writter) :
    writes writter.finish.calls = writes writter.calls := by
  simp [finish, call, writes_append, writes]

theorem settle_frame (progressScale : Int) (percent : Nat) (late : UpgErr) (writter : Writter) :
    (settle progressScale percent late writter).error = (writter.raise late).error ∧
      (settle progressScale percent late writter).descPercent = percent ∧
      (settle progressScale percent late writter).totalwrite = writter.totalwrite ∧
      (settle progressScale percent late writter).calls = writter.calls := by
  unfold settle report raise
  by_cases same : late = .none <;> simp only [same, if_true, if_false] <;> split <;> simp [signal]

end Writter

open Writter in
/-- One turn of a run that ends without an error: the chunk is written in full,
then the percentage alone decides how the run goes on. -/
theorem quiet_turn (progressScale : Int) (total : Nat) (env : WritterEnv) (chunk : Chunk)
    (rest : List (WritterEnv × Chunk)) (writter : Writter)
    (quiet : (upgradeWritterLoop progressScale total ((env, chunk) :: rest) writter).writter.error =
      .none) :
    ∃ after : Writter, after.totalwrite = writter.totalwrite + chunk.data.length ∧
      (writes after.calls).map List.length =
        (writes writter.calls).map List.length ++ [chunk.data.length] ∧
      upgradeWritterLoop progressScale total ((env, chunk) :: rest) writter =
        match progress total after.totalwrite with
        | none => .fault after
        | some percent =>
            if percent = 100 then .left after (rest.map Prod.snd)
            else upgradeWritterLoop progressScale total rest after := by
  obtain ⟨counted, logged, sized⟩ := prepare_frame env chunk writter
  have loop := upgradeWritterLoop.eq_2 progressScale total writter env chunk rest
  by_cases top : (writter.raise env.raised).error = .none
  · rw [raise_none writter env.raised top] at loop
    rw [raise_none writter env.raised top] at top
    by_cases ready : (prepare env chunk writter).1.error = .none
    · simp only [top, ready, ne_eq, not_true_eq_false, if_false] at loop
      have amount : (write (prepare env chunk writter).2 (prepare env chunk writter).1).totalwrite =
          writter.totalwrite + chunk.data.length := by
        simp [write, counted, sized]
      have record : (writes (write (prepare env chunk writter).2
          (prepare env chunk writter).1).calls).map List.length =
          (writes writter.calls).map List.length ++ [chunk.data.length] := by
        simp [write, call, writes_append, writes, logged, sized]
      generalize write (prepare env chunk writter).2 (prepare env chunk writter).1 = written
        at loop amount record
      cases percentage : progress total written.totalwrite with
      | none =>
          rw [percentage] at loop
          exact ⟨written, amount, record, by rw [loop, percentage]⟩
      | some percent =>
          simp only [percentage] at loop
          obtain ⟨_, percentKept, amountKept, callsKept⟩ :=
            settle_frame progressScale percent env.raisedLate written
          generalize settle progressScale percent env.raisedLate written = settled
            at loop percentKept amountKept callsKept
          have final : settled.error = .none := by
            by_contra loud
            simp only [loud, not_false_eq_true, or_true, if_true] at loop
            rw [loop] at quiet
            exact loud quiet
          by_cases hundred : percent = 100
          · simp only [percentKept, hundred, Nat.cast_ofNat, true_or, if_true] at loop
            refine ⟨settled.finish, ?_, ?_, ?_⟩
            · rw [finish_totalwrite, amountKept, amount]
            · rw [finish_writes, callsKept, record]
            · simp [loop, amountKept, percentage, hundred]
          · have other : ¬ (settled.descPercent = 100 ∨ ¬ settled.error = .none) := by
              rw [percentKept, final]
              simp only [not_true_eq_false, or_false]
              exact_mod_cast hundred
            simp only [other, if_false] at loop
            refine ⟨settled, ?_, ?_, ?_⟩
            · rw [amountKept, amount]
            · rw [callsKept, record]
            · simp [loop, amountKept, percentage, hundred]
    · simp only [top, ready, ne_eq, not_true_eq_false, not_false_eq_true, if_false, if_true] at loop
      rw [loop] at quiet
      exact absurd quiet ready
  · simp only [top, ne_eq, not_false_eq_true, if_true] at loop
    rw [loop] at quiet
    exact absurd quiet top

/-- Every proper beginning of the chunk sizes stays clear of the early 100. -/
def ClearRun (total written : Nat) (sizes : List Nat) : Prop :=
  ∀ front back, sizes = front ++ back → front ≠ [] → back ≠ [] →
    Clear total (written + front.sum)

theorem clearRun_nil (total written : Nat) : ClearRun total written [] := by
  intro front back split some
  exact absurd (List.append_eq_nil_iff.mp split.symm).1 some

theorem clearRun_cons (total written size : Nat) (sizes : List Nat) :
    ClearRun total written (size :: sizes) ↔
      (sizes ≠ [] → Clear total (written + size)) ∧ ClearRun total (written + size) sizes := by
  constructor
  · intro clear
    refine ⟨fun more => by simpa using clear [size] sizes rfl (by simp) more, ?_⟩
    intro front back split some more
    have longer := clear (size :: front) back (by simp [split]) (by simp) more
    simpa [Nat.add_assoc] using longer
  · rintro ⟨first, later⟩ front back split some more
    cases front with
    | nil => exact absurd rfl some
    | cons head front =>
        simp only [List.cons_append, List.cons.injEq] at split
        obtain ⟨rfl, split⟩ := split
        by_cases empty : front = []
        · subst empty
          simpa using first (by simpa [split] using more)
        · simpa [Nat.add_assoc] using later front back split empty more

theorem loop_safe_iff (progressScale : Int) (total : Nat) (chunks : List Chunk)
    (turns : List (WritterEnv × Chunk)) (writter : Writter)
    (nonempty : ∀ turn ∈ turns, turn.2.data ≠ [])
    (amount : writter.totalwrite + (turns.map (fun turn => turn.2.data.length)).sum = total)
    (record : (writes writter.calls).map List.length ++
      turns.map (fun turn => turn.2.data.length) = chunks.map (fun chunk => chunk.data.length))
    (quiet : (upgradeWritterLoop progressScale total turns writter).writter.error = .none) :
    RunSafe total chunks (upgradeWritterLoop progressScale total turns writter) ↔
      ClearRun total writter.totalwrite (turns.map (fun turn => turn.2.data.length)) := by
  induction turns generalizing writter with
  | nil =>
      simp only [upgradeWritterLoop, RunSafe, List.map_nil, true_iff]
      exact clearRun_nil _ _
  | cons turn rest ih =>
      obtain ⟨env, chunk⟩ := turn
      obtain ⟨after, counted, logged, loop⟩ :=
        quiet_turn progressScale total env chunk rest writter quiet
      simp only [List.map_cons, List.sum_cons] at amount record
      rw [List.map_cons, clearRun_cons]
      have recordAfter : (writes after.calls).map List.length ++
          rest.map (fun turn => turn.2.data.length) = chunks.map (fun chunk => chunk.data.length) := by
        rw [logged, List.append_assoc]
        exact record
      have ihAfter := ih after (fun turn member => nonempty turn (List.mem_cons_of_mem _ member))
        (by omega) recordAfter
      rw [counted] at loop ihAfter
      cases rest with
      | nil =>
          have complete : total ≤ writter.totalwrite + chunk.data.length := by
            simp only [List.map_nil, List.sum_nil] at amount
            omega
          rw [Writter.progress_complete total _ complete] at loop
          simp only [if_true, List.map_nil] at loop
          have safe : RunSafe total chunks (.left after []) := by
            intro _
            refine ⟨by omega, rfl, ?_⟩
            simpa using recordAfter
          rw [loop]
          exact iff_of_true safe ⟨fun more => absurd rfl more, clearRun_nil _ _⟩
      | cons next rest =>
          have pos : 0 < next.2.data.length :=
            List.length_pos_of_ne_nil (nonempty next (by simp))
          have part : writter.totalwrite + chunk.data.length < total := by
            simp only [List.map_cons, List.sum_cons] at amount
            omega
          by_cases clear : Clear total (writter.totalwrite + chunk.data.length)
          · obtain ⟨percent, percentage, other⟩ := (Writter.progress_partial total _ part).mpr clear
            simp only [percentage, other, if_false] at loop
            rw [loop] at quiet ⊢
            rw [ihAfter quiet]
            simp [clear]
          · have unsafe_ : ¬ RunSafe total chunks (upgradeWritterLoop progressScale total
                ((env, chunk) :: next :: rest) writter) := by
              rw [loop]
              cases percentage : Writter.progress total (writter.totalwrite + chunk.data.length) with
              | none => exact id
              | some percent =>
                  have hundred : percent = 100 := by
                    by_contra other
                    exact clear ((Writter.progress_partial total _ part).mp
                      ⟨percent, percentage, other⟩)
                  simp only [percentage, hundred, if_true] at loop
                  rw [loop] at quiet
                  simp only [hundred, if_true]
                  intro safe
                  have complete := (safe quiet).1
                  omega
            refine iff_of_false unsafe_ ?_
            rintro ⟨first, _⟩
            exact clear (first (by simp))

/-- For chunks that add up to the announced total, a run without an error divides
by zero nowhere and leaves at 100 percent only with everything written, exactly
when no proper beginning of the chunks meets a total below 100 bytes or an amount
that already counts as 100 percent. -/
theorem writter_loop_safe_iff (progressScale : Int) (elemOld : Option Nat) (total : Nat)
    (turns : List (WritterEnv × Chunk)) (nonempty : ∀ turn ∈ turns, turn.2.data ≠ [])
    (sum : (turns.map (fun turn => turn.2.data.length)).sum = total)
    (quiet : (upgradeWritterLoop progressScale total turns
      (Writter.start elemOld)).writter.error = .none) :
    RunSafe total (turns.map Prod.snd)
        (upgradeWritterLoop progressScale total turns (Writter.start elemOld)) ↔
      ∀ front back, turns.map (fun turn => turn.2.data.length) = front ++ back →
        front ≠ [] → back ≠ [] → Clear total front.sum := by
  have general := loop_safe_iff progressScale total (turns.map Prod.snd) turns
    (Writter.start elemOld) nonempty (by simpa [Writter.start] using sum)
    (by simp [Writter.start, writes]) quiet
  simpa [ClearRun, Writter.start] using general

def calmEnv : WritterEnv where
  raised := .none
  opened := true
  allocated := true
  bootParam := fun _ => 0
  partSize := 4096
  raisedLate := .none

/-- A turn that hands over `size` zero bytes for a partition called kernel. -/
def zeroTurn (size : Nat) : WritterEnv × Chunk :=
  (calmEnv, ⟨⟨1, "kernel", size, 2076⟩, List.replicate size 0⟩)

theorem writter_loop_safe_halves :
    RunSafe 100 [(zeroTurn 50).2, (zeroTurn 50).2]
      (upgradeWritterLoop 10 100 [zeroTurn 50, zeroTurn 50] (Writter.start none)) := by
  refine (writter_loop_safe_iff 10 none 100 [zeroTurn 50, zeroTurn 50]
    (by decide) (by decide) (by decide)).mpr ?_
  intro front back split some more
  have sizes : [50, 50] = front ++ back := split
  have small : front.sum = 50 := by
    match front, back with
    | [], _ => exact absurd rfl some
    | [a], _ => simp_all
    | [a, b], [] => exact absurd rfl more
    | a :: b :: c :: front, back => simp at sizes
    | [a, b], c :: back => simp at sizes
  exact ⟨by decide, Or.inl (by rw [small]; decide)⟩

/-- Two one-byte chunks divide by zero; 100 bytes of 101 already count as done,
and the last byte stays behind. No error is stored in either run. -/
theorem writter_loop_unsafe :
    ((upgradeWritterLoop 10 2 [zeroTurn 1, zeroTurn 1] (Writter.start none)).writter.error = .none ∧
      ¬ RunSafe 2 [(zeroTurn 1).2, (zeroTurn 1).2]
        (upgradeWritterLoop 10 2 [zeroTurn 1, zeroTurn 1] (Writter.start none))) ∧
    ((upgradeWritterLoop 10 101 [zeroTurn 100, zeroTurn 1] (Writter.start none)).writter.error =
        .none ∧
      ¬ RunSafe 101 [(zeroTurn 100).2, (zeroTurn 1).2]
        (upgradeWritterLoop 10 101 [zeroTurn 100, zeroTurn 1] (Writter.start none))) := by
  refine ⟨⟨by decide, fun safe => safe⟩, by decide, fun safe => ?_⟩
  have pending : [(zeroTurn 1).2] = [] := (safe rfl).2.1
  exact absurd pending (by decide)

end Alisl.Upgrade
