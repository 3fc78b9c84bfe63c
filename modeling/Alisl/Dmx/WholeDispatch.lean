import Alisl.Dmx.Windows

/-! One dispatch of a section from its read to its end, with callbacks that only fill the buffer. -/

namespace Alisl.Dmx

open Alisl.Base

/-- `memset` of the user's buffer, then `memcpy` of the section. -/
def fillBuffer (data : List Byte) : List Byte :=
  data ++ (List.replicate maxSectionSize 0).drop data.length

/-- A call of the user: its size argument, and what `ch->buffer` points at. -/
structure Called where
  kind : Kind
  slot : Nat
  upcall : Upcall
  size : Nat
  buffer : Option (List Byte)
  deriving DecidableEq, Repr

def callSize (data : List Byte) : Kind → Nat
  | .request => maxSectionSize
  | .update => data.length

/-- What `ch->buffer` points at when the next callback starts: only behind a granted request the same
filter is updated without a `memset` of the structure. -/
def nextBuffer (window : Window) : Poll → Option (List Byte)
  | .running next =>
      if window.kind = .request ∧ next.kind = .update ∧ next.slot = window.slot then
        some (fillBuffer window.data)
      else none
  | _ => none

/-- The poll thread alone, where every callback grants the full size: the calls up to the end of
`section_dispatch`. -/
def fillOnly : Nat → Option (List Byte) → Sys → Option (List Called × Sys)
  | 0, _, _ => none
  | fuel + 1, buffer, state =>
      match state.poll with
      | .idle => some ([], state)
      | .returned _ _ => none
      | .running window =>
          (demux.next state (.callbackReturn true)).bind (fun returned =>
            (demux.next returned .resume).bind (fun resumed =>
              (fillOnly fuel (nextBuffer window resumed.poll) resumed).map (fun rest =>
                (⟨window.kind, window.slot, window.upcall, callSize window.data window.kind, buffer⟩ ::
                  rest.1, rest.2))))

/-- Two callbacks for each filter, and the end. -/
def fillFuel : Nat := 2 * maxFilters + 1

def wholeDispatch (state : Sys) (ch : Nat) (data : List Byte) : Option (List Called × Sys) :=
  (demux.next state (.dispatch ch true data)).bind (fillOnly fillFuel none)

section Meaning

variable (dev : Device) (ch : Nat) (data : List Byte) (i : Nat)

/-- The filter is enabled, not waiting to be closed, hit, and its check of the CRC holds. -/
def Gets : Prop :=
  (dev.filter i).status = .enable ∧ (dev.filter i).waitClose = false ∧
    sectionHit (dev.filter i) data = true ∧
    ((dev.filter i).crcCheck = true → calcCrc32 data = 0)

instance : Decidable (Gets dev data i) := inferInstanceAs (Decidable (_ ∧ _))

def OneShot : Prop := Gets dev data i ∧ (dev.filter i).continuous = false

instance : Decidable (OneShot dev data i) := inferInstanceAs (Decidable (_ ∧ _))

/-- The arguments of a call that the device decides. -/
def upcallTo (function : Nat) : Upcall :=
  ⟨function, (dev.filter i).callback.priv, (dev.channel .sections ch).id, (dev.filter i).id⟩

/-- The request of a buffer, where one is registered, and then the update. -/
def callsTo : List Called :=
  let callback := (dev.filter i).callback
  (callback.requestBuffer.map (fun function =>
      Called.mk .request i (upcallTo dev ch i function) maxSectionSize none)).toList ++
    (callback.updateBuffer.map (fun function =>
      Called.mk .update i (upcallTo dev ch i function) data.length
        (callback.requestBuffer.map (fun _ => fillBuffer data)))).toList

/-- The calls a filter should get. -/
def calls : List Called := if Gets dev data i then callsTo dev ch data i else []

end Meaning

/-- A dispatch on its way: `done` is passed, `rest` is ahead. -/
structure Along (before : Device) (ch : Nat) (data : List Byte) (done rest : List Nat) (dev : Device) :
    Prop where
  links : dev.links = before.links
  status : (dev.channel .sections ch).status = .enable
  id : (dev.channel .sections ch).id = (before.channel .sections ch).id
  fresh : ∀ i ∈ rest, dev.filter i = { before.filter i with access := false }
  passed : ∀ i ∉ rest, (dev.filter i).status =
    if i ∈ done ∧ OneShot before data i then .disable else (before.filter i).status
  flag : dev.flag =
    if ∃ i ∈ done, OneShot before data i then
      Function.update before.flag (chid2Index (before.channel .sections ch).id) true
    else before.flag

/-- The dispatch is at filter `i`, which gets the section. -/
structure At (before : Device) (ch : Nat) (data : List Byte) (done : List Nat) (i : Nat)
    (rest : List Nat) (dev : Device) : Prop where
  links : dev.links = before.links
  status : (dev.channel .sections ch).status = .enable
  id : (dev.channel .sections ch).id = (before.channel .sections ch).id
  here : ∃ access flag sessionId,
    dev.filter i = { before.filter i with access, flag, sessionId }
  fresh : ∀ j ∈ rest, dev.filter j = { before.filter j with access := false }
  passed : ∀ j ∉ i :: rest, (dev.filter j).status =
    if j ∈ done ∧ OneShot before data j then .disable else (before.filter j).status
  flag : dev.flag =
    if ∃ j ∈ done, OneShot before data j then
      Function.update before.flag (chid2Index (before.channel .sections ch).id) true
    else before.flag
  gets : Gets before data i
  apart : i ∉ done ∧ i ∉ rest

variable {before dev : Device} {ch : Nat} {data : List Byte} {done rest : List Nat} {i : Nat}

theorem Along.at_next (along : Along before ch data done (i :: rest) dev)
    (gets : Gets before data i) (apart : i ∉ done ∧ i ∉ rest) :
    At before ch data done i rest dev where
  links := along.links
  status := along.status
  id := along.id
  here := ⟨false, (before.filter i).flag, (before.filter i).sessionId,
    along.fresh i List.mem_cons_self⟩
  fresh := fun j member => along.fresh j (List.mem_cons_of_mem _ member)
  passed := along.passed
  flag := along.flag
  gets := gets
  apart := apart

/-- A filter that does not get the section is passed. -/
theorem Along.pass (along : Along before ch data done (i :: rest) dev)
    (misses : ¬ Gets before data i) (apart : i ∉ rest) :
    Along before ch data (done ++ [i]) rest dev ∧
      Along before ch data (done ++ [i]) rest (dev.mark i) := by
  have here := along.fresh i List.mem_cons_self
  have notOne : ¬ OneShot before data i := fun one => misses one.1
  have flag : dev.flag =
      if ∃ j ∈ done ++ [i], OneShot before data j then
        Function.update before.flag (chid2Index (before.channel .sections ch).id) true
      else before.flag := by
    rw [along.flag]
    simp [or_and_right, exists_or, notOne]
  have passed : ∀ j ∉ rest, (dev.filter j).status =
      if j ∈ done ++ [i] ∧ OneShot before data j then .disable else (before.filter j).status := by
    intro j outside
    by_cases same : j = i
    · subst same
      simp [here, notOne]
    · rw [along.passed j (by simp [same, outside])]
      simp [same]
  refine ⟨⟨along.links, along.status, along.id,
      fun j member => along.fresh j (List.mem_cons_of_mem _ member), passed, flag⟩,
    ⟨along.links, along.status, along.id, ?_, ?_, flag⟩⟩
  · intro j member
    have other : j ≠ i := fun same => apart (same ▸ member)
    simpa [Device.mark, other] using along.fresh j (List.mem_cons_of_mem _ member)
  · intro j outside
    rw [← passed j outside]
    by_cases same : j = i <;> simp [Device.mark, same]

namespace At

/-- The marks of the filter in hand do not matter. -/
theorem setFilter (reached : At before ch data done i rest dev) (access : Bool) (flag : FltFlag)
    (sessionId : Session) :
    At before ch data done i rest
      (dev.setFilter i { dev.filter i with access, flag, sessionId }) := by
  obtain ⟨_, _, _, here⟩ := reached.here
  refine ⟨reached.links, reached.status, reached.id, ⟨access, flag, sessionId, ?_⟩, ?_, ?_,
    reached.flag, reached.gets, reached.apart⟩
  · simp [here]
  · intro j member
    have other : j ≠ i := fun same => reached.apart.2 (same ▸ member)
    simpa [other] using reached.fresh j member
  · intro j outside
    have other : j ≠ i := fun same => outside (same ▸ List.mem_cons_self)
    simpa [other] using reached.passed j outside

theorem setSession (reached : At before ch data done i rest dev) (sessionId : Session) :
    At before ch data done i rest
      (dev.setChannel .sections ch { dev.channel .sections ch with sessionId }) :=
  ⟨reached.links, by simpa using reached.status, by simpa using reached.id, reached.here,
    reached.fresh, reached.passed, reached.flag, reached.gets, reached.apart⟩

theorem enter (reached : At before ch data done i rest dev) :
    At before ch data done i rest (dev.enter ch i) :=
  (reached.setFilter (dev.filter i).access .cb .mine).setSession .mine

theorem filter_fields (reached : At before ch data done i rest dev) :
    (dev.filter i).status = .enable ∧ (dev.filter i).continuous = (before.filter i).continuous ∧
      (dev.filter i).callback = (before.filter i).callback ∧
      (dev.filter i).id = (before.filter i).id := by
  obtain ⟨access, flag, sessionId, here⟩ := reached.here
  rw [here]
  exact ⟨reached.gets.1, rfl, rfl, rfl⟩

theorem upcallTo_eq (reached : At before ch data done i rest dev) (function : Nat) :
    upcallTo dev ch i function = upcallTo before ch i function := by
  obtain ⟨_, _, callback, id⟩ := reached.filter_fields
  rw [upcallTo, upcallTo, callback, id, reached.id]

/-- The end of the loop body passes the filter. -/
theorem finish (reached : At before ch data done i rest dev) :
    Along before ch data (done ++ [i]) rest (dev.finish ch i) := by
  obtain ⟨status, continuous, _, _⟩ := reached.filter_fields
  have fresh : ∀ j ∈ rest, ∀ filter, ((dev.setFilter i filter).filter j) =
      { before.filter j with access := false } := by
    intro j member filter
    have other : j ≠ i := fun same => reached.apart.2 (same ▸ member)
    simpa [other] using reached.fresh j member
  have passed : ∀ j ∉ rest, j ≠ i → (dev.filter j).status =
      if j ∈ done ++ [i] ∧ OneShot before data j then .disable else (before.filter j).status := by
    intro j outside other
    rw [reached.passed j (by simp [other, outside])]
    simp [other]
  cases once : (before.filter i).continuous with
  | true =>
      have notOne : ¬ OneShot before data i := fun one => by simp [one.2] at once
      have finished : dev.finish ch i = dev.mark i := by
        simp [Device.finish, status, continuous, once]
      have flag : dev.flag =
          if ∃ j ∈ done ++ [i], OneShot before data j then
            Function.update before.flag (chid2Index (before.channel .sections ch).id) true
          else before.flag := by
        simpa [or_and_right, exists_or, notOne] using reached.flag
      rw [finished]
      refine ⟨reached.links, reached.status, reached.id, fun j member => fresh j member _, ?_, flag⟩
      intro j outside
      by_cases same : j = i
      · subst same
        simp [Device.mark, status, notOne, reached.gets.1]
      · simpa [Device.mark, same] using passed j outside same
  | false =>
      have one : OneShot before data i := ⟨reached.gets, once⟩
      have finished : dev.finish ch i =
          (dev.setFlag (chid2Index (before.channel .sections ch).id) true).setFilter i
            { dev.filter i with status := .disable, access := true } := by
        simp [Device.finish, status, continuous, once, reached.id]
      rw [finished]
      refine ⟨reached.links, reached.status, reached.id, fun j member => fresh j member _, ?_, ?_⟩
      · intro j outside
        by_cases same : j = i
        · subst same
          simp [one]
        · simpa [same] using passed j outside same
      · have found : ∃ j ∈ done ++ [i], OneShot before data j := ⟨i, by simp, one⟩
        rw [if_pos found]
        simp only [Device.setFilter, Device.setFlag, reached.flag]
        split_ifs
        · rw [Function.update_idem]
        · rfl

end At

/-- Where a dispatch stops that is past `done`: at its end, or at the first callback ahead. -/
inductive Halted (before : Device) (ch : Nat) (data : List Byte) (slots rest : List Nat) :
    Stop × Device → Prop where
  | quit {dev : Device} (along : Along before ch data slots [] dev)
      (silent : rest.flatMap (calls before ch data) = []) : Halted before ch data slots rest (.quit, dev)
  | request {dev : Device} {front later : List Nat} {i function : Nat}
      (split : slots = front ++ i :: later) (member : i ∈ rest)
      (reached : At before ch data front i later dev)
      (ahead : rest.flatMap (calls before ch data) =
        calls before ch data i ++ later.flatMap (calls before ch data))
      (shorter : later.length < rest.length)
      (registered : (before.filter i).callback.requestBuffer = some function) :
      Halted before ch data slots rest
        (.callback .request i (upcallTo before ch i function), dev.enter ch i)
  | update {dev : Device} {front later : List Nat} {i function : Nat}
      (split : slots = front ++ i :: later) (member : i ∈ rest)
      (reached : At before ch data front i later dev)
      (ahead : rest.flatMap (calls before ch data) =
        calls before ch data i ++ later.flatMap (calls before ch data))
      (shorter : later.length < rest.length)
      (without : (before.filter i).callback.requestBuffer = none)
      (registered : (before.filter i).callback.updateBuffer = some function) :
      Halted before ch data slots rest
        (.callback .update i (upcallTo before ch i function), dev.enter ch i)

/-- A filter that gets no call is passed. -/
theorem Halted.cons {slots : List Nat} {result : Stop × Device} (silent : calls before ch data i = [])
    (halted : Halted before ch data slots rest result) :
    Halted before ch data slots (i :: rest) result := by
  have same : (i :: rest).flatMap (calls before ch data) = rest.flatMap (calls before ch data) := by
    rw [List.flatMap_cons, silent, List.nil_append]
  cases halted with
  | quit along nothing => exact .quit along (same.trans nothing)
  | request split member reached ahead shorter registered =>
      exact .request split (List.mem_cons_of_mem _ member) reached (same.trans ahead)
        (Nat.lt_succ_of_lt shorter) registered
  | update split member reached ahead shorter without registered =>
      exact .update split (List.mem_cons_of_mem _ member) reached (same.trans ahead)
        (Nat.lt_succ_of_lt shorter) without registered

/-- Where the loop looks next. -/
def nodeOf (ch : Nat) (rest : List Nat) : Node := (rest.map Node.filter).headD (.filters .sections ch)

theorem next_nodeOf (links : dev.links = before.links)
    (ring : before.links.Ring (.filters .sections ch) ((done ++ i :: rest).map Node.filter)) :
    dev.links.next (.filter i) = some (nodeOf ch rest) := by
  rw [List.map_append, List.map_cons] at ring
  rw [links]
  exact ring.next_inner

/-- The loop up to the next callback. -/
theorem scan_halted {fuel : Nat}
    (ring : before.links.Ring (.filters .sections ch) ((done ++ rest).map Node.filter))
    (along : Along before ch data done rest dev) (enough : rest.length < fuel) :
    ∃ result, Device.scan data ch fuel dev (nodeOf ch rest) = some result ∧
      Halted before ch data (done ++ rest) rest result := by
  induction rest generalizing done dev fuel with
  | nil =>
      obtain ⟨fuel, rfl⟩ := Nat.exists_eq_succ_of_ne_zero (Nat.ne_of_gt enough)
      refine ⟨(.quit, dev), ?_, .quit (by simpa using along) rfl⟩
      simp [Device.scan, nodeOf]
  | cons i rest ih =>
      obtain ⟨fuel, rfl⟩ := Nat.exists_eq_succ_of_ne_zero (Nat.ne_of_gt (Nat.lt_of_le_of_lt
        (Nat.zero_le _) enough))
      rw [List.length_cons, Nat.succ_lt_succ_iff] at enough
      have nodup : (done ++ i :: rest).Nodup := List.Nodup.of_map _ (List.nodup_cons.mp ring.nodup).2
      have apart : i ∉ done ∧ i ∉ rest := by
        have split := List.nodup_append.mp nodup
        exact ⟨fun member => split.2.2 i member i List.mem_cons_self rfl,
          (List.nodup_cons.mp split.2.1).1⟩
      have again : done ++ i :: rest = (done ++ [i]) ++ rest := by simp
      have fresh := along.fresh i List.mem_cons_self
      have onward : ∀ after : Device, Along before ch data (done ++ [i]) rest after →
          calls before ch data i = [] → ∃ result,
            ((after.links.next (.filter i)).bind (fun next => Device.scan data ch fuel after next)) =
                some result ∧ Halted before ch data (done ++ i :: rest) (i :: rest) result := by
        intro after further silent
        rw [next_nodeOf further.links ring, Option.bind_some]
        rw [again] at ring ⊢
        obtain ⟨result, scanned, halted⟩ := ih ring further enough
        exact ⟨result, scanned, halted.cons silent⟩
      have head : nodeOf ch (i :: rest) = .filter i := rfl
      rw [head, Device.scan, if_neg (by simp)]
      simp only
      by_cases gets : Gets before data i
      · have reached := along.at_next gets apart
        have on_ : ¬ ((dev.filter i).status ≠ .enable ∨ (dev.filter i).access = true ∨
            (dev.filter i).waitClose = true) := by
          simp [fresh, gets.1, gets.2.1]
        have hit : ¬ ¬ sectionHit (dev.filter i) data = true := by
          rw [fresh]
          exact not_not_intro gets.2.2.1
        have crc : ¬ ((dev.filter i).crcCheck = true ∧ calcCrc32 data ≠ 0) := by
          rw [fresh]
          exact fun wrong => wrong.2 (gets.2.2.2 wrong.1)
        have callback : (dev.filter i).callback = (before.filter i).callback := by rw [fresh]
        have upcall : ∀ function, Upcall.mk function (before.filter i).callback.priv
            (dev.channel .sections ch).id (dev.filter i).id = upcallTo before ch i function := by
          intro function
          rw [← reached.upcallTo_eq, upcallTo, callback]
        rw [if_neg on_, if_neg hit, if_neg crc, callback]
        simp only [upcall]
        have ahead : (i :: rest).flatMap (calls before ch data) =
            calls before ch data i ++ rest.flatMap (calls before ch data) := List.flatMap_cons
        cases requested : (before.filter i).callback.requestBuffer with
        | some function =>
            exact ⟨_, rfl, .request rfl List.mem_cons_self reached ahead (Nat.lt_succ_self _) requested⟩
        | none =>
            cases updated : (before.filter i).callback.updateBuffer with
            | some function =>
                exact ⟨_, rfl, .update rfl List.mem_cons_self reached ahead (Nat.lt_succ_self _)
                  requested updated⟩
            | none =>
                apply onward _ reached.finish
                simp [calls, callsTo, requested, updated]
      · obtain ⟨kept, marked⟩ := along.pass gets apart.2
        have silent : calls before ch data i = [] := if_neg gets
        split_ifs with off hit wrong
        · exact onward dev kept silent
        · exact onward _ marked silent
        · -- every test is passed
          rw [fresh] at off hit wrong
          simp only [not_or, not_not, Bool.not_eq_true, not_and, ne_eq] at off wrong
          exact absurd ⟨off.1, off.2.2, hit, wrong⟩ gets
        · exact onward _ marked silent

/-- What the loop over the list clears. -/
theorem foldl_unmark (slots : List Nat) (dev : Device) :
    let cleared := (slots.map Node.filter).foldl Device.unmark dev
    cleared.links = dev.links ∧ cleared.channel = dev.channel ∧ cleared.flag = dev.flag ∧
      ∀ j, cleared.filter j =
        if j ∈ slots then { dev.filter j with access := false } else dev.filter j := by
  induction slots generalizing dev with
  | nil => exact ⟨rfl, rfl, rfl, fun j => rfl⟩
  | cons i slots ih =>
      obtain ⟨links, channel, flag, filter⟩ :=
        ih (dev.setFilter i { dev.filter i with access := false })
      refine ⟨links, channel, flag, fun j => ?_⟩
      rw [List.map_cons, List.foldl_cons]
      refine (filter j).trans ?_
      by_cases same : j = i <;> by_cases member : j ∈ slots <;> simp [same, member]

variable {lists : Lists}

/-- The start of a dispatch with a section read. -/
theorem dispatch_halted (linked : Linked before lists) (live : ch ∈ lists.chs .sections)
    (enabled : (before.channel .sections ch).status = .enable) (read : data ≠ []) :
    ∃ result, before.sectionDispatch ch true data = some result ∧
      Halted before ch data (lists.flts .sections ch) (lists.flts .sections ch) result := by
  have ring := linked.filters .sections ch live
  have few := linked.flts_length live
  have entries : before.links.entries (.filters .sections ch) Device.scanFuel =
      some ((lists.flts .sections ch).map Node.filter) :=
    ring.entries (by rw [List.length_map]; exact Nat.succ_le_succ few)
  obtain ⟨links, channel, flag, filter⟩ := foldl_unmark (lists.flts .sections ch) before
  have along : Along before ch data [] (lists.flts .sections ch)
      (((lists.flts .sections ch).map Node.filter).foldl Device.unmark before) := by
    refine ⟨links, by rw [channel, enabled], by rw [channel], ?_, ?_, by rw [flag]; simp⟩
    · intro i member
      rw [filter i, if_pos member]
    · intro i outside
      rw [filter i, if_neg outside]
      simp
  have enough : (lists.flts .sections ch).length < Device.scanFuel := Nat.lt_succ_of_le few
  obtain ⟨result, scanned, halted⟩ := scan_halted ring along enough
  refine ⟨result, ?_, halted⟩
  have first : (((lists.flts .sections ch).map Node.filter).foldl Device.unmark before).links.next
      (.filters .sections ch) = some (nodeOf ch (lists.flts .sections ch)) := by
    rw [links]
    exact ring.next_head
  have reads : ¬ ((before.channel .sections ch).status ≠ .enable ∨ ¬ true = true ∨ data = []) := by
    simp [enabled, read]
  rw [Device.sectionDispatch, if_neg reads, Device.clearAccess, entries]
  simp only [Option.map_some, Option.bind_some, first, scanned]

/-- A filter whose callback has returned, with nothing changed. -/
structure Back (before : Device) (ch : Nat) (data : List Byte) (front : List Nat) (i : Nat)
    (later : List Nat) (dev : Device) : Prop extends At before ch data front i later dev where
  filterMine : (dev.filter i).sessionId = .mine
  channelMine : (dev.channel .sections ch).sessionId = .mine

theorem At.back {front later : List Nat} (reached : At before ch data front i later dev) :
    Back before ch data front i later
      ((dev.enter ch i).setFilter i { (dev.enter ch i).filter i with flag := .dispatch }) where
  toAt := reached.enter.setFilter ((dev.enter ch i).filter i).access .dispatch
    ((dev.enter ch i).filter i).sessionId
  filterMine := by simp [Device.enter]
  channelMine := by simp [Device.enter]

namespace Back

variable {front later : List Nat}

theorem settle (back : Back before ch data front i later dev) :
    At before ch data front i later (dev.settle ch) := back.toAt.setSession .past

/-- The loop goes on behind the filter. -/
theorem advance (back : Back before ch data front i later dev)
    (ring : before.links.Ring (.filters .sections ch) ((front ++ i :: later).map Node.filter))
    (few : (front ++ i :: later).length ≤ maxFilters) :
    ∃ result, ((dev.settle ch).finish ch i).advance data ch i = some result ∧
      Halted before ch data (front ++ i :: later) later result := by
  have along := back.settle.finish
  have again : front ++ i :: later = (front ++ [i]) ++ later := by simp
  rw [Device.advance, next_nodeOf along.links ring, Option.bind_some]
  rw [again] at ring few ⊢
  refine scan_halted ring along ?_
  rw [List.length_append] at few
  exact Nat.lt_succ_of_le (Nat.le_trans (Nat.le_add_left _ _) few)

/-- Behind a callback that changed nothing the same filter is in hand. -/
theorem resume_eq (back : Back before ch data front i later dev) (kind : Kind) (upcall : Upcall) :
    dev.resume data ch i kind upcall true =
      match kind with
      | .request =>
          match (before.filter i).callback.updateBuffer with
          | some function =>
              some (.callback .update i
                { upcall with function, priv := (before.filter i).callback.priv },
                (dev.settle ch).enter ch i)
          | none => ((dev.settle ch).finish ch i).advance data ch i
      | .update => ((dev.settle ch).finish ch i).advance data ch i := by
  obtain ⟨status, _, callback, _⟩ := back.settle.filter_fields
  have goes : ¬ ((dev.channel .sections ch).status ≠ .enable ∨
      (dev.channel .sections ch).sessionId ≠ .mine) := by
    simp [back.status, back.channelMine]
  have mine : ((dev.settle ch).filter i).sessionId = .mine := back.filterMine
  have still : ¬ (((dev.settle ch).filter i).sessionId ≠ .mine ∨
      ((dev.settle ch).filter i).status = .none) := by
    simp [mine, status]
  rw [Device.resume, if_neg goes]
  simp only
  rw [if_neg still, if_neg (not_not_intro status), callback]
  rfl

end Back

/-- The mutex has been released with this result. -/
structure Stopped (state : Sys) (ch : Nat) (data : List Byte) (result : Stop × Device) : Prop where
  dev : state.dev = result.2
  closing : state.pollClosing = none
  quit : result.1 = .quit → state.poll = .idle
  callback : ∀ kind slot upcall, result.1 = .callback kind slot upcall →
    ∃ gen, state.poll = .running ⟨ch, data, kind, slot, gen, upcall⟩

theorem stopped_stop {state : Sys} (closing : state.pollClosing = none) (ch : Nat) (data : List Byte)
    (result : Stop × Device) (removed : List Inc) :
    Stopped { state.stop ch data result with removed } ch data result := by
  rcases result with ⟨stop, dev⟩
  cases stop with
  | quit => exact ⟨rfl, closing, fun _ => rfl, fun _ _ _ same => by cases same⟩
  | callback kind slot upcall =>
      refine ⟨rfl, closing, fun same => (by cases same), fun _ _ _ same => ?_⟩
      cases same
      exact ⟨state.gen slot, rfl⟩

/-- The two steps of the poll thread around the return of a callback. -/
theorem step_back {state : Sys} {kind : Kind} {slot gen : Nat} {upcall : Upcall}
    {result : Stop × Device} (closing : state.pollClosing = none)
    (running : state.poll = .running ⟨ch, data, kind, slot, gen, upcall⟩)
    (resumes : (state.dev.setFilter slot { state.dev.filter slot with flag := .dispatch }).resume
      data ch slot kind upcall true = some result) :
    ∃ returned resumed, demux.next state (.callbackReturn true) = some returned ∧
      demux.next returned .resume = some resumed ∧ Stopped resumed ch data result := by
  have returns : ∃ returned, demux.next state (.callbackReturn true) = some returned ∧
      returned.dev = state.dev.setFilter slot { state.dev.filter slot with flag := .dispatch } ∧
      returned.poll = .returned ⟨ch, data, kind, slot, gen, upcall⟩ true ∧
      returned.pollClosing = none := by
    simp [demux, Sys.step, running, closing]
  obtain ⟨returned, moved, dev, poll, open_⟩ := returns
  have next : demux.next returned .resume =
      some { returned.stop ch data result with
        removed := returned.removed ++ (returned.freedBy .resume).map returned.inc } := by
    simp [demux, Sys.step, poll, dev, resumes]
  exact ⟨returned, _, moved, next, stopped_stop open_ ch data result _⟩

/-- The calls from a stop on, and the device at the end of the dispatch. -/
def Completes (before : Device) (ch : Nat) (data : List Byte) (slots : List Nat) (fuel : Nat)
    (buffer : Option (List Byte)) (state : Sys) (expected : List Called) : Prop :=
  ∃ final, fillOnly fuel buffer state = some (expected, final) ∧ final.poll = .idle ∧
    Along before ch data slots [] final.dev

/-- A callback behind which the loop goes on. -/
theorem completes_advance {front later : List Nat} {state : Sys} {kind : Kind} {upcall : Upcall}
    (ring : before.links.Ring (.filters .sections ch) ((front ++ i :: later).map Node.filter))
    (few : (front ++ i :: later).length ≤ maxFilters)
    (reached : At before ch data front i later dev)
    (stopped : Stopped state ch data (.callback kind i upcall, dev.enter ch i))
    (last : kind = .update ∨ (before.filter i).callback.updateBuffer = none) {fuel : Nat}
    (continues : ∀ result resumed, Halted before ch data (front ++ i :: later) later result →
      Stopped resumed ch data result →
      Completes before ch data (front ++ i :: later) fuel none resumed
        (later.flatMap (calls before ch data))) (buffer : Option (List Byte)) :
    Completes before ch data (front ++ i :: later) (fuel + 1) buffer state
      (⟨kind, i, upcall, callSize data kind, buffer⟩ :: later.flatMap (calls before ch data)) := by
  obtain ⟨gen, running⟩ := stopped.callback _ _ _ rfl
  obtain ⟨result, advanced, halted⟩ := reached.back.advance ring few
  have resumes : (state.dev.setFilter i { state.dev.filter i with flag := .dispatch }).resume
      data ch i kind upcall true = some result := by
    have same := stopped.dev
    simp only at same
    rw [same, reached.back.resume_eq kind upcall, ← advanced]
    rcases last with update | none_
    · rw [update]
    · cases kind <;> simp [none_]
  obtain ⟨returned, resumed, returns, goes, stops⟩ := step_back stopped.closing running resumes
  obtain ⟨final, rests, idle, along⟩ := continues result resumed halted stops
  -- the next callback is for a filter further on
  have fresh : nextBuffer ⟨ch, data, kind, i, gen, upcall⟩ resumed.poll = none := by
    cases halted with
    | quit => simp [nextBuffer, stops.quit rfl]
    | request =>
        obtain ⟨_, next⟩ := stops.callback _ _ _ rfl
        simp [nextBuffer, next]
    | @update _ _ _ j _ _ member =>
        obtain ⟨_, next⟩ := stops.callback _ _ _ rfl
        have other : j ≠ i := fun same => reached.apart.2 (same ▸ member)
        simp [nextBuffer, next, other]
  refine ⟨final, ?_, idle, along⟩
  rw [fillOnly, running]
  simp only [returns, goes, fresh, rests, Option.bind_some, Option.map_some]

/-- From a stop to the end of the dispatch. -/
theorem fillOnly_completes {slots rest : List Nat} {result : Stop × Device}
    (ring : before.links.Ring (.filters .sections ch) (slots.map Node.filter))
    (few : slots.length ≤ maxFilters) (halted : Halted before ch data slots rest result)
    {state : Sys} (stopped : Stopped state ch data result) {fuel : Nat}
    (enough : 2 * rest.length < fuel) :
    Completes before ch data slots fuel none state (rest.flatMap (calls before ch data)) := by
  induction turns : rest.length using Nat.strong_induction_on generalizing rest result state fuel with
  | _ n ih =>
      subst turns
      obtain ⟨fuel, rfl⟩ := Nat.exists_eq_succ_of_ne_zero (Nat.ne_of_gt (Nat.lt_of_le_of_lt
        (Nat.zero_le _) enough))
      cases halted with
      | quit along silent =>
          refine ⟨state, ?_, stopped.quit rfl, ?_⟩
          · simp [fillOnly, stopped.quit rfl, silent]
          · rw [stopped.dev]
            exact along
      | @update dev front later i function split member reached ahead shorter without registered =>
          subst split
          have own : calls before ch data i =
              [⟨.update, i, upcallTo before ch i function, callSize data .update, none⟩] := by
            simp [calls, callsTo, callSize, reached.gets, without, registered]
          rw [ahead, own]
          exact completes_advance ring few reached stopped (.inl rfl)
            (fun _ _ halted stops => ih later.length shorter halted stops (by omega) rfl) none
      | @request dev front later i function split member reached ahead shorter registered =>
          subst split
          rw [ahead]
          cases updates : (before.filter i).callback.updateBuffer with
          | none =>
              have own : calls before ch data i =
                  [⟨.request, i, upcallTo before ch i function, callSize data .request, none⟩] := by
                simp [calls, callsTo, callSize, reached.gets, updates, registered]
              rw [own]
              exact completes_advance ring few reached stopped (.inr updates)
                (fun _ _ halted stops => ih later.length shorter halted stops (by omega) rfl) none
          | some update =>
              have own : calls before ch data i =
                  [⟨.request, i, upcallTo before ch i function, callSize data .request, none⟩,
                    ⟨.update, i, upcallTo before ch i update, callSize data .update,
                      some (fillBuffer data)⟩] := by
                simp [calls, callsTo, callSize, reached.gets, updates, registered]
              obtain ⟨gen, running⟩ := stopped.callback _ _ _ rfl
              obtain ⟨fuel, rfl⟩ : ∃ less, fuel = less + 1 := ⟨fuel - 1, by omega⟩
              have same := stopped.dev
              simp only at same
              have granted : ∃ middle, At before ch data front i later middle ∧
                  (state.dev.setFilter i { state.dev.filter i with flag := .dispatch }).resume data ch i
                    .request (upcallTo before ch i function) true =
                      some (.callback .update i (upcallTo before ch i update), middle.enter ch i) := by
                refine ⟨_, reached.back.settle, ?_⟩
                rw [same, reached.back.resume_eq, updates]
                rfl
              obtain ⟨middle, settled, resumes⟩ := granted
              obtain ⟨returned, resumed, returns, goes, stops⟩ :=
                step_back stopped.closing running resumes
              obtain ⟨_, next⟩ := stops.callback _ _ _ rfl
              have filled : nextBuffer ⟨ch, data, .request, i, gen, upcallTo before ch i function⟩
                  resumed.poll = some (fillBuffer data) := by
                simp [nextBuffer, next]
              obtain ⟨final, rests, idle, along⟩ := completes_advance ring few settled stops
                (.inl rfl)
                (fun _ _ halted stops => ih later.length shorter halted stops
                  (by omega : 2 * later.length < fuel) rfl) (some (fillBuffer data))
              refine ⟨final, ?_, idle, along⟩
              rw [own, fillOnly, running]
              simp only [returns, goes, filled, rests, Option.bind_some, Option.map_some]
              rfl

theorem buffer_of_calls {call : Called} {bytes : List Byte} (member : call ∈ calls before ch data i)
    (delivered : call.buffer = some bytes) : data <+: bytes := by
  have bare : fillBuffer data = bytes := by
    rw [calls] at member
    split_ifs at member
    · simp only [callsTo, List.mem_append, Option.mem_toList, Option.map_eq_some_iff] at member
      rcases member with ⟨_, _, rfl⟩ | ⟨_, _, rfl⟩
      · cases delivered
      · obtain ⟨_, _, filled⟩ := Option.map_eq_some_iff.mp delivered
        exact filled
    · cases member
  rw [← bare]
  exact List.prefix_append _ _

/-- One dispatch, with callbacks that only fill the buffer: the calls in list order, each delivered
buffer with the section at its start, and what becomes of the filters and of the flag. -/
theorem section_dispatched (state : Sys) {lists : Lists} (linked : Linked state.dev lists) {ch : Nat}
    (live : ch ∈ lists.chs .sections) (idle : state.poll = .idle) (closing : state.pollClosing = none)
    (enabled : (state.dev.channel .sections ch).status = .enable) {data : List Byte}
    (read : data ≠ []) (short : data.length ≤ maxSectionSize) :
    ∃ trace final, wholeDispatch state ch data = some (trace, final) ∧ final.poll = .idle ∧
      trace = (lists.flts .sections ch).flatMap (calls state.dev ch data) ∧
      (∀ call ∈ trace, ∀ bytes, call.buffer = some bytes → data <+: bytes) ∧
      (∀ i, (final.dev.filter i).status =
        if i ∈ lists.flts .sections ch ∧ OneShot state.dev data i then .disable
        else (state.dev.filter i).status) ∧
      final.dev.flag =
        if ∃ i ∈ lists.flts .sections ch, OneShot state.dev data i then
          Function.update state.dev.flag (chid2Index (state.dev.channel .sections ch).id) true
        else state.dev.flag := by
  have few := linked.flts_length live
  obtain ⟨result, dispatched, halted⟩ := dispatch_halted linked live enabled read
  have next : ∃ started, demux.next state (.dispatch ch true data) = some started ∧
      Stopped started ch data result := by
    have open_ : ({ state with delivered := [] } : Sys).pollClosing = none := closing
    refine ⟨{ ({ state with delivered := [] } : Sys).stop ch data result with
      removed := state.removed ++ (state.freedBy (.dispatch ch true data)).map state.inc }, ?_,
      stopped_stop open_ ch data result _⟩
    simp [demux, Sys.step, idle, closing, short, dispatched]
  obtain ⟨started, begun, stopped⟩ := next
  have enough : 2 * (lists.flts .sections ch).length < fillFuel :=
    Nat.lt_succ_of_le (Nat.mul_le_mul_left 2 few)
  obtain ⟨final, rests, ended, along⟩ := fillOnly_completes (linked.filters .sections ch live) few
    halted stopped enough
  refine ⟨_, final, ?_, ended, rfl, ?_, fun i => along.passed i List.not_mem_nil, along.flag⟩
  · rw [wholeDispatch, begun, Option.bind_some, rests]
  · intro call member bytes delivered
    obtain ⟨i, _, own⟩ := List.mem_flatMap.mp member
    exact buffer_of_calls own delivered

/-- Both filters of the channel get the section and are disabled. -/
theorem section_dispatched_two : ∃ state trace final,
    wholeDispatch state 0 [1] = some (trace, final) ∧
      trace = [⟨.update, 0, ⟨1, 0, 0x10000, 0⟩, 1, none⟩, ⟨.update, 1, ⟨1, 0, 0x10000, 1⟩, 1, none⟩] ∧
      (final.dev.filter 1).status = .disable := by
  have ready : (pool.run (.opened 0 0 0 0 false) twoFilters).map (fun dev =>
      ((dev.channel .sections 0).status, Sys.listed (dev.channelStart 0) 0,
        [0, 1].flatMap (calls (dev.channelStart 0) 0 [1]),
        decide (OneShot (dev.channelStart 0) [1] 1))) =
      some (.disable, [0, 1],
        [⟨.update, 0, ⟨1, 0, 0x10000, 0⟩, 1, none⟩, ⟨.update, 1, ⟨1, 0, 0x10000, 1⟩, 1, none⟩],
        true) := by
    decide +kernel
  obtain ⟨dev, prepared, view⟩ := Option.map_eq_some_iff.mp ready
  simp only [Prod.mk.injEq] at view
  obtain ⟨disabled, listed, expected, oneShot⟩ := view
  have begins := initial_atRest (by rw [prepared, Option.map_some, disabled]) prepared
  obtain ⟨⟨lists, linked⟩, idle, closing, _⟩ := begins
  have enabled : ((dev.channelStart 0).channel .sections 0).status = .enable := by
    simp [Device.channelStart]
  have live : 0 ∈ lists.chs .sections := by
    rw [linked.chLive]
    exact ⟨by decide, fun none_ => by cases enabled.symm.trans none_⟩
  obtain ⟨trace, final, dispatched, _, calls_eq, _, status, _⟩ :=
    section_dispatched (.atRest (dev.channelStart 0)) linked live idle closing enabled
      (List.cons_ne_nil 1 []) (by decide)
  have whole : lists.flts .sections 0 = [0, 1] := (linked.listed live).symm.trans listed
  rw [whole] at calls_eq status
  refine ⟨_, trace, final, dispatched, calls_eq.trans expected, ?_⟩
  rw [status 1, if_pos ⟨by decide, of_decide_eq_true oneShot⟩]

end Alisl.Dmx
