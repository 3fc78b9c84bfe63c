import Alisl.Upgrade.Source.Plan

/-! What each plugin reads from, and that its loop hands over the plan. -/

namespace Alisl.Upgrade.Source

open Alisl.Base

/-- The part of the package a read is for. -/
def part (bytes : List Byte) (offset size : Nat) : List Byte := (bytes.drop offset).take size

theorem part_length (bytes : List Byte) (offset size : Nat) (inside : offset + size ≤ bytes.length) :
    (part bytes offset size).length = size := by
  rw [part, List.length_take, List.length_drop]
  omega

theorem part_append (bytes : List Byte) (offset front back : Nat) :
    part bytes offset front ++ part bytes (offset + front) back =
      part bytes offset (front + back) := by
  rw [part, part, part, ← List.drop_drop, List.take_add]

theorem slice_store_part (buf : Memory) (bytes : List Byte) (offset size : Nat)
    (inside : offset + size ≤ bytes.length) :
    slice (store buf 0 (part bytes offset size)) 0 size = part bytes offset size :=
  slice_store_of_length _ _ _ _ (part_length bytes offset size inside)

/-- How far a plugin has read, and whether anything went wrong. -/
structure Progress where
  pos : Nat
  failed : Bool

/-! USB. The place only records failures: every read says where it reads. -/

def usbService (bytes : List Byte) : Service UsbCall UsbCall.Answer where
  Place := Progress
  Failed place := place.failed = true
  Asks
    | _, .fread offset size => offset + size ≤ bytes.length
    | _, _ => True
  Gives
    | place, .raised, (error : Bool), after => after = { place with failed := place.failed || error }
    | place, .fopen, (opened : Bool), after =>
        after = { place with failed := place.failed || !opened }
    | place, .fread offset size, content, after =>
        content = part bytes offset size ∧ after = { place with pos := offset + size }

def UsbAt (place : Progress) (_ : Nat) : Prop := place.failed = false

theorem usb_reads (bytes : List Byte) :
    Reads (usbService bytes) bytes UsbAt (fun next => .call .raised next) usbRead where
  raised := by
    intro place offset plan next quiet goesOn givesUp
    apply And.intro trivial
    intro error after given
    cases error with
    | false =>
        apply goesOn
        rw [given]
        exact (Bool.or_false _).trans quiet
    | true =>
        apply givesUp
        rw [given]
        exact Bool.or_true _
  read := by
    intro place offset size buf plan next quiet _ inside goesOn _
    apply And.intro inside
    intro content after given
    rcases given with ⟨content, moved⟩
    apply goesOn
    · rw [moved]
      exact quiet
    · rw [content]
      exact slice_store_part buf bytes offset size inside

/-- The loop behind the opening of a source, from the first image on. -/
theorem images_fulfil {Call : Type} {Answer : Call → Type} {service : Service Call Answer}
    {At : service.Place → Nat → Prop}
    {raised : (Bool → Client Call Answer Chunk) → Client Call Answer Chunk}
    {read : Memory → Nat → Nat → (Option Memory → Client Call Answer Chunk) →
      Client Call Answer Chunk}
    {shrink : Nat → Nat → Nat → Nat} (package : Package)
    (reads : Reads service package.bytes At raised read) (shrinks : Shrinks shrink) (buf : Memory)
    (place : service.Place) (at_ : At place headerSize) :
    (objLoop raised read shrink (package.bytes.length - headerSize)
      (rounds (package.bytes.length - headerSize) package.elems) package.elems buf 0 upgBufSize
      0).Fulfils service place package.plan := by
  have ready := Ready.start package.positive package.contiguous package.length
  rw [Package.plan, ← restPlan_zero]
  apply objLoop_fulfils reads shrinks _ _ _ _ _ _ _ _ _ at_ ready
  · omega
  · rw [rounds]
    omega

theorem usb_fulfils (package : Package) (method : Net.Method) (buf : Memory) :
    (usbObjLoop method package.bytes.length package.elems buf).Fulfils (usbService package.bytes)
      ⟨0, false⟩ package.plan := by
  have loop := fun place =>
    images_fulfil package (usb_reads package.bytes) shrinkGuarded_shrinks buf place
  cases method with
  | oneShot => exact loop ⟨0, false⟩ rfl
  | pieceByPiece =>
      apply And.intro trivial
      intro opened after given
      cases opened with
      | true =>
          rw [given]
          exact loop _ rfl
      | false =>
          apply stop_false_fulfils
          rw [given]
          rfl

/-! NET. The cache is a stream; `url_seek` reads over what lies between. -/

def netService (bytes : List Byte) : Service NetCall NetCall.Answer where
  Place := Progress
  Failed place := place.failed = true
  Asks
    | place, .readCache size => 1 ≤ size ∧ size ≤ 10240 ∧ place.pos + size ≤ bytes.length
    | _, _ => True
  Gives
    | place, .raised, (error : Bool), after => after = { place with failed := place.failed || error }
    | place, .urlOpen, (opened : Bool), after =>
        after = { place with failed := place.failed || !opened }
    | place, .fileOffset, (offset : Nat), after => offset = place.pos ∧ after = place
    | place, .readCache size, (content : Option (List Byte)), after =>
        (content = some (part bytes place.pos size) ∧
          after = { place with pos := place.pos + size }) ∨
        content = none ∧ after = { place with failed := true }

def StreamAt (place : Progress) (offset : Nat) : Prop := place.pos = offset ∧ place.failed = false

section

variable {bytes : List Byte} {plan : List Chunk}

theorem urlReadLoop_fulfils (offset size perSize : Nat) (some_ : 1 ≤ perSize)
    (small : perSize ≤ 10240) (inside : offset + size ≤ bytes.length) (next : Option (List Byte) → NetClient)
    (goesOn : ∀ after, StreamAt after (offset + size) →
      (next (some (part bytes offset size))).Fulfils (netService bytes) after plan)
    (givesUp : ∀ after : Progress, after.failed = true →
      (next none).Fulfils (netService bytes) after plan)
    (fuel count : Nat) (short : count ≤ size) (enough : size - count < fuel) (place : Progress)
    (at_ : StreamAt place (offset + count)) :
    (urlReadLoop size perSize next fuel (part bytes offset count)).Fulfils (netService bytes) place
      plan := by
  induction fuel generalizing count place with
  | zero => omega
  | succ fuel ih =>
      have length := part_length bytes offset count (by omega)
      rw [urlReadLoop, length]
      by_cases more : count < size
      · rw [if_pos more]
        generalize asked : (if perSize ≤ size - count then perSize else size - count) = ask
        have least : 1 ≤ ask := by
          rw [← asked]
          split <;> omega
        have most : ask ≤ size - count := by
          rw [← asked]
          split <;> omega
        rcases at_ with ⟨pos, quiet⟩
        have bounded : ask ≤ 10240 := by
          rw [← asked]
          split <;> omega
        apply And.intro ⟨least, bounded, by omega⟩
        intro content after given
        rcases given with ⟨content, moved⟩ | ⟨content, moved⟩
        · rw [content]
          simp only
          rw [pos, part_append]
          apply ih (count + ask) (by omega) (by omega)
          rw [moved]
          exact ⟨by simp only; omega, quiet⟩
        · rw [content]
          apply givesUp
          rw [moved]
      · rw [if_neg more]
        have all : count = size := by omega
        rw [all] at at_ ⊢
        exact goesOn place at_

theorem urlRead_fulfils (offset size : Nat) (some_ : 1 ≤ size)
    (inside : offset + size ≤ bytes.length) (next : Option (List Byte) → NetClient)
    (place : Progress) (at_ : StreamAt place offset)
    (goesOn : ∀ after, StreamAt after (offset + size) →
      (next (some (part bytes offset size))).Fulfils (netService bytes) after plan)
    (givesUp : ∀ after : Progress, after.failed = true →
      (next none).Fulfils (netService bytes) after plan) :
    (urlRead size next).Fulfils (netService bytes) place plan := by
  rw [urlRead, if_neg (by omega)]
  have start : part bytes offset 0 = [] := List.take_zero
  rw [← start]
  apply urlReadLoop_fulfils offset size _ _ _ inside next goesOn givesUp (size + 1) 0
    (Nat.zero_le _) (by omega) place at_
  · split <;> omega
  · split <;> omega

theorem urlSeekLoop_fulfils (offset : Nat) (inside : offset ≤ bytes.length)
    (next : Bool → NetClient)
    (goesOn : ∀ after, StreamAt after offset →
      (next true).Fulfils (netService bytes) after plan)
    (givesUp : ∀ after : Progress, after.failed = true →
      (next false).Fulfils (netService bytes) after plan)
    (fuel curOffset : Nat) (ahead : curOffset ≤ offset) (enough : offset - curOffset < fuel)
    (place : Progress) (at_ : StreamAt place curOffset) :
    (urlSeekLoop offset next fuel curOffset).Fulfils (netService bytes) place plan := by
  induction fuel generalizing curOffset place with
  | zero => omega
  | succ fuel ih =>
      rw [urlSeekLoop]
      by_cases more : curOffset < offset
      · rw [if_pos more]
        generalize asked : (if seekBufSize ≤ offset - curOffset then seekBufSize
          else offset - curOffset) = ask
        have least : 1 ≤ ask := by
          rw [← asked]
          split
          · decide
          · omega
        have most : ask ≤ offset - curOffset := by
          rw [← asked]
          split <;> omega
        apply urlRead_fulfils curOffset ask least (by omega) _ place at_
        · intro after at_
          simp only [part_length bytes curOffset ask (by omega)]
          exact ih (curOffset + ask) (by omega) (by omega) after at_
        · intro after failed
          exact givesUp after failed
      · rw [if_neg more]
        have there : curOffset = offset := by omega
        rw [there] at at_
        exact goesOn place at_

theorem urlSeek_fulfils (from_ offset : Nat) (ahead : from_ ≤ offset)
    (inside : offset ≤ bytes.length) (next : Bool → NetClient) (place : Progress)
    (at_ : StreamAt place from_)
    (goesOn : ∀ after, StreamAt after offset →
      (next true).Fulfils (netService bytes) after plan)
    (givesUp : ∀ after : Progress, after.failed = true →
      (next false).Fulfils (netService bytes) after plan) :
    (urlSeek offset next).Fulfils (netService bytes) place plan := by
  apply And.intro trivial
  intro curOffset after given
  rcases given with ⟨here, same⟩
  have current : (curOffset : Nat) = from_ := here.trans at_.1
  rw [same, current]
  exact urlSeekLoop_fulfils offset inside next goesOn givesUp (offset + 1) from_ ahead (by omega)
    place at_

end

theorem net_reads (bytes : List Byte) :
    Reads (netService bytes) bytes StreamAt (fun next => .call .raised next) netRead where
  raised := by
    intro place offset plan next at_ goesOn givesUp
    apply And.intro trivial
    intro error after given
    cases error with
    | false =>
        apply goesOn
        rw [given]
        exact ⟨at_.1, by simpa using at_.2⟩
    | true =>
        apply givesUp
        rw [given]
        exact Bool.or_true _
  read := by
    intro place offset size buf plan next at_ some inside goesOn givesUp
    apply urlSeek_fulfils offset offset le_rfl (by omega) _ place at_
    · intro place at_
      apply urlRead_fulfils offset size some inside _ place at_
      · intro place at_
        exact goesOn place _ at_ (slice_store_part buf bytes offset size inside)
      · exact givesUp
    · exact givesUp

theorem Package.header_inside (package : Package) : headerSize ≤ package.bytes.length := by
  rw [package.length]
  omega

theorem net_fulfils (package : Package) (method : Net.Method) (buf : Memory) :
    (netObjLoop method package.bytes.length package.elems buf).Fulfils (netService package.bytes)
      ⟨0, false⟩ package.plan := by
  unfold netObjLoop
  by_cases empty : package.elems = []
  · simp only [empty, if_true, Package.plan, planOf, List.flatMap_nil]
    exact stop_true_fulfils _
  · simp only [empty, if_false]
    have loop : (urlSeek headerSize (fun sought =>
        if sought = true then
          objLoop (fun next => .call .raised next) netRead shrinkGuarded
            (package.bytes.length - headerSize)
            (rounds (package.bytes.length - headerSize) package.elems) package.elems buf 0
            upgBufSize 0
        else .stop false)).Fulfils (netService package.bytes) ⟨0, false⟩ package.plan := by
      apply urlSeek_fulfils 0 headerSize (Nat.zero_le _) package.header_inside _ _ ⟨rfl, rfl⟩
      · intro place at_
        exact images_fulfil package (net_reads package.bytes) shrinkGuarded_shrinks buf place at_
      · intro place failed
        exact stop_false_fulfils failed _
    cases method with
    | oneShot => exact loop
    | pieceByPiece =>
        apply And.intro trivial
        intro opened after given
        cases opened with
        | true =>
            rw [given]
            exact loop
        | false =>
            apply stop_false_fulfils
            rw [given]
            rfl

/-! OTA. Once the download is dead no read is served any more. -/

structure OtaProgress where
  pos : Nat
  failed : Bool
  dead : Bool

def otaService (bytes : List Byte) : Service OtaCall OtaCall.Answer where
  Place := OtaProgress
  Failed place := place.failed = true
  Asks
    | place, .otaFileRead size =>
        1 ≤ size ∧ (place.dead = true ∨ place.pos + size ≤ bytes.length)
    | _, .raised => True
  Gives
    | place, .raised, (error : Bool), after => after = { place with failed := place.failed || error }
    | place, .otaFileRead size, answer, after =>
        place.dead = false ∧
          (answer = ((size : Int), part bytes place.pos size) ∧
              after = { place with pos := place.pos + size } ∨
            answer.1 < 0 ∧ after.failed = true ∧ after.dead = true)

def OtaAt (place : OtaProgress) (offset : Nat) : Prop :=
  place.pos = offset ∧ place.failed = false ∧ place.dead = false

theorem ota_reads (bytes : List Byte) :
    Reads (otaService bytes) bytes OtaAt (fun next => .call .raised next) otaRead where
  raised := by
    intro place offset plan next at_ goesOn givesUp
    rcases at_ with ⟨pos, quiet, alive⟩
    apply And.intro trivial
    intro error after given
    cases error with
    | false =>
        apply goesOn
        rw [given]
        exact ⟨pos, (Bool.or_false _).trans quiet, alive⟩
    | true =>
        apply givesUp
        rw [given]
        exact Bool.or_true _
  read := by
    intro place offset size buf plan next at_ some inside goesOn givesUp
    rcases at_ with ⟨pos, quiet, alive⟩
    apply And.intro ⟨some, .inr (by omega)⟩
    intro answer after given
    rcases given with ⟨_, ⟨answered, moved⟩ | ⟨negative, failed, _⟩⟩
    · rw [answered, pos]
      simp only [if_neg (Int.not_lt.mpr (Int.natCast_nonneg size))]
      apply goesOn
      · rw [moved]
        exact ⟨by simp only; omega, quiet, alive⟩
      · exact slice_store_part buf bytes offset size inside
    · simp only [if_pos negative]
      exact givesUp after failed

/-- A loop whose download is dead waits for a read that is not served. -/
theorem ota_dead_fulfils (bytes : List Byte) (plan : List Chunk) (total fuel : Nat) (elem : Elem)
    (rest : List Elem) (buf : Memory) (elemread totalread : Nat) (positive : 1 ≤ elem.imgSize)
    (more : totalread < total) (place : OtaProgress) (failed : place.failed = true)
    (dead : place.dead = true) :
    (objLoop (fun next => .call .raised next) otaRead shrinkOta total (fuel + 1) (elem :: rest) buf
      elemread upgBufSize totalread : OtaClient).Fulfils (otaService bytes) place plan := by
  rw [objLoop, if_pos more]
  apply And.intro trivial
  intro error after given
  have still : after.failed = true ∧ after.dead = true := by
    rw [given]
    simp only [failed]
    exact ⟨Bool.true_or _, dead⟩
  cases error with
  | true => exact stop_false_fulfils still.1 _
  | false =>
      have some : 1 ≤ if elem.imgSize < upgBufSize then elem.imgSize else upgBufSize := by
        split
        · exact positive
        · exact upgBufSize_positive
      apply And.intro ⟨some, .inl still.2⟩
      intro answer later served
      have alive := served.1
      rw [still.2] at alive
      cases alive

theorem ota_fulfils (package : Package) (buf : Memory) :
    (otaObjLoop package.bytes.length package.elems buf).Fulfils (otaService package.bytes)
      ⟨0, false, false⟩ package.plan := by
  unfold otaObjLoop
  by_cases empty : package.elems = []
  · simp only [empty, if_true, Package.plan, planOf, List.flatMap_nil]
    exact stop_true_fulfils _
  · simp only [empty, if_false]
    have header := package.header_inside
    apply And.intro ⟨by decide, .inr (by simpa using header)⟩
    intro answer after given
    rcases given with ⟨_, ⟨_, moved⟩ | ⟨_, failed, dead⟩⟩
    · apply images_fulfil package (ota_reads package.bytes) shrinkOta_shrinks buf
      rw [moved]
      exact ⟨Nat.zero_add _, rfl, rfl⟩
    · cases elems : package.elems with
      | nil => exact absurd elems empty
      | cons elem rest =>
          have positive := package.positive elem (by rw [elems]; exact List.mem_cons_self)
          have length := package.length
          rw [elems, List.map_cons, List.sum_cons] at length
          have more : 0 < package.bytes.length - headerSize := by omega
          generalize package.bytes.length - headerSize = total at more ⊢
          exact ota_dead_fulfils package.bytes package.plan total (total + (elem :: rest).length)
            elem rest buf 0 0 positive more after failed dead

end Alisl.Upgrade.Source
