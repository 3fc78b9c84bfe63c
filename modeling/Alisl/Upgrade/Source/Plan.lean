import Alisl.Upgrade.Source.Loops

/-! The loops follow the plan: whatever serves their reads, they hand over each
image cut into chunks. -/

namespace Alisl.Upgrade.Source

open Alisl.Base

theorem upgBufSize_positive : 0 < upgBufSize := by decide

/-- What is left of the plan within an element. -/
def restPlan (bytes : List Byte) (elems : List Elem) (elemread : Nat) : List Chunk :=
  match elems with
  | [] => []
  | elem :: rest =>
      (cut upgBufSize ((image bytes elem).drop elemread)).map (Chunk.mk elem) ++ planOf bytes rest

theorem restPlan_zero (bytes : List Byte) (elems : List Elem) :
    restPlan bytes elems 0 = planOf bytes elems := by
  cases elems with
  | nil => rfl
  | cons elem rest => simp [restPlan, planOf]

/-- The size of the read that is due. -/
def due (elem : Elem) (elemread : Nat) : Nat := min upgBufSize (elem.imgSize - elemread)

/-- Between two reads of an element the first was a full buffer. -/
theorem due_next (elem : Elem) (elemread : Nat)
    (more : elemread + due elem elemread < elem.imgSize) :
    (if elem.imgSize - (elemread + due elem elemread) < upgBufSize then
      elem.imgSize - (elemread + due elem elemread) else due elem elemread) =
        due elem (elemread + due elem elemread) ∧
      due elem (elemread + due elem elemread) ≠ 0 := by
  have amount : due elem elemread = min upgBufSize (elem.imgSize - elemread) := rfl
  have full : due elem elemread = upgBufSize := by omega
  have pos := upgBufSize_positive
  rw [full] at more ⊢
  have next : due elem (elemread + upgBufSize) =
      min upgBufSize (elem.imgSize - (elemread + upgBufSize)) := rfl
  constructor
  · by_cases last : elem.imgSize - (elemread + upgBufSize) < upgBufSize
    · rw [if_pos last]
      omega
    · rw [if_neg last]
      omega
  · omega

theorem image_drop (bytes : List Byte) (elem : Elem) (elemread : Nat) :
    (image bytes elem).drop elemread =
      (bytes.drop (elem.imgOffset + elemread)).take (elem.imgSize - elemread) := by
  rw [image, List.drop_take, List.drop_drop]

/-- The next chunk of an image, and the rest of it. -/
theorem cut_image (bytes : List Byte) (elem : Elem) (elemread : Nat)
    (within : elemread < elem.imgSize)
    (inside : elem.imgOffset + elem.imgSize ≤ bytes.length) :
    cut upgBufSize ((image bytes elem).drop elemread) =
      (bytes.drop (elem.imgOffset + elemread)).take (due elem elemread) ::
        cut upgBufSize ((image bytes elem).drop (elemread + due elem elemread)) := by
  have length : ((image bytes elem).drop elemread).length = elem.imgSize - elemread := by
    rw [image_drop, List.length_take, List.length_drop]
    omega
  have some : (image bytes elem).drop elemread ≠ [] := by
    apply List.ne_nil_of_length_pos
    omega
  have behind : ((image bytes elem).drop elemread).drop upgBufSize =
      (image bytes elem).drop (elemread + due elem elemread) := by
    rcases Nat.lt_or_ge (elem.imgSize - elemread) upgBufSize with small | large
    · rw [List.drop_eq_nil_of_le (by omega), image_drop]
      have spent : elem.imgSize - (elemread + due elem elemread) = 0 := by
        rw [due]
        omega
      rw [spent, List.take_zero]
    · rw [List.drop_drop, due, Nat.min_eq_left large]
  rw [cut_eq upgBufSize upgBufSize_positive _ some, behind, image_drop, List.take_take]
  rfl

theorem restPlan_next (bytes : List Byte) (elem : Elem) (rest : List Elem) (elemread : Nat)
    (within : elemread < elem.imgSize)
    (inside : elem.imgOffset + elem.imgSize ≤ bytes.length) :
    restPlan bytes (elem :: rest) elemread =
      ⟨elem, (bytes.drop (elem.imgOffset + elemread)).take (due elem elemread)⟩ ::
        restPlan bytes (elem :: rest) (elemread + due elem elemread) := by
  simp only [restPlan]
  rw [cut_image bytes elem elemread within inside, List.map_cons, List.cons_append]

theorem restPlan_spent (bytes : List Byte) (elem : Elem) (rest : List Elem) :
    restPlan bytes (elem :: rest) elem.imgSize = restPlan bytes rest 0 := by
  rw [restPlan_zero, restPlan, image_drop, Nat.sub_self, List.take_zero, cut_nil]
  rfl

section

variable {Call : Type} {Answer : Call → Type}

/-- How a plugin reads from its service: `At` ties a place of the service to an
offset of the package. -/
structure Reads (service : Service Call Answer) (bytes : List Byte)
    (At : service.Place → Nat → Prop)
    (raised : (Bool → Client Call Answer Chunk) → Client Call Answer Chunk)
    (read : Memory → Nat → Nat → (Option Memory → Client Call Answer Chunk) →
      Client Call Answer Chunk) : Prop where
  raised : ∀ place offset plan next, At place offset →
    (∀ after, At after offset → (next false).Fulfils service after plan) →
    (∀ after, service.Failed after → (next true).Fulfils service after plan) →
    (raised next).Fulfils service place plan
  read : ∀ place offset size buf plan next, At place offset → 1 ≤ size →
    offset + size ≤ bytes.length →
    (∀ after filled, At after (offset + size) →
      slice filled 0 size = (bytes.drop offset).take size →
      (next (some filled)).Fulfils service after plan) →
    (∀ after, service.Failed after → (next none).Fulfils service after plan) →
    (read buf offset size next).Fulfils service place plan

/-- The next size is what remains of the image once that is less than a full
buffer. -/
def Shrinks (shrink : Nat → Nat → Nat → Nat) : Prop :=
  ∀ imgSize elemread perread, elemread ≤ imgSize → shrink imgSize elemread perread =
    if imgSize - elemread < upgBufSize then imgSize - elemread else perread

theorem shrinkOta_shrinks : Shrinks shrinkOta := by
  intro imgSize elemread perread inside
  simp only [shrinkOta, ulongSub, inside, if_true]

theorem shrinkGuarded_shrinks : Shrinks shrinkGuarded := by
  intro imgSize elemread perread inside
  simp only [shrinkGuarded, inside, true_and]

/-- The variables of the loop at its top, reading from `offset`. -/
structure Ready (bytes : List Byte) (elems : List Elem) (elemread perread offset : Nat) : Prop where
  positive : ∀ elem ∈ elems, 1 ≤ elem.imgSize
  contiguous : ∃ start, offset = start + elemread ∧ Contiguous start elems
  within : ∀ elem ∈ elems.head?, elemread < elem.imgSize
  small : ∀ elem ∈ elems.head?, elem.imgSize < upgBufSize → elemread = 0
  large : ∀ elem ∈ elems.head?, upgBufSize ≤ elem.imgSize → perread = due elem elemread
  length : bytes.length + elemread = offset + (elems.map Elem.imgSize).sum

theorem Ready.start {bytes : List Byte} {elems : List Elem} {offset : Nat}
    (positive : ∀ elem ∈ elems, 1 ≤ elem.imgSize) (contiguous : Contiguous offset elems)
    (length : bytes.length = offset + (elems.map Elem.imgSize).sum) :
    Ready bytes elems 0 upgBufSize offset where
  positive := positive
  contiguous := ⟨offset, rfl, contiguous⟩
  within := fun elem member => positive elem (List.mem_of_mem_head? member)
  small := fun _ _ _ => rfl
  large := by
    intro elem member large
    rw [due]
    omega
  length := length

/-- Behind a read within an element: the next read of it, or the next element. -/
theorem Ready.advance {bytes : List Byte} {elem : Elem} {rest : List Elem}
    {elemread perread offset : Nat} (ready : Ready bytes (elem :: rest) elemread perread offset) :
    (elemread + due elem elemread = elem.imgSize ∧
      Ready bytes rest 0 upgBufSize (offset + due elem elemread)) ∨
    (elemread + due elem elemread < elem.imgSize ∧
      Ready bytes (elem :: rest) (elemread + due elem elemread)
        (due elem (elemread + due elem elemread)) (offset + due elem elemread)) := by
  have within := ready.within elem rfl
  have length := ready.length
  rw [List.map_cons, List.sum_cons] at length
  rcases ready.contiguous with ⟨start, place, here, behind⟩
  have amount : due elem elemread = min upgBufSize (elem.imgSize - elemread) := rfl
  have some := upgBufSize_positive
  rcases Nat.lt_or_ge (elemread + due elem elemread) elem.imgSize with more | spent
  · apply Or.inr
    constructor
    · exact more
    · constructor
      case positive => exact ready.positive
      case contiguous => exact ⟨start, by omega, here, behind⟩
      case within =>
          intro other member
          cases member
          exact more
      case small =>
          intro other member small
          cases member
          have first := ready.small elem rfl small
          omega
      case large =>
          intro other member _
          cases member
          rfl
      case length =>
          rw [List.map_cons, List.sum_cons]
          omega
  · have whole : elemread + due elem elemread = elem.imgSize := by omega
    apply Or.inl
    constructor
    · exact whole
    · apply Ready.start
      · intro other member
        exact ready.positive other (List.mem_cons_of_mem _ member)
      · rw [show offset + due elem elemread = start + elem.imgSize by omega]
        exact behind
      · omega

variable {service : Service Call Answer} {bytes : List Byte} {At : service.Place → Nat → Prop}
  {raised : (Bool → Client Call Answer Chunk) → Client Call Answer Chunk}
  {read : Memory → Nat → Nat → (Option Memory → Client Call Answer Chunk) →
    Client Call Answer Chunk}
  {shrink : Nat → Nat → Nat → Nat}

theorem stop_false_fulfils {place : service.Place} (failed : service.Failed place)
    (plan : List Chunk) :
    (Client.stop false : Client Call Answer Chunk).Fulfils service place plan :=
  ⟨fun impossible => Bool.noConfusion impossible, fun _ => failed⟩

theorem stop_true_fulfils (place : service.Place) :
    (Client.stop true : Client Call Answer Chunk).Fulfils service place [] :=
  ⟨fun _ => rfl, fun impossible => Bool.noConfusion impossible⟩

/-- The loop hands over the rest of the plan. The induction is on the rounds;
`totalread` and the unread bytes add up to `tune->total`. -/
theorem objLoop_fulfils (reads : Reads service bytes At raised read) (shrinks : Shrinks shrink)
    (total fuel : Nat) (elems : List Elem) (buf : Memory)
    (elemread perread totalread offset : Nat) (place : service.Place) (at_ : At place offset)
    (ready : Ready bytes elems elemread perread offset)
    (amount : totalread + (bytes.length - offset) = total)
    (enough : bytes.length - offset < fuel) :
    (objLoop raised read shrink total fuel elems buf elemread perread totalread).Fulfils service
      place (restPlan bytes elems elemread) := by
  induction fuel generalizing elems buf elemread perread totalread offset place with
  | zero => omega
  | succ fuel ih =>
      cases elems with
      | nil => exact stop_true_fulfils place
      | cons elem rest =>
          have within := ready.within elem rfl
          have length := ready.length
          rw [List.map_cons, List.sum_cons] at length
          rcases ready.contiguous with ⟨start, from_, here, _⟩
          have size : due elem elemread = min upgBufSize (elem.imgSize - elemread) := rfl
          have pos := upgBufSize_positive
          have source : elem.imgOffset + elemread = offset := by omega
          have asked : (if elem.imgSize < upgBufSize then elem.imgSize else perread) =
              due elem elemread := by
            split
            case isTrue small =>
                have first := ready.small elem rfl small
                omega
            case isFalse large => exact ready.large elem rfl (by omega)
          simp only [objLoop, asked, source]
          rw [if_pos (by omega)]
          apply reads.raised place offset _ _ at_
          case _ =>
              intro place at_
              apply reads.read place offset _ _ _ _ at_ (by omega) (by omega)
              · intro place filled at_ content
                apply Exists.intro (restPlan bytes (elem :: rest) (elemread + due elem elemread))
                constructor
                · rw [content, ← source]
                  exact restPlan_next bytes elem rest elemread within (by omega)
                · rw [shrinks elem.imgSize (elemread + due elem elemread) (due elem elemread)
                    (by omega)]
                  rcases ready.advance with ⟨spent, onward⟩ | ⟨more, onward⟩
                  · rw [spent, Nat.sub_self, if_pos pos, if_pos rfl, restPlan_spent]
                    exact ih rest filled 0 upgBufSize _ _ place at_ onward (by omega) (by omega)
                  · rcases due_next elem elemread more with ⟨left, some⟩
                    rw [left, if_neg some]
                    exact ih (elem :: rest) filled _ _ _ _ place at_ onward (by omega) (by omega)
              · intro place failed
                exact stop_false_fulfils failed _
          case _ =>
              intro place failed
              exact stop_false_fulfils failed _

end

end Alisl.Upgrade.Source
