import Alisl.Cli.Editor

/-! The buffer of the line editor: a text, then NUL to its end. -/

namespace Alisl.Cli

open Alisl.Base

/-! ### Storing -/

theorem poke_append {front back : List Byte} {i : Nat} (at_ : i = front.length) (x c : Byte) :
    poke (front ++ x :: back) i c = some (front ++ c :: back) := by
  have stored : storeAt (front ++ [x] ++ back) i [c] = some (front ++ [c] ++ back) :=
    storeAt_append at_ rfl
  rw [List.append_assoc, List.append_assoc] at stored
  exact stored

/-! ### Moving -/

/-- The characters behind `x` move over it; the last of them is then there twice. -/
theorem shiftLeft_append (front : List Byte) (x : Byte) (moved back : List Byte) {i : Nat}
    (at_ : i = front.length) :
    shiftLeft moved.length i (front ++ x :: (moved ++ back)) =
      some (front ++ moved ++ (x :: moved).getLast (List.cons_ne_nil x moved) :: back) := by
  induction moved generalizing front x i with
  | nil => rw [List.append_nil]; rfl
  | cons y moved ih =>
      have next : (front ++ x :: (y :: moved ++ back))[i + 1]? = some y := by
        rw [at_, List.getElem?_append_right (Nat.le_add_right _ 1), Nat.add_sub_cancel_left]
        rfl
      have step : poke (front ++ x :: y :: (moved ++ back)) i y =
          some (front ++ y :: y :: (moved ++ back)) := poke_append at_ x y
      have rest := ih (front ++ [y]) y (i := i + 1) (by rw [at_, List.length_append]; rfl)
      rw [List.length_cons, shiftLeft, next, Option.bind_some, List.cons_append, step, Option.bind_some,
        List.append_cons, rest, List.getLast_cons (List.cons_ne_nil y moved)]
      simp only [List.append_assoc, List.cons_append, List.nil_append]

/-- The last round would read behind the buffer. -/
theorem shiftLeft_none {count i : Nat} {cmd : List Byte} (some_ : 0 < count)
    (last : cmd.length ≤ i + count) : shiftLeft count i cmd = none := by
  induction count generalizing i cmd with
  | zero => exact absurd some_ (Nat.lt_irrefl 0)
  | succ count ih =>
      rw [shiftLeft]
      cases next : cmd[i + 1]? with
      | none => rfl
      | some c =>
          rw [Option.bind_some]
          cases poked : poke cmd i c with
          | none => rfl
          | some after =>
              have same : after.length = cmd.length := storeAt_length poked
              have inside : i + 1 < cmd.length := (List.getElem?_eq_some_iff.mp next).1
              rw [Option.bind_some]
              exact ih (by omega) (by omega)

/-- The characters move over `x`; the first of them is then there twice. -/
theorem shiftRight_append (front : List Byte) (y : Byte) (moved : List Byte) (x : Byte)
    (back : List Byte) {i : Nat} (at_ : i = front.length + moved.length) :
    shiftRight (moved.length + 1) i (front ++ y :: moved ++ x :: back) =
      some (front ++ y :: y :: moved ++ back) := by
  induction moved using List.reverseRecOn generalizing x back i with
  | nil =>
      rw [List.length_nil, Nat.add_zero] at at_
      have last : (front ++ [y] ++ x :: back)[i]? = some y := by
        rw [at_, List.append_assoc, List.getElem?_append_right (Nat.le_refl _), Nat.sub_self]
        rfl
      have behind : i + 1 = (front ++ [y]).length := by rw [at_, List.length_append]; rfl
      rw [List.length_nil, shiftRight, last, Option.bind_some, poke_append behind, Option.bind_some]
      simp only [shiftRight, List.append_assoc, List.cons_append, List.nil_append]
  | append_singleton moved z ih =>
      rw [List.length_append, List.length_singleton, ← Nat.add_assoc] at at_
      have shape : front ++ y :: (moved ++ [z]) ++ x :: back =
          (front ++ y :: moved ++ [z]) ++ x :: back := by
        simp only [List.append_assoc, List.cons_append]
      have turned : (front ++ y :: moved ++ [z]) ++ z :: back =
          front ++ y :: moved ++ z :: z :: back := by
        simp only [List.append_assoc, List.cons_append, List.nil_append]
      have place : i = (front ++ y :: moved).length := by
        rw [at_, List.length_append, List.length_cons]
        rfl
      have last : (front ++ y :: moved ++ [z] ++ x :: back)[i]? = some z := by
        rw [List.append_assoc, place, List.getElem?_append_right (Nat.le_refl _), Nat.sub_self]
        rfl
      have behind : i + 1 = (front ++ y :: moved ++ [z]).length := by
        rw [place]
        simp only [List.length_append, List.length_singleton]
      have rest := ih z (z :: back) (i := i - 1) (by rw [at_, Nat.add_sub_cancel])
      rw [shape, List.length_append, List.length_singleton, shiftRight, last, Option.bind_some,
        poke_append behind, Option.bind_some, turned, rest]
      simp only [List.append_assoc, List.cons_append, List.nil_append]

/-! ### Texts -/

/-- A text and NUL up to the end of the buffer. -/
def padded (text : List Byte) : List Byte :=
  text ++ List.replicate (maxCmdBufferLen - text.length) 0

theorem padded_length {text : List Byte} (short : text.length ≤ maxCmdBufferLen) :
    (padded text).length = maxCmdBufferLen := by
  rw [padded, List.length_append, List.length_replicate, Nat.add_sub_cancel' short]

/-- There is a NUL behind a text that leaves room. -/
theorem padded_eq {text : List Byte} (short : text.length < maxCmdBufferLen) :
    padded text = text ++ 0 :: List.replicate (maxCmdBufferLen - (text.length + 1)) 0 := by
  rw [padded, ← List.replicate_succ]
  congr 2
  omega

/-- The first `l` bytes are characters, and a NUL stands behind them. -/
def Terminated (cmd : List Byte) (l : Nat) : Prop :=
  0 ∉ cmd.take l ∧ cmd[l]? = some 0

theorem terminated_padded {text : List Byte} (noNul : 0 ∉ text) (short : text.length < maxCmdBufferLen) :
    Terminated (padded text) text.length := by
  rw [padded_eq short]
  constructor
  · rw [List.take_left]
    exact noNul
  · rw [List.getElem?_append_right (Nat.le_refl _), Nat.sub_self]
    rfl

theorem textOf_append {text : List Byte} (noNul : 0 ∉ text) (back : List Byte) :
    textOf (text ++ 0 :: back) = text := by
  induction text with
  | nil => rfl
  | cons c text ih =>
      rw [List.mem_cons, not_or] at noNul
      have kept : decide (c ≠ 0) = true := decide_eq_true (Ne.symm noNul.1)
      rw [textOf, List.cons_append, List.takeWhile_cons, if_pos kept]
      exact congrArg (List.cons c) (ih noNul.2)

theorem fill_zero {cmd : List Byte} {count : Nat} (room : count ≤ cmd.length) (c : Byte) :
    fill cmd 0 count c = some (List.replicate count c ++ cmd.drop count) := by
  rw [fill, storeAt, List.length_replicate, Nat.zero_add, if_pos room, List.take_zero, List.nil_append]

theorem fill_length {cmd after : List Byte} {dest count : Nat} {c : Byte}
    (filled : fill cmd dest count c = some after) : after.length = cmd.length :=
  storeAt_length filled

theorem fill_none {cmd : List Byte} {dest count : Nat} {c : Byte} (beyond : cmd.length < dest + count) :
    fill cmd dest count c = none :=
  storeAt_none (by rwa [List.length_replicate])

/-- What is filled stays behind. -/
theorem fill_some {cmd : List Byte} {dest count : Nat} (room : dest + count ≤ cmd.length) (c : Byte) :
    ∃ after, fill cmd dest count c = some after ∧ after.length = cmd.length ∧
      ∀ n, dest + count ≤ n → after.drop n = cmd.drop n := by
  have filled : fill cmd dest count c =
      some (cmd.take dest ++ List.replicate count c ++ cmd.drop (dest + count)) := by
    rw [fill, storeAt, List.length_replicate, if_pos room]
  refine ⟨_, filled, fill_length filled, ?_⟩
  intro n later
  have front : (cmd.take dest ++ List.replicate count c).length = dest + count := by
    rw [List.length_append, List.length_take, List.length_replicate]
    omega
  have gone : (cmd.take dest ++ List.replicate count c).drop n = [] :=
    List.drop_eq_nil_of_le (front ▸ later)
  rw [List.drop_append, gone, List.nil_append, front, List.drop_drop, Nat.add_sub_cancel' later]

/-- Clearing prints three times the length of the line. -/
theorem cliClearLine_eq {cmd : List Byte} {l : Nat} (room : 3 * l ≤ cmd.length) :
    cliClearLine cmd l = some (List.replicate (3 * l) 0 ++ cmd.drop (3 * l)) := by
  have roomA : 0 + l ≤ cmd.length := by omega
  rcases fill_some roomA 0x08 with ⟨a, first, lengthA, restA⟩
  have roomB : l + l ≤ a.length := by omega
  rcases fill_some roomB 0x20 with ⟨b, second, lengthB, restB⟩
  have roomD : 2 * l + l ≤ b.length := by omega
  rcases fill_some roomD 0x08 with ⟨d, third, lengthD, restD⟩
  have last : fill d 0 (3 * l) 0 = some (List.replicate (3 * l) 0 ++ d.drop (3 * l)) :=
    fill_zero (by omega) 0
  have kept : d.drop (3 * l) = cmd.drop (3 * l) := by
    rw [restD _ (by omega), restB _ (by omega), restA _ (by omega)]
  rw [cliClearLine, first, Option.bind_some, second, Option.bind_some, third, Option.bind_some, last, kept]

theorem cliClearLine_none {cmd : List Byte} {l : Nat} (beyond : cmd.length < 3 * l) :
    cliClearLine cmd l = none := by
  rw [cliClearLine]
  cases first : fill cmd 0 l 0x08 with
  | none => rfl
  | some a =>
      rw [Option.bind_some]
      cases second : fill a l l 0x20 with
      | none => rfl
      | some b =>
          have same : b.length = cmd.length := (fill_length second).trans (fill_length first)
          have third : fill b (2 * l) l 0x08 = none := fill_none (by omega)
          rw [Option.bind_some, third, Option.bind_none]

theorem strncpy_none {cmd src : List Byte} {dest n : Nat} (beyond : cmd.length < dest + n) :
    strncpy cmd dest src n = none := by
  apply storeAt_none
  rw [List.length_append, List.length_take, List.length_replicate]
  omega

theorem strncpy_take (cmd : List Byte) (dest : Nat) (src : List Byte) (n : Nat) :
    strncpy cmd dest (src.take n) n = strncpy cmd dest src n := by
  have rest : n - (src.take n).length = n - src.length := by
    rw [List.length_take]
    omega
  rw [strncpy, strncpy, rest, List.take_take, Nat.min_self]

/-- From one of the first two bytes on, the text that is copied and NUL behind it. -/
theorem strncpy_padded (front word : List Byte) {src : List Byte} {dest : Nat} (at_ : dest = front.length)
    (first : dest ≤ 1) (short : (front ++ word).length < maxCmdBufferLen)
    (shortSrc : src.length < maxCmdBufferLen) :
    strncpy (padded (front ++ word)) dest src (maxCmdBufferLen - 1) = some (padded (front ++ src)) := by
  rw [maxCmdBufferLen] at *
  rw [List.length_append] at short
  have behind : (word ++ List.replicate (1024 - (front ++ word).length) 0).drop 1023 =
      List.replicate (1 - dest) 0 := by
    have gone : word.drop 1023 = [] := List.drop_eq_nil_of_le (by omega)
    rw [List.drop_append, gone, List.nil_append, List.drop_replicate, List.length_append]
    congr 1
    omega
  have shape : padded (front ++ word) =
      front ++ (word ++ List.replicate (1024 - (front ++ word).length) 0).take 1023 ++
        List.replicate (1 - dest) 0 := by
    rw [padded, maxCmdBufferLen, ← behind, List.append_assoc, List.append_assoc, List.take_append_drop]
  have same : (src.take 1023 ++ List.replicate (1023 - src.length) 0).length =
      ((word ++ List.replicate (1024 - (front ++ word).length) 0).take 1023).length := by
    simp only [List.length_append, List.length_take, List.length_replicate]
    omega
  have whole : src.take 1023 = src := List.take_of_length_le (by omega)
  rw [strncpy, shape, storeAt_append at_ same, whole, padded, maxCmdBufferLen, List.length_append]
  simp only [List.append_assoc, List.replicate_append_replicate]
  congr 4
  omega

theorem poke_last {text : List Byte} (short : text.length < maxCmdBufferLen) :
    poke (padded text) (maxCmdBufferLen - 1) 0 = some (padded text) := by
  have shape : padded text =
      (text ++ List.replicate (maxCmdBufferLen - 1 - text.length) 0) ++ 0 :: [] := by
    rw [padded, List.append_assoc, ← List.replicate_one, List.replicate_append_replicate]
    congr 2
    omega
  have place : maxCmdBufferLen - 1 =
      (text ++ List.replicate (maxCmdBufferLen - 1 - text.length) (0 : Byte)).length := by
    rw [List.length_append, List.length_replicate]
    omega
  rw [shape, poke_append place]

/-- One more character behind the text. -/
theorem poke_end {text : List Byte} (short : text.length < maxCmdBufferLen) {i : Nat}
    (at_ : i = text.length) (c : Byte) : poke (padded text) i c = some (padded (text ++ [c])) := by
  rw [padded_eq short, poke_append at_, padded, List.length_append, List.length_singleton,
    List.append_assoc]
  rfl

end Alisl.Cli
