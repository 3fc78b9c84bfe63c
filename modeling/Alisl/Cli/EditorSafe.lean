import Alisl.Cli.LineBuffer

/-! Which keys keep the line of the editor in order. -/

namespace Alisl.Cli

open Alisl.Base

/-- The line is a text that leaves room for a NUL, and NUL is all there is behind it. -/
structure Editor.Tidy (editor : Editor) (text : List Byte) : Prop where
  noNul : 0 ∉ text
  short : text.length < maxCmdBufferLen
  cmd : editor.cmd = padded text
  l : editor.l = text.length
  cursor : editor.cursor ≤ text.length
  history : editor.history.length = maxHistory

/-- The cursor and the length are in their bounds, and the line is terminated. -/
def Editor.InOrder (editor : Editor) : Prop :=
  editor.cursor ≤ editor.l ∧ editor.l ≤ maxCmdBufferLen - 1 ∧ Terminated editor.cmd editor.l

theorem Editor.Tidy.inOrder {editor : Editor} {text : List Byte} (tidy : editor.Tidy text) :
    editor.InOrder := by
  refine ⟨tidy.l ▸ tidy.cursor, ?_, ?_⟩
  · rw [tidy.l]
    exact Nat.le_pred_of_lt tidy.short
  · rw [tidy.cmd, tidy.l]
    exact terminated_padded tidy.noNul tidy.short

/-- Nothing outside the buffer is touched, a line that is handed over is terminated, and the editor
is as it has to be before the next key. -/
def Keeps (Ordered : Editor → Prop) (result : Option Turn) : Prop :=
  ∃ turn, result = some turn ∧ (∀ line, turn.handed = some line → Terminated line.1 line.2) ∧
    ∀ next, turn.next = some next → Ordered next

def Editor.Clean (editor : Editor) : Prop := ∃ text, editor.Tidy text

theorem keeps_stay {Ordered : Editor → Prop} {editor : Editor} (ordered : Ordered editor) :
    Keeps Ordered (some editor.stay) := by
  refine ⟨editor.stay, rfl, ?_, ?_⟩
  · intro line none_
    cases none_
  · intro next same
    cases same
    exact ordered

theorem keeps_stay_iff {Ordered : Editor → Prop} {editor : Editor} :
    Keeps Ordered (some editor.stay) ↔ Ordered editor := by
  constructor
  · rintro ⟨turn, same, _, ordered⟩
    cases same
    exact ordered editor rfl
  · exact keeps_stay

theorem not_keeps_none {Ordered : Editor → Prop} : ¬ Keeps Ordered none := by
  rintro ⟨turn, none_, _⟩
  cases none_

/-! ### Handing a line over -/

theorem addFree_length (copied : Bool) (text : CString) (previous : Option CString) (history : History) :
    (addFree copied text previous history).length = history.length := by
  induction history generalizing previous with
  | nil => rfl
  | cons entry rest ih =>
      cases entry with
      | none =>
          rw [addFree]
          split <;> rfl
      | some entry => rw [addFree, List.length_cons, ih, List.length_cons]

theorem cliAddHistory_length (copied : Bool) {history : History} (text : CString)
    (full : history.length = maxHistory) : (cliAddHistory copied history text).length = maxHistory := by
  rw [cliAddHistory]
  split
  · rw [addFree_length, full]
  · rw [List.length_append, List.length_drop, full]
    rfl

section Turns

variable {editor : Editor} {text : List Byte}

theorem nextLine_none (size : editor.cmd.length = maxCmdBufferLen)
    (history : editor.history.length = maxHistory) :
    ∃ next, editor.nextLine none = some next ∧ next.Tidy [] := by
  have cleared : fill editor.cmd 0 maxCmdBufferLen 0 = some (padded []) := by
    rw [fill_zero (Nat.le_of_eq size.symm), List.drop_eq_nil_of_le (Nat.le_of_eq size)]
    rw [List.append_nil]
    rfl
  rw [Editor.nextLine, cleared, Option.map_some]
  exact ⟨_, rfl, List.not_mem_nil, Nat.zero_lt_succ _, rfl, rfl, Nat.zero_le _, history⟩

/-- Behind a `?` the line goes on without it. -/
theorem nextLine_some {c : Byte} (tidy : editor.Tidy (text ++ [c])) :
    ∃ next, editor.nextLine (some text.length) = some next ∧ next.Tidy text := by
  have size := tidy.short
  rw [List.length_append, List.length_singleton] at size
  have shape : padded (text ++ [c]) = text ++ c :: List.replicate (maxCmdBufferLen - (text.length + 1)) 0 := by
    rw [padded, List.length_append, List.length_singleton, List.append_assoc]
    rfl
  have cut : poke editor.cmd text.length 0 = some (padded text) := by
    rw [tidy.cmd, shape, poke_append rfl, padded_eq (by omega)]
  have noNul : 0 ∉ text := fun member => tidy.noNul (List.mem_append_left _ member)
  rw [Editor.nextLine, cut, Option.map_some]
  exact ⟨_, rfl, noNul, by omega, rfl, rfl, Nat.le_refl _, tidy.history⟩

theorem nextLine_tidy (tidy : editor.Tidy text) {oldl : Option Nat}
    (old : ∀ n ∈ oldl, n + 1 = text.length) : ∃ next, editor.nextLine oldl = some next ∧ next.Clean := by
  cases oldl with
  | none =>
      have size : editor.cmd.length = maxCmdBufferLen := by
        rw [tidy.cmd, padded_length (Nat.le_of_lt tidy.short)]
      rcases nextLine_none size tidy.history with ⟨next, moved, clean⟩
      exact ⟨next, moved, _, clean⟩
  | some n =>
      have one := old n rfl
      rcases List.eq_nil_or_concat text with none_ | ⟨front, c, shape⟩
      · rw [none_] at one
        cases one
      · rw [List.concat_eq_append] at shape
        rw [shape, List.length_append, List.length_singleton, Nat.add_right_cancel_iff] at one
        rw [shape] at tidy
        rcases nextLine_some tidy with ⟨next, moved, clean⟩
        exact ⟨next, one ▸ moved, _, clean⟩

theorem handOver_keeps (tidy : editor.Tidy text) (key : Key) {oldl : Option Nat}
    (old : ∀ n ∈ oldl, n + 1 = text.length) : Keeps Editor.Clean (editor.handOver key oldl) := by
  rw [Editor.handOver]
  split
  · rcases nextLine_tidy tidy old with ⟨next, moved, clean⟩
    rw [moved, Option.map_some]
    exact keeps_stay clean
  · rename_i some_
    have inside : editor.l - 1 < editor.cmd.length := by
      have short := tidy.short
      rw [tidy.cmd, padded_length (Nat.le_of_lt short), tidy.l]
      omega
    have terminated : Terminated editor.cmd editor.l := by
      rw [tidy.cmd, tidy.l]
      exact terminated_padded tidy.noNul tidy.short
    rw [List.getElem?_eq_getElem inside, Option.bind_some]
    dsimp only
    split
    · refine ⟨_, rfl, ?_, ?_⟩
      · rintro line ⟨⟩
        exact terminated
      · rintro next ⟨⟩
    · have kept (history : History) (full : history.length = maxHistory) :
          Editor.Tidy { editor with history := history } text :=
        ⟨tidy.noNul, tidy.short, tidy.cmd, tidy.l, tidy.cursor, full⟩
      have added : ∀ history : History, history.length = maxHistory →
          Keeps Editor.Clean ((Editor.nextLine { editor with history := history } oldl).map
            (fun next => ⟨some (editor.cmd, editor.l), some next⟩)) := by
        intro history full
        rcases nextLine_tidy (kept history full) old with ⟨next, moved, clean⟩
        rw [moved, Option.map_some]
        refine ⟨_, rfl, ?_, ?_⟩
        · rintro line ⟨⟩
          exact terminated
        · rintro other ⟨⟩
          exact clean
      split
      · exact added _ (cliAddHistory_length _ _ tidy.history)
      · exact added _ tidy.history

/-! ### Deleting -/

/-- The last character goes. -/
theorem deleteLast (tidy : editor.Tidy text) (atEnd : editor.l = editor.cursor)
    (some_ : editor.cursor ≠ 0) (back : Nat) :
    ∃ next shorter, editor.deleteBack (back + 1) = Editor.deleteBack back next ∧ next.Tidy shorter ∧
      next.cursor = editor.cursor - 1 ∧ next.l = editor.l - 1 := by
  have l := tidy.l
  rcases List.eq_nil_or_concat text with none_ | ⟨front, c, shape⟩
  · rw [none_, List.length_nil] at l
    omega
  rw [List.concat_eq_append] at shape
  subst shape
  rw [List.length_append, List.length_singleton] at l
  have short := tidy.short
  rw [List.length_append, List.length_singleton] at short
  have place : editor.cursor - 1 = front.length := by omega
  have shape : padded (front ++ [c]) =
      front ++ c :: List.replicate (maxCmdBufferLen - (front.length + 1)) 0 := by
    rw [padded, List.length_append, List.length_singleton, List.append_assoc]
    rfl
  have cut : poke editor.cmd (editor.cursor - 1) 0 = some (padded front) := by
    rw [tidy.cmd, shape, poke_append place, padded_eq (by omega)]
  refine ⟨{ editor with cmd := padded front, cursor := editor.cursor - 1, l := editor.l - 1 }, front,
    ?_, ?_, rfl, rfl⟩
  · rw [Editor.deleteBack, if_pos atEnd, cut, Option.bind_some]
  · have length : editor.l - 1 = front.length := by omega
    exact ⟨fun member => tidy.noNul (List.mem_append_left _ member), by omega, rfl, length,
      Nat.le_of_eq place, tidy.history⟩

/-- The character before the cursor goes, and those behind it move up. -/
theorem deleteInside (tidy : editor.Tidy text) (inside : editor.cursor < editor.l)
    (positive : 0 < editor.cursor) (room : editor.l < maxCmdBufferLen - 1) (back : Nat) :
    ∃ next shorter, editor.deleteBack (back + 1) = Editor.deleteBack back next ∧ next.Tidy shorter ∧
      next.cursor = editor.cursor - 1 ∧ next.l = editor.l - 1 := by
  have l := tidy.l
  have split := List.take_append_drop (editor.cursor - 1) text
  have size : (text.take (editor.cursor - 1)).length = editor.cursor - 1 := by
    rw [List.length_take]
    omega
  have rest : (text.drop (editor.cursor - 1)).length = text.length - (editor.cursor - 1) :=
    List.length_drop ..
  generalize text.take (editor.cursor - 1) = front at split size
  cases behind : text.drop (editor.cursor - 1) with
  | nil =>
      rw [behind, List.length_nil] at rest
      omega
  | cons c later =>
      rw [behind] at split rest
      rw [List.length_cons] at rest
      subst split
      rw [List.length_append, List.length_cons] at l rest
      have shape : padded (front ++ c :: later) =
          front ++ c :: ((later ++ [0, 0]) ++
            List.replicate (maxCmdBufferLen - (front.length + later.length + 3)) 0) := by
        have zeros : List.replicate (maxCmdBufferLen - (front.length + (later.length + 1))) (0 : Byte) =
            [0, 0] ++ List.replicate (maxCmdBufferLen - (front.length + later.length + 3)) 0 := by
          have two : ([0, 0] : List Byte) = List.replicate 2 0 := rfl
          rw [two, List.replicate_append_replicate]
          congr 1
          omega
        rw [padded, List.length_append, List.length_cons, zeros]
        simp only [List.append_assoc, List.cons_append, List.nil_append]
      have count : editor.l + 1 - (editor.cursor - 1) = (later ++ [0, 0]).length := by
        rw [List.length_append]
        show _ = later.length + 2
        omega
      have shifted : shiftLeft (editor.l + 1 - (editor.cursor - 1)) (editor.cursor - 1) editor.cmd =
          some (padded (front ++ later)) := by
        have last : (c :: (later ++ [0, 0])).getLast (List.cons_ne_nil _ _) = 0 := by
          have whole : c :: (later ++ [0, 0]) = (c :: (later ++ [0])) ++ [0] := by simp
          simp only [whole, List.getLast_append_singleton]
        have zeros : List.replicate (maxCmdBufferLen - (front.length + later.length)) (0 : Byte) =
            [0, 0, 0] ++ List.replicate (maxCmdBufferLen - (front.length + later.length + 3)) 0 := by
          have three : ([0, 0, 0] : List Byte) = List.replicate 3 0 := rfl
          rw [three, List.replicate_append_replicate]
          congr 1
          omega
        rw [tidy.cmd, shape, count, shiftLeft_append front c (later ++ [0, 0]) _ size.symm, last, padded,
          List.length_append, zeros]
        simp only [List.append_assoc, List.cons_append, List.nil_append]
      refine ⟨{ editor with
        cmd := padded (front ++ later), cursor := editor.cursor - 1, l := editor.l - 1 },
        front ++ later, ?_, ?_, rfl, rfl⟩
      · rw [Editor.deleteBack, if_neg (by omega), shifted, Option.bind_some]
      · refine ⟨?_, ?_, rfl, ?_, ?_, tidy.history⟩
        · intro member
          apply tidy.noNul
          rcases List.mem_append.mp member with first | second
          · exact List.mem_append_left _ first
          · exact List.mem_append_right _ (List.mem_cons_of_mem _ second)
        · rw [List.length_append]
          omega
        · rw [List.length_append]
          show editor.l - 1 = _
          omega
        · rw [List.length_append]
          show editor.cursor - 1 ≤ _
          omega

theorem deleteBack_clean (back : Nat) (tidy : editor.Tidy text) (few : back ≤ editor.cursor)
    (fits : editor.cursor = editor.l ∨ editor.l < maxCmdBufferLen - 1) :
    ∃ next, editor.deleteBack back = some next ∧ next.Clean := by
  induction back generalizing editor text with
  | zero => exact ⟨editor, rfl, text, tidy⟩
  | succ back ih =>
      have some_ : editor.cursor ≠ 0 := by omega
      have within : editor.cursor ≤ editor.l := tidy.l ▸ tidy.cursor
      by_cases atEnd : editor.l = editor.cursor
      · rcases deleteLast tidy atEnd some_ back with ⟨next, shorter, step, clean, cursor, l⟩
        rw [step]
        exact ih clean (by omega) (by omega)
      · rcases deleteInside tidy (by omega) (by omega) (by omega) back with
          ⟨next, shorter, step, clean, cursor, l⟩
        rw [step]
        exact ih clean (by omega) (by omega)

theorem backward_clean (tidy : editor.Tidy text) (word : Bool)
    (fits : editor.cursor = 0 ∨ editor.cursor = editor.l ∨ editor.l < maxCmdBufferLen - 1) :
    Keeps Editor.Clean (editor.backward word) := by
  rw [Editor.backward]
  split
  · exact keeps_stay ⟨text, tidy⟩
  · rename_i some_
    have few : (if word then editor.cursor - skipWord editor.cmd (skipSpaces editor.cmd editor.cursor)
        else 1) ≤ editor.cursor := by
      split <;> omega
    rcases deleteBack_clean _ tidy few (by omega) with ⟨next, deleted, clean⟩
    rw [deleted, Option.map_some]
    exact keeps_stay clean

theorem skipSpaces_le (cmd : List Byte) (nc : Nat) : skipSpaces cmd nc ≤ nc := by
  induction nc with
  | zero => exact Nat.le_refl 0
  | succ nc ih =>
      rw [skipSpaces]
      split
      · exact Nat.le_succ_of_le ih
      · exact Nat.le_refl _

theorem skipWord_le (cmd : List Byte) (nc : Nat) : skipWord cmd nc ≤ nc := by
  induction nc with
  | zero => exact Nat.le_refl 0
  | succ nc ih =>
      rw [skipWord]
      split
      · exact Nat.le_refl _
      · exact Nat.le_succ_of_le ih

/-- A word that is deleted has a character, or a space behind it. -/
theorem skipWord_skipSpaces_lt (cmd : List Byte) {nc : Nat} (some_ : nc ≠ 0) :
    skipWord cmd (skipSpaces cmd nc) < nc := by
  cases nc with
  | zero => exact absurd rfl some_
  | succ nc =>
      rw [skipSpaces]
      split
      · have spaces := skipSpaces_le cmd nc
        have letters := skipWord_le cmd (skipSpaces cmd nc)
        omega
      · rename_i letter
        rw [skipWord, if_neg letter]
        exact Nat.lt_succ_of_le (skipWord_le cmd nc)

theorem backward_fits (tidy : editor.Tidy text) (word : Bool)
    (keeps : Keeps Editor.InOrder (editor.backward word)) :
    editor.cursor = 0 ∨ editor.cursor = editor.l ∨ editor.l < maxCmdBufferLen - 1 := by
  by_contra unfit
  rw [not_or, not_or] at unfit
  rcases unfit with ⟨some_, inside, full⟩
  have l := tidy.l
  have short := tidy.short
  have within := tidy.cursor
  have size : editor.cmd.length = maxCmdBufferLen := by
    rw [tidy.cmd, padded_length (Nat.le_of_lt short)]
  have stuck (back : Nat) : editor.deleteBack (back + 1) = none := by
    have beyond : shiftLeft (editor.l + 1 - (editor.cursor - 1)) (editor.cursor - 1) editor.cmd = none :=
      shiftLeft_none (by omega) (by omega)
    rw [Editor.deleteBack, if_neg (Ne.symm inside), beyond, Option.bind_none]
  have letters := skipWord_skipSpaces_lt editor.cmd some_
  rw [Editor.backward, if_neg (by omega)] at keeps
  have one : ∃ back, (if word then
      editor.cursor - skipWord editor.cmd (skipSpaces editor.cmd editor.cursor) else 1) = back + 1 := by
    apply Nat.exists_eq_succ_of_ne_zero
    split <;> omega
  rcases one with ⟨back, count⟩
  rw [count, stuck back, Option.map_none] at keeps
  exact not_keeps_none keeps

end Turns

end Alisl.Cli
