import Alisl.Cli.EditorSafe

/-! The keys that change the line as a whole, complete it, recall one, or add to it. -/

namespace Alisl.Cli

open Alisl.Base

section Keys

variable {editor : Editor} {text : List Byte}

theorem Editor.Tidy.size (tidy : editor.Tidy text) : editor.cmd.length = maxCmdBufferLen := by
  rw [tidy.cmd, padded_length (Nat.le_of_lt tidy.short)]

/-! ### Clearing -/

theorem cleared (tidy : editor.Tidy text) (room : 3 * editor.l ≤ maxCmdBufferLen) :
    cliClearLine editor.cmd editor.l = some (padded []) := by
  have gone : text.drop (3 * editor.l) = [] := List.drop_eq_nil_of_le (by rw [tidy.l]; omega)
  have short := tidy.short
  have l := tidy.l
  rw [cliClearLine_eq (by rw [tidy.size]; exact room), tidy.cmd, padded, List.drop_append, gone,
    List.nil_append, List.drop_replicate, List.replicate_append_replicate]
  show _ = some (List.replicate maxCmdBufferLen 0)
  congr 2
  omega

theorem notCleared (tidy : editor.Tidy text) (full : ¬ 3 * editor.l ≤ maxCmdBufferLen) :
    cliClearLine editor.cmd editor.l = none := by
  apply cliClearLine_none
  rw [tidy.size]
  omega

theorem Editor.Tidy.empty (tidy : editor.Tidy text) (none_ : editor.l = 0) : text = [] :=
  List.eq_nil_of_length_eq_zero (tidy.l ▸ none_)

theorem clearLine_clean (tidy : editor.Tidy text) (key : Key) (c : Byte)
    (fits : 3 * editor.l ≤ maxCmdBufferLen) : Keeps Editor.Clean (editor.act key c .clearLine) := by
  rw [Editor.act, cleared tidy fits, Option.map_some]
  exact keeps_stay ⟨[], List.not_mem_nil, Nat.zero_lt_succ _, rfl, rfl, Nat.zero_le _, tidy.history⟩

theorem clearLine_fits (tidy : editor.Tidy text) (key : Key) (c : Byte)
    (keeps : Keeps Editor.InOrder (editor.act key c .clearLine)) : 3 * editor.l ≤ maxCmdBufferLen := by
  by_contra full
  rw [Editor.act, notCleared tidy full, Option.map_none] at keeps
  exact not_keeps_none keeps

/-- A cleared buffer is not a line with characters. -/
theorem not_terminated_empty {l : Nat} (some_ : l ≠ 0) : ¬ Terminated (padded []) l := by
  intro terminated
  apply terminated.1
  rw [padded, List.nil_append, List.take_replicate]
  apply List.mem_replicate.mpr
  refine ⟨?_, rfl⟩
  have size : 0 < maxCmdBufferLen := by decide
  show min l maxCmdBufferLen ≠ 0
  omega

theorem disable_clean (tidy : editor.Tidy text) (key : Key) (c : Byte) (fits : editor.l = 0) :
    Keeps Editor.Clean (editor.act key c .disable) := by
  have none_ := tidy.empty fits
  subst none_
  rw [Editor.act, cleared tidy (by rw [fits]; exact Nat.zero_le _), Option.map_some]
  exact keeps_stay ⟨[], List.not_mem_nil, tidy.short, rfl, tidy.l, tidy.cursor, tidy.history⟩

theorem disable_fits (tidy : editor.Tidy text) (key : Key) (c : Byte)
    (keeps : Keeps Editor.InOrder (editor.act key c .disable)) : editor.l = 0 := by
  by_contra some_
  by_cases room : 3 * editor.l ≤ maxCmdBufferLen
  · rw [Editor.act, cleared tidy room, Option.map_some, keeps_stay_iff] at keeps
    exact not_terminated_empty some_ keeps.2.2
  · rw [Editor.act, notCleared tidy room, Option.map_none] at keeps
    exact not_keeps_none keeps

theorem kill_clean (tidy : editor.Tidy text) (key : Key) (c : Byte) :
    Keeps Editor.Clean (editor.act key c .kill) := by
  rw [Editor.act]
  split
  · exact keeps_stay ⟨text, tidy⟩
  · have short := tidy.short
    have l := tidy.l
    have cursor := tidy.cursor
    have size : (text.take editor.cursor).length = editor.cursor := by
      rw [List.length_take]
      omega
    have rest : (List.replicate (editor.l - editor.cursor) (0 : Byte)).length =
        (text.drop editor.cursor).length := by
      rw [List.length_replicate, List.length_drop, l]
    have killed : fill editor.cmd editor.cursor (editor.l - editor.cursor) 0 =
        some (padded (text.take editor.cursor)) := by
      have stored : storeAt (text.take editor.cursor ++ text.drop editor.cursor ++
          List.replicate (maxCmdBufferLen - text.length) 0) editor.cursor
            (List.replicate (editor.l - editor.cursor) 0) =
          some (text.take editor.cursor ++ List.replicate (editor.l - editor.cursor) 0 ++
            List.replicate (maxCmdBufferLen - text.length) 0) := storeAt_append size.symm rest
      rw [List.take_append_drop] at stored
      rw [fill, tidy.cmd, padded, stored, padded, List.append_assoc, List.replicate_append_replicate, size]
      congr 3
      omega
    rw [killed, Option.map_some]
    refine keeps_stay ⟨text.take editor.cursor, ?_, ?_, rfl, size.symm, Nat.le_of_eq size.symm,
      tidy.history⟩
    · exact fun member => tidy.noNul (List.mem_of_mem_take member)
    · rw [size]
      omega

/-! ### Lines that are not typed -/

theorem eot_clean (tidy : editor.Tidy text) (key : Key) (c : Byte) :
    Keeps Editor.Clean (editor.act key c .eot) := by
  rw [Editor.act]
  split
  · exact keeps_stay ⟨text, tidy⟩
  · rename_i none_
    have empty := tidy.empty (not_not.mp none_)
    subst empty
    have copied : strncpy editor.cmd 0 quitWord (maxCmdBufferLen - 1) = some (padded quitWord) := by
      rw [tidy.cmd]
      exact strncpy_padded [] [] rfl (Nat.zero_le 1) tidy.short (by decide)
    have noNul : (0 : Byte) ∉ quitWord := by decide
    have read : textOf (padded quitWord) = quitWord := by
      rw [padded_eq (by decide), textOf_append noNul]
    rw [copied, Option.bind_some, read]
    have line : Editor.Tidy { editor with
        cmd := padded quitWord, l := quitWord.length, cursor := quitWord.length } quitWord :=
      ⟨noNul, by decide, rfl, rfl, Nat.le_refl _, tidy.history⟩
    apply handOver_keeps line
    intro n none_
    cases none_

theorem interrupted (tidy : editor.Tidy text) :
    strncpy editor.cmd 0 [0x0a] (maxCmdBufferLen - 1) = some (padded [0x0a]) := by
  rw [tidy.cmd]
  exact strncpy_padded [] text rfl (Nat.zero_le 1) tidy.short (by decide)

theorem interrupt_clean (tidy : editor.Tidy text) (key : Key) (c : Byte) (fits : editor.l ≤ 1) :
    Keeps Editor.Clean (editor.act key c .interrupt) := by
  rw [Editor.act, interrupted tidy, Option.bind_some]
  by_cases none_ : editor.l = 0
  · have next : ∃ next, Editor.nextLine { editor with cmd := padded [0x0a] } none = some next ∧
        next.Tidy [] := nextLine_none (padded_length (by decide)) tidy.history
    rcases next with ⟨next, moved, clean⟩
    rw [Editor.handOver, if_pos none_, moved, Option.map_some]
    exact keeps_stay ⟨[], clean⟩
  · have one : editor.l = 1 := by omega
    have cursor := tidy.cursor
    rw [← tidy.l, one] at cursor
    have line : Editor.Tidy { editor with cmd := padded [0x0a] } [0x0a] :=
      ⟨by decide, by decide, rfl, one, cursor, tidy.history⟩
    apply handOver_keeps line
    intro n absent
    cases absent

/-- What is handed over is the line. -/
theorem handOver_handed {key : Key} {oldl : Option Nat} {turn : Turn}
    (handed : editor.handOver key oldl = some turn) (some_ : editor.l ≠ 0) : turn.handed = some (editor.cmd, editor.l) := by
  rw [Editor.handOver, if_neg some_] at handed
  rcases Option.bind_eq_some_iff.mp handed with ⟨last, _, rest⟩
  dsimp only at rest
  split at rest
  · cases rest
    rfl
  · rcases Option.map_eq_some_iff.mp rest with ⟨next, _, same⟩
    rw [← same]

theorem interrupt_fits (tidy : editor.Tidy text) (key : Key) (c : Byte)
    (keeps : Keeps Editor.InOrder (editor.act key c .interrupt)) : editor.l ≤ 1 := by
  by_contra long
  rw [Editor.act, interrupted tidy, Option.bind_some] at keeps
  rcases keeps with ⟨turn, ran, terminated, _⟩
  have some_ : editor.l ≠ 0 := by omega
  have line := terminated _ (handOver_handed ran some_)
  dsimp only at line
  apply line.1
  have two : editor.l = (editor.l - 2) + 2 := by omega
  rw [two, padded_eq (by decide), List.singleton_append, List.take_succ_cons, List.take_succ_cons]
  exact List.mem_cons_of_mem _ List.mem_cons_self

/-! ### Completing -/

theorem wordStart_le (cmd : List Byte) (l : Nat) : wordStart cmd l ≤ l := by
  induction l with
  | zero => exact Nat.le_refl 0
  | succ l ih =>
      rw [wordStart]
      split
      · exact Nat.le_refl _
      · exact Nat.le_succ_of_le ih

/-- The copy of a completion pads all but one byte of a buffer, so it may begin at the first two. -/
def Editor.FitsName (editor : Editor) (name : CString) : Prop :=
  wordStart editor.cmd editor.l ≤ 1 ∧
    wordStart editor.cmd editor.l + name.val.length + 1 ≤ maxCmdBufferLen - 1

theorem completed (tidy : editor.Tidy text) (name : CString) (first : wordStart editor.cmd editor.l ≤ 1)
    (short : name.val.length < maxCmdBufferLen) :
    strncpy editor.cmd (wordStart editor.cmd editor.l) name.val (maxCmdBufferLen - 1) =
      some (padded (text.take (wordStart editor.cmd editor.l) ++ name.val)) := by
  have within := wordStart_le editor.cmd editor.l
  have size : (text.take (wordStart editor.cmd editor.l)).length = wordStart editor.cmd editor.l := by
    rw [List.length_take, ← tidy.l]
    omega
  have whole := List.take_append_drop (wordStart editor.cmd editor.l) text
  have copied := strncpy_padded (text.take (wordStart editor.cmd editor.l))
    (text.drop (wordStart editor.cmd editor.l)) size.symm first (whole.symm ▸ tidy.short) short
  rw [whole, ← tidy.cmd] at copied
  exact copied

theorem complete_clean (tidy : editor.Tidy text) {completions : List CString}
    (fits : editor.cursor = editor.l → ∀ name, completions = [name] → editor.FitsName name) :
    Keeps Editor.Clean (editor.complete completions) := by
  unfold Editor.complete
  by_cases atEnd : editor.cursor = editor.l
  · rw [if_neg (not_not.mpr atEnd)]
    split
    · rename_i name
      rcases fits atEnd name rfl with ⟨first, short⟩
      have size : (text.take (wordStart editor.cmd editor.l)).length =
          wordStart editor.cmd editor.l := by
        have within := wordStart_le editor.cmd editor.l
        rw [List.length_take, ← tidy.l]
        omega
      have place : wordStart editor.cmd editor.l + name.val.length =
          (text.take (wordStart editor.cmd editor.l) ++ name.val).length := by
        rw [List.length_append, size]
      have room : (text.take (wordStart editor.cmd editor.l) ++ name.val).length < maxCmdBufferLen := by
        omega
      rw [completed tidy name first (by omega), Option.bind_some, poke_end room place, Option.map_some]
      refine keeps_stay ⟨text.take (wordStart editor.cmd editor.l) ++ name.val ++ [0x20], ?_, ?_, rfl,
        ?_, ?_, tidy.history⟩
      · simp only [List.mem_append, List.mem_singleton, not_or]
        exact ⟨⟨fun member => tidy.noNul (List.mem_of_mem_take member), name.property⟩, by decide⟩
      · rw [List.length_append, ← place]
        show _ + 1 < _
        omega
      · rw [List.length_append, ← place]
        rfl
      · rw [List.length_append, ← place]
        exact Nat.le_refl _
    · exact keeps_stay ⟨text, tidy⟩
  · rw [if_pos atEnd]
    exact keeps_stay ⟨text, tidy⟩

theorem complete_fits (tidy : editor.Tidy text) {completions : List CString}
    (keeps : Keeps Editor.InOrder (editor.complete completions)) (atEnd : editor.cursor = editor.l)
    (name : CString) (single : completions = [name]) : editor.FitsName name := by
  subst single
  unfold Editor.complete at keeps
  rw [if_neg (not_not.mpr atEnd)] at keeps
  dsimp only at keeps
  have first : wordStart editor.cmd editor.l ≤ 1 := by
    by_contra later
    rw [strncpy_none (by rw [tidy.size, maxCmdBufferLen]; omega), Option.bind_none] at keeps
    exact not_keeps_none keeps
  refine ⟨first, ?_⟩
  rcases keeps with ⟨turn, ran, _, ordered⟩
  rcases Option.bind_eq_some_iff.mp ran with ⟨copied, _, rest⟩
  rcases Option.map_eq_some_iff.mp rest with ⟨cmd, _, same⟩
  have next := ordered _ (congrArg Turn.next same).symm
  exact next.2.1

/-! ### History -/

theorem recalled (entry : CString) :
    strncpy (padded []) 0 entry.val (maxCmdBufferLen - 1) =
      some (padded (entry.val.take (maxCmdBufferLen - 1))) := by
  have short : (entry.val.take (maxCmdBufferLen - 1)).length < maxCmdBufferLen := by
    rw [List.length_take, maxCmdBufferLen]
    omega
  rw [← strncpy_take]
  exact strncpy_padded [] [] rfl (Nat.zero_le 1) (by decide) short

theorem recall_clean (tidy : editor.Tidy text) (found : Int × Option CString)
    (fits : found.2 ≠ none → 3 * editor.l ≤ maxCmdBufferLen) :
    Keeps Editor.Clean (editor.recall found) := by
  rw [Editor.recall]
  cases entry : found.2 with
  | none =>
      exact keeps_stay ⟨text, tidy.noNul, tidy.short, tidy.cmd, tidy.l, tidy.cursor, tidy.history⟩
  | some entry_ =>
      have room := fits (entry ▸ Option.some_ne_none entry_)
      have empty : fill (padded []) 0 maxCmdBufferLen 0 = some (padded []) := by
        have size : (padded []).length = maxCmdBufferLen := padded_length (Nat.zero_le _)
        rw [fill_zero (Nat.le_of_eq size.symm), List.drop_eq_nil_of_le (Nat.le_of_eq size),
          List.append_nil]
        rfl
      have short : (entry_.val.take (maxCmdBufferLen - 1)).length < maxCmdBufferLen := by
        rw [List.length_take, maxCmdBufferLen]
        omega
      have noNul : 0 ∉ entry_.val.take (maxCmdBufferLen - 1) :=
        fun member => entry_.property (List.mem_of_mem_take member)
      have read : textOf (padded (entry_.val.take (maxCmdBufferLen - 1))) =
          entry_.val.take (maxCmdBufferLen - 1) := by
        rw [padded_eq short, textOf_append noNul]
      simp only [cleared tidy room, Option.bind_some, empty, recalled entry_, poke_last short,
        Option.map_some, read]
      exact keeps_stay ⟨_, noNul, short, rfl, rfl, Nat.le_refl _, tidy.history⟩

theorem recall_fits (tidy : editor.Tidy text) (found : Int × Option CString)
    (keeps : Keeps Editor.InOrder (editor.recall found)) (some_ : found.2 ≠ none) :
    3 * editor.l ≤ maxCmdBufferLen := by
  by_contra full
  rw [Editor.recall] at keeps
  cases entry : found.2 with
  | none => exact some_ entry
  | some entry_ =>
      simp only [entry, notCleared tidy full, Option.bind_none] at keeps
      exact not_keeps_none keeps

/-- Up stays within the history as long as the index is at most one behind it. -/
theorem historyUp_isSome {history : History} (size : history.length = maxHistory) (inHistory : Int) :
    (historyUp history inHistory).isSome ↔ inHistory ≤ maxHistory := by
  rw [historyUp]
  split
  · rename_i below
    have inside : inHistory ≤ maxHistory := by
      rw [maxHistory]
      omega
    simp only [inside, iff_true]
    split <;> rfl
  · rename_i above
    rw [Option.isSome_map, isSome_getElem?, size]
    rw [maxHistory]
    omega

/-! ### Typing -/

theorem entered_clean (tidy : editor.Tidy text) (some_ : 0 < text.length) (key : Key) (c : Byte) :
    Keeps Editor.Clean (editor.entered key c) := by
  rw [Editor.entered]
  split
  · apply handOver_keeps tidy
    intro n same
    have less : editor.l - 1 = n := Option.some.inj same
    rw [← less, tidy.l]
    omega
  · exact keeps_stay ⟨text, tidy⟩

theorem entered_fits {key : Key} {c : Byte} (some_ : editor.l ≠ 0)
    (keeps : Keeps Editor.InOrder (editor.entered key c)) : Terminated editor.cmd editor.l := by
  rw [Editor.entered] at keeps
  split at keeps
  · rcases keeps with ⟨turn, ran, terminated, _⟩
    exact terminated _ (handOver_handed ran some_)
  · exact (keeps_stay_iff.mp keeps).2.2

theorem append_clean (tidy : editor.Tidy text) (atEnd : editor.cursor = editor.l)
    (fits : editor.l < maxCmdBufferLen - 1) (key : Key) {c : Byte} (char : c ≠ 0) :
    Keeps Editor.Clean (editor.append key c) := by
  have place : editor.cursor = text.length := atEnd.trans tidy.l
  rw [Editor.append, tidy.cmd, poke_end tidy.short place, Option.bind_some, if_pos fits]
  have size : (text ++ [c]).length = text.length + 1 := List.length_append
  have line : Editor.Tidy { editor with
      cmd := padded (text ++ [c]), l := editor.l + 1, cursor := editor.cursor + 1 } (text ++ [c]) := by
    refine ⟨?_, ?_, rfl, ?_, ?_, tidy.history⟩
    · rw [List.mem_append, List.mem_singleton, not_or]
      exact ⟨tidy.noNul, Ne.symm char⟩
    · rw [size, ← tidy.l]
      omega
    · rw [size, ← tidy.l]
    · rw [size, ← place]
  exact entered_clean line (by omega) key c

/-- At the end of a full line the character takes the place of the NUL. -/
theorem append_fits (tidy : editor.Tidy text) (atEnd : editor.cursor = editor.l) (key : Key) {c : Byte}
    (char : c ≠ 0) (keeps : Keeps Editor.InOrder (editor.append key c)) :
    editor.l < maxCmdBufferLen - 1 := by
  by_contra full
  have place : editor.cursor = text.length := atEnd.trans tidy.l
  rw [Editor.append, tidy.cmd, poke_end tidy.short place, Option.bind_some, if_neg full,
    keeps_stay_iff] at keeps
  have behind := keeps.2.2.2
  have last : (padded (text ++ [c]))[text.length]? = some c := by
    rw [padded, List.append_assoc, List.getElem?_append_right (Nat.le_refl _), Nat.sub_self]
    rfl
  dsimp only at behind
  rw [tidy.l, last] at behind
  exact char (Option.some.inj behind)

/-- The text on both sides of a cursor inside it. -/
theorem Editor.Tidy.split (tidy : editor.Tidy text) (inside : editor.cursor ≠ editor.l) :
    ∃ front y back, text = front ++ y :: back ∧ front.length = editor.cursor ∧
      editor.l = front.length + back.length + 1 := by
  have l := tidy.l
  have cursor := tidy.cursor
  have whole := List.take_append_drop editor.cursor text
  have size : (text.take editor.cursor).length = editor.cursor := by
    rw [List.length_take]
    omega
  have rest : (text.drop editor.cursor).length = text.length - editor.cursor := List.length_drop
  cases behind : text.drop editor.cursor with
  | nil =>
      rw [behind, List.length_nil] at rest
      omega
  | cons y back =>
      rw [behind] at whole rest
      rw [List.length_cons] at rest
      exact ⟨text.take editor.cursor, y, back, whole.symm, size, by omega⟩

theorem insert_clean (tidy : editor.Tidy text) (inside : editor.cursor ≠ editor.l)
    (fits : editor.l < maxCmdBufferLen - 2) (key : Key) {c : Byte} (char : c ≠ 0) :
    Keeps Editor.Clean (editor.insert key c editor.l) := by
  rcases tidy.split inside with ⟨front, y, back, shape, cursor, l⟩
  have noNul := tidy.noNul
  have cmd := tidy.cmd
  subst shape
  have count : editor.l + 1 - editor.cursor = (back ++ [0]).length + 1 := by
    rw [List.length_append, List.length_singleton]
    omega
  have place : editor.l = front.length + (back ++ [(0 : Byte)]).length := by
    rw [List.length_append, List.length_singleton]
    omega
  have before : padded (front ++ y :: back) = front ++ y :: (back ++ [0]) ++
      0 :: List.replicate (maxCmdBufferLen - (front.length + back.length + 3)) 0 := by
    have zeros : List.replicate (maxCmdBufferLen - (front.length + (back.length + 1))) (0 : Byte) =
        [0, 0] ++ List.replicate (maxCmdBufferLen - (front.length + back.length + 3)) 0 := by
      have two : ([0, 0] : List Byte) = List.replicate 2 0 := rfl
      rw [two, List.replicate_append_replicate]
      congr 1
      omega
    rw [padded, List.length_append, List.length_cons, zeros]
    simp only [List.append_assoc, List.cons_append, List.nil_append]
  have after : front ++ c :: (y :: (back ++ [0]) ++
      List.replicate (maxCmdBufferLen - (front.length + back.length + 3)) 0) =
        padded (front ++ c :: y :: back) := by
    have zeros : List.replicate (maxCmdBufferLen - (front.length + (back.length + 1 + 1))) (0 : Byte) =
        [0] ++ List.replicate (maxCmdBufferLen - (front.length + back.length + 3)) 0 := by
      have one : ([0] : List Byte) = List.replicate 1 0 := rfl
      rw [one, List.replicate_append_replicate]
      congr 1
      omega
    rw [padded, List.length_append, List.length_cons, List.length_cons, zeros]
    simp only [List.append_assoc, List.cons_append, List.nil_append]
  have shifted := shiftRight_append front y (back ++ [0]) 0
    (List.replicate (maxCmdBufferLen - (front.length + back.length + 3)) 0) place
  have written : poke (front ++ y :: y :: (back ++ [0]) ++
      List.replicate (maxCmdBufferLen - (front.length + back.length + 3)) 0) editor.cursor c =
        some (padded (front ++ c :: y :: back)) := by
    rw [← after, List.append_assoc]
    exact poke_append cursor.symm y c
  rw [← before, ← count] at shifted
  rw [Editor.insert, cmd, shifted, Option.bind_some, written, Option.bind_some]
  have size : (front ++ c :: y :: back).length = front.length + back.length + 2 := by
    rw [List.length_append, List.length_cons, List.length_cons]
    rfl
  have line : Editor.Tidy { editor with
      cmd := padded (front ++ c :: y :: back), l := editor.l + 1, cursor := editor.cursor + 1 }
        (front ++ c :: y :: back) := by
    refine ⟨?_, ?_, rfl, ?_, ?_, tidy.history⟩
    · rw [List.mem_append, List.mem_cons, not_or, not_or] at noNul ⊢
      rw [List.mem_cons, not_or]
      exact ⟨noNul.1, Ne.symm char, noNul.2⟩
    · omega
    · rw [size]
      show editor.l + 1 = _
      omega
    · rw [size]
      show editor.cursor + 1 ≤ _
      omega
  exact entered_clean line (by omega) key c

/-- In a line that is almost full the last character moves over the NUL. -/
theorem insert_fits (tidy : editor.Tidy text) (inside : editor.cursor ≠ editor.l) (key : Key) (c : Byte)
    (keeps : Keeps Editor.InOrder (editor.insert key c (editor.l - 1))) : False := by
  rcases tidy.split inside with ⟨front, y, back, shape, cursor, l⟩
  have noNul := tidy.noNul
  have cmd := tidy.cmd
  have short := tidy.short
  subst shape
  rw [padded_eq short] at cmd
  generalize List.replicate (maxCmdBufferLen - ((front ++ y :: back).length + 1)) (0 : Byte) = zeros at cmd
  have count : editor.l - 1 + 1 - editor.cursor = back.length + 1 := by omega
  have place : editor.l - 1 = front.length + back.length := by omega
  have shifted := shiftRight_append front y back 0 zeros place
  have written : poke (front ++ y :: y :: back ++ zeros) editor.cursor c =
      some (front ++ [c] ++ (y :: back ++ zeros)) := by
    rw [List.append_assoc, List.append_assoc]
    exact poke_append cursor.symm y c
  rw [Editor.insert, cmd, count, shifted, Option.bind_some, written, Option.bind_some] at keeps
  have ended := entered_fits (by exact Nat.succ_ne_zero _) keeps
  have behind := ended.2
  have index : editor.l - 1 + 1 = (front ++ [c]).length + back.length := by
    rw [List.length_append, List.length_singleton]
    omega
  have within : back.length < (y :: back).length := Nat.lt_succ_self _
  dsimp only at behind
  rw [index, List.getElem?_append_right (Nat.le_add_right _ _), Nat.add_sub_cancel_left,
    List.getElem?_append_left within] at behind
  exact noNul (List.mem_append_right _ (List.mem_of_getElem? behind))

end Keys

end Alisl.Cli
