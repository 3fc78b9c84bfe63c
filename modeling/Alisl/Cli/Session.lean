import Alisl.Cli.EditorKeys

/-! The line editor over all keys. -/

namespace Alisl.Cli

open Alisl.Base

/-- What a key asks of the line before it. -/
def Editor.Fits (editor : Editor) (key : Key) : Action → Prop
  | .interrupt => editor.l ≤ 1
  | .backWord =>
      editor.cursor = 0 ∨ editor.cursor = editor.l ∨ editor.l < maxCmdBufferLen - 1
  | .backChar =>
      editor.cursor = 0 ∨ editor.cursor = editor.l ∨ editor.l < maxCmdBufferLen - 1
  | .clearLine => 3 * editor.l ≤ maxCmdBufferLen
  | .disable => editor.l = 0
  | .tab =>
      editor.cursor = editor.l → ∀ name, key.completions = [name] → editor.FitsName name
  | .up =>
      editor.inHistory ≤ maxHistory ∧
        ∀ found, historyUp editor.history editor.inHistory = some found → found.2 ≠ none →
          3 * editor.l ≤ maxCmdBufferLen
  | .down =>
      (historyDown editor.history editor.inHistory).2 ≠ none → 3 * editor.l ≤ maxCmdBufferLen
  | .typed =>
      if editor.cursor = editor.l then editor.l < maxCmdBufferLen - 1
      else editor.l < maxCmdBufferLen - 2
  | _ => True

/-- The same for a byte that may belong to a telnet option or an arrow. -/
def Editor.FitsKey (unsignedChar : Bool) (editor : Editor) (key : Key) : Prop :=
  ∀ c, (decode unsignedChar editor key.c).2 = some c →
    (decode unsignedChar editor key.c).1.Fits key (actionOf c)

section Session

variable {editor : Editor} {text : List Byte}

theorem Keeps.mono {result : Option Turn} (keeps : Keeps Editor.Clean result) :
    Keeps Editor.InOrder result := by
  rcases keeps with ⟨turn, ran, terminated, clean⟩
  refine ⟨turn, ran, terminated, ?_⟩
  intro next same
  rcases clean next same with ⟨text, tidy⟩
  exact tidy.inOrder

theorem act_clean (tidy : editor.Tidy text) (key : Key) {c : Byte} (char : c ≠ 0) (action : Action)
    (fits : editor.Fits key action) : Keeps Editor.Clean (editor.act key c action) := by
  have within : editor.cursor ≤ editor.l := tidy.l ▸ tidy.cursor
  have moved (cursor : Nat) (inside : cursor ≤ editor.l) :
      Keeps Editor.Clean (some (Editor.stay { editor with cursor := cursor })) :=
    keeps_stay ⟨text, tidy.noNul, tidy.short, tidy.cmd, tidy.l, tidy.l ▸ inside, tidy.history⟩
  cases action with
  | enter =>
      apply handOver_keeps tidy
      intro n none_
      cases none_
  | escape =>
      exact keeps_stay ⟨text, tidy.noNul, tidy.short, tidy.cmd, tidy.l, tidy.cursor, tidy.history⟩
  | interrupt => exact interrupt_clean tidy key c fits
  | backWord => exact backward_clean tidy true fits
  | backChar => exact backward_clean tidy false fits
  | redraw => exact keeps_stay ⟨text, tidy⟩
  | clearLine => exact clearLine_clean tidy key c fits
  | kill => exact kill_clean tidy key c
  | eot => exact eot_clean tidy key c
  | disable => exact disable_clean tidy key c fits
  | tab => exact complete_clean tidy fits
  | up =>
      rcases Option.isSome_iff_exists.mp ((historyUp_isSome tidy.history _).mpr fits.1) with
        ⟨found, up⟩
      rw [Editor.act, up, Option.bind_some]
      exact recall_clean tidy found (fits.2 found up)
  | down => exact recall_clean tidy _ fits
  | left => exact moved _ (Nat.le_trans (Nat.sub_le _ 1) within)
  | right =>
      apply moved
      split <;> omega
  | start => exact moved 0 (Nat.zero_le _)
  | finish => exact moved _ (max_le within (Nat.le_refl _))
  | typed =>
      rw [Editor.Fits] at fits
      rw [Editor.act, Editor.typed]
      by_cases atEnd : editor.cursor = editor.l
      · rw [if_pos atEnd] at fits ⊢
        exact append_clean tidy atEnd fits key char
      · rw [if_neg atEnd] at fits ⊢
        rw [if_neg (by omega)]
        exact insert_clean tidy atEnd fits key char

theorem act_fits (tidy : editor.Tidy text) (key : Key) {c : Byte} (char : c ≠ 0) (action : Action)
    (keeps : Keeps Editor.InOrder (editor.act key c action)) : editor.Fits key action := by
  cases action with
  | enter => trivial
  | escape => trivial
  | interrupt => exact interrupt_fits tidy key c keeps
  | backWord => exact backward_fits tidy true keeps
  | backChar => exact backward_fits tidy false keeps
  | redraw => trivial
  | clearLine => exact clearLine_fits tidy key c keeps
  | kill => trivial
  | eot => trivial
  | disable => exact disable_fits tidy key c keeps
  | tab => exact complete_fits tidy keeps
  | up =>
      rw [Editor.act] at keeps
      cases up : historyUp editor.history editor.inHistory with
      | none =>
          rw [up, Option.bind_none] at keeps
          exact absurd keeps not_keeps_none
      | some found =>
          rw [up, Option.bind_some] at keeps
          refine ⟨(historyUp_isSome tidy.history _).mp (up ▸ rfl), ?_⟩
          intro other same some_
          rw [up] at same
          cases same
          exact recall_fits tidy found keeps some_
  | down => exact recall_fits tidy _ keeps
  | left => trivial
  | right => trivial
  | start => trivial
  | finish => trivial
  | typed =>
      rw [Editor.act, Editor.typed] at keeps
      rw [Editor.Fits]
      by_cases atEnd : editor.cursor = editor.l
      · rw [if_pos atEnd] at keeps ⊢
        exact append_fits tidy atEnd key char keeps
      · rw [if_neg atEnd] at keeps ⊢
        by_contra full
        rw [if_pos (by omega)] at keeps
        exact insert_fits tidy atEnd key c keeps

/-! ### Bytes and keys -/

theorem decodeArrow_tidy (tidy : editor.Tidy text) (c : Byte) : (decodeArrow editor c).1.Tidy text := by
  rw [decodeArrow]
  split
  · exact tidy
  · split <;> exact ⟨tidy.noNul, tidy.short, tidy.cmd, tidy.l, tidy.cursor, tidy.history⟩

theorem decode_tidy (tidy : editor.Tidy text) (unsignedChar : Bool) (c : Byte) :
    (decode unsignedChar editor c).1.Tidy text := by
  have option (option_ : Byte) : Editor.Tidy { editor with isTelnetOption := option_ } text :=
    ⟨tidy.noNul, tidy.short, tidy.cmd, tidy.l, tidy.cursor, tidy.history⟩
  rw [decode]
  split
  · exact tidy
  · split
    · exact option 1
    · split
      · split
        · exact option c
        · split
          · exact decodeArrow_tidy (option 0) c
          · exact option 0
      · exact decodeArrow_tidy tidy c

theorem decodeArrow_char {c d : Byte} (char : c ≠ 0) (read : (decodeArrow editor c).2 = some d) :
    d ≠ 0 := by
  rw [decodeArrow] at read
  split at read
  · cases read
    exact char
  · split at read
    · dsimp only at read
      split at read
      · cases read
      · cases read
        assumption
    · cases read

theorem decode_char {unsignedChar : Bool} {c d : Byte}
    (read : (decode unsignedChar editor c).2 = some d) : d ≠ 0 := by
  rw [decode] at read
  split at read
  · cases read
  · rename_i char
    split at read
    · cases read
    · split at read
      · split at read
        · cases read
        · split at read
          · exact decodeArrow_char char read
          · cases read
      · exact decodeArrow_char char read

theorem turn_eq (unsignedChar : Bool) (editor : Editor) (key : Key) :
    editor.turn unsignedChar key =
      (decode unsignedChar editor key.c).2.elim (some (decode unsignedChar editor key.c).1.stay)
        (fun c => (decode unsignedChar editor key.c).1.act key c (actionOf c)) := by
  rw [Editor.turn]
  cases decode unsignedChar editor key.c with
  | mk editor read => cases read <;> rfl

/-- A key keeps the line in order exactly when it fits. -/
theorem turn_clean (tidy : editor.Tidy text) (unsignedChar : Bool) (key : Key)
    (fits : editor.FitsKey unsignedChar key) :
    Keeps Editor.Clean (editor.turn unsignedChar key) := by
  have decoded := decode_tidy tidy unsignedChar key.c
  rw [turn_eq]
  cases read : (decode unsignedChar editor key.c).2 with
  | none => exact keeps_stay ⟨text, decoded⟩
  | some c => exact act_clean decoded key (decode_char read) (actionOf c) (fits c read)

theorem turn_fits (tidy : editor.Tidy text) (unsignedChar : Bool) (key : Key)
    (keeps : Keeps Editor.InOrder (editor.turn unsignedChar key)) : editor.FitsKey unsignedChar key := by
  intro c read
  rw [turn_eq, read] at keeps
  exact act_fits (decode_tidy tidy unsignedChar key.c) key (decode_char read) (actionOf c) keeps

theorem initial_tidy : Editor.initial.Tidy [] :=
  ⟨List.not_mem_nil, by decide, rfl, rfl, Nat.zero_le _, List.length_replicate⟩

end Session

open Classical in
/-- After keys that all fit, the cursor and the length are in their bounds and the line is
terminated; and the next key keeps it so, touches nothing outside the buffer and hands over only a
terminated line, exactly when it fits too. -/
theorem line_kept (unsignedChar : Bool) (editor : Editor)
    (reachable : ((editing unsignedChar).restrict (Editor.FitsKey unsignedChar)).Reachable editor) :
    editor.InOrder ∧ ∀ key, Keeps Editor.InOrder (editor.turn unsignedChar key) ↔
      editor.FitsKey unsignedChar key := by
  have clean : editor.Clean := by
    apply Machine.Reachable.always _ _ editor reachable
    · rintro start rfl
      exact ⟨[], initial_tidy⟩
    · rintro before key after _ ⟨text, tidy⟩ moved
      rcases Machine.restrict_next.mp moved with ⟨fits, stepped⟩
      rcases turn_clean tidy unsignedChar key fits with ⟨turn, ran, _, next⟩
      rcases Option.bind_eq_some_iff.mp stepped with ⟨other, same, went⟩
      rw [ran] at same
      cases same
      exact next after went
  rcases clean with ⟨text, tidy⟩
  refine ⟨tidy.inOrder, ?_⟩
  intro key
  exact ⟨turn_fits tidy unsignedChar key, fun fits => (turn_clean tidy unsignedChar key fits).mono⟩

def pressed (c : Byte) : Key := ⟨c, [], true, false⟩

open Classical in
theorem line_kept_initial : Editor.initial.InOrder ∧
    (Keeps Editor.InOrder (Editor.initial.turn true (pressed 0x61)) ↔
      Editor.initial.FitsKey true (pressed 0x61)) := by
  have kept := line_kept true .initial (.initial rfl)
  exact ⟨kept.1, kept.2 (pressed 0x61)⟩

/-- Behind a character and `CTRL('Z')`: the text is gone, its length is not. -/
def disabled : Editor where
  cmd := padded []
  l := 1
  cursor := 1
  inHistory := 0
  isTelnetOption := 0
  esc := 0
  history := List.replicate maxHistory none

/-- The line that is handed over has a NUL where its character was. -/
theorem line_broken : (editing true).run .initial [pressed 0x61, pressed 0x1a] = some disabled ∧
    (disabled.turn true (pressed 0x0d)).bind Turn.handed = some (padded [], 1) ∧
    ¬ Terminated (padded []) 1 := by
  refine ⟨by decide +kernel, by decide +kernel, ?_⟩
  exact not_terminated_empty (by decide)

end Alisl.Cli
