import Alisl.Base.Buffer
import Alisl.Base.Machine
import Alisl.Cli.Words

/-! The line editor of `_cli_loop`, one key at a time. A function gives nothing when it would
touch a byte or a history entry that is not there. -/

namespace Alisl.Cli

open Alisl.Base

def maxCmdBufferLen : Nat := 1024

def maxHistory : Nat := 40

/-! ### The buffer -/

def poke (cmd : List Byte) (i : Nat) (c : Byte) : Option (List Byte) := storeAt cmd i [c]

/-- `memset`, and the loops of `cli_clear_line`. -/
def fill (cmd : List Byte) (dest count : Nat) (c : Byte) : Option (List Byte) :=
  storeAt cmd dest (List.replicate count c)

/-- Copies at most `n` bytes and pads with NUL to `n` bytes. -/
def strncpy (cmd : List Byte) (dest : Nat) (src : List Byte) (n : Nat) : Option (List Byte) :=
  storeAt cmd dest (src.take n ++ List.replicate (n - src.length) 0)

/-- The text up to the first NUL. -/
def textOf (cmd : List Byte) : List Byte := cmd.takeWhile (fun c => decide (c ≠ 0))

theorem textOf_noNul (cmd : List Byte) : 0 ∉ textOf cmd := by
  intro member
  have kept := List.all_takeWhile (p := fun c => decide (c ≠ 0)) (l := cmd)
  rw [List.all_eq_true] at kept
  exact absurd (kept 0 member) (by decide)

/-- `count` rounds of `cmd[i] = cmd[i + 1]`, upwards. -/
def shiftLeft : Nat → Nat → List Byte → Option (List Byte)
  | 0, _, cmd => some cmd
  | count + 1, i, cmd =>
      cmd[i + 1]?.bind (fun c => (poke cmd i c).bind (shiftLeft count (i + 1)))

/-- `count` rounds of `cmd[i + 1] = cmd[i]`, downwards. -/
def shiftRight : Nat → Nat → List Byte → Option (List Byte)
  | 0, _, cmd => some cmd
  | count + 1, i, cmd =>
      cmd[i]?.bind (fun c => (poke cmd (i + 1) c).bind (shiftRight count (i - 1)))

/-- Behind `l` and `cursor`, which are its own, the line is cleared with what it prints. -/
def cliClearLine (cmd : List Byte) (l : Nat) : Option (List Byte) :=
  (fill cmd 0 l 0x08).bind (fun cmd =>
    (fill cmd l l 0x20).bind (fun cmd =>
      (fill cmd (2 * l) l 0x08).bind (fun cmd => fill cmd 0 (3 * l) 0)))

/-! ### The history -/

abbrev History := List (Option CString)

/-- The loop of `cli_add_history` behind an entry, when there is a free place. -/
def addFree (copied : Bool) (text : CString) : Option CString → History → History
  | _, [] => []
  | previous, none :: rest =>
      if previous.elim true (fun last => decide (fold last.val ≠ fold text.val)) ∧ copied then
        some text :: rest
      else none :: rest
  | _, some entry :: rest => some entry :: addFree copied text (some entry) rest

def cliAddHistory (copied : Bool) (history : History) (text : CString) : History :=
  if none ∈ history then addFree copied text none history
  else history.drop 1 ++ [if copied then some text else none]

/-- The index and the entry behind `CTRL('P')`. -/
def historyUp (history : History) (inHistory : Int) : Option (Int × Option CString) :=
  if inHistory - 1 < 0 then
    match history.reverse.findIdx? Option.isSome with
    | some back =>
        some ((history.length - 1 - back : Nat), history[history.length - 1 - back]?.join)
    | none => some (-1, none)
  else history[(inHistory - 1).toNat]?.map (fun entry => (inHistory - 1, entry))

/-- The index and the entry behind `CTRL('N')`. -/
def historyDown (history : History) (inHistory : Int) : Int × Option CString :=
  if maxHistory ≤ inHistory + 1 ∨ history[(inHistory + 1).toNat]?.join = none then
    match history.findIdx? Option.isSome with
    | some i => (i, history[i]?.join)
    | none => (inHistory + 1, none)
  else (inHistory + 1, history[(inHistory + 1).toNat]?.join)

/-! ### Keys -/

structure Editor where
  cmd : List Byte
  l : Nat
  cursor : Nat
  inHistory : Int
  isTelnetOption : Byte
  esc : Byte
  history : History
  deriving DecidableEq

/-- A byte from `cli_getch`, and what the rest of the library answers if it is asked before the
next one: the names that complete the line, whether there is memory for a history entry, and
whether the command quits. -/
structure Key where
  c : Byte
  completions : List CString
  copied : Bool
  quits : Bool

/-- The branches for a byte behind the telnet options and the arrows. -/
inductive Action where
  | enter
  | escape
  | interrupt
  | backWord
  | backChar
  | redraw
  | clearLine
  | kill
  | eot
  | disable
  | tab
  | up
  | down
  | left
  | right
  | start
  | finish
  | typed
  deriving DecidableEq

def actionOf (c : Byte) : Action :=
  if c = 0x0d ∨ c = 0x0a then .enter
  else if c = 0x1b then .escape
  else if c = 0x03 then .interrupt
  else if c = 0x17 then .backWord
  else if c = 0x08 ∨ c = 0x7f then .backChar
  else if c = 0x0c then .redraw
  else if c = 0x15 then .clearLine
  else if c = 0x0b then .kill
  else if c = 0x04 then .eot
  else if c = 0x1a then .disable
  else if c = 0x09 then .tab
  else if c = 0x10 then .up
  else if c = 0x0e then .down
  else if c = 0x02 then .left
  else if c = 0x06 then .right
  else if c = 0x01 then .start
  else if c = 0x05 then .finish
  else .typed

/-- The byte an arrow stands for; 0 for no arrow. -/
def arrow (c : Byte) : Byte :=
  if c = 0x41 then 0x10
  else if c = 0x42 then 0x0e
  else if c = 0x43 then 0x06
  else if c = 0x44 then 0x02
  else 0

/-- The ANSI arrows; `none` is `continue`. -/
def decodeArrow (editor : Editor) (c : Byte) : Editor × Option Byte :=
  if editor.esc = 0 then (editor, some c)
  else if editor.esc = 0x5b then
    ({ editor with esc := 0 }, if arrow c = 0 then none else some (arrow c))
  else ({ editor with esc := if c = 0x5b then c else 0 }, none)

/-- The telnet options, which a plain `char` can be only where it has no sign. -/
def decode (unsignedChar : Bool) (editor : Editor) (c : Byte) : Editor × Option Byte :=
  if c = 0 then (editor, none)
  else if unsignedChar ∧ c = 255 ∧ editor.isTelnetOption = 0 then
    ({ editor with isTelnetOption := 1 }, none)
  else if editor.isTelnetOption ≠ 0 then
    if unsignedChar ∧ 251 ≤ c ∧ c ≤ 254 then ({ editor with isTelnetOption := c }, none)
    else if unsignedChar ∧ c = 255 then decodeArrow { editor with isTelnetOption := 0 } c
    else ({ editor with isTelnetOption := 0 }, none)
  else decodeArrow editor c

/-! ### What a key does -/

/-- The line that is handed to `_cli_run_command`, if one is, and the editor before the next key,
if there is one. -/
structure Turn where
  handed : Option (List Byte × Nat)
  next : Option Editor

/-- `continue` of the inner loop. -/
def Editor.stay (editor : Editor) : Turn := ⟨none, some editor⟩

/-- The head of the outer loop: `oldl` behind a `?`, an empty line otherwise. -/
def Editor.nextLine (editor : Editor) : Option Nat → Option Editor
  | some oldl =>
      (poke editor.cmd oldl 0).map (fun cmd =>
        { editor with cmd := cmd, l := oldl, cursor := oldl, inHistory := 0 })
  | none =>
      (fill editor.cmd 0 maxCmdBufferLen 0).map (fun cmd =>
        { editor with cmd := cmd, l := 0, cursor := 0, inHistory := 0 })

def historyWord : List Byte := [0x68, 0x69, 0x73, 0x74, 0x6f, 0x72, 0x79]

/-- `break` out of the inner loop. -/
def Editor.handOver (editor : Editor) (key : Key) (oldl : Option Nat) : Option Turn :=
  if editor.l = 0 then (editor.nextLine oldl).map Editor.stay
  else
    editor.cmd[editor.l - 1]?.bind (fun last =>
      let text : CString := ⟨textOf editor.cmd, textOf_noNul editor.cmd⟩
      let history :=
        if last ≠ 0x3f ∧ fold text.val ≠ fold historyWord then
          cliAddHistory key.copied editor.history text
        else editor.history
      if key.quits then some ⟨some (editor.cmd, editor.l), none⟩
      else (Editor.nextLine { editor with history := history } oldl).map (fun next =>
        ⟨some (editor.cmd, editor.l), some next⟩))

/-- `while (nc && cmd[nc - 1] == ' ') nc--;` -/
def skipSpaces (cmd : List Byte) : Nat → Nat
  | 0 => 0
  | nc + 1 => if cmd[nc]? = some 0x20 then skipSpaces cmd nc else nc + 1

/-- `while (nc && cmd[nc - 1] != ' ') nc--;` -/
def skipWord (cmd : List Byte) : Nat → Nat
  | 0 => 0
  | nc + 1 => if cmd[nc]? = some 0x20 then nc + 1 else skipWord cmd nc

/-- `while (back--)` -/
def Editor.deleteBack : Nat → Editor → Option Editor
  | 0, editor => some editor
  | back + 1, editor =>
      if editor.l = editor.cursor then
        (poke editor.cmd (editor.cursor - 1) 0).bind (fun cmd =>
          deleteBack back
            { editor with cmd := cmd, cursor := editor.cursor - 1, l := editor.l - 1 })
      else
        (shiftLeft (editor.l + 1 - (editor.cursor - 1)) (editor.cursor - 1) editor.cmd).bind
          (fun cmd =>
            deleteBack back
              { editor with cmd := cmd, cursor := editor.cursor - 1, l := editor.l - 1 })

def Editor.backward (editor : Editor) (word : Bool) : Option Turn :=
  if editor.l = 0 ∨ editor.cursor = 0 then some editor.stay
  else
    (editor.deleteBack (if word then
        editor.cursor - skipWord editor.cmd (skipSpaces editor.cmd editor.cursor)
      else 1)).map Editor.stay

/-- `for (; l > 0; l--)` up to a space or a bar. -/
def wordStart (cmd : List Byte) : Nat → Nat
  | 0 => 0
  | l + 1 => if cmd[l]? = some 0x20 ∨ cmd[l]? = some 0x7c then l + 1 else wordStart cmd l

/-- A single completion takes the place of the last word; others are only shown. -/
def Editor.complete (editor : Editor) (completions : List CString) : Option Turn :=
  if editor.cursor ≠ editor.l then some editor.stay
  else
    match completions with
    | [name] =>
        (strncpy editor.cmd (wordStart editor.cmd editor.l) name.val (maxCmdBufferLen - 1)).bind
          (fun cmd =>
            (poke cmd (wordStart editor.cmd editor.l + name.val.length) 0x20).map (fun cmd =>
              Editor.stay { editor with
                cmd := cmd
                l := wordStart editor.cmd editor.l + name.val.length + 1
                cursor := wordStart editor.cmd editor.l + name.val.length + 1 }))
    | _ => some editor.stay

/-- The entry that was found takes the place of the line. -/
def Editor.recall (editor : Editor) (found : Int × Option CString) : Option Turn :=
  match found.2 with
  | none => some (Editor.stay { editor with inHistory := found.1 })
  | some entry =>
      (cliClearLine editor.cmd editor.l).bind (fun cmd =>
        (fill cmd 0 maxCmdBufferLen 0).bind (fun cmd =>
          (strncpy cmd 0 entry.val (maxCmdBufferLen - 1)).bind (fun cmd =>
            (poke cmd (maxCmdBufferLen - 1) 0).map (fun cmd =>
              Editor.stay { editor with
                cmd := cmd
                l := (textOf cmd).length
                cursor := (textOf cmd).length
                inHistory := found.1 }))))

/-- Behind a character that was entered. -/
def Editor.entered (editor : Editor) (key : Key) (c : Byte) : Option Turn :=
  if c = 0x3f ∧ editor.cursor = editor.l then editor.handOver key (some (editor.l - 1))
  else some editor.stay

/-- A character at the end of the line. -/
def Editor.append (editor : Editor) (key : Key) (c : Byte) : Option Turn :=
  (poke editor.cmd editor.cursor c).bind (fun cmd =>
    if editor.l < maxCmdBufferLen - 1 then
      Editor.entered { editor with cmd := cmd, l := editor.l + 1, cursor := editor.cursor + 1 } key c
    else some (Editor.stay { editor with cmd := cmd }))

/-- A character in the middle of the line of which `l` characters are kept. -/
def Editor.insert (editor : Editor) (key : Key) (c : Byte) (l : Nat) : Option Turn :=
  (shiftRight (l + 1 - editor.cursor) l editor.cmd).bind (fun cmd =>
    (poke cmd editor.cursor c).bind (fun cmd =>
      Editor.entered { editor with cmd := cmd, l := l + 1, cursor := editor.cursor + 1 } key c))

def Editor.typed (editor : Editor) (key : Key) (c : Byte) : Option Turn :=
  if editor.cursor = editor.l then editor.append key c
  else editor.insert key c (if maxCmdBufferLen - 2 ≤ editor.l then editor.l - 1 else editor.l)

def quitWord : List Byte := [0x71, 0x75, 0x69, 0x74]

def Editor.act (editor : Editor) (key : Key) (c : Byte) : Action → Option Turn
  | .enter => editor.handOver key none
  | .escape => some (Editor.stay { editor with esc := 1 })
  | .interrupt =>
      (strncpy editor.cmd 0 [0x0a] (maxCmdBufferLen - 1)).bind (fun cmd =>
        Editor.handOver { editor with cmd := cmd } key none)
  | .backWord => editor.backward true
  | .backChar => editor.backward false
  | .redraw => some editor.stay
  | .clearLine =>
      (cliClearLine editor.cmd editor.l).map (fun cmd =>
        Editor.stay { editor with cmd := cmd, l := 0, cursor := 0 })
  | .kill =>
      if editor.cursor = editor.l then some editor.stay
      else
        (fill editor.cmd editor.cursor (editor.l - editor.cursor) 0).map (fun cmd =>
          Editor.stay { editor with cmd := cmd, l := editor.cursor })
  | .eot =>
      if editor.l ≠ 0 then some editor.stay
      else
        (strncpy editor.cmd 0 quitWord (maxCmdBufferLen - 1)).bind (fun cmd =>
          Editor.handOver { editor with
            cmd := cmd, l := (textOf cmd).length, cursor := (textOf cmd).length } key none)
  | .disable =>
      -- the line is cleared, `l` and `cursor` stay
      (cliClearLine editor.cmd editor.l).map (fun cmd => Editor.stay { editor with cmd := cmd })
  | .tab => editor.complete key.completions
  | .up => (historyUp editor.history editor.inHistory).bind editor.recall
  | .down => editor.recall (historyDown editor.history editor.inHistory)
  | .left => some (Editor.stay { editor with cursor := editor.cursor - 1 })
  | .right =>
      some (Editor.stay { editor with
        cursor := if editor.cursor < editor.l then editor.cursor + 1 else editor.cursor })
  | .start => some (Editor.stay { editor with cursor := 0 })
  | .finish => some (Editor.stay { editor with cursor := max editor.cursor editor.l })
  | .typed => editor.typed key c

/-- One round of the inner loop. -/
def Editor.turn (unsignedChar : Bool) (editor : Editor) (key : Key) : Option Turn :=
  match decode unsignedChar editor key.c with
  | (editor, none) => some editor.stay
  | (editor, some c) => editor.act key c (actionOf c)

def Editor.initial : Editor where
  cmd := List.replicate maxCmdBufferLen 0
  l := 0
  cursor := 0
  inHistory := 0
  isTelnetOption := 0
  esc := 0
  history := List.replicate maxHistory none

def editing (unsignedChar : Bool) : Machine Editor Key where
  Initial editor := editor = .initial
  next editor key := (editor.turn unsignedChar key).bind Turn.next

end Alisl.Cli
