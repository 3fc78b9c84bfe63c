import Alisl.Base.Bytes
import Alisl.Base.Cells
import Alisl.Base.Forest

/-! The command tree of libalislcli.c: its cells and the functions that walk and
change it. A function gives nothing when it would read a pointer that is NULL or
was freed. Loops along `next` get the number of cells as fuel. -/

namespace Alisl.Cli

open Alisl.Base

abbrev Ptr := Nat

/-- A string without its NUL. -/
abbrev CString := { bytes : List Byte // 0 ∉ bytes }

inductive Callback where
  | dummyCallback
  | cliHelp
  | cliExit
  | cliHistory
  | user
  deriving DecidableEq, Repr

def cliOk : Int := 0
def cliError : Int := -1
def cliQuit : Int := -2
def cliErrorArg : Int := -3

def cliCmdModeSelf : Nat := 0
def cliCmdModeAll : Nat := 1

structure Command where
  command : CString
  callback : Callback
  uniqueLen : Nat
  mode : Nat
  next : Option Ptr
  children : Option Ptr
  parent : Option Ptr
  deriving DecidableEq

structure CliDef where
  cells : Cells Command
  commandsRoot : Option Ptr
  commandsCurrent : Option Ptr
  deriving DecidableEq

def CliDef.empty : CliDef where
  cells := []
  commandsRoot := none
  commandsCurrent := none

/-! Strings. -/

/-- `tolower` of the C locale. -/
def toLower (c : Byte) : Byte := if 0x41 ≤ c ∧ c ≤ 0x5a then c + 0x20 else c

/-- Whether `strncasecmp` gives 0. -/
def strncasecmpZero : List Byte → List Byte → Nat → Bool
  | _, _, 0 => true
  | [], [], _ + 1 => true
  | a :: as, b :: bs, n + 1 => decide (toLower a = toLower b) && strncasecmpZero as bs n
  | [], _ :: _, _ + 1 => false
  | _ :: _, [], _ + 1 => false

/-! Registering. -/

/-- `for (p = first; p && p->next; p = p->next);` -/
def lastSibling (cells : Cells Command) : Nat → Ptr → Option Ptr
  | 0, _ => none
  | fuel + 1, p => (cells.read p).bind (fun node => node.next.elim (some p) (lastSibling cells fuel))

def setNext (next : Option Ptr) (node : Command) : Command := { node with next := next }

def setChildren (children : Option Ptr) (node : Command) : Command := { node with children := children }

/-- The arguments of a registration, and where the memory for it is, if there is any. -/
structure Registration where
  parent : Option Ptr
  command : Option CString
  callback : Option Callback
  mode : Nat
  memory : Option Ptr

def Registration.cell (registration : Registration) (command : CString) : Command where
  command := command
  callback := registration.callback.getD .dummyCallback
  uniqueLen := 0
  mode := registration.mode
  next := none
  children := none
  parent := registration.parent

/-- The cell it gives, if it gives one. -/
def Registration.new (registration : Registration) : Option Ptr :=
  registration.command.bind (fun _ => registration.memory)

/-- The new cell is hung behind the last child of its parent. -/
def linkCommand (cli : CliDef) (parent : Option Ptr) (c : Ptr) : Option CliDef :=
  match parent with
  | some owner =>
      (cli.cells.read owner).bind (fun node =>
        match node.children with
        | none => some { cli with cells := cli.cells.update owner (setChildren (some c)) }
        | some first =>
            (lastSibling cli.cells cli.cells.length first).map (fun p =>
              { cli with cells := cli.cells.update p (setNext (some c)) }))
  | none =>
      match cli.commandsRoot with
      | none => some { cli with commandsRoot := some c, commandsCurrent := some c }
      | some first =>
          (lastSibling cli.cells cli.cells.length first).map (fun p =>
            { cli with cells := cli.cells.update p (setNext (some c)) })

def cliRegisterCommand2 (cli : CliDef) (registration : Registration) : Option (CliDef × Option Ptr) :=
  match registration.command, registration.memory with
  | some command, some c =>
      (linkCommand { cli with cells := cli.cells.alloc c (registration.cell command) }
        registration.parent c).map (fun cli => (cli, some c))
  | _, _ => some (cli, none)

/-- `len` behind `while (*cp && *pp && *cp++ == *pp++) len++;` -/
def matchLen : List Byte → List Byte → Nat
  | c :: cs, p :: ps => if c = p then matchLen cs ps + 1 else 1
  | _, _ => 1

/-- The inner loop of `cli_build_shortest`. -/
def longestMatch (cells : Cells Command) (c : Ptr) (name : List Byte) :
    Nat → Option Ptr → Nat → Option Nat
  | _, none, uniqueLen => some uniqueLen
  | 0, some _, _ => none
  | fuel + 1, some p, uniqueLen =>
      (cells.read p).bind (fun node =>
        if c = p then longestMatch cells c name fuel node.next uniqueLen
        else
          let len := matchLen name node.command.val
          longestMatch cells c name fuel node.next (if uniqueLen < len then len else uniqueLen))

def setUniqueLen (uniqueLen : Nat) (node : Command) : Command := { node with uniqueLen := uniqueLen }

/-- The loop of `cli_build_shortest` over the list that begins at `commands`. -/
def buildShortestLoop : Nat → Option Ptr → Option Ptr → Cells Command → Option (Cells Command)
  | _, _, none, cells => some cells
  | 0, _, some _, _ => none
  | fuel + 1, commands, some c, cells =>
      (cells.read c).bind (fun node =>
        (longestMatch cells c node.command.val cells.length commands 1).bind (fun uniqueLen =>
          (if node.children ≠ none then
            buildShortestLoop fuel node.children node.children (cells.update c (setUniqueLen uniqueLen))
          else some (cells.update c (setUniqueLen uniqueLen))).bind (fun cells =>
            buildShortestLoop fuel commands node.next cells)))

def cliBuildShortest (cli : CliDef) (commands : Option Ptr) : Option CliDef :=
  (buildShortestLoop cli.cells.length commands commands cli.cells).map (fun cells =>
    { cli with cells := cells })

def cliRegisterCommand (cli : CliDef) (registration : Registration) : Option (CliDef × Option Ptr) :=
  (cliRegisterCommand2 cli registration).bind (fun result =>
    (cliBuildShortest result.1 result.1.commandsRoot).map (fun cli => (cli, result.2)))

/-! Deleting. -/

/-- `commands_current` when the head it points to goes: two levels up, or the root. -/
def moveCurrent (cli : CliDef) (node : Command) : Option CliDef :=
  match node.parent with
  | none => some { cli with commandsCurrent := cli.commandsRoot }
  | some owner =>
      (cli.cells.read owner).bind (fun above =>
        match above.parent with
        | none => some { cli with commandsCurrent := cli.commandsRoot }
        | some top =>
            (cli.cells.read top).bind (fun upper =>
              -- the name of the menu is taken from its first command
              upper.children.bind (fun first =>
                (cli.cells.read first).map (fun _ => { cli with commandsCurrent := upper.children }))))

/-- The branch of the loop for the head of the list. -/
def unlinkHead (cli : CliDef) (start : Option Ptr) (t : Ptr) (node : Command) : Option CliDef :=
  (if start = cli.commandsRoot then some { cli with commandsRoot := node.next }
    else node.parent.bind (fun owner =>
      (cli.cells.read owner).map (fun _ =>
        { cli with cells := cli.cells.update owner (setChildren node.next) }))).bind (fun cli =>
    if cli.commandsCurrent = some t then moveCurrent cli node else some cli)

/-- The loop over the list of the command that goes. -/
def unlinkLoop (cmd : Ptr) (start : Option Ptr) : Nat → Option Ptr → CliDef → Option CliDef
  | _, none, cli => some cli
  | 0, some _, _ => none
  | fuel + 1, some t, cli =>
      (cli.cells.read t).bind (fun node =>
        (if t = cmd ∧ some t = start then unlinkHead cli start t node else some cli).bind (fun cli =>
          if node.next = some cmd then
            (cli.cells.read cmd).bind (fun gone =>
              unlinkLoop cmd start fuel gone.next
                { cli with cells := cli.cells.update t (setNext gone.next) })
          else unlinkLoop cmd start fuel node.next cli))

mutual

def deleteCommand : Nat → CliDef → Ptr → Option CliDef
  | 0, _, _ => none
  | fuel + 1, cli, cmd =>
      (cli.cells.read cmd).bind (fun node =>
        (deleteChildren fuel cli node.children).bind (fun cli =>
          (node.parent.elim (some cli.commandsRoot) (fun owner =>
            (cli.cells.read owner).map Command.children)).bind (fun start =>
              (unlinkLoop cmd start cli.cells.length start cli).map (fun cli =>
                { cli with cells := cli.cells.free cmd }))))

/-- The loop over the children. -/
def deleteChildren : Nat → CliDef → Option Ptr → Option CliDef
  | _, cli, none => some cli
  | 0, _, some _ => none
  | fuel + 1, cli, some c =>
      (cli.cells.read c).bind (fun node =>
        (deleteCommand fuel cli c).bind (fun cli => deleteChildren fuel cli node.next))

end

def cliDeleteCommand (cli : CliDef) (cmd : Ptr) : Option CliDef :=
  deleteCommand (2 * cli.cells.length + 1) cli cmd

/-! Finding. -/

/-- The loop of `cli_find_command_ext` with its partial result. -/
def findCommandLoop (cells : Cells Command) (command : List Byte) :
    Nat → Option Ptr → Option Ptr → Option (Option Ptr)
  | _, none, n => some n
  | 0, some _, _ => none
  | fuel + 1, some p, n =>
      (cells.read p).bind (fun node =>
        if node.command.val = command then some (some p)
        else
          (if node.children ≠ none then findCommandLoop cells command fuel node.children none
            else some n).bind (fun n => findCommandLoop cells command fuel node.next n))

def cliFindCommand (cli : CliDef) (command : List Byte) : Option (Option Ptr) :=
  findCommandLoop cli.cells command cli.cells.length cli.commandsRoot none

def cliUnregisterCommand (cli : CliDef) (command : Option (List Byte)) : Option (CliDef × Int) :=
  match command with
  | none => some (cli, -1)
  | some command =>
      if cli.commandsRoot = none then some (cli, cliOk)
      else (cliFindCommand cli command).bind (fun found =>
        match found with
        | none => some (cli, -1)
        | some c => (cliDeleteCommand cli c).map (fun cli => (cli, cliOk)))

/-! Menus. -/

def cliExit (cli : CliDef) : Option (CliDef × Int) :=
  cli.commandsCurrent.bind (fun first =>
    (cli.cells.read first).bind (fun node =>
      match node.parent with
      | none => some (cli, cliQuit)
      | some owner =>
          (cli.cells.read owner).bind (fun above =>
            match above.parent with
            | none => some ({ cli with commandsCurrent := cli.commandsRoot }, cliOk)
            | some top =>
                (cli.cells.read top).bind (fun upper =>
                  -- the name of the menu is taken from its first command
                  upper.children.bind (fun first =>
                    (cli.cells.read first).map (fun _ =>
                      ({ cli with commandsCurrent := upper.children }, cliOk)))))))

/-- The loop of `cli_find_command2` up to the command it takes. -/
def selectCommand (cells : Cells Command) (mode : Nat) (word : List Byte) :
    Nat → Option Ptr → Option (Option Ptr)
  | _, none => some none
  | 0, some _ => none
  | fuel + 1, some c =>
      (cells.read c).bind (fun node =>
        if node.mode ≠ mode then selectCommand cells mode word fuel node.next
        else if strncasecmpZero node.command.val word node.uniqueLen = false then
          selectCommand cells mode word fuel node.next
        else if strncasecmpZero node.command.val word word.length = false then
          selectCommand cells mode word fuel node.next
        else some (some c))

/-- A callback of the application answers as it likes and leaves the tree alone. -/
def runCallback (answers : Ptr → Int) (cli : CliDef) (c : Ptr) (node : Command) :
    Option (CliDef × Int) :=
  match node.callback with
  | .cliExit => cliExit cli
  | .user => some (cli, answers c)
  | .dummyCallback => some (cli, cliOk)
  | .cliHelp => some (cli, cliOk)
  | .cliHistory => some (cli, cliOk)

/-- From `CORRECT_CHECKS` on. -/
def runCommand (answers : Ptr → Int) (cli : CliDef) (c : Ptr) (node : Command) :
    Option (CliDef × Int) :=
  runCallback answers
    (if node.children ≠ none then { cli with commandsCurrent := node.children } else cli) c node

/-- The byte before an empty word is not its own. -/
def cliFindCommand2 (answers : Ptr → Int) (mode : Nat) :
    List CString → CliDef → Option Ptr → Option (CliDef × Int)
  | [], cli, _ => some (cli, cliError)
  | word :: words, cli, commands =>
      if word.val = [] then none
      else if word.val.getLast? = some 0x3f then some (cli, cliOk)
      else
        (selectCommand cli.cells mode word.val cli.cells.length commands).bind (fun selected =>
          match selected with
          | none => some (cli, cliErrorArg)
          | some c =>
              (cli.cells.read c).bind (fun node =>
                if node.children = none ∨ words = [] then runCommand answers cli c node
                else
                  (cliFindCommand2 answers mode words cli node.children).bind (fun result =>
                    if result.2 = cliErrorArg then runCommand answers result.1 c node
                    else some result)))

/-- `_cli_run_command` behind `cli_parse_line`: the menu first, then the commands for all menus. -/
def cliRunCommand (answers : Ptr → Int) (cli : CliDef) (words : List CString) :
    Option (CliDef × Int) :=
  (cliFindCommand2 answers cliCmdModeSelf words cli cli.commandsCurrent).bind (fun result =>
    if result.2 ≠ cliOk then
      cliFindCommand2 answers cliCmdModeAll words result.1 result.1.commandsRoot
    else some result)

end Alisl.Cli
