import Alisl.Base.Machine
import Mathlib.Tactic

/-! The partitions of `/proc/mtd` and the table of handles of the MTD devices. -/

namespace Alisl.Storage

open Alisl.Base

/-- The lines `fgets` gives with a buffer of 256 bytes; the second argument is the line so far,
last character first. -/
def fgets : List Char → List Char → List (List Char)
  | [], [] => []
  | [], c :: line => [(c :: line).reverse]
  | c :: text, line =>
      if c = '\n' ∨ line.length = 254 then (c :: line).reverse :: fgets text []
      else fgets text (c :: line)

def strstr (needle : List Char) : List Char → Option (List Char)
  | [] => if needle = [] then some [] else none
  | c :: text => if needle.isPrefixOf (c :: text) then some (c :: text) else strstr needle text

def strchr (text : List Char) (c : Char) : Option (List Char) :=
  if c ∈ text then some (text.dropWhile (fun other => other ≠ c)) else none

def decimal (text : List Char) : Int :=
  (text.takeWhile Char.isDigit).foldl (fun n c => 10 * n + (c.toNat - '0'.toNat : Nat)) 0

def atoi (text : List Char) : Int :=
  match text.dropWhile Char.isWhitespace with
  | '-' :: digits => -decimal digits
  | '+' :: digits => decimal digits
  | digits => decimal digits

def nameMax : Nat := 255

structure PartInfo where
  name : List Char
  index : Int
  deriving DecidableEq, Repr

/-- One line of `/proc/mtd`: a line without `mtd` is skipped, and a missing colon or quote makes
the code follow a NULL pointer. -/
def parseLine (line : List Char) : Option (Option PartInfo) :=
  match strstr ['m', 't', 'd'] line with
  | none => some none
  | some found =>
      let start := found.drop 3
      (strchr start ':').bind (fun colon =>
        if colon.length < 2 then none
        else (strchr (colon.drop 2) '"').map (fun quote =>
          some ⟨((quote.drop 1).take (nameMax - 1)).takeWhile (fun c => c ≠ '"'), atoi start⟩))

def procMtd (text : List Char) : Option (List PartInfo) :=
  ((fgets text []).mapM parseLine).map (fun lines => lines.filterMap id)

example : procMtd ("dev:    size   erasesize  name\nmtd0: 00080000 00020000 \"boot\"\n" ++
    "mtd3: 00400000 00020000 \"kernel\"\n").toList =
      some [⟨"boot".toList, 0⟩, ⟨"kernel".toList, 3⟩] := by decide +kernel

inductive Ret where
  | none
  | invalidParam
  | invalidHandle
  | mem
  | driver
  deriving DecidableEq, Repr

/-- A device that is constructed and whose descriptor is open on `/dev/mtd`. -/
structure Dev where
  mtd : Int
  openCnt : Nat
  deriving DecidableEq, Repr

/-- What the last call has returned, and `*handle` after it. -/
inductive Result where
  | nothing
  | opened (index : Int) (ret : Ret) (handle : Option Nat)
  | named (name : List Char) (ret : Ret) (handle : Option Nat)
  | closed (ret : Ret)
  deriving DecidableEq, Repr

/-- `partinfo_list`, `handle_list` and the devices behind the handles. The accesses to
`handle_list.list` with its count, the successful opens and the closes of each device and the
last result are only recorded; `wild` says that an access was out of bounds. -/
structure Table where
  partinfo : Nat → PartInfo
  partCount : Nat
  list : Nat → Option Nat
  count : Nat
  dev : Nat → Option Dev
  fresh : Nat
  accesses : List (Int × Nat)
  opens : Int → Nat
  closes : Int → Nat
  result : Result
  wild : Bool

/-- What the calls into the system answer: `fopen`, the `realloc` of the partition list (the
first one that fails), that of the handle list, `malloc`, `alislsto_construct` and `open`. -/
structure Answers where
  fopen : Bool
  partFails : Option Nat
  handleList : Bool
  path : Bool
  construct : Bool
  opened : Bool
  deriving DecidableEq, Repr

namespace Table

/-- How many of the partitions are read before a `realloc` fails. -/
def fits (partFails : Option Nat) (n : Nat) : Nat :=
  match partFails with
  | none => n
  | some k => min n (10 * k)

/-- `alislsto_get_partinfo`. -/
def getPartinfo (text : List Char) (answers : Answers) (table : Table) : Option Table :=
  if ¬ answers.fopen then some table
  else (procMtd text).map (fun parts =>
    let partCount := fits answers.partFails parts.length
    let read :=
      { table with
        partCount
        partinfo := fun i => if i < partCount then (parts[i]?).getD ⟨[], 0⟩ else table.partinfo i }
    if partCount < parts.length ∨ parts.length = 0 then read
    else if table.count < parts.length ∧ answers.handleList then
      { read with
        list := fun i => if table.count ≤ i ∧ i < parts.length then none else table.list i
        count := parts.length }
    else read)

/-- A new handle in an entry of the list. -/
def enter (i : Nat) (table : Table) : Table :=
  { table with
    list := Function.update table.list i (some table.fresh)
    dev := Function.update table.dev table.fresh (some ⟨i, 1⟩)
    fresh := table.fresh + 1
    opens := Function.update table.opens i (table.opens i + 1) }

/-- A device that is not open yet. -/
def openNew (answers : Answers) (i : Nat) (table : Table) : Ret × Option Nat × Table :=
  if ¬ answers.path then (.mem, none, table)
  else if ¬ answers.construct then (.invalidHandle, none, table)
  else if ¬ answers.opened then (.invalidHandle, none, table)
  else (.none, some table.fresh, table.enter i)

/-- One more open of a device that is open. -/
def share (h : Nat) (dev : Dev) (table : Table) : Table :=
  { table with
    dev := Function.update table.dev h (some { dev with openCnt := dev.openCnt + 1 })
    opens := Function.update table.opens dev.mtd (table.opens dev.mtd + 1) }

def tooLarge (table : Table) (index : Int) : Prop := table.count = 0 ∨ index > table.count

instance (table : Table) (index : Int) : Decidable (table.tooLarge index) :=
  inferInstanceAs (Decidable (_ ∨ _))

/-- `alislsto_mtd_open`; the second result is what is written to `*handle`. -/
def mtdOpen (text : List Char) (answers : Answers) (index : Int) (table : Table) :
    Option (Ret × Option Nat × Table) :=
  (if table.tooLarge index then table.getPartinfo text answers else some table).bind
    (fun scanned =>
      if scanned.tooLarge index then some (.invalidParam, none, scanned)
      else
        let seen := { scanned with accesses := (index, scanned.count) :: scanned.accesses }
        -- what lies behind the bounds of the array is not modelled
        if index < 0 ∨ index = scanned.count then
          some (.invalidHandle, none, { seen with wild := true })
        else
          let i := index.toNat
          match seen.list i with
          | none => some (seen.openNew answers i)
          | some h =>
              (seen.dev h).map (fun dev =>
                if dev.openCnt ≠ 0 then (.none, some h, seen.share h dev)
                else seen.openNew answers i))

/-- The first partition of that name. -/
def findName (table : Table) (name : List Char) : Option Nat :=
  (List.range table.partCount).find? (fun i => name = (table.partinfo i).name)

/-- `alislsto_mtd_open_by_name`, with `*handle` before the call. -/
def mtdOpenByName (text : List Char) (answers again : Answers) (name : List Char)
    (handle : Option Nat) (table : Table) : Option (Ret × Option Nat × Table) :=
  (if table.partCount = 0 then table.getPartinfo text answers else some table).bind
    (fun scanned =>
      match scanned.findName name with
      | none => some (.driver, handle, scanned)
      | some i =>
          (scanned.mtdOpen text again i).map (fun result =>
            (.none, result.2.1 <|> handle, result.2.2)))

def countClose (mtd : Int) (table : Table) : Table :=
  { table with closes := Function.update table.closes mtd (table.closes mtd + 1) }

/-- A close that is not the last one. -/
def release (h : Nat) (dev : Dev) (table : Table) : Table :=
  { table with
    dev := Function.update table.dev h (some { dev with openCnt := dev.openCnt - 1 }) }

/-- The last close: the loop over the handle list and `alislsto_destruct`. -/
def drop (h : Nat) (table : Table) : Table :=
  { table with
    list := fun i => if i < table.count ∧ table.list i = some h then none else table.list i
    dev := Function.update table.dev h none
    accesses := (List.range table.count).map (fun i : Nat => ((i : Int), table.count)) ++
      table.accesses }

/-- `alislsto_mtd_close`; a handle that was freed must not be used. -/
def mtdClose (handle : Option Nat) (table : Table) : Option (Ret × Table) :=
  match handle with
  | none => some (.invalidParam, table)
  | some h =>
      (table.dev h).map (fun dev =>
        if dev.openCnt = 0 then (.none, table)
        else if dev.openCnt - 1 ≠ 0 then (.none, (table.countClose dev.mtd).release h dev)
        else (.none, (table.countClose dev.mtd).drop h))

def zero : Table where
  partinfo := fun _ => ⟨[], 0⟩
  partCount := 0
  list := fun _ => none
  count := 0
  dev := fun _ => none
  fresh := 0
  accesses := []
  opens := fun _ => 0
  closes := fun _ => 0
  result := .nothing
  wild := false

end Table

inductive TableLabel where
  | mtdOpen (index : Int) (answers : Answers)
  | mtdOpenByName (name : List Char) (handle : Option Nat) (answers again : Answers)
  | mtdClose (handle : Option Nat)
  deriving DecidableEq, Repr

def Table.step (text : List Char) (table : Table) (label : TableLabel) : Option Table :=
  if table.wild then none
  else match label with
    | .mtdOpen index answers =>
        (table.mtdOpen text answers index).map (fun result =>
          { result.2.2 with result := .opened index result.1 result.2.1 })
    | .mtdOpenByName name handle answers again =>
        (table.mtdOpenByName text answers again name handle).map (fun result =>
          { result.2.2 with result := .named name result.1 result.2.1 })
    | .mtdClose handle =>
        (table.mtdClose handle).map (fun result => { result.2 with result := .closed result.1 })

/-- The calls of a process on one content of `/proc/mtd`. -/
def mtdTable (text : List Char) : Machine Table TableLabel where
  Initial table := table = .zero
  next := Table.step text

end Alisl.Storage
