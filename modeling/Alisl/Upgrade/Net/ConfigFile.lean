import Mathlib.Data.List.TakeWhile
import Alisl.Base.Bytes

/-! The configuration file of an upgrade over the network, `check_url_config_file` of net.c: lines of
fields, cut in place by `_strsep`. The last line with three fields names the package. -/

namespace Alisl.Upgrade.Net.ConfigFile

open Alisl.Base

/-! ### Strings in memory -/

/-- The loop of `_strsep` from `tmp2` on: where the delimiter is, if one comes before the end of the
string. Behind the last cell there is no memory. -/
def scan (delim : List Byte) : List Byte → Nat → Option (Option Nat)
  | [], _ => none
  | c :: rest, tmp2 =>
      if c = 0 then some none
      else if c ∈ delim then some (some tmp2)
      else scan delim rest (tmp2 + 1)

/-- `_strsep`: the cells, `*stringp` and the token; `none` is a read where no memory is. -/
def strsep (delim : List Byte) (cells : List Byte) :
    Option Nat → Option (List Byte × Option Nat × Option Nat)
  | none => some (cells, none, none)
  | some tmp =>
      (scan delim (cells.drop tmp) tmp).map (fun found =>
        found.elim (cells, none, some tmp) (fun tmp2 => (cells.set tmp2 0, some (tmp2 + 1), some tmp)))

/-- The string at a position. -/
def cString (cells : List Byte) (at_ : Nat) : Option (List Byte) :=
  if 0 ∈ cells.drop at_ then some ((cells.drop at_).takeWhile (fun c => c ≠ 0)) else none

def strncpy (size : Nat) (text : List Byte) : List Byte := (text ++ List.replicate size 0).take size

/-! ### The file -/

def semicolon : Byte := 0x3b
def equals : Byte := 0x3d
def newline : Byte := 0x0a
def slash : Byte := 0x2f

/-- The size of `stmpver` and `stmpfile`, and that of `upgfile_url` of the caller. -/
def stmpSize : Nat := 256
def urlSize : Nat := 1024

/-- The loop over the items, of which there are up to so many. -/
def itemLoop : Nat → List Byte → Option Nat → Option (List Byte × List Nat)
  | 0, cells, _ => some (cells, [])
  | n + 1, cells, line =>
      (strsep [semicolon] cells line).bind (fun (cells, line, token) =>
        token.elim (some (cells, [])) (fun token =>
          (itemLoop n cells line).map (fun (cells, sitems) => (cells, token :: sitems))))

/-- `check_config_item`: the cells, and `sfile` if there are enough items. The version is copied to
`sver`, which nothing reads. -/
def checkConfigItem (cells : List Byte) (line : Nat) : Option (List Byte × Option (List Byte)) :=
  (itemLoop 3 cells (some line)).bind (fun (cells, sitems) =>
    match sitems with
    | [model, _, file] =>
        (strsep [equals] cells (some model)).bind (fun (cells, _, _) =>
          (cString cells file).map (fun text => (cells, some (strncpy stmpSize text))))
    | _ => some (cells, none))

/-- The loop over the lines. -/
def lineLoop : Nat → List Byte → Option Nat → Option (List Byte) → Option (Option (List Byte))
  | 0, _, _, _ => none
  | fuel + 1, cells, downBuf, sfile =>
      (strsep [newline] cells downBuf).bind (fun (cells, downBuf, line) =>
        line.elim (some sfile) (fun line =>
          (checkConfigItem cells line).bind (fun (cells, item) =>
            lineLoop fuel cells downBuf (item.or sfile))))

/-- The walk of `get_url_from_configurl` back to a slash. -/
def backToSlash (configurl : List Byte) : Nat → Nat
  | 0 => 0
  | pos + 1 => if configurl.getD (pos + 1) 0 = slash then pos + 1 else backToSlash configurl pos

/-- `get_url_from_configurl`: the string in `url`, whose array must have room. -/
def getUrlFromConfigurl (configurl : List Byte) : Option (List Byte) :=
  let pos := backToSlash configurl configurl.length
  if pos + 1 < urlSize then
    some (((configurl ++ [0]).take (pos + 1)).takeWhile (fun c => c ≠ 0))
  else none

/-- `strcat` to `upgfile_url`. -/
def strcat (url sfile : List Byte) : Option (List Byte) :=
  (cString sfile 0).bind (fun text =>
    if url.length + text.length < urlSize then some (url ++ text) else none)

/-- `check_url_config_file` with what `down_buf` holds after the download, if there was one, and the
cells behind it: the string in `upgfile_url`, or `some none` for an error. `none` is an access outside
of memory or of an array. -/
def checkUrlConfigFile (confileUrl : List Byte) (download : Option (List Byte)) (behind : List Byte) :
    Option (Option (List Byte)) :=
  download.elim (some none) (fun file =>
    (lineLoop ((file ++ behind).length + 2) (file ++ behind) (some 0) none).bind (fun sfile =>
      sfile.elim (some none) (fun sfile =>
        (getUrlFromConfigurl confileUrl).bind (fun url => (strcat url sfile).map some))))

/-! ### What a line gives -/

/-- The third field of a line. -/
def fileOf (line : List Byte) : Option (List Byte) := (line.splitOn semicolon)[2]?

def lastFile (lines : List (List Byte)) : Option (List Byte) := (lines.filterMap fileOf).getLast?

/-! ### Cutting -/

section Cut

variable {delim front text tail : List Byte}

theorem scan_plain (plain : ∀ c ∈ text, c ≠ 0 ∧ c ∉ delim) (rest : List Byte) (tmp2 : Nat) :
    scan delim (text ++ rest) tmp2 = scan delim rest (tmp2 + text.length) := by
  induction text generalizing tmp2 with
  | nil => rfl
  | cons c text ih =>
      rw [List.forall_mem_cons] at plain
      rw [List.cons_append, scan, if_neg plain.1.1, if_neg plain.1.2, ih plain.2, List.length_cons]
      congr 1
      omega

/-- The string ends before a delimiter comes. -/
theorem strsep_last (plain : ∀ c ∈ text, c ≠ 0 ∧ c ∉ delim) :
    strsep delim (front ++ (text ++ 0 :: tail)) (some front.length) =
      some (front ++ (text ++ 0 :: tail), none, some front.length) := by
  rw [strsep, List.drop_left, scan_plain plain, scan, if_pos rfl]
  rfl

/-- The delimiter becomes the end of the string. -/
theorem set_cut (front text tail : List Byte) (c : Byte) :
    (front ++ (text ++ c :: tail)).set (front.length + text.length) 0 =
      front ++ (text ++ 0 :: tail) := by
  rw [List.set_append_right _ _ (Nat.le_add_right _ _), Nat.add_sub_cancel_left,
    List.set_append_right _ _ (Nat.le_refl _), Nat.sub_self]
  rfl

theorem strsep_cut (front tail : List Byte) (plain : ∀ c ∈ text, c ≠ 0 ∧ c ∉ delim) {c : Byte}
    (some_ : c ≠ 0) (cuts : c ∈ delim) :
    strsep delim (front ++ (text ++ c :: tail)) (some front.length) =
      some (front ++ (text ++ 0 :: tail), some (front.length + text.length + 1),
        some front.length) := by
  rw [strsep, List.drop_left, scan_plain plain, scan, if_neg some_, if_pos cuts,
    ← set_cut front text tail c]
  rfl

/-- No end and no delimiter comes. -/
theorem strsep_fault (plain : ∀ c ∈ text, c ≠ 0 ∧ c ∉ delim) :
    strsep delim (front ++ text) (some front.length) = none := by
  have all := scan_plain plain [] front.length
  rw [List.append_nil] at all
  rw [strsep, List.drop_left, all]
  rfl

theorem cString_at (front tail : List Byte) (solid : 0 ∉ text) :
    cString (front ++ (text ++ 0 :: tail)) front.length = some text := by
  have whole : (text ++ 0 :: tail).takeWhile (fun c => c ≠ 0) = text := by
    rw [List.takeWhile_append_of_pos]
    · rw [List.takeWhile_cons_of_neg (by simp), List.append_nil]
    · intro c member
      rw [decide_eq_true_iff]
      rintro rfl
      exact solid member
  rw [cString, List.drop_left, if_pos (List.mem_append_right _ List.mem_cons_self), whole]

end Cut

/-! ### A line -/

/-- A string stands at a position. -/
def StringAt (cells : List Byte) (at_ : Nat) (text : List Byte) : Prop :=
  0 ∉ text ∧ ∃ front tail, cells = front ++ (text ++ 0 :: tail) ∧ front.length = at_

/-- Where fields begin that stand one behind the other. -/
def offsets : Nat → List (List Byte) → List Nat
  | _, [] => []
  | at_, field :: fields => at_ :: offsets (at_ + field.length + 1) fields

theorem StringAt.cString {cells text : List Byte} {at_ : Nat} (stands : StringAt cells at_ text) :
    ConfigFile.cString cells at_ = some text := by
  obtain ⟨solid, front, tail, whole, length⟩ := stands
  rw [whole, ← length]
  exact cString_at front tail solid

/-- What is written in front of a string leaves it. -/
theorem StringAt.set {cells text : List Byte} {at_ k : Nat} (stands : StringAt cells at_ text)
    (before : k < at_) : StringAt (cells.set k 0) at_ text := by
  obtain ⟨solid, front, tail, whole, length⟩ := stands
  refine ⟨solid, front.set k 0, tail, ?_, ?_⟩
  · rw [whole, List.set_append_left _ _ (by omega)]
  · rw [List.length_set, length]

theorem solid_parts {field rest : List Byte} {sep : Byte} (solid : 0 ∉ field ++ sep :: rest) :
    0 ∉ field ∧ 0 ∉ rest :=
  ⟨fun zero => solid (List.mem_append_left _ zero),
    fun zero => solid (List.mem_append_right _ (List.mem_cons_of_mem _ zero))⟩

theorem plain_of_not_mem {text : List Byte} {sep : Byte} (solid : 0 ∉ text) (none_ : sep ∉ text) :
    ∀ c ∈ text, c ≠ 0 ∧ c ∉ [sep] := by
  intro c member
  refine ⟨?_, ?_⟩
  · rintro rfl
    exact solid member
  · rw [List.mem_singleton]
    rintro rfl
    exact none_ member

/-- Cutting a string writes into it, at most. -/
theorem StringAt.strsep {cells text : List Byte} {at_ : Nat} {sep : Byte}
    (stands : StringAt cells at_ text) (some_ : sep ≠ 0) :
    ∃ after next, ConfigFile.strsep [sep] cells (some at_) = some (after, next, some at_) ∧
      (after = cells ∨ ∃ k, at_ ≤ k ∧ k < at_ + text.length ∧ after = cells.set k 0) := by
  obtain ⟨solid, front, tail, whole, length⟩ := stands
  subst whole
  subst length
  by_cases cuts : sep ∈ text
  · obtain ⟨field, rest, split_, before⟩ := List.eq_append_cons_of_mem cuts
    subst split_
    have plain := plain_of_not_mem (solid_parts solid).1 before
    refine ⟨_, some (front.length + field.length + 1), ?_,
      .inr ⟨front.length + field.length, Nat.le_add_right _ _, ?_, rfl⟩⟩
    · have cut := strsep_cut front (rest ++ 0 :: tail) plain some_
        (List.mem_singleton_self sep)
      rw [List.append_assoc, List.cons_append, cut, set_cut]
    · rw [List.length_append, List.length_cons]
      omega
  · exact ⟨_, _, strsep_last (plain_of_not_mem solid cuts), .inl rfl⟩

theorem itemLoop_none (n : Nat) (cells : List Byte) : itemLoop n cells none = some (cells, []) := by
  cases n with
  | zero => rfl
  | succ n => rfl

/-- The items are the first fields of the line, each a string of its own. -/
theorem itemLoop_laid (n : Nat) {text : List Byte} (front tail : List Byte) (solid : 0 ∉ text) :
    ∃ after, after.length = text.length ∧
      itemLoop n (front ++ (text ++ 0 :: tail)) (some front.length) =
        some (front ++ (after ++ 0 :: tail),
          offsets front.length ((text.splitOn semicolon).take n)) ∧
      List.Forall₂ (StringAt (front ++ (after ++ 0 :: tail)))
        (offsets front.length ((text.splitOn semicolon).take n))
        ((text.splitOn semicolon).take n) := by
  induction n generalizing front text with
  | zero => exact ⟨text, rfl, rfl, .nil⟩
  | succ n ih =>
      by_cases cuts : semicolon ∈ text
      · obtain ⟨field, rest, split_, before⟩ := List.eq_append_cons_of_mem cuts
        subst split_
        obtain ⟨fieldSolid, restSolid⟩ := solid_parts solid
        obtain ⟨after, length, ran, laid⟩ := ih (front ++ (field ++ [0])) restSolid
        have cells (text : List Byte) : front ++ (field ++ [0]) ++ (text ++ 0 :: tail) =
            front ++ ((field ++ 0 :: text) ++ 0 :: tail) := by simp
        have place : (front ++ (field ++ [0])).length = front.length + field.length + 1 := by
          simp [Nat.add_assoc]
        rw [cells, cells, place] at ran
        rw [cells, place] at laid
        have cut := strsep_cut front (rest ++ 0 :: tail)
          (plain_of_not_mem fieldSolid before) (by decide : semicolon ≠ 0)
          (List.mem_singleton_self semicolon)
        rw [List.splitOn_append_cons_self_of_not_mem before, List.take_succ_cons, offsets]
        refine ⟨field ++ 0 :: after, ?_, ?_, .cons ?_ laid⟩
        · rw [List.length_append, List.length_append, List.length_cons, List.length_cons, length]
        · rw [itemLoop, List.append_assoc field, List.cons_append, cut, Option.bind_some]
          rw [List.append_assoc field, List.cons_append] at ran
          show (itemLoop n (front ++ (field ++ 0 :: (rest ++ 0 :: tail)))
            (some (front.length + field.length + 1))).map _ = _
          rw [ran]
          rfl
        · refine ⟨fieldSolid, front, after ++ 0 :: tail, ?_, rfl⟩
          rw [List.append_assoc field, List.cons_append]
      · rw [List.splitOn_eq_singleton cuts, List.take_succ_cons, List.take_nil]
        refine ⟨text, rfl, ?_, .cons ⟨solid, front, tail, rfl, rfl⟩ .nil⟩
        rw [itemLoop, strsep_last (plain_of_not_mem solid cuts), Option.bind_some]
        show (itemLoop n _ none).map _ = _
        rw [itemLoop_none]
        rfl

theorem head_splitOn_le {text field : List Byte} {fields : List (List Byte)} {sep : Byte}
    (splits : text.splitOn sep = field :: fields) : field.length ≤ text.length := by
  by_cases cuts : sep ∈ text
  · obtain ⟨first, rest, split_, before⟩ := List.eq_append_cons_of_mem cuts
    rw [split_, List.splitOn_append_cons_self_of_not_mem before, List.cons.injEq] at splits
    rw [split_, ← splits.1, List.length_append]
    exact Nat.le_add_right _ _
  · rw [List.splitOn_eq_singleton cuts, List.cons.injEq] at splits
    rw [splits.1]

/-- A line gives its third field, and is only written into. -/
theorem checkConfigItem_reads {text : List Byte} (front tail : List Byte) (solid : 0 ∉ text) :
    ∃ after, after.length = text.length ∧
      checkConfigItem (front ++ (text ++ 0 :: tail)) front.length =
        some (front ++ (after ++ 0 :: tail), (fileOf text).map (strncpy stmpSize)) := by
  obtain ⟨after, length, ran, laid⟩ := itemLoop_laid 3 front tail solid
  rw [checkConfigItem, ran, Option.bind_some, fileOf]
  rcases splits : text.splitOn semicolon with _ | ⟨model, _ | ⟨version, _ | ⟨file, more⟩⟩⟩
  · exact absurd splits (List.splitOn_ne_nil _ _)
  · exact ⟨after, length, rfl⟩
  · exact ⟨after, length, rfl⟩
  · rw [splits] at laid
    obtain ⟨modelAt, _, fileAt⟩ :
        StringAt _ _ model ∧ StringAt _ _ version ∧ StringAt _ _ file := by
      simpa [offsets] using laid
    have short := head_splitOn_le splits
    obtain ⟨cut, next, cuts, writes⟩ := modelAt.strsep (by decide : equals ≠ 0)
    rcases writes with same | ⟨k, low, high, written⟩
    · refine ⟨after, length, ?_⟩
      show (strsep [equals] _ (some front.length)).bind _ = _
      rw [cuts, Option.bind_some, same]
      show (cString _ _).map _ = _
      rw [fileAt.cString]
      rfl
    · refine ⟨after.set (k - front.length) 0, ?_, ?_⟩
      · rw [List.length_set, length]
      · have place : (front ++ (after ++ 0 :: tail)).set k 0 =
            front ++ (after.set (k - front.length) 0 ++ 0 :: tail) := by
          rw [List.set_append_right _ _ low, List.set_append_left _ _ (by omega)]
        show (strsep [equals] _ (some front.length)).bind _ = _
        rw [cuts, Option.bind_some, written]
        show (cString _ _).map _ = _
        rw [(fileAt.set (by omega)).cString, place]
        rfl

/-! ### The lines -/

theorem lastFile_cons (line : List Byte) (lines : List (List Byte)) :
    lastFile (line :: lines) = (lastFile lines).or (fileOf line) := by
  rw [lastFile, lastFile, List.filterMap_cons]
  cases fileOf line with
  | none => exact Option.or_none.symm
  | some file =>
      rw [List.getLast?_cons]
      cases (lines.filterMap fileOf).getLast? with
      | none => rfl
      | some later => rfl

theorem lastFile_append (front back : List (List Byte)) :
    lastFile (front ++ back) = (lastFile back).or (lastFile front) := by
  rw [lastFile, lastFile, lastFile, List.filterMap_append, List.getLast?_append]

/-- The loop takes the last line with three fields. -/
theorem lineLoop_reads (fuel : Nat) {text : List Byte} (front tail : List Byte)
    (sfile : Option (List Byte)) (solid : 0 ∉ text) (enough : text.length + 2 ≤ fuel) :
    lineLoop fuel (front ++ (text ++ 0 :: tail)) (some front.length) sfile =
      some (((lastFile (text.splitOn newline)).map (strncpy stmpSize)).or sfile) := by
  induction fuel generalizing front text sfile with
  | zero => omega
  | succ fuel ih =>
      by_cases cuts : newline ∈ text
      · obtain ⟨line, rest, split_, before⟩ := List.eq_append_cons_of_mem cuts
        subst split_
        obtain ⟨lineSolid, restSolid⟩ := solid_parts solid
        have cut := strsep_cut front (rest ++ 0 :: tail)
          (plain_of_not_mem lineSolid before) (by decide : newline ≠ 0)
          (List.mem_singleton_self newline)
        obtain ⟨after, length, item⟩ := checkConfigItem_reads front (rest ++ 0 :: tail) lineSolid
        have cells : front ++ (after ++ 0 :: (rest ++ 0 :: tail)) =
            (front ++ (after ++ [0])) ++ (rest ++ 0 :: tail) := by simp
        have place : front.length + line.length + 1 = (front ++ (after ++ [0])).length := by
          simp [length, Nat.add_assoc]
        rw [List.length_append, List.length_cons] at enough
        have later := ih (front ++ (after ++ [0]))
          (((fileOf line).map (strncpy stmpSize)).or sfile) restSolid (by omega)
        rw [lineLoop, List.append_assoc line, List.cons_append, cut, Option.bind_some]
        show (checkConfigItem _ front.length).bind _ = _
        rw [item, Option.bind_some]
        show lineLoop fuel _ _ _ = _
        rw [cells, place, later, List.splitOn_append_cons_self_of_not_mem before, lastFile_cons,
          Option.map_or, Option.or_assoc]
      · obtain ⟨after, _, item⟩ := checkConfigItem_reads front tail solid
        obtain ⟨fuel, rfl⟩ : ∃ less, fuel = less + 1 := ⟨fuel - 1, by omega⟩
        rw [lineLoop, strsep_last (plain_of_not_mem solid cuts), Option.bind_some]
        show (checkConfigItem _ front.length).bind _ = _
        rw [item, Option.bind_some, List.splitOn_eq_singleton cuts, lastFile_cons]
        rfl

/-! ### The address -/

section Address

variable {folder name : List Byte}

theorem backToSlash_folder (last : slash ∉ name) (k : Nat) (inside : k ≤ name.length + 1) :
    backToSlash (folder ++ slash :: name) (folder.length + k) = folder.length := by
  induction k with
  | zero =>
      rw [Nat.add_zero]
      cases length : folder.length with
      | zero => rfl
      | succ pos =>
          have here : (folder ++ slash :: name).getD (pos + 1) 0 = slash := by
            rw [← length]
            simp
          rw [backToSlash, if_pos here]
  | succ k ih =>
      have other : (folder ++ slash :: name).getD (folder.length + k + 1) 0 ≠ slash := by
        have next : (folder ++ slash :: name).getD (folder.length + k + 1) 0 = name.getD k 0 := by
          simp [List.getD_eq_getElem?_getD, List.getElem?_append_right, Nat.add_assoc]
        rw [next, List.getD_eq_getElem?_getD]
        cases found : name[k]? with
        | none => decide
        | some c =>
            rintro rfl
            exact last (List.mem_of_getElem? found)
      rw [← Nat.add_assoc, backToSlash, if_neg other]
      exact ih (by omega)

/-- The package is looked for where the configuration file is. -/
theorem getUrlFromConfigurl_folder (last : slash ∉ name) (solid : 0 ∉ folder) :
    getUrlFromConfigurl (folder ++ slash :: name) =
      if folder.length + 1 < urlSize then some (folder ++ [slash]) else none := by
  have pos : backToSlash (folder ++ slash :: name) (folder ++ slash :: name).length =
      folder.length := by
    rw [List.length_append, List.length_cons]
    exact backToSlash_folder last _ (Nat.le_refl _)
  have first : (folder ++ slash :: name ++ [0]).take (folder.length + 1) = folder ++ [slash] := by
    rw [List.append_assoc, List.cons_append, List.take_length_add_append, List.take_succ_cons,
      List.take_zero]
  have whole : (folder ++ [slash]).takeWhile (fun c => c ≠ 0) = folder ++ [slash] := by
    rw [List.takeWhile_eq_self_iff]
    intro c member
    rw [decide_eq_true_iff]
    rintro rfl
    rcases List.mem_append.mp member with inside | last
    · exact solid inside
    · exact absurd (List.mem_singleton.mp last) (by decide)
  rw [getUrlFromConfigurl, pos, first, whole]

/-- A name of 256 bytes or more is copied without its end. -/
theorem strcat_name (url : List Byte) {path : List Byte} (solid : 0 ∉ path) :
    strcat url (strncpy stmpSize path) =
      if path.length < stmpSize ∧ url.length + path.length < urlSize then some (url ++ path)
      else none := by
  rw [strcat, strncpy]
  by_cases short : path.length < stmpSize
  · obtain ⟨pad, size⟩ : ∃ pad, stmpSize = path.length + (pad + 1) :=
      ⟨stmpSize - path.length - 1, by omega⟩
    have padded : (path ++ List.replicate stmpSize 0).take stmpSize =
        [] ++ (path ++ 0 :: List.replicate pad 0) := by
      rw [List.nil_append, ← List.replicate_succ]
      conv_lhs => rw [size]
      rw [List.take_length_add_append, List.take_replicate, Nat.min_eq_left (by omega)]
    have read := cString_at [] (List.replicate pad 0) solid
    rw [padded, ← List.length_nil (α := Byte), read, Option.bind_some]
    by_cases room : url.length + path.length < urlSize
    · rw [if_pos room, if_pos ⟨short, room⟩]
    · rw [if_neg room, if_neg (fun both => room both.2)]
  · have whole : (path ++ List.replicate stmpSize 0).take stmpSize = path.take stmpSize :=
      List.take_append_of_le_length (Nat.le_of_not_lt short)
    have open_ : 0 ∉ (path.take stmpSize).drop 0 := by
      rw [List.drop_zero]
      exact fun zero => solid (List.mem_of_mem_take zero)
    rw [whole, cString, if_neg open_, if_neg (fun both => short both.1)]
    rfl

end Address

/-! ### The package -/

theorem mem_of_splitOn {text field : List Byte} {sep c : Byte} (part : field ∈ text.splitOn sep)
    (member : c ∈ field) : c ∈ text := by
  induction h : text.length using Nat.strong_induction_on generalizing text with
  | _ n ih =>
      by_cases cuts : sep ∈ text
      · obtain ⟨first, rest, split_, before⟩ := List.eq_append_cons_of_mem cuts
        subst split_
        rw [List.splitOn_append_cons_self_of_not_mem before, List.mem_cons] at part
        rcases part with here | later
        · subst here
          exact List.mem_append_left _ member
        · apply List.mem_append_right _ (List.mem_cons_of_mem _ _)
          apply ih rest.length _ later rfl
          rw [← h, List.length_append, List.length_cons]
          omega
      · rw [List.splitOn_eq_singleton cuts, List.mem_singleton] at part
        rw [← part]
        exact member

theorem lastFile_solid {text path : List Byte} (solid : 0 ∉ text)
    (found : lastFile (text.splitOn newline) = some path) : 0 ∉ path := by
  intro zero
  obtain ⟨line, inside, names⟩ := List.mem_filterMap.mp (List.mem_of_getLast? found)
  exact solid (mem_of_splitOn inside (mem_of_splitOn (List.mem_of_getElem? names) zero))

/-- The function up to the address, for the text up to the first zero. -/
theorem checkUrlConfigFile_text {file behind text tail : List Byte} (confileUrl : List Byte)
    (ends : file ++ behind = text ++ 0 :: tail) (solid : 0 ∉ text) :
    checkUrlConfigFile confileUrl (some file) behind =
      (lastFile (text.splitOn newline)).elim (some none) (fun path =>
        (getUrlFromConfigurl confileUrl).bind (fun url =>
          (strcat url (strncpy stmpSize path)).map some)) := by
  have loop := lineLoop_reads ((text ++ 0 :: tail).length + 2) [] tail none solid (by
    rw [List.length_append]
    omega)
  rw [List.nil_append, List.length_nil, Option.or_none] at loop
  rw [checkUrlConfigFile, Option.elim_some, ends, loop, Option.bind_some]
  cases lastFile (text.splitOn newline) with
  | none => rfl
  | some path => rfl

section Package

variable {folder name : List Byte}

theorem address_of_path (last : slash ∉ name) (solid : 0 ∉ folder) {path : List Byte}
    (plain : 0 ∉ path) :
    (getUrlFromConfigurl (folder ++ slash :: name)).bind (fun url =>
        (strcat url (strncpy stmpSize path)).map some) =
      if path.length < stmpSize ∧ folder.length + 1 + path.length < urlSize then
        some (some (folder ++ slash :: path)) else none := by
  rw [getUrlFromConfigurl_folder last solid]
  by_cases room : folder.length + 1 < urlSize
  · rw [if_pos room, Option.bind_some, strcat_name _ plain, List.length_append, List.length_singleton,
      List.append_assoc, List.singleton_append]
    by_cases fits : path.length < stmpSize ∧ folder.length + 1 + path.length < urlSize
    · rw [if_pos fits, if_pos fits, Option.map_some]
    · rw [if_neg fits, if_neg fits, Option.map_none]
  · rw [if_neg room, Option.bind_none, if_neg (fun both => room (by omega))]

/-- The third field of the last line that has three, up to the first zero in memory, names the package
in the folder of the configuration file, and without such a line there is an error. A name or an
address that is too long for its array is not cut but read or written beyond. -/
theorem check_url_config_file_selects {file behind text tail : List Byte} (last : slash ∉ name)
    (solid : 0 ∉ folder) (ends : file ++ behind = text ++ 0 :: tail) (plain : 0 ∉ text) :
    checkUrlConfigFile (folder ++ slash :: name) (some file) behind =
      (lastFile (text.splitOn newline)).elim (some none) (fun path =>
        if path.length < stmpSize ∧ folder.length + 1 + path.length < urlSize then
          some (some (folder ++ slash :: path)) else none) := by
  rw [checkUrlConfigFile_text _ ends plain]
  cases found : lastFile (text.splitOn newline) with
  | none => rfl
  | some path => exact address_of_path last solid (lastFile_solid plain found)

/-- Three lines, of which the last has two fields: `1=3;9;a`, `2;8;b` and `c;7`. -/
def threeLines : List Byte :=
  [0x31, 0x3d, 0x33, 0x3b, 0x39, 0x3b, 0x61, 0x0a, 0x32, 0x3b, 0x38, 0x3b, 0x62, 0x0a,
    0x63, 0x3b, 0x37]

theorem check_url_config_file_selects_second :
    checkUrlConfigFile ([0x75] ++ slash :: [0x66]) (some (threeLines ++ [0])) [] =
      some (some ([0x75] ++ slash :: [0x62])) :=
  (@check_url_config_file_selects [0x75] [0x66] (threeLines ++ [0]) [] threeLines [] (by decide)
    (by decide) rfl (by decide)).trans (by decide)

/-- A line that stands behind the file. -/
theorem line_behind (last : slash ∉ name) (solid : 0 ∉ folder)
    (room : folder.length + 2 < urlSize) {file : List Byte} (endless : 0 ∉ file) {c : Byte}
    (some_ : c ≠ 0) (names : lastFile ([semicolon, semicolon, c].splitOn newline) = some [c]) :
    checkUrlConfigFile (folder ++ slash :: name) (some file) [newline, semicolon, semicolon, c, 0] =
      some (some (folder ++ slash :: [c])) := by
  have ends : file ++ [newline, semicolon, semicolon, c, 0] =
      (file ++ newline :: [semicolon, semicolon, c]) ++ 0 :: [] := by simp
  have plain : 0 ∉ file ++ newline :: [semicolon, semicolon, c] := by
    intro zero
    rcases List.mem_append.mp zero with inside | later
    · exact endless inside
    · simp [newline, semicolon, some_.symm] at later
  have short : (0 : Byte) ∉ [c] := fun zero => some_ (List.mem_singleton.mp zero).symm
  have found : lastFile ((file ++ newline :: [semicolon, semicolon, c]).splitOn newline) =
      some [c] := by
    rw [List.splitOn_append_cons_self, lastFile_append, names, Option.some_or]
  rw [checkUrlConfigFile_text _ ends plain, found]
  show (getUrlFromConfigurl _).bind _ = _
  rw [address_of_path last solid short, if_pos]
  rw [List.length_singleton]
  exact ⟨by decide, room⟩

/-- `_strsep` takes the file for a string. What lies behind it in memory is without effect just when
the file holds a zero itself. -/
theorem decided_by_file_iff (last : slash ∉ name) (solid : 0 ∉ folder)
    (room : folder.length + 2 < urlSize) (file : List Byte) :
    (∀ behind behind', 0 ∈ behind → 0 ∈ behind' →
      checkUrlConfigFile (folder ++ slash :: name) (some file) behind =
        checkUrlConfigFile (folder ++ slash :: name) (some file) behind') ↔ 0 ∈ file := by
  constructor
  · intro decided
    by_contra endless
    have one := line_behind last solid room endless (by decide : (0x61 : Byte) ≠ 0) (by decide)
    have other := line_behind last solid room endless (by decide : (0x62 : Byte) ≠ 0) (by decide)
    have same := decided [newline, semicolon, semicolon, 0x61, 0]
      [newline, semicolon, semicolon, 0x62, 0] (by decide) (by decide)
    rw [one, other] at same
    simp at same
  · intro zero behind behind' _ _
    obtain ⟨text, tail, split_, plain⟩ := List.eq_append_cons_of_mem zero
    have ends (behind : List Byte) : file ++ behind = text ++ 0 :: (tail ++ behind) := by
      rw [split_, List.append_assoc, List.cons_append]
    rw [checkUrlConfigFile_text _ (ends behind) plain, checkUrlConfigFile_text _ (ends behind') plain]

theorem decided_by_file_three_lines :
    ¬ ∀ behind behind', 0 ∈ behind → 0 ∈ behind' →
      checkUrlConfigFile ([0x75] ++ slash :: [0x66]) (some threeLines) behind =
        checkUrlConfigFile ([0x75] ++ slash :: [0x66]) (some threeLines) behind' := by
  rw [decided_by_file_iff (by decide) (by decide) (by decide)]
  decide

end Package

end Alisl.Upgrade.Net.ConfigFile
