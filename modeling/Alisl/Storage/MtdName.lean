import Alisl.Storage.MtdTable
import Mathlib.Data.List.TakeWhile

/-! The device of a partition, looked up by its name in `/proc/mtd`. -/

namespace Alisl.Storage

def nul : Char := '\x00'

/-- The byte before position `start` of the buffer; `before` is the one before the buffer itself. -/
def byteBefore (before : Char) (buffer : List Char) (start : Nat) : Char :=
  (before :: buffer).getD start nul

/-- `strstr(buffer + tmp, name)` as a position. -/
def strstrFrom (buffer : List Char) (tmp : Nat) (name : List Char) : Option Nat :=
  (strstr name (buffer.drop tmp)).map (fun rest => buffer.length - rest.length)

/-- `strchr(buffer + start, c)` as a position. -/
def strchrFrom (buffer : List Char) (start : Nat) (c : Char) : Option Nat :=
  (strchr (buffer.drop start) c).map (fun rest => buffer.length - rest.length)

/-- `find_dev_name_str` from `tmp` on; the fuel bounds the turns of its loop. -/
def findDevNameStr (before : Char) (buffer mtdName : List Char) : Nat → Nat → Option Nat
  | 0, _ => none
  | fuel + 1, tmp =>
      if buffer.length ≤ tmp then none
      else (strstrFrom buffer tmp mtdName).bind (fun start =>
        if byteBefore before buffer start ≠ '"' then
          findDevNameStr before buffer mtdName fuel (start + 1)
        else (strchrFrom buffer start '"').bind (fun stop =>
          if ((buffer.drop start).take (stop - start)).isPrefixOf (mtdName ++ [nul]) then some start
          else findDevNameStr before buffer mtdName fuel stop))

/-- The backward scan of `find_last_mtd_dev`, at the position before `count`. -/
def scanBack (buffer key : List Char) : Nat → Option Nat
  | 0 => none
  | pos + 1 => if key.isPrefixOf (buffer.drop pos) then some pos else scanBack buffer key pos

def findLastMtdDev (buffer : List Char) (tail : Option Nat) (key : List Char) : Option Nat :=
  tail.bind (fun tail => scanBack buffer key (tail + 1 - key.length))

/-- `find_mtd_dev_num`: `text` is what `/proc/mtd` gives, `none` when it cannot be opened or read. -/
def findMtdDevNum (before : Char) (text : Option (List Char)) (mtdName : Option (List Char))
    (maxLen : Nat) : Except Ret (List Char) :=
  match mtdName, text with
  | none, _ => .error .invalidParam
  | some _, none => .error .driver
  | some mtdName, some text =>
      let buffer := (text.take 1023).takeWhile (fun c => c ≠ nul)
      let tail := findDevNameStr before buffer mtdName (buffer.length + 1) 0
      match findLastMtdDev buffer tail ['m', 't', 'd'] with
      | none => .error .driver
      | some start =>
          match strchrFrom buffer start ':' with
          | none => .error .driver
          | some stop =>
              let len := if maxLen ≤ stop - start then maxLen - 1 else stop - start
              .ok ((buffer.drop start).take len)

/-- A partition name as a line can hold it. -/
structure Plain (name : List Char) : Prop where
  quote : '"' ∉ name
  newline : '\n' ∉ name
  nul : nul ∉ name

def numberChars : List Char := "0123456789abcdefABCDEFxX".toList

/-- A line `mtdN: size erasesize "name"`. -/
structure MtdLine where
  number : List Char
  size : List Char
  erasesize : List Char
  name : List Char
  number_chars : ∀ c ∈ number, c ∈ numberChars
  size_chars : ∀ c ∈ size, c ∈ numberChars
  erasesize_chars : ∀ c ∈ erasesize, c ∈ numberChars
  plain : Plain name

namespace MtdLine

def device (line : MtdLine) : List Char := 'm' :: 't' :: 'd' :: line.number

/-- What stands between the device and the quotes. -/
def fields (line : MtdLine) : List Char :=
  ':' :: ' ' :: line.size ++ ' ' :: line.erasesize ++ [' ']

def text (line : MtdLine) : List Char :=
  line.device ++ line.fields ++ '"' :: line.name ++ ['"', '\n']

end MtdLine

/-- The line the kernel writes first. -/
structure Heading where
  text : List Char
  quote : '"' ∉ text
  nul : nul ∉ text

def headingText (heading : Option Heading) : List Char :=
  heading.elim [] (fun heading => heading.text ++ ['\n'])

def mtdText (heading : Option Heading) (lines : List MtdLine) : List Char :=
  headingText heading ++ lines.flatMap MtdLine.text

/-- Where `name` stands between quotes for the first time; `prev` is the character before the text. -/
def quoted (name : List Char) : Char → List Char → Option Nat
  | _, [] => none
  | prev, c :: text =>
      if prev = '"' ∧ name ++ ['"'] <+: c :: text then some 0
      else (quoted name c text).map (· + 1)

theorem quoted_step {name : List Char} {prev c : Char} {text : List Char}
    (fails : ¬ (prev = '"' ∧ name ++ ['"'] <+: c :: text)) :
    quoted name prev (c :: text) = (quoted name c text).map (· + 1) :=
  if_neg fails

/-- Two names that end at a quote. -/
theorem quote_prefix_iff {name other rest : List Char} (nameQuote : '"' ∉ name)
    (otherQuote : '"' ∉ other) : name ++ ['"'] <+: other ++ '"' :: rest ↔ name = other := by
  induction other generalizing name with
  | nil =>
      cases name with
      | nil => simp
      | cons c name => simp_all [List.cons_prefix_cons, eq_comm]
  | cons d other ih =>
      cases name with
      | nil => simp_all [List.cons_prefix_cons]
      | cons c name =>
          simp only [List.mem_cons, not_or] at nameQuote otherQuote
          simp [List.cons_prefix_cons, ih nameQuote.2 otherQuote.2]

/-- A line break comes before the quote. -/
theorem newline_not_prefix {name text rest : List Char} (newline : '\n' ∉ name) (free : '"' ∉ text) :
    ¬ name ++ ['"'] <+: text ++ '\n' :: rest := by
  induction text generalizing name with
  | nil =>
      cases name with
      | nil => simp [List.cons_prefix_cons]
      | cons c name => simp_all [List.cons_prefix_cons, eq_comm]
  | cons d text ih =>
      cases name with
      | nil => simp_all [List.cons_prefix_cons]
      | cons c name =>
          simp only [List.mem_cons, not_or] at newline free
          simp [List.cons_prefix_cons, ih newline.2 free.2]

theorem quoted_here {name text : List Char} (starts : name ++ ['"'] <+: text) :
    quoted name '"' text = some 0 := by
  cases text with
  | nil => simp at starts
  | cons c text => exact if_pos ⟨rfl, starts⟩

/-- The search passes over text without a quote. -/
theorem quoted_skip {name text rest : List Char} {prev c : Char} (free : '"' ∉ text)
    (fails : ¬ (prev = '"' ∧ name ++ ['"'] <+: text ++ c :: rest)) :
    quoted name prev (text ++ c :: rest) = (quoted name c rest).map (· + (text.length + 1)) := by
  induction text generalizing prev with
  | nil => exact quoted_step fails
  | cons d text ih =>
      simp only [List.mem_cons, not_or] at free
      have next : quoted name d (text ++ c :: rest) =
          (quoted name c rest).map (· + (text.length + 1)) :=
        ih free.2 (fun found => free.1 found.1.symm)
      rw [List.cons_append] at fails ⊢
      rw [quoted_step fails, next, Option.map_map]
      rfl

/-- What the search passes over ends with the character before the rest. -/
structure Passed (name : List Char) (prev : Char) (skipped rest : List Char) (init : List Char)
    (last : Char) : Prop where
  split : prev :: skipped = init ++ [last]
  same : quoted name prev (skipped ++ rest) = (quoted name last rest).map (· + init.length)

theorem Passed.nothing (name : List Char) (prev : Char) (rest : List Char) :
    Passed name prev [] rest [] prev := by
  refine ⟨rfl, ?_⟩
  simp

theorem Passed.step {name skipped rest init : List Char} {prev c last : Char}
    (fails : ¬ (prev = '"' ∧ name ++ ['"'] <+: c :: (skipped ++ rest)))
    (passed : Passed name c skipped rest init last) :
    Passed name prev (c :: skipped) rest (prev :: init) last := by
  refine ⟨?_, ?_⟩
  · rw [passed.split, List.cons_append]
  · rw [List.cons_append, quoted_step fails, passed.same, Option.map_map]
    rfl

theorem quoted_of_strstr_none {name text : List Char} (found : strstr name text = none)
    (prev : Char) : quoted name prev text = none := by
  induction text generalizing prev with
  | nil => rfl
  | cons c text ih =>
      by_cases here : name.isPrefixOf (c :: text) = true
      · simp [strstr, here] at found
      · simp only [strstr, here, Bool.false_eq_true, if_false] at found
        have fails : ¬ (prev = '"' ∧ name ++ ['"'] <+: c :: text) := by
          intro quote
          exact here (List.isPrefixOf_iff_prefix.mpr ((List.prefix_append _ _).trans quote.2))
        rw [quoted_step fails, ih found c, Option.map_none]

theorem passed_of_strstr {name text rest : List Char} (found : strstr name text = some rest)
    (filled : text ≠ []) (prev : Char) :
    rest ≠ [] ∧ name <+: rest ∧
      ∃ skipped init last, text = skipped ++ rest ∧ Passed name prev skipped rest init last := by
  induction text generalizing prev with
  | nil => exact absurd rfl filled
  | cons c text ih =>
      by_cases here : name.isPrefixOf (c :: text) = true
      · simp only [strstr, here, if_true, Option.some_inj] at found
        subst found
        exact ⟨filled, List.isPrefixOf_iff_prefix.mp here, [], [], prev, rfl, .nothing _ _ _⟩
      · simp only [strstr, here, Bool.false_eq_true, if_false] at found
        have fails : ¬ (prev = '"' ∧ name ++ ['"'] <+: c :: text) := by
          intro quote
          exact here (List.isPrefixOf_iff_prefix.mpr ((List.prefix_append _ _).trans quote.2))
        have longer : text ≠ [] := by
          intro empty
          subst empty
          have nothing : name = [] := by
            by_contra some
            simp [strstr, some] at found
          exact here (by simp [nothing])
        obtain ⟨restFilled, start, skipped, init, last, split, passed⟩ := ih found longer c
        rw [split] at fails
        exact ⟨restFilled, start, c :: skipped, prev :: init, last, by rw [split, List.cons_append],
          passed.step fails⟩

/-- The quotes are only passed over. -/
theorem passed_of_free {name text rest : List Char} {prev : Char} (free : '"' ∉ text)
    (fails : text ≠ [] → ¬ (prev = '"' ∧ name ++ ['"'] <+: text ++ rest)) :
    ∃ init last, Passed name prev text rest init last := by
  induction text generalizing prev with
  | nil => exact ⟨[], prev, .nothing _ _ _⟩
  | cons d text ih =>
      simp only [List.mem_cons, not_or] at free
      obtain ⟨init, last, passed⟩ := ih free.2 (fun _ found => free.1 found.1.symm)
      exact ⟨prev :: init, last, passed.step (fails (List.cons_ne_nil _ _))⟩

theorem strchr_some {text rest : List Char} {c : Char} (found : strchr text c = some rest) :
    ∃ inner after, text = inner ++ c :: after ∧ rest = c :: after ∧ c ∉ inner := by
  induction text with
  | nil => simp [strchr] at found
  | cons d text ih =>
      by_cases same : d = c
      · subst same
        simp only [strchr, List.mem_cons, true_or, if_true, Option.some_inj] at found
        refine ⟨[], text, rfl, ?_, List.not_mem_nil⟩
        simpa using found.symm
      · have later : strchr text c = some rest := by
          simpa [strchr, same, Ne.symm same] using found
        obtain ⟨inner, after, split, tail, free⟩ := ih later
        exact ⟨d :: inner, after, by rw [split, List.cons_append], tail, by
          simp [free, Ne.symm same]⟩

theorem strchr_append {inner after : List Char} {c : Char} (free : c ∉ inner) :
    strchr (inner ++ c :: after) c = some (c :: after) := by
  induction inner with
  | nil => simp [strchr]
  | cons d inner ih =>
      simp only [List.mem_cons, not_or] at free
      have rest := ih free.2
      simp only [strchr] at rest ⊢
      simpa [Ne.symm free.1] using rest

/-- A position in the buffer: what lies before it, the last character of that apart. -/
structure Stands (before : Char) (buffer front : List Char) (prev : Char) (rest : List Char) :
    Prop where
  split : before :: buffer = front ++ prev :: rest

namespace Stands

variable {before prev : Char} {buffer front rest : List Char}

theorem length (stands : Stands before buffer front prev rest) :
    buffer.length = front.length + rest.length := by
  have same := congrArg List.length stands.split
  simp only [List.length_cons, List.length_append] at same
  omega

theorem drop (stands : Stands before buffer front prev rest) : buffer.drop front.length = rest := by
  have same := congrArg (List.drop (front.length + 1)) stands.split
  simpa [List.drop_append, List.drop_eq_nil_of_le] using same

theorem byteBefore_eq (stands : Stands before buffer front prev rest) :
    byteBefore before buffer front.length = prev := by
  simp [byteBefore, stands.split]

theorem passed {name skipped tail init : List Char} {last : Char}
    (stands : Stands before buffer front prev (skipped ++ tail))
    (passed : Passed name prev skipped tail init last) :
    Stands before buffer (front ++ init) last tail := by
  have split := stands.split
  rw [← List.cons_append, passed.split] at split
  exact ⟨by simpa using split⟩

end Stands

theorem Passed.length {name skipped rest init : List Char} {prev last : Char}
    (passed : Passed name prev skipped rest init last) : init.length = skipped.length := by
  have same := congrArg List.length passed.split
  simpa using same.symm

/-- The comparison at a quote. -/
theorem memcmp_iff {name inner after : List Char} (quote : '"' ∉ name) (noNul : nul ∉ inner)
    (start : name <+: inner ++ '"' :: after) :
    inner.isPrefixOf (name ++ [nul]) = true ↔ name = inner := by
  constructor
  · intro same
    have within : inner <+: name := by
      rcases List.prefix_concat_iff.mp (List.isPrefixOf_iff_prefix.mp same) with whole | within
      · exact absurd (by rw [whole]; simp) noNul
      · exact within
    have around : name <+: inner := by
      rcases List.prefix_or_prefix_of_prefix start (List.prefix_append inner ('"' :: after)) with
        inside | longer
      · exact inside
      · obtain ⟨tail, rfl⟩ := longer
        cases tail with
        | nil => simp
        | cons c tail =>
            have here : c = '"' := by
              have rest := (List.prefix_append_right_inj inner).mp start
              exact (List.cons_prefix_cons.mp rest).1
            exact absurd (by simp [here]) quote
    exact around.eq_of_length_le within.length_le
  · intro same
    rw [← same]
    exact List.isPrefixOf_iff_prefix.mpr (List.prefix_append _ _)

theorem quoted_of_free {name text : List Char} (free : '"' ∉ text) (prev : Char) :
    quoted name prev text = none := by
  induction text generalizing prev with
  | nil => rfl
  | cons d text ih =>
      have fails : ¬ (prev = '"' ∧ name ++ ['"'] <+: d :: text) := by
        intro found
        exact free (found.2.subset (by simp))
      rw [quoted_step fails, ih (fun member => free (List.mem_cons_of_mem _ member)), Option.map_none]

theorem map_add (result : Option Nat) (m n : Nat) :
    (result.map (· + m)).map (· + n) = result.map (· + (n + m)) := by
  rw [Option.map_map]
  congr 1
  funext x
  simp only [Function.comp_apply]
  omega

/-- The loop of `find_dev_name_str` finds the name where it first stands between quotes. -/
theorem findDevNameStr_eq {before : Char} {buffer name : List Char} (quote : '"' ∉ name)
    (noNul : nul ∉ buffer) (fuel : Nat) {front rest : List Char} {prev : Char}
    (stands : Stands before buffer front prev rest) (enough : rest.length < fuel) :
    findDevNameStr before buffer name fuel front.length =
      (quoted name prev rest).map (· + front.length) := by
  induction fuel generalizing front prev rest with
  | zero => omega
  | succ fuel ih =>
      by_cases ended : rest = []
      · subst ended
        rw [findDevNameStr, if_pos (by simp [stands.length])]
        rfl
      have positive := List.length_pos_of_ne_nil ended
      have inside : ¬ buffer.length ≤ front.length := by
        rw [stands.length]
        omega
      rw [findDevNameStr, if_neg inside, strstrFrom, stands.drop]
      cases found : strstr name rest with
      | none =>
          rw [quoted_of_strstr_none found]
          rfl
      | some tail =>
          obtain ⟨filled, start, skipped, init, last, split, passed⟩ :=
            passed_of_strstr found ended prev
          subst split
          have reached := stands.passed passed
          have position : buffer.length - tail.length = (front ++ init).length := by
            rw [reached.length]
            omega
          rw [passed.same, map_add, ← List.length_append]
          simp only [Option.map_some, Option.bind_some, position, reached.byteBefore_eq]
          generalize front ++ init = front at reached
          rw [List.length_append] at enough
          obtain ⟨c, after, rfl⟩ := List.exists_cons_of_ne_nil filled
          rw [List.length_cons] at enough
          by_cases opening : last = '"'
          · subst opening
            rw [if_neg (not_not_intro rfl), strchrFrom, reached.drop]
            cases closes : strchr (c :: after) '"' with
            | none =>
                have free : '"' ∉ c :: after := by
                  intro member
                  simp [strchr, member] at closes
                rw [quoted_of_free free]
                rfl
            | some closing =>
                obtain ⟨inner, behind, split, rfl, free⟩ := strchr_some closes
                have size := congrArg List.length split
                simp only [List.length_cons, List.length_append] at size
                have stop : buffer.length - ('"' :: behind).length = front.length + inner.length := by
                  rw [reached.length]
                  simp only [List.length_cons]
                  omega
                have between : (c :: after).take (front.length + inner.length - front.length) =
                    inner := by
                  rw [split, Nat.add_sub_cancel_left, List.take_left]
                have text : ∀ x ∈ inner, x ∈ buffer := by
                  intro x member
                  have later : x ∈ buffer.drop front.length := by
                    rw [reached.drop, split]
                    exact List.mem_append_left _ member
                  exact List.mem_of_mem_drop later
                have equal := memcmp_iff quote (fun member => noNul (text _ member))
                  (split ▸ start)
                simp only [Option.map_some, Option.bind_some, stop, between, equal]
                by_cases same : name = inner
                · have starts : name ++ ['"'] <+: c :: after := by
                    rw [split]
                    exact (quote_prefix_iff quote free).mpr same
                  rw [if_pos same, quoted_here starts]
                  simp
                · -- the name in quotes is a longer one
                  have longer : inner ≠ [] := by
                    intro empty
                    rw [split, empty, List.nil_append] at start
                    cases name with
                    | nil => exact same empty.symm
                    | cons d name =>
                        have first := (List.cons_prefix_cons.mp start).1
                        exact quote (by simp [first])
                  obtain ⟨skipped, final, longerName⟩ := passed_of_free free
                    (fun _ found => same ((quote_prefix_iff quote free).mp found.2))
                  rw [split] at reached ⊢
                  have next := ih (reached.passed longerName) (by
                    have positive := List.length_pos_of_ne_nil longer
                    simp only [List.length_cons]
                    omega)
                  rw [if_neg same, longerName.same, map_add, ← longerName.length, ← List.length_append]
                  exact next
          · have fails : ¬ (last = '"' ∧ name ++ ['"'] <+: c :: after) :=
              fun found => opening found.1
            have next := ih (⟨by rw [reached.split]; simp⟩ :
              Stands before buffer (front ++ [last]) c after) (by omega)
            rw [if_pos opening, quoted_step fails, map_add]
            simpa using next

/-- Each character of a text in turn, and not the characters there are. -/
theorem forall_of_all {text : List Char} {P : Char → Prop} [DecidablePred P]
    (all : text.all (fun c => decide (P c)) = true) : ∀ c ∈ text, P c := by
  intro c member
  exact of_decide_eq_true (List.all_eq_true.mp all c member)

theorem numberChars_spec {c : Char} (member : c ∈ numberChars) :
    c ≠ '"' ∧ c ≠ 'm' ∧ c ≠ ':' ∧ c ≠ '\n' ∧ c ≠ nul := by
  have all : ∀ c ∈ numberChars, c ≠ '"' ∧ c ≠ 'm' ∧ c ≠ ':' ∧ c ≠ '\n' ∧ c ≠ nul :=
    forall_of_all (by decide)
  exact all c member

namespace MtdLine

/-- What stands before the quotes. -/
def lead (line : MtdLine) : List Char := line.device ++ line.fields

theorem fields_spec (line : MtdLine) {c : Char} (member : c ∈ line.number ++ line.fields) :
    c ≠ '"' ∧ c ≠ 'm' ∧ c ≠ nul := by
  simp only [fields, List.mem_append, List.mem_cons, List.not_mem_nil, or_false] at member
  rcases member with number | ((rfl | rfl | size) | rfl | erasesize) | rfl
  · have spec := numberChars_spec (line.number_chars c number)
    exact ⟨spec.1, spec.2.1, spec.2.2.2.2⟩
  · decide
  · decide
  · have spec := numberChars_spec (line.size_chars c size)
    exact ⟨spec.1, spec.2.1, spec.2.2.2.2⟩
  · decide
  · have spec := numberChars_spec (line.erasesize_chars c erasesize)
    exact ⟨spec.1, spec.2.1, spec.2.2.2.2⟩
  · decide

theorem lead_eq (line : MtdLine) : line.lead = ['m', 't', 'd'] ++ (line.number ++ line.fields) := rfl

theorem lead_quote (line : MtdLine) : '"' ∉ line.lead := by
  intro member
  rcases List.mem_append.mp (line.lead_eq ▸ member) with first | rest
  · exact absurd first (by decide)
  · exact (line.fields_spec rest).1 rfl

theorem text_append (line : MtdLine) (rest : List Char) :
    line.text ++ rest = line.lead ++ '"' :: (line.name ++ '"' :: '\n' :: rest) := by
  simp [text, lead]

theorem text_nul (line : MtdLine) : nul ∉ line.text := by
  have split := line.text_append []
  rw [List.append_nil] at split
  rw [split, lead_eq]
  simp only [List.mem_append, List.mem_cons, List.not_mem_nil, or_false, not_or]
  refine ⟨⟨⟨by decide, by decide, by decide⟩, ?_⟩, by decide, line.plain.nul, by decide, by decide⟩
  exact not_or.mp (fun member => (line.fields_spec (List.mem_append.mpr member)).2.2 rfl)

end MtdLine

/-- One line of the text: the name stands in its quotes, or the search goes on behind it. -/
theorem quoted_line {name : List Char} (plain : Plain name) (line : MtdLine) {prev : Char}
    {rest : List Char} (fails : ¬ (prev = '"' ∧ name ++ ['"'] <+: line.text ++ rest)) :
    quoted name prev (line.text ++ rest) =
      if name = line.name then some (line.lead.length + 1)
      else (quoted name '\n' rest).map (· + line.text.length) := by
  have length : line.text.length = line.lead.length + 1 + (line.name.length + 1 + 1) := by
    have split := congrArg List.length (line.text_append [])
    simp at split
    omega
  have opening : quoted name prev (line.text ++ rest) =
      (quoted name '"' (line.name ++ '"' :: '\n' :: rest)).map (· + (line.lead.length + 1)) := by
    rw [line.text_append] at fails ⊢
    exact quoted_skip line.lead_quote fails
  have named : name ++ ['"'] <+: line.name ++ '"' :: '\n' :: rest ↔ name = line.name :=
    quote_prefix_iff plain.quote line.plain.quote
  by_cases same : name = line.name
  · rw [opening, quoted_here (named.mpr same), if_pos same, Option.map_some, Nat.zero_add]
  · have closing : quoted name '"' (line.name ++ '"' :: '\n' :: rest) =
        (quoted name '"' ('\n' :: rest)).map (· + (line.name.length + 1)) :=
      quoted_skip line.plain.quote (fun found => same (named.mp found.2))
    have broken : ¬ name ++ ['"'] <+: '\n' :: rest :=
      newline_not_prefix plain.newline List.not_mem_nil
    rw [opening, closing, quoted_step (fun found => broken found.2), if_neg same, map_add, map_add,
      length]
    rfl

/-- The line that bears the name, as the search finds it. -/
theorem quoted_lines {name : List Char} (plain : Plain name) (lines : List MtdLine) {prev : Char}
    (fails : ¬ (prev = '"' ∧ name ++ ['"'] <+: lines.flatMap MtdLine.text)) :
    (lines.find? (fun line => line.name = name) = none ∧
        quoted name prev (lines.flatMap MtdLine.text) = none) ∨
      ∃ line front behind, lines.find? (fun line => line.name = name) = some line ∧
        lines.flatMap MtdLine.text = front ++ line.text ++ behind ∧
        quoted name prev (lines.flatMap MtdLine.text) =
          some (front.length + (line.lead.length + 1)) := by
  induction lines generalizing prev with
  | nil => exact .inl ⟨rfl, rfl⟩
  | cons line lines ih =>
      rw [List.flatMap_cons] at fails ⊢
      rw [quoted_line plain line fails]
      by_cases same : name = line.name
      · refine .inr ⟨line, [], lines.flatMap MtdLine.text, ?_, rfl, ?_⟩
        · rw [List.find?_cons_of_pos (by simp [same])]
        · rw [if_pos same, List.length_nil, Nat.zero_add]
      · have skip : (line :: lines).find? (fun line => line.name = name) =
            lines.find? (fun line => line.name = name) :=
          List.find?_cons_of_neg (by simpa using Ne.symm same)
        rw [if_neg same, skip]
        have broken : ¬ ('\n' = '"' ∧ name ++ ['"'] <+: lines.flatMap MtdLine.text) :=
          fun found => absurd found.1 (by decide)
        rcases ih broken with ⟨absent, nowhere⟩ | ⟨found, front, behind, first, text, here⟩
        · exact .inl ⟨absent, by rw [nowhere, Option.map_none]⟩
        · refine .inr ⟨found, line.text ++ front, behind, first, ?_, ?_⟩
          · rw [text]
            simp only [List.append_assoc]
          · rw [here, Option.map_some, List.length_append]
            congr 1
            omega

/-- The heading does not hold the name in quotes. -/
theorem quoted_heading {name : List Char} (plain : Plain name) (heading : Option Heading)
    {before : Char} {rest : List Char}
    (outside : ¬ '"' :: (name ++ ['"']) <+: before :: (headingText heading ++ rest)) :
    ∃ prev, ¬ (prev = '"' ∧ name ++ ['"'] <+: rest) ∧
      quoted name before (headingText heading ++ rest) =
        (quoted name prev rest).map (· + (headingText heading).length) := by
  rw [List.cons_prefix_cons] at outside
  cases heading with
  | none =>
      refine ⟨before, fun found => outside ⟨found.1.symm, found.2⟩, ?_⟩
      simp [headingText]
  | some heading =>
      refine ⟨'\n', fun found => absurd found.1 (by decide), ?_⟩
      have broken : ¬ name ++ ['"'] <+: heading.text ++ '\n' :: rest :=
        newline_not_prefix plain.newline heading.quote
      have skip := quoted_skip heading.quote (fun found : before = '"' ∧ _ => broken found.2)
      simpa [headingText] using skip

theorem scanBack_first {front after key : List Char} (here : key <+: after) (k : Nat)
    (later : ∀ i < k, ¬ key <+: after.drop (i + 1)) :
    scanBack (front ++ after) key (front.length + k + 1) = some front.length := by
  induction k with
  | zero =>
      simp only [scanBack, List.drop_left, List.isPrefixOf_iff_prefix.mpr here, if_true]
  | succ k ih =>
      have elsewhere : ¬ key.isPrefixOf ((front ++ after).drop (front.length + (k + 1))) = true := by
        rw [List.drop_length_add_append, List.isPrefixOf_iff_prefix]
        exact later k (Nat.lt_succ_self k)
      rw [scanBack, if_neg elsewhere]
      exact ih (fun i less => later i (Nat.lt_succ_of_lt less))

/-- The backward scan from a name ends at the device of its line. -/
theorem scanBack_line (front behind : List Char) (line : MtdLine) :
    scanBack (front ++ (line.text ++ behind)) ['m', 't', 'd']
      (front.length + (line.lead.length + 1) + 1 - 3) = some front.length := by
  have split : line.text ++ behind = 'm' :: (('t' :: 'd' :: (line.number ++ line.fields)) ++
      '"' :: (line.name ++ '"' :: '\n' :: behind)) := by
    rw [line.text_append, line.lead_eq]
    rfl
  have from_ : front.length + (line.lead.length + 1) + 1 - 3 =
      front.length + ((line.number ++ line.fields).length + 1) + 1 := by
    rw [line.lead_eq, List.length_append]
    simp only [List.length_cons, List.length_nil]
    omega
  rw [from_]
  apply scanBack_first
  · rw [split]
    exact ⟨line.number ++ line.fields ++ '"' :: (line.name ++ '"' :: '\n' :: behind), by simp⟩
  · intro i less key
    have inside : i < ('t' :: 'd' :: (line.number ++ line.fields)).length := by
      simp only [List.length_cons]
      omega
    rw [split, List.drop_succ_cons, List.drop_append_of_le_length (Nat.le_of_lt inside),
      List.drop_eq_getElem_cons inside, List.cons_append] at key
    have first := (List.cons_prefix_cons.mp key).1
    have member := List.getElem_mem inside
    rw [← first] at member
    simp only [List.mem_cons] at member
    rcases member with other | other | rest
    · exact absurd other (by decide)
    · exact absurd other (by decide)
    · exact (line.fields_spec rest).2.1 rfl

theorem headingText_nul (heading : Option Heading) : nul ∉ headingText heading := by
  cases heading with
  | none => exact List.not_mem_nil
  | some heading =>
      intro member
      rcases List.mem_append.mp member with text | last
      · exact heading.nul text
      · exact absurd last (by decide)

theorem mtdText_nul (heading : Option Heading) (lines : List MtdLine) :
    ∀ c ∈ mtdText heading lines, c ≠ nul := by
  intro c member same
  subst same
  rcases List.mem_append.mp member with head | later
  · exact headingText_nul heading head
  · obtain ⟨line, _, inside⟩ := List.mem_flatMap.mp later
    exact line.text_nul inside

/-- From the quoted name to the device. -/
theorem device_of_line (front behind : List Char) (line : MtdLine) (maxLen : Nat) (room : 0 < maxLen) :
    (strchrFrom (front ++ (line.text ++ behind)) front.length ':').map (fun stop =>
      ((front ++ (line.text ++ behind)).drop front.length).take
        (if maxLen ≤ stop - front.length then maxLen - 1 else stop - front.length)) =
      some (line.device.take (maxLen - 1)) := by
  have free : ':' ∉ line.device := by
    simp only [MtdLine.device, List.mem_cons, not_or]
    exact ⟨by decide, by decide, by decide,
      fun member => (numberChars_spec (line.number_chars _ member)).2.2.1 rfl⟩
  obtain ⟨rest, split⟩ : ∃ rest, line.text ++ behind = line.device ++ ':' :: rest :=
    ⟨line.fields.tail ++ '"' :: (line.name ++ '"' :: '\n' :: behind), by
      rw [line.text_append, MtdLine.lead, MtdLine.fields]
      simp⟩
  have stop : (front ++ (line.text ++ behind)).length - (':' :: rest).length =
      front.length + line.device.length := by
    rw [split]
    simp only [List.length_append, List.length_cons]
    omega
  rw [strchrFrom, List.drop_left, split, strchr_append free, ← split]
  simp only [Option.map_some, stop, Nat.add_sub_cancel_left, Option.some_inj]
  rw [split]
  by_cases long : maxLen ≤ line.device.length
  · rw [if_pos long, List.take_append_of_le_length (by omega)]
  · rw [if_neg long, List.take_left, List.take_of_length_le (by omega)]

/-- The lookup by name, on a text of `/proc/mtd` that fits the buffer. -/
theorem findMtdDevNum_eq (before : Char) (heading : Option Heading) (lines : List MtdLine)
    {name : List Char} (plain : Plain name) {maxLen : Nat} (room : 0 < maxLen)
    (short : (mtdText heading lines).length < 1024)
    (outside : ¬ '"' :: (name ++ ['"']) <+: before :: mtdText heading lines) :
    findMtdDevNum before (some (mtdText heading lines)) (some name) maxLen =
      (lines.find? (fun line => line.name = name)).elim (.error .driver)
        (fun line => .ok (line.device.take (maxLen - 1))) := by
  have whole : ((mtdText heading lines).take 1023).takeWhile (fun c => c ≠ nul) =
      mtdText heading lines := by
    rw [List.take_of_length_le (by omega), List.takeWhile_eq_self_iff]
    intro c member
    simpa using mtdText_nul heading lines c member
  obtain ⟨prev, fails, headText⟩ := quoted_heading plain heading outside
  have searched : findDevNameStr before (mtdText heading lines) name
      ((mtdText heading lines).length + 1) 0 =
        (quoted name prev (lines.flatMap MtdLine.text)).map (· + (headingText heading).length) := by
    have start : Stands before (mtdText heading lines) [] before (mtdText heading lines) := ⟨rfl⟩
    rw [← headText]
    have found := findDevNameStr_eq plain.quote
      (fun member => mtdText_nul heading lines _ member rfl) _ start (Nat.lt_succ_self _)
    simpa [mtdText] using found
  simp only [findMtdDevNum, whole, searched]
  rcases quoted_lines plain lines fails with ⟨absent, nowhere⟩ |
    ⟨line, front, behind, present, text, here⟩
  · rw [absent, nowhere]
    rfl
  · have split : mtdText heading lines = (headingText heading ++ front) ++ (line.text ++ behind) := by
      rw [mtdText, text]
      simp only [List.append_assoc]
    have back : findLastMtdDev (mtdText heading lines)
        (some (front.length + (line.lead.length + 1) + (headingText heading).length))
        ['m', 't', 'd'] = some (headingText heading ++ front).length := by
      have scanned := scanBack_line (headingText heading ++ front) behind line
      rw [← split] at scanned
      rw [← scanned, findLastMtdDev, Option.bind_some, List.length_append]
      congr 1
      simp only [List.length_cons, List.length_nil]
      omega
    have device := device_of_line (headingText heading ++ front) behind line maxLen room
    rw [← split] at device
    obtain ⟨stop, colon, taken⟩ := Option.map_eq_some_iff.mp device
    rw [present, here, Option.map_some, back]
    simp only [colon, taken, Option.elim_some]

/-- A file with its heading does not begin like the rest of a quoted name. -/
theorem heading_outside {name : List Char} (plain : Plain name) (before : Char) (heading : Heading)
    (lines : List MtdLine) :
    ¬ '"' :: (name ++ ['"']) <+: before :: mtdText (some heading) lines := by
  intro found
  have starts := (List.cons_prefix_cons.mp found).2
  have text : mtdText (some heading) lines =
      heading.text ++ '\n' :: lines.flatMap MtdLine.text := by
    simp [mtdText, headingText]
  rw [text] at starts
  exact newline_not_prefix plain.newline heading.quote starts

/-- `find_mtd_dev_num` gives the device of the line with exactly that name, as far as the caller has
room for it, and fails only without such a line. -/
theorem findMtdDevNum_spec (before : Char) (heading : Option Heading) (lines : List MtdLine)
    (distinct : (lines.map MtdLine.name).Nodup) {name : List Char} (plain : Plain name) {maxLen : Nat}
    (room : 0 < maxLen) (short : (mtdText heading lines).length < 1024)
    (outside : ¬ '"' :: (name ++ ['"']) <+: before :: mtdText heading lines) :
    (∀ line ∈ lines, line.name = name →
      findMtdDevNum before (some (mtdText heading lines)) (some name) maxLen =
          .ok (line.device.take (maxLen - 1)) ∧
        (line.device.length < maxLen →
          findMtdDevNum before (some (mtdText heading lines)) (some name) maxLen =
            .ok line.device)) ∧
      ((∃ error, findMtdDevNum before (some (mtdText heading lines)) (some name) maxLen =
          .error error) ↔
        ∀ line ∈ lines, line.name ≠ name) := by
  rw [findMtdDevNum_eq before heading lines plain room short outside]
  refine ⟨?_, ?_, ?_⟩
  · intro line member named
    have found : lines.find? (fun line => line.name = name) = some line := by
      cases first : lines.find? (fun line => line.name = name) with
      | none => exact absurd named (by simpa using List.find?_eq_none.mp first line member)
      | some other =>
          have same : other.name = name := by simpa using List.find?_some first
          exact congrArg some (List.inj_on_of_nodup_map distinct (List.mem_of_find?_eq_some first)
            member (same.trans named.symm))
    rw [found]
    refine ⟨rfl, fun fits => ?_⟩
    rw [Option.elim_some, List.take_of_length_le (by omega)]
  · intro fails line member named
    obtain ⟨error, failed⟩ := fails
    cases first : lines.find? (fun line => line.name = name) with
    | none => exact absurd named (by simpa using List.find?_eq_none.mp first line member)
    | some other =>
        rw [first, Option.elim_some] at failed
        cases failed
  · intro absent
    have nothing : lines.find? (fun line => line.name = name) = none :=
      List.find?_eq_none.mpr (fun line member => by simpa using absent line member)
    exact ⟨.driver, by rw [nothing]; rfl⟩

def kernelHeading : Heading where
  text := "dev:    size   erasesize  name".toList
  quote := by decide +kernel
  nul := by decide +kernel

def kernelLine (number name : List Char) (number_chars : ∀ c ∈ number, c ∈ numberChars)
    (plain : Plain name) : MtdLine where
  number
  size := ['8', '0']
  erasesize := ['2', '0']
  name
  number_chars
  size_chars := forall_of_all (by decide +kernel)
  erasesize_chars := forall_of_all (by decide +kernel)
  plain

/-- Names that hold one another, and one that holds the key of the backward scan. -/
def kernelLines : List MtdLine :=
  [kernelLine ['0'] ['m', 't', 'd', '1'] (forall_of_all (by decide +kernel))
      ⟨by decide +kernel, by decide +kernel, by decide +kernel⟩,
    kernelLine ['1'] ['b', 'o', 'o', 't'] (forall_of_all (by decide +kernel))
      ⟨by decide +kernel, by decide +kernel, by decide +kernel⟩,
    kernelLine ['1', '2'] ['b', 'o', 'o'] (forall_of_all (by decide +kernel))
      ⟨by decide +kernel, by decide +kernel, by decide +kernel⟩]

theorem findMtdDevNum_prefix :
    findMtdDevNum '"' (some (mtdText (some kernelHeading) kernelLines)) (some ['b', 'o', 'o']) 32 =
      .ok ['m', 't', 'd', '1', '2'] := by
  have plain : Plain ['b', 'o', 'o'] := ⟨by decide, by decide, by decide⟩
  have distinct : (kernelLines.map MtdLine.name).Nodup := by decide +kernel
  have spec := findMtdDevNum_spec '"' (some kernelHeading) kernelLines distinct plain
    (by decide : 0 < 32) (by decide +kernel) (heading_outside plain '"' kernelHeading kernelLines)
  exact (spec.1 (kernelLines.get ⟨2, by decide⟩) (List.get_mem _ _) rfl).2 (by decide +kernel)

end Alisl.Storage
