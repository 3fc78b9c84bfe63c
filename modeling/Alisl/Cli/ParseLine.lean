import Alisl.Cli.Editor

/-! Cutting a line into words: `cli_parse_line`, and what a line spells. -/

namespace Alisl.Cli

open Alisl.Base

/-- `isspace` of the C locale. -/
def isSpace (c : Byte) : Bool := decide (c = 0x20 ∨ (0x09 ≤ c ∧ c ≤ 0x0d))

def isQuote (c : Byte) : Bool := decide (c = 0x22 ∨ c = 0x27)

def pipe : Byte := 0x7c

/-- `p` as the bytes that are left, `word_start` as the bytes from it to `p`. -/
structure Scan where
  p : List Byte
  wordStart : Option (List Byte)
  inquote : Byte
  words : List (List Byte)

/-- Whether a word or a quote ends at `c`. -/
def Ends (wordStart : Option (List Byte)) (inquote c : Byte) : Prop :=
  c = inquote ∨ (wordStart.isSome ∧ inquote = 0 ∧ (isSpace c ∨ c = pipe))

instance (wordStart : Option (List Byte)) (inquote c : Byte) : Decidable (Ends wordStart inquote c) :=
  inferInstanceAs (Decidable (_ ∨ (_ ∧ _ ∧ (_ ∨ _))))

/-- The word that ends at `p`, if one was begun; nothing when there is no memory for it. -/
def storeWord (memory : Nat → Bool) (words : List (List Byte)) :
    Option (List Byte) → Option (List (List Byte))
  | none => some words
  | some word => if memory words.length then some (words ++ [word]) else none

/-- Without memory the answer is 0, and what was copied is lost. -/
def parseLoop (memory : Nat → Bool) (maxWords : Nat) : Nat → Scan → Option (List (List Byte))
  | 0, _ => none
  | fuel + 1, scan =>
      if maxWords - 1 ≤ scan.words.length then some scan.words
      else
        match scan.p with
        | [] => some ((storeWord memory scan.words scan.wordStart).getD [])
        | c :: rest =>
            if Ends scan.wordStart scan.inquote c then
              (storeWord memory scan.words scan.wordStart).elim (some []) (fun words =>
                parseLoop memory maxWords fuel
                  ⟨if scan.inquote = 0 then c :: rest else rest, none, 0, words⟩)
            else if isQuote c then parseLoop memory maxWords fuel ⟨rest, some [], c, scan.words⟩
            else
              match scan.wordStart with
              | some word =>
                  parseLoop memory maxWords fuel
                    ⟨rest, some (word ++ [c]), scan.inquote, scan.words⟩
              | none =>
                  if c = pipe then
                    if memory scan.words.length then
                      parseLoop memory maxWords fuel
                        ⟨rest, none, scan.inquote, scan.words ++ [[pipe]]⟩
                    else some []
                  else
                    parseLoop memory maxWords fuel
                      ⟨rest, if isSpace c then none else some [c], scan.inquote, scan.words⟩

/-- The words that count for the caller; `memory` is whether the copy of a word gets memory. -/
def cliParseLine (memory : Nat → Bool) (maxWords : Nat) (line : List Byte) :
    Option (List (List Byte)) :=
  parseLoop memory maxWords (2 * line.length + 3)
    ⟨line.dropWhile isSpace, if line.dropWhile isSpace = [] then none else some [], 0, []⟩

/-! ### What a line spells -/

/-- A byte of a word without quotes. -/
def Bare (c : Byte) : Prop := isSpace c = false ∧ c ≠ pipe ∧ isQuote c = false

/-- The words of a line, from a place behind the quote `inquote`, or between words when it is 0.
What stands before a quote that opens is lost, also inside other quotes. -/
inductive Spells : Byte → List Byte → List (List Byte) → Prop where
  | done : Spells 0 [] []
  | space {c : Byte} {line : List Byte} {words : List (List Byte)} (gap : isSpace c = true)
      (rest : Spells 0 line words) : Spells 0 (c :: line) words
  | pipe {line : List Byte} {words : List (List Byte)} (rest : Spells 0 line words) :
      Spells 0 (pipe :: line) ([pipe] :: words)
  | bare {word line : List Byte} {words : List (List Byte)} (some_ : word ≠ [])
      (bare : ∀ c ∈ word, Bare c) (stop : ∀ c ∈ line.head?, isSpace c = true ∨ c = Cli.pipe)
      (rest : Spells 0 line words) : Spells 0 (word ++ line) (word :: words)
  | opened {lost line : List Byte} {quote : Byte} {words : List (List Byte)}
      (bare : ∀ c ∈ lost, Bare c) (opens : isQuote quote = true)
      (rest : Spells quote line words) : Spells 0 (lost ++ quote :: line) words
  | closed {word line : List Byte} {quote : Byte} {words : List (List Byte)}
      (opens : isQuote quote = true) (plain : ∀ c ∈ word, isQuote c = false)
      (rest : Spells 0 line words) : Spells quote (word ++ quote :: line) (word :: words)
  | switched {lost line : List Byte} {quote other : Byte} {words : List (List Byte)}
      (opens : isQuote quote = true) (plain : ∀ c ∈ lost, isQuote c = false)
      (differs : other ≠ quote) (opens' : isQuote other = true)
      (rest : Spells other line words) : Spells quote (lost ++ other :: line) words
  | unclosed {word : List Byte} {quote : Byte} (opens : isQuote quote = true)
      (plain : ∀ c ∈ word, isQuote c = false) : Spells quote word [word]

/-- Behind its spaces a line that begins with a pipe has an empty word before it. -/
def lineWords (line : List Byte) (words : List (List Byte)) : List (List Byte) :=
  if (line.dropWhile isSpace).head? = some pipe then [] :: words else words

/-- What is stored of further words behind those that were. -/
def stored (memory : Nat → Bool) (limit : Nat) :
    List (List Byte) → List (List Byte) → List (List Byte)
  | words, [] => words
  | words, word :: more =>
      if limit ≤ words.length then words
      else if memory words.length then stored memory limit (words ++ [word]) more
      else []

section Loop

variable {memory : Nat → Bool} {maxWords : Nat} {words : List (List Byte)}

theorem stored_full (full : maxWords - 1 ≤ words.length) (more : List (List Byte)) :
    stored memory (maxWords - 1) words more = words := by
  cases more with
  | nil => rfl
  | cons word more => rw [stored, if_pos full]

theorem parseLoop_full (full : maxWords - 1 ≤ words.length) (fuel : Nat) (p : List Byte)
    (wordStart : Option (List Byte)) (inquote : Byte) :
    parseLoop memory maxWords (fuel + 1) ⟨p, wordStart, inquote, words⟩ = some words := by
  rw [parseLoop, if_pos full]

theorem isQuote_ne_zero {quote : Byte} (opens : isQuote quote = true) : quote ≠ 0 := by
  rintro rfl
  exact absurd opens (by decide)

theorem isSpace_notQuote {c : Byte} (gap : isSpace c = true) : isQuote c = false := by
  rw [isSpace, decide_eq_true_iff] at gap
  rw [isQuote, decide_eq_false_iff_not]
  rintro (rfl | rfl)
  · exact absurd gap (by decide)
  · exact absurd gap (by decide)

/-- What the loop does with a byte. -/
theorem parseLoop_cons (room : ¬ maxWords - 1 ≤ words.length) (fuel : Nat) (c : Byte)
    (rest : List Byte) (wordStart : Option (List Byte)) (inquote : Byte) :
    parseLoop memory maxWords (fuel + 1) ⟨c :: rest, wordStart, inquote, words⟩ =
      if Ends wordStart inquote c then
        (storeWord memory words wordStart).elim (some []) (fun words =>
          parseLoop memory maxWords fuel
            ⟨if inquote = 0 then c :: rest else rest, none, 0, words⟩)
      else if isQuote c then parseLoop memory maxWords fuel ⟨rest, some [], c, words⟩
      else
        wordStart.elim
          (if c = pipe then
            if memory words.length then
              parseLoop memory maxWords fuel ⟨rest, none, inquote, words ++ [[pipe]]⟩
            else some []
          else
            parseLoop memory maxWords fuel
              ⟨rest, if isSpace c then none else some [c], inquote, words⟩)
          (fun word => parseLoop memory maxWords fuel ⟨rest, some (word ++ [c]), inquote, words⟩) := by
  rw [parseLoop, if_neg room]
  cases wordStart with
  | none => rfl
  | some word => rfl

theorem storeWord_some (word : List Byte) (next : List (List Byte) → Option (List (List Byte))) :
    (storeWord memory words (some word)).elim (some []) next =
      if memory words.length then next (words ++ [word]) else some [] := by
  rw [storeWord]
  by_cases there : memory words.length
  · rw [if_pos there, if_pos there, Option.elim_some]
  · rw [if_neg there, if_neg there, Option.elim_none]

theorem not_ends_none {c : Byte} (char : c ≠ 0) : ¬ Ends none 0 c := by
  rintro (same | ⟨none_, _⟩)
  · exact char same
  · cases none_

section Steps

variable (room : ¬ maxWords - 1 ≤ words.length)

include room

/-- A word that is open takes a byte that neither ends nor opens anything. -/
theorem parseLoop_take {fuel : Nat} {c quote : Byte} {rest word : List Byte} (plain : isQuote c = false)
    (inside : c ≠ quote) (goes : quote = 0 → isSpace c = false ∧ c ≠ pipe) :
    parseLoop memory maxWords (fuel + 1) ⟨c :: rest, some word, quote, words⟩ =
      parseLoop memory maxWords fuel ⟨rest, some (word ++ [c]), quote, words⟩ := by
  have on : ¬ Ends (some word) quote c := by
    rintro (same | ⟨_, none_, gap | bar⟩)
    · exact inside same
    · rw [(goes none_).1] at gap
      exact absurd gap (by decide)
    · exact (goes none_).2 bar
  rw [parseLoop_cons room, if_neg on, plain, if_neg Bool.false_ne_true, Option.elim_some]

/-- The bytes of a word, one after the other. -/
theorem parseLoop_word {fuel : Nat} {quote : Byte} (taken rest word : List Byte)
    (plain : ∀ c ∈ taken, isQuote c = false) (inside : ∀ c ∈ taken, c ≠ quote)
    (goes : quote = 0 → ∀ c ∈ taken, isSpace c = false ∧ c ≠ pipe) :
    parseLoop memory maxWords (fuel + taken.length) ⟨taken ++ rest, some word, quote, words⟩ =
      parseLoop memory maxWords fuel ⟨rest, some (word ++ taken), quote, words⟩ := by
  induction taken generalizing word with
  | nil => rw [List.length_nil, Nat.add_zero, List.nil_append, List.append_nil]
  | cons c taken ih =>
      rw [List.forall_mem_cons] at plain inside
      have others (none_ : quote = 0) := List.forall_mem_cons.mp (goes none_)
      calc parseLoop memory maxWords (fuel + taken.length + 1)
            ⟨c :: (taken ++ rest), some word, quote, words⟩
          = parseLoop memory maxWords (fuel + taken.length)
              ⟨taken ++ rest, some (word ++ [c]), quote, words⟩ :=
            parseLoop_take room plain.1 inside.1 (fun none_ => (others none_).1)
        _ = parseLoop memory maxWords fuel ⟨rest, some (word ++ [c] ++ taken), quote, words⟩ :=
            ih (word ++ [c]) plain.2 inside.2 (fun none_ => (others none_).2)
        _ = parseLoop memory maxWords fuel ⟨rest, some (word ++ c :: taken), quote, words⟩ := by
            rw [List.append_assoc, List.singleton_append]

/-- A quote opens, whatever was begun before it. -/
theorem parseLoop_opens {fuel : Nat} {c quote : Byte} {rest : List Byte}
    {wordStart : Option (List Byte)} (opens : isQuote c = true) (differs : c ≠ quote) :
    parseLoop memory maxWords (fuel + 1) ⟨c :: rest, wordStart, quote, words⟩ =
      parseLoop memory maxWords fuel ⟨rest, some [], c, words⟩ := by
  have goes : ¬ Ends wordStart quote c := by
    rintro (same | ⟨_, _, gap | rfl⟩)
    · exact differs same
    · rw [isSpace_notQuote gap] at opens
      exact absurd opens (by decide)
    · exact absurd opens (by decide)
  rw [parseLoop_cons room, if_neg goes, if_pos opens]

/-- The first byte of a bare word begins it. -/
theorem parseLoop_begins {fuel : Nat} {c : Byte} {rest : List Byte} (bare : Bare c) (char : c ≠ 0) :
    parseLoop memory maxWords (fuel + 1) ⟨c :: rest, none, 0, words⟩ =
      parseLoop memory maxWords fuel ⟨rest, some [c], 0, words⟩ := by
  rw [parseLoop_cons room, if_neg (not_ends_none char), bare.2.2, if_neg Bool.false_ne_true,
    Option.elim_none, if_neg bare.2.1, bare.1, if_neg Bool.false_ne_true]

theorem parseLoop_space {fuel : Nat} {c : Byte} {rest : List Byte} (gap : isSpace c = true)
    (char : c ≠ 0) :
    parseLoop memory maxWords (fuel + 1) ⟨c :: rest, none, 0, words⟩ =
      parseLoop memory maxWords fuel ⟨rest, none, 0, words⟩ := by
  have bar : c ≠ pipe := by
    rintro rfl
    exact absurd gap (by decide)
  rw [parseLoop_cons room, if_neg (not_ends_none char), isSpace_notQuote gap,
    if_neg Bool.false_ne_true, Option.elim_none, if_neg bar, if_pos gap]

theorem parseLoop_pipe {fuel : Nat} {rest : List Byte} :
    parseLoop memory maxWords (fuel + 1) ⟨pipe :: rest, none, 0, words⟩ =
      if memory words.length then
        parseLoop memory maxWords fuel ⟨rest, none, 0, words ++ [[pipe]]⟩
      else some [] := by
  have plain : isQuote pipe = false := by decide
  rw [parseLoop_cons room, if_neg (not_ends_none (by decide)), plain, if_neg Bool.false_ne_true,
    Option.elim_none, if_pos rfl]

/-- The line ends in an open word. -/
theorem parseLoop_ends {fuel : Nat} {quote : Byte} {word : List Byte} :
    parseLoop memory maxWords (fuel + 1) ⟨[], some word, quote, words⟩ =
      some (stored memory (maxWords - 1) words [word]) := by
  rw [parseLoop, if_neg room, stored, if_neg room, stored]
  show some ((storeWord memory words (some word)).getD []) = _
  rw [storeWord]
  by_cases there : memory words.length
  · rw [if_pos there, if_pos there, Option.getD_some]
  · rw [if_neg there, if_neg there, Option.getD_none]

/-- A word ends before a space, a pipe or the end of the line, which are left where they are. -/
theorem parseLoop_stops {fuel : Nat} {line word : List Byte}
    (stop : ∀ c ∈ line.head?, isSpace c = true ∨ c = pipe) :
    parseLoop memory maxWords (fuel + 2) ⟨line, some word, 0, words⟩ =
      if memory words.length then
        parseLoop memory maxWords (fuel + 1) ⟨line, none, 0, words ++ [word]⟩
      else some [] := by
  cases line with
  | nil =>
      rw [parseLoop_ends room, stored, if_neg room, stored, apply_ite some, parseLoop]
      by_cases full : maxWords - 1 ≤ (words ++ [word]).length
      · rw [if_pos full]
      · rw [if_neg full]
        rfl
  | cons c rest =>
      have ends : Ends (some word) 0 c :=
        .inr ⟨rfl, rfl, stop c (by rw [List.head?_cons, Option.mem_some_iff])⟩
      rw [parseLoop_cons room, if_pos ends, storeWord_some, if_pos rfl]

/-- The quote that opened a word closes it. -/
theorem parseLoop_closes {fuel : Nat} {quote : Byte} {rest word : List Byte}
    (opens : isQuote quote = true) :
    parseLoop memory maxWords (fuel + 1) ⟨quote :: rest, some word, quote, words⟩ =
      if memory words.length then
        parseLoop memory maxWords fuel ⟨rest, none, 0, words ++ [word]⟩
      else some [] := by
  have char := isQuote_ne_zero opens
  rw [parseLoop_cons room, if_pos (.inl rfl), storeWord_some, if_neg char]

end Steps

theorem bare_plain {word : List Byte} (bare : ∀ c ∈ word, Bare c) : ∀ c ∈ word, isQuote c = false :=
  fun c member => (bare c member).2.2

/-- The bytes of a bare word, from its first one on. -/
theorem parseLoop_bare (room : ¬ maxWords - 1 ≤ words.length) {fuel : Nat} {word rest : List Byte}
    (some_ : word ≠ []) (bare : ∀ c ∈ word, Bare c) (noNul : 0 ∉ word) :
    parseLoop memory maxWords (fuel + word.length) ⟨word ++ rest, none, 0, words⟩ =
      parseLoop memory maxWords fuel ⟨rest, some word, 0, words⟩ := by
  cases word with
  | nil => exact absurd rfl some_
  | cons c word =>
      rw [List.forall_mem_cons] at bare
      rw [List.mem_cons, not_or] at noNul
      have inside : ∀ d ∈ word, d ≠ 0 := by
        rintro d member rfl
        exact noNul.2 member
      calc parseLoop memory maxWords (fuel + word.length + 1) ⟨c :: (word ++ rest), none, 0, words⟩
          = parseLoop memory maxWords (fuel + word.length) ⟨word ++ rest, some [c], 0, words⟩ :=
            parseLoop_begins room bare.1 (Ne.symm noNul.1)
        _ = parseLoop memory maxWords fuel ⟨rest, some ([c] ++ word), 0, words⟩ :=
            parseLoop_word room word rest [c] (bare_plain bare.2) inside
              (fun _ d member => ⟨(bare.2 d member).1, (bare.2 d member).2.1⟩)

/-- The bytes between quotes. -/
theorem parseLoop_quoted (room : ¬ maxWords - 1 ≤ words.length) {fuel : Nat} {quote : Byte}
    {word rest : List Byte} (opens : isQuote quote = true) (plain : ∀ c ∈ word, isQuote c = false) :
    parseLoop memory maxWords (fuel + word.length) ⟨word ++ rest, some [], quote, words⟩ =
      parseLoop memory maxWords fuel ⟨rest, some word, quote, words⟩ := by
  have inside : ∀ c ∈ word, c ≠ quote := by
    rintro c member rfl
    rw [plain c member] at opens
    exact absurd opens (by decide)
  exact parseLoop_word room word rest [] plain inside
    (fun none_ => absurd none_ (isQuote_ne_zero opens))

/-- Where the loop stands at a place of which it is known what it spells. -/
def Scan.at_ (quote : Byte) (line : List Byte) (words : List (List Byte)) : Scan :=
  ⟨line, if quote = 0 then none else some [], quote, words⟩

theorem Scan.at_between (line : List Byte) (words : List (List Byte)) :
    Scan.at_ 0 line words = ⟨line, none, 0, words⟩ := rfl

theorem Scan.at_behind {quote : Byte} (opens : isQuote quote = true) (line : List Byte)
    (words : List (List Byte)) : Scan.at_ quote line words = ⟨line, some [], quote, words⟩ := by
  rw [Scan.at_, if_neg (isQuote_ne_zero opens)]

variable (memory maxWords) in
/-- The loop stores these words at this place, with fuel for the rest of the line. -/
def Stores (quote : Byte) (line : List Byte) (more : List (List Byte)) : Prop :=
  ∀ (fuel : Nat) (words : List (List Byte)),
    parseLoop memory maxWords (fuel + (2 * line.length + 2)) (Scan.at_ quote line words) =
      some (stored memory (maxWords - 1) words more)

/-- Only a place with room for a word is of interest. -/
theorem stores_of_room {quote : Byte} {line : List Byte} {more : List (List Byte)}
    (room : ∀ (fuel : Nat) (words : List (List Byte)), ¬ maxWords - 1 ≤ words.length →
      parseLoop memory maxWords (fuel + (2 * line.length + 2)) (Scan.at_ quote line words) =
        some (stored memory (maxWords - 1) words more)) :
    Stores memory maxWords quote line more := by
  intro fuel words
  by_cases full : maxWords - 1 ≤ words.length
  · rw [stored_full full, Scan.at_]
    exact parseLoop_full full _ _ _ _
  · exact room fuel words full

/-- Behind a word that was stored. -/
theorem Stores.behind {line word : List Byte} {more : List (List Byte)}
    (stores : Stores memory maxWords 0 line more) (room : ¬ maxWords - 1 ≤ words.length) (fuel : Nat) :
    (if memory words.length then
        parseLoop memory maxWords (fuel + (2 * line.length + 2)) ⟨line, none, 0, words ++ [word]⟩
      else some []) = some (stored memory (maxWords - 1) words (word :: more)) := by
  rw [stored, if_neg room, apply_ite some, ← stores fuel (words ++ [word]), Scan.at_between]

/-- Behind a quote that opened. -/
theorem Stores.opened {quote other : Byte} {line : List Byte} {more : List (List Byte)}
    (stores : Stores memory maxWords other line more) (room : ¬ maxWords - 1 ≤ words.length)
    (opens : isQuote other = true) (differs : other ≠ quote) (fuel : Nat)
    (wordStart : Option (List Byte)) :
    parseLoop memory maxWords (fuel + (2 * line.length + 2) + 1)
        ⟨other :: line, wordStart, quote, words⟩ =
      some (stored memory (maxWords - 1) words more) := by
  rw [parseLoop_opens room opens differs, ← Scan.at_behind opens]
  exact stores fuel words

/-- The loop stores what is spelled. -/
theorem stores_of_spells {quote : Byte} {line : List Byte} {more : List (List Byte)}
    (spells : Spells quote line more) (noNul : 0 ∉ line) : Stores memory maxWords quote line more := by
  induction spells with
  | done =>
      apply stores_of_room
      intro fuel words room
      rw [Scan.at_between, List.length_nil, ← Nat.add_assoc, parseLoop, if_neg room]
      rfl
  | @space c line more gap rest ih =>
      rw [List.mem_cons, not_or] at noNul
      apply stores_of_room
      intro fuel words room
      rw [List.length_cons, Scan.at_between,
        show fuel + (2 * (line.length + 1) + 2) = (fuel + 1) + (2 * line.length + 2) + 1 by omega,
        parseLoop_space room gap (Ne.symm noNul.1)]
      exact ih noNul.2 (fuel + 1) words
  | @pipe line more rest ih =>
      rw [List.mem_cons, not_or] at noNul
      apply stores_of_room
      intro fuel words room
      rw [List.length_cons, Scan.at_between,
        show fuel + (2 * (line.length + 1) + 2) = (fuel + 1) + (2 * line.length + 2) + 1 by omega,
        parseLoop_pipe room]
      exact (ih noNul.2).behind room (fuel + 1)
  | @bare word line more some_ bare stop rest ih =>
      rw [List.mem_append, not_or] at noNul
      apply stores_of_room
      intro fuel words room
      have letters := List.length_pos_of_ne_nil some_
      obtain ⟨spare, fuels⟩ : ∃ spare, fuel + (2 * (word ++ line).length + 2) =
          spare + (2 * line.length + 1) + 2 + word.length := by
        refine ⟨fuel + word.length - 1, ?_⟩
        rw [List.length_append]
        omega
      rw [fuels, Scan.at_between, parseLoop_bare room some_ bare noNul.1, parseLoop_stops room stop]
      exact (ih noNul.2).behind room spare
  | @opened lost line quote more bare opens rest ih =>
      rw [List.mem_append, List.mem_cons, not_or, not_or] at noNul
      apply stores_of_room
      intro fuel words room
      rw [Scan.at_between]
      by_cases some_ : lost = []
      · rw [some_, List.nil_append, List.length_cons,
          show fuel + (2 * (line.length + 1) + 2) = (fuel + 1) + (2 * line.length + 2) + 1 by omega]
        exact (ih noNul.2.2).opened room opens (isQuote_ne_zero opens) (fuel + 1) none
      · obtain ⟨spare, fuels⟩ : ∃ spare, fuel + (2 * (lost ++ quote :: line).length + 2) =
            spare + (2 * line.length + 2) + 1 + lost.length := by
          refine ⟨fuel + lost.length + 1, ?_⟩
          rw [List.length_append, List.length_cons]
          omega
        rw [fuels, parseLoop_bare room some_ bare noNul.1]
        exact (ih noNul.2.2).opened room opens (isQuote_ne_zero opens) spare (some lost)
  | @closed word line quote more opens plain rest ih =>
      rw [List.mem_append, List.mem_cons, not_or, not_or] at noNul
      apply stores_of_room
      intro fuel words room
      obtain ⟨spare, fuels⟩ : ∃ spare, fuel + (2 * (word ++ quote :: line).length + 2) =
          spare + (2 * line.length + 2) + 1 + word.length := by
        refine ⟨fuel + word.length + 1, ?_⟩
        rw [List.length_append, List.length_cons]
        omega
      rw [fuels, Scan.at_behind opens, parseLoop_quoted room opens plain, parseLoop_closes room opens]
      exact (ih noNul.2.2).behind room spare
  | @switched lost line quote other more opens plain differs opens' rest ih =>
      rw [List.mem_append, List.mem_cons, not_or, not_or] at noNul
      apply stores_of_room
      intro fuel words room
      obtain ⟨spare, fuels⟩ : ∃ spare, fuel + (2 * (lost ++ other :: line).length + 2) =
          spare + (2 * line.length + 2) + 1 + lost.length := by
        refine ⟨fuel + lost.length + 1, ?_⟩
        rw [List.length_append, List.length_cons]
        omega
      rw [fuels, Scan.at_behind opens, parseLoop_quoted room opens plain]
      exact (ih noNul.2.2).opened room opens' differs spare (some lost)
  | @unclosed word quote opens plain =>
      apply stores_of_room
      intro fuel words room
      have ends : parseLoop memory maxWords (fuel + word.length + 2 + word.length)
          ⟨word ++ [], some [], quote, words⟩ =
            parseLoop memory maxWords (fuel + word.length + 2) ⟨[], some word, quote, words⟩ :=
        parseLoop_quoted room opens plain
      rw [List.append_nil] at ends
      rw [Scan.at_behind opens,
        show fuel + (2 * word.length + 2) = fuel + word.length + 2 + word.length by omega, ends]
      exact parseLoop_ends room

end Loop

/-! ### Every line spells something -/

/-- A list up to the first entry that stops it. -/
theorem exists_stop {Entry : Type} (stops : Entry → Bool) (entries : List Entry) :
    (∀ c ∈ entries, stops c = false) ∨
      ∃ front c back, entries = front ++ c :: back ∧ (∀ d ∈ front, stops d = false) ∧
        stops c = true := by
  induction entries with
  | nil => exact .inl (List.forall_mem_nil _)
  | cons first entries ih =>
      cases here : stops first with
      | true => exact .inr ⟨[], first, entries, rfl, List.forall_mem_nil _, here⟩
      | false =>
          rcases ih with none_ | ⟨front, c, back, split, before, stop⟩
          · exact .inl (List.forall_mem_cons.mpr ⟨here, none_⟩)
          · refine .inr ⟨first :: front, c, back, ?_, List.forall_mem_cons.mpr ⟨here, before⟩, stop⟩
            rw [split, List.cons_append]

def endsBare (c : Byte) : Bool := isSpace c || decide (c = pipe) || isQuote c

theorem bare_iff (c : Byte) : Bare c ↔ endsBare c = false := by
  rw [Bare, endsBare, Bool.or_eq_false_iff, Bool.or_eq_false_iff, decide_eq_false_iff_not, and_assoc]

theorem endsBare_cases {c : Byte} (ends : endsBare c = true) :
    isSpace c = true ∨ c = pipe ∨ isQuote c = true := by
  rw [endsBare, Bool.or_eq_true, Bool.or_eq_true, decide_eq_true_iff, or_assoc] at ends
  exact ends

theorem exists_spells (size : Nat) : ∀ line : List Byte, line.length ≤ size →
    (∃ words, Spells 0 line words) ∧
      ∀ quote, isQuote quote = true → ∃ words, Spells quote line words := by
  induction size with
  | zero =>
      intro line short
      rw [List.eq_nil_of_length_eq_zero (Nat.le_zero.mp short)]
      exact ⟨⟨[], .done⟩, fun quote opens => ⟨[[]], .unclosed opens (List.forall_mem_nil _)⟩⟩
  | succ size ih =>
      intro line short
      constructor
      · rcases exists_stop endsBare line with bare | ⟨front, c, back, split, before, ends⟩
        · by_cases some_ : line = []
          · rw [some_]
            exact ⟨[], .done⟩
          · have whole : Spells 0 (line ++ []) [line] :=
              .bare some_ (fun d member => (bare_iff d).mpr (bare d member)) (by simp) .done
            rw [List.append_nil] at whole
            exact ⟨[line], whole⟩
        · have bare (d : Byte) (member : d ∈ front) : Bare d := (bare_iff d).mpr (before d member)
          have fewer : back.length ≤ size := by
            rw [split, List.length_append, List.length_cons] at short
            omega
          have rest : isQuote c = false → ∃ words, Spells 0 (c :: back) words := by
            intro plain
            rcases (ih back fewer).1 with ⟨words, spells⟩
            rcases endsBare_cases ends with gap | rfl | opens
            · exact ⟨words, .space gap spells⟩
            · exact ⟨[pipe] :: words, .pipe spells⟩
            · rw [plain] at opens
              exact absurd opens (by decide)
          cases opens : isQuote c with
          | true =>
              rcases (ih back fewer).2 c opens with ⟨words, spells⟩
              rw [split]
              exact ⟨words, .opened bare opens spells⟩
          | false =>
              rcases rest opens with ⟨words, spells⟩
              rw [split]
              by_cases some_ : front = []
              · rw [some_, List.nil_append]
                exact ⟨words, spells⟩
              · refine ⟨front :: words, .bare some_ bare ?_ spells⟩
                intro d first
                rw [List.head?_cons, Option.mem_some_iff] at first
                subst first
                rcases endsBare_cases ends with gap | bar | quote
                · exact .inl gap
                · exact .inr bar
                · rw [opens] at quote
                  exact absurd quote (by decide)
      · intro quote opens
        rcases exists_stop isQuote line with plain | ⟨front, c, back, split, plain, other⟩
        · exact ⟨[line], .unclosed opens plain⟩
        · have fewer : back.length ≤ size := by
            rw [split, List.length_append, List.length_cons] at short
            omega
          rw [split]
          by_cases same : c = quote
          · rcases (ih back fewer).1 with ⟨words, spells⟩
            rw [same]
            exact ⟨front :: words, .closed opens plain spells⟩
          · rcases (ih back fewer).2 c other with ⟨words, spells⟩
            exact ⟨words, .switched opens plain same other spells⟩

/-! ### Whole lines -/

/-- The words that are left when each needs memory for its copy. -/
def copied (memory : Nat → Bool) (words : List (List Byte)) : List (List Byte) :=
  if ∀ i < words.length, memory i then words else []

theorem stored_eq (memory : Nat → Bool) (limit : Nat) (words more : List (List Byte))
    (within : words.length ≤ limit) :
    stored memory limit words more =
      if ∀ i, words.length ≤ i → i < limit → i < words.length + more.length → memory i then
        (words ++ more).take limit
      else [] := by
  induction more generalizing words with
  | nil =>
      have none_ : ∀ i, words.length ≤ i → i < limit → i < words.length + 0 → memory i :=
        fun i behind _ before => absurd behind (Nat.not_le.mpr before)
      rw [stored, List.length_nil, if_pos none_, List.append_nil, List.take_of_length_le within]
  | cons word more ih =>
      rw [stored]
      by_cases full : limit ≤ words.length
      · have none_ : ∀ i, words.length ≤ i → i < limit → i < words.length + (word :: more).length →
            memory i := fun i behind before _ => absurd (Nat.lt_of_lt_of_le before full)
              (Nat.not_lt.mpr behind)
        have same : limit = words.length := Nat.le_antisymm full within
        rw [if_pos full, if_pos none_, same, List.take_left]
      · have room : words.length < limit := Nat.not_le.mp full
        rw [if_neg full]
        by_cases there : memory words.length
        · have later : (∀ i, (words ++ [word]).length ≤ i → i < limit →
              i < (words ++ [word]).length + more.length → memory i) ↔
              ∀ i, words.length ≤ i → i < limit → i < words.length + (word :: more).length →
                memory i := by
            rw [List.length_append, List.length_singleton, List.length_cons]
            constructor
            · intro all i behind before inside
              by_cases here : i = words.length
              · rw [here]
                exact there
              · exact all i (by omega) before (by omega)
            · intro all i behind before inside
              exact all i (by omega) before (by omega)
          rw [if_pos there, ih (words ++ [word]) (by
            rw [List.length_append, List.length_singleton]
            exact room), List.append_assoc, List.singleton_append]
          exact if_congr later rfl rfl
        · have missing : ¬ ∀ i, words.length ≤ i → i < limit →
              i < words.length + (word :: more).length → memory i := by
            intro all
            apply there
            apply all words.length (Nat.le_refl _) room
            rw [List.length_cons]
            omega
          rw [if_neg there, if_neg missing]

theorem stored_nil (memory : Nat → Bool) (limit : Nat) (more : List (List Byte)) :
    stored memory limit [] more = copied memory (more.take limit) := by
  have bounds : (∀ i, ([] : List (List Byte)).length ≤ i → i < limit →
      i < ([] : List (List Byte)).length + more.length → memory i) ↔
      ∀ i < (more.take limit).length, memory i := by
    rw [List.length_nil, List.length_take]
    constructor
    · intro all i before
      exact all i (Nat.zero_le i) (by omega) (by omega)
    · intro all i _ before inside
      exact all i (by omega)
  rw [stored_eq memory limit [] more (Nat.zero_le _), List.nil_append, copied]
  exact if_congr bounds rfl rfl

theorem dropWhile_head {line : List Byte} {c : Byte} {rest : List Byte}
    (split : line.dropWhile isSpace = c :: rest) : isSpace c = false := by
  have some_ : line.dropWhile isSpace ≠ [] := by
    rw [split]
    exact List.cons_ne_nil c rest
  have first := List.head_dropWhile_not isSpace some_
  simp only [split, List.head_cons] at first
  exact first

/-- The first byte that is no space begins a word, also when it is a pipe. -/
theorem parseLoop_first (memory : Nat → Bool) (maxWords fuel : Nat) {c : Byte} {rest : List Byte}
    (first : isSpace c = false) (char : c ≠ 0) :
    parseLoop memory maxWords (fuel + 2) ⟨c :: rest, some [], 0, []⟩ =
      if c = pipe then
        if 1 < maxWords then
          if memory 0 then parseLoop memory maxWords (fuel + 1) ⟨c :: rest, none, 0, [[]]⟩ else some []
        else some []
      else parseLoop memory maxWords (fuel + 2) ⟨c :: rest, none, 0, []⟩ := by
  by_cases full : maxWords - 1 ≤ ([] : List (List Byte)).length
  · have small : ¬ 1 < maxWords := by
      rw [List.length_nil] at full
      omega
    rw [parseLoop_full full, parseLoop_full full, if_neg small, ite_self]
  · have large : 1 < maxWords := by
      rw [List.length_nil] at full
      omega
    rw [if_pos large]
    by_cases bar : c = pipe
    · rw [if_pos bar]
      exact parseLoop_stops full (by
        intro d head
        rw [List.head?_cons, Option.mem_some_iff] at head
        rw [← head]
        exact .inr bar)
    · rw [if_neg bar]
      cases opens : isQuote c with
      | true =>
          rw [parseLoop_opens full opens char, parseLoop_opens full opens char]
      | false =>
          rw [parseLoop_take full opens char (fun _ => ⟨first, bar⟩),
            parseLoop_begins full ⟨first, bar, opens⟩ char, List.nil_append]

theorem cliParseLine_eq (memory : Nat → Bool) (maxWords : Nat) {line : List Byte} (noNul : 0 ∉ line)
    {words : List (List Byte)} (spells : Spells 0 (line.dropWhile isSpace) words) :
    cliParseLine memory maxWords line =
      some (copied memory ((lineWords line words).take (maxWords - 1))) := by
  have within : (line.dropWhile isSpace).length ≤ line.length :=
    (List.dropWhile_sublist isSpace).length_le
  have kept : 0 ∉ line.dropWhile isSpace :=
    fun member => noNul ((List.dropWhile_sublist isSpace).subset member)
  have stores : Stores memory maxWords 0 _ words := stores_of_spells spells kept
  obtain ⟨spare, fuels⟩ : ∃ spare, 2 * line.length + 3 =
      spare + 1 + (2 * (line.dropWhile isSpace).length + 2) :=
    ⟨2 * (line.length - (line.dropWhile isSpace).length), by omega⟩
  rw [cliParseLine, fuels, ← stored_nil, lineWords]
  have whole := stores (spare + 1) []
  have behind := stores spare [[]]
  rw [Scan.at_between] at whole behind
  cases split : line.dropWhile isSpace with
  | nil =>
      rw [split] at whole
      rw [if_pos rfl, whole, List.head?_nil, if_neg (Option.some_ne_none pipe).symm]
  | cons c rest =>
      have char : c ≠ 0 := by
        rintro rfl
        rw [split] at kept
        exact kept List.mem_cons_self
      rw [split] at whole behind
      rw [if_neg (List.cons_ne_nil c rest), List.head?_cons, ← Nat.add_assoc,
        parseLoop_first memory maxWords _ (dropWhile_head split) char]
      by_cases bar : c = pipe
      · rw [if_pos bar, if_pos (congrArg some bar), stored]
        by_cases large : 1 < maxWords
        · have room : ¬ maxWords - 1 ≤ ([] : List (List Byte)).length := by
            rw [List.length_nil]
            omega
          rw [if_pos large, if_neg room, List.length_nil, List.nil_append, apply_ite some, ← behind]
          congr 2
          omega
        · have full : maxWords - 1 ≤ ([] : List (List Byte)).length := by
            rw [List.length_nil]
            omega
          rw [if_neg large, if_pos full]
      · have other : ¬ some c = some pipe := fun same => bar (Option.some.inj same)
        rw [if_neg bar, if_neg other, Nat.add_assoc, whole]

theorem exists_words (memory : Nat → Bool) (maxWords : Nat) {line : List Byte} (noNul : 0 ∉ line) :
    ∃ words, cliParseLine memory maxWords line = some words := by
  obtain ⟨spelled, spells⟩ := (exists_spells _ (line.dropWhile isSpace) (Nat.le_refl _)).1
  exact ⟨_, cliParseLine_eq memory maxWords noNul spells⟩

/-- Words as they can always be typed. -/
def write (words : List (List Byte)) : List Byte :=
  words.flatMap (fun word => 0x22 :: word ++ [0x22, 0x20])

/-- What is written in quotes is spelled. -/
theorem spells_write (words : List (List Byte)) (plain : ∀ word ∈ words, ∀ c ∈ word, isQuote c = false) :
    Spells 0 (write words) words := by
  induction words with
  | nil => exact .done
  | cons word words ih =>
      rw [List.forall_mem_cons] at plain
      have split : write (word :: words) = [] ++ 0x22 :: (word ++ 0x22 :: (0x20 :: write words)) := by
        rw [write, List.flatMap_cons, ← write, List.nil_append, List.cons_append, List.cons_append,
          List.append_assoc, List.cons_append, List.cons_append, List.nil_append]
      rw [split]
      apply Spells.opened (List.forall_mem_nil _) (by decide)
      exact .closed (by decide) plain.1 (.space (by decide) (ih plain.2))

/-- A line spells one list of words only. -/
theorem Spells.eq {line : List Byte} (noNul : 0 ∉ line) {words others : List (List Byte)}
    (spells : Spells 0 line words) (also : Spells 0 line others) : words = others := by
  have result {more : List (List Byte)} (spelled : Spells 0 line more) (limit : Nat)
      (room : more.length ≤ limit) :
      parseLoop (fun _ => true) (limit + 1) (2 * line.length + 2) (Scan.at_ 0 line []) = some more := by
    have place : Stores (fun _ => true) (limit + 1) 0 line more := stores_of_spells spelled noNul
    have stores := place 0 []
    rw [Nat.zero_add, Nat.add_sub_cancel, stored_nil, List.take_of_length_le room, copied,
      if_pos (fun _ _ => rfl)] at stores
    exact stores
  have both := (result spells _ (Nat.le_add_right words.length others.length)).symm.trans
    (result also _ (Nat.le_add_left others.length words.length))
  exact Option.some.inj both

/-- `cli_parse_line` gives the first words of the one list that the line spells. -/
theorem parse_line_spells (memory : Nat → Bool) (maxWords : Nat) (line : CString) :
    ∃ spelled, (∀ words, Spells 0 (line.val.dropWhile isSpace) words ↔ words = spelled) ∧
      cliParseLine memory maxWords line.val =
        some (copied memory ((lineWords line.val spelled).take (maxWords - 1))) := by
  have kept : 0 ∉ line.val.dropWhile isSpace :=
    fun member => line.property ((List.dropWhile_sublist isSpace).subset member)
  obtain ⟨spelled, spells⟩ := (exists_spells _ (line.val.dropWhile isSpace) (Nat.le_refl _)).1
  refine ⟨spelled, ?_, cliParseLine_eq memory maxWords line.property spells⟩
  intro words
  constructor
  · intro also
    exact also.eq kept spells
  · rintro rfl
    exact spells

end Alisl.Cli
