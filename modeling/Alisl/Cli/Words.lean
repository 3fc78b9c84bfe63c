import Alisl.Base.Abbrev
import Alisl.Base.Siblings
import Alisl.Cli.Menu

/-! What a word selects in a list of commands. -/

namespace Alisl.Cli

open Alisl.Base
open Alisl.Base.Forest (Context)

/-- A name without its case. -/
def fold (name : List Byte) : List Byte := name.map toLower

theorem strncasecmpZero_iff (a b : List Byte) (n : Nat) :
    strncasecmpZero a b n = true ↔ (fold a).take n = (fold b).take n := by
  induction n generalizing a b with
  | zero => simp [strncasecmpZero]
  | succ n ih =>
      cases a with
      | nil =>
          cases b with
          | nil => simp [strncasecmpZero]
          | cons c cs => simp [strncasecmpZero, fold]
      | cons c cs =>
          cases b with
          | nil => simp [strncasecmpZero, fold]
          | cons d ds =>
              rw [strncasecmpZero, Bool.and_eq_true, decide_eq_true_iff, ih]
              simp [fold]

/-- Beyond the end of a prefix only the whole agrees with it. -/
theorem take_eq_of_prefix {word name : List Byte} (begins : word <+: name) (n : Nat) :
    name.take n = word.take n ↔ n ≤ word.length ∨ name = word := by
  rcases begins with ⟨rest, split⟩
  rw [← split, List.take_append, List.append_right_eq_self, List.append_right_eq_self,
    List.take_eq_nil_iff, Nat.sub_eq_zero_iff_le]

def modeOf (cells : Cells Command) (p : Ptr) : Nat := (cells.read p).elim 0 Command.mode

def uniqueLenOf (cells : Cells Command) (p : Ptr) : Nat := (cells.read p).elim 0 Command.uniqueLen

/-- The commands as entries that need their unique length. -/
def entries (cells : Cells Command) : Abbreviated Ptr Byte Nat where
  name p := fold (nameOf cells p)
  kind := modeOf cells
  needs := uniqueLenOf cells

/-- What may be typed: a word that is not empty and has no '?' at its end. -/
def CString.Spoken (word : CString) : Prop := word.val ≠ [] ∧ word.val.getLast? ≠ some 0x3f

def Spoken (folded : List Byte) : Prop := ∃ word : CString, word.Spoken ∧ fold word.val = folded

/-- The loop asks what the entries ask. -/
theorem takes_eq (cells : Cells Command) (mode : Nat) {word : List Byte} (some_ : word ≠ []) (c : Ptr) :
    Takes cells mode word c = decide ((entries cells).Takes mode (fold word) c) := by
  rw [Bool.eq_iff_iff, decide_eq_true_iff, Takes]
  have length : (fold word).length = word.length := List.length_map ..
  cases there : cells.read c with
  | none =>
      have none_ : (entries cells).name c = [] := by
        show fold (nameOf cells c) = []
        rw [nameOf, there]
        rfl
      constructor
      · intro taken
        cases taken
      · intro taken
        have begins := taken.2.1
        rw [none_, List.prefix_nil] at begins
        exact absurd (List.map_eq_nil_iff.mp begins) some_
  | some node =>
      have name : (entries cells).name c = fold node.command.val := by
        show fold (nameOf cells c) = _
        rw [nameOf, there, Option.elim_some]
      have kind : (entries cells).kind c = node.mode := by
        show modeOf cells c = _
        rw [modeOf, there, Option.elim_some]
      have needs : (entries cells).needs c = node.uniqueLen := by
        show uniqueLenOf cells c = _
        rw [uniqueLenOf, there, Option.elim_some]
      have begins : strncasecmpZero node.command.val word word.length = true ↔
          fold word <+: fold node.command.val := by
        rw [strncasecmpZero_iff, ← length, List.take_length, List.prefix_iff_eq_take, eq_comm]
      rw [Option.elim_some, Bool.and_eq_true, Bool.and_eq_true, decide_eq_true_iff, begins,
        Abbreviated.Takes, name, kind, needs, and_assoc, and_comm (b := fold word <+: _)]
      apply and_congr_right
      intro _
      apply and_congr_right
      intro prefix_
      rw [strncasecmpZero_iff, take_eq_of_prefix prefix_]

/-- In every list the matching loop selects just the command of the mode that the word means. -/
def Resolves (cli : CliDef) (forest : Forest Ptr) : Prop :=
  ∀ level ∈ forest.lists, ∀ (mode : Nat) (word : CString), word.Spoken → ∀ c,
    selectCommand cli.cells mode word.val cli.cells.length level.head? = some (some c) ↔
      c ∈ level ∧ modeOf cli.cells c = mode ∧ (entries cli.cells).Means level (fold word.val) c

/-- Siblings have different names, also when case is ignored. -/
def Distinct (name : Ptr → List Byte) (forest : Forest Ptr) : Prop :=
  ∀ level ∈ forest.lists, ∀ c ∈ level, ∀ d ∈ level, fold (name c) = fold (name d) → c = d

theorem selectCommand_level {cli : CliDef} {forest : Forest Ptr} (represents : Represents cli forest)
    {level : List Ptr} (listed : level ∈ forest.lists) (mode : Nat) {word : List Byte}
    (some_ : word ≠ []) :
    selectCommand cli.cells mode word cli.cells.length level.head? =
      some (level.find? (fun p => decide ((entries cli.cells).Takes mode (fold word) p))) := by
  rcases Forest.exists_of_mem_lists listed with ⟨context, part, place, roots⟩
  have shows := represents.cells
  have distinct := represents.distinct
  rw [place] at shows distinct
  have same : Takes cli.cells mode word =
      fun p => decide ((entries cli.cells).Takes mode (fold word) p) :=
    funext (takes_eq cli.cells mode some_)
  rw [← roots, ← Forest.head?_eq, selectCommand_eq mode word _ shows distinct (shows.fuel distinct), same]

/-- Every word selects what it means exactly when the stored lengths fit the names. -/
theorem resolves_iff {cli : CliDef} {forest : Forest Ptr} (represents : Represents cli forest)
    (distinct : Distinct (nameOf cli.cells) forest) :
    Resolves cli forest ↔ ∀ level ∈ forest.lists, (entries cli.cells).Fits Spoken level := by
  apply forall_congr'
  intro level
  apply forall_congr'
  intro listed
  rw [← Abbreviated.resolves_iff_fits (distinct level listed)]
  constructor
  · rintro selects mode _ ⟨word, spoken, rfl⟩ c
    have selected := selects mode word spoken c
    rw [selectCommand_level represents listed mode spoken.1, Option.some_inj] at selected
    exact selected
  · intro selects mode word spoken c
    rw [selectCommand_level represents listed mode spoken.1, Option.some_inj]
    exact selects mode (fold word.val) ⟨word, spoken, rfl⟩ c

/-! ### Lengths that were just built -/

theorem matchLen_le_iff (name other : List Byte) (n : Nat) :
    matchLen name other ≤ n ↔ ¬ (n ≤ name.length ∧ name.take n <+: other) := by
  induction n generalizing name other with
  | zero =>
      have positive : 1 ≤ matchLen name other := by
        cases name with
        | nil => exact Nat.le_refl 1
        | cons c cs =>
            cases other with
            | nil => exact Nat.le_refl 1
            | cons d ds =>
                rw [matchLen]
                split <;> omega
      simp only [List.take_zero, List.nil_prefix, Nat.zero_le, and_self, not_true, iff_false]
      omega
  | succ n ih =>
      cases name with
      | nil => simp [matchLen]
      | cons c cs =>
          cases other with
          | nil => simp [matchLen]
          | cons d ds =>
              rw [matchLen, List.take_succ_cons, List.cons_prefix_cons, List.length_cons,
                Nat.add_le_add_iff_right]
              by_cases same : c = d
              · rw [if_pos same, Nat.add_le_add_iff_right, ih, and_iff_right same]
              · rw [if_neg same]
                simp [same]

theorem foldl_le_iff (f : Ptr → Nat) (c : Ptr) (level : List Ptr) (start n : Nat) :
    level.foldl (fun len p => if c = p then len else if len < f p then f p else len) start ≤ n ↔
      start ≤ n ∧ ∀ p ∈ level, p ≠ c → f p ≤ n := by
  induction level generalizing start with
  | nil => simp
  | cons p level ih =>
      rw [List.foldl_cons, ih, List.forall_mem_cons]
      by_cases same : c = p
      · simp [same]
      · rw [if_neg same]
        have other : p ≠ c := Ne.symm same
        have step : (if start < f p then f p else start) ≤ n ↔ start ≤ n ∧ f p ≤ n := by
          split <;> omega
        rw [step, and_assoc, forall_prop_of_true other]

theorem shortest_le_iff (name : Ptr → List Byte) (level : List Ptr) (c : Ptr) (n : Nat) :
    shortest name level c ≤ n ↔
      1 ≤ n ∧ ∀ p ∈ level, p ≠ c → ¬ (n ≤ (name c).length ∧ (name c).take n <+: name p) := by
  rw [shortest, foldl_le_iff (fun p => matchLen (name c) (name p))]
  apply and_congr_right
  intro _
  apply forall₂_congr
  intro p _
  rw [matchLen_le_iff]

/-- Where siblings share the first letters of a command, one of them shares them in their case, or
an earlier one of its mode is named by them. -/
def NamesFit (name : Ptr → List Byte) (kind : Ptr → Nat) (level : List Ptr) : Prop :=
  ∀ c ∈ level, ∀ word, Spoken word → word <+: fold (name c) → fold (name c) ≠ word →
    (∃ p ∈ level, p ≠ c ∧ word <+: fold (name p)) →
      (∃ p ∈ level, p ≠ c ∧ (name c).take word.length <+: name p) ∨
        ∀ front back, level = front ++ c :: back →
          ∃ d ∈ front, kind d = kind c ∧ fold (name d) = word

theorem NamesFit.congr {name others : Ptr → List Byte} {kind kinds : Ptr → Nat} {level : List Ptr}
    (fit : NamesFit name kind level) (names : ∀ p ∈ level, others p = name p)
    (same : ∀ p ∈ level, kinds p = kind p) : NamesFit others kinds level := by
  intro c member word spoken begins shorter other
  rw [names c member] at begins shorter
  rcases other with ⟨p, inside, different, shared⟩
  rw [names p inside] at shared
  rcases fit c member word spoken begins shorter ⟨p, inside, different, shared⟩ with
    ⟨q, there, apart, exact_⟩ | earlier
  · exact .inl ⟨q, there, apart, by rw [names c member, names q there]; exact exact_⟩
  · right
    intro front back split
    rcases earlier front back split with ⟨d, first, kind_, named⟩
    have listed : d ∈ level := by
      rw [split]
      exact List.mem_append_left _ first
    exact ⟨d, first, by rw [same d listed, same c member, kind_], by rw [names d listed, named]⟩

/-- Lengths that were just built fit when the names do. -/
theorem fits_iff_namesFit {cells : Cells Command} {level : List Ptr}
    (built : ∀ c ∈ level, uniqueLenOf cells c = shortest (nameOf cells) level c) :
    (entries cells).Fits Spoken level ↔ NamesFit (nameOf cells) (modeOf cells) level := by
  apply forall₂_congr
  intro c member
  apply forall₂_congr
  intro word spoken
  apply forall₂_congr
  intro begins shorter
  have length : (fold (nameOf cells c)).length = (nameOf cells c).length := List.length_map ..
  have within : word.length ≤ (nameOf cells c).length := by
    rw [← length]
    exact begins.length_le
  have letters : 1 ≤ word.length := by
    rcases spoken with ⟨typed, said, rfl⟩
    rw [fold, List.length_map]
    exact List.length_pos_of_ne_nil said.1
  have enough : (entries cells).needs c ≤ word.length ↔
      ¬ ∃ p ∈ level, p ≠ c ∧ (nameOf cells c).take word.length <+: nameOf cells p := by
    show uniqueLenOf cells c ≤ _ ↔ _
    rw [built c member, shortest_le_iff, and_iff_right letters]
    simp only [not_exists, not_and, within, true_implies]
  constructor
  · rintro ⟨_, earlier⟩ other
    by_cases exact_ : ∃ p ∈ level, p ≠ c ∧ (nameOf cells c).take word.length <+: nameOf cells p
    · exact .inl exact_
    · exact .inr (earlier (enough.mpr exact_) other)
  · intro names
    constructor
    · intro only
      apply enough.mpr
      rintro ⟨p, inside, different, shared⟩
      apply only p inside different
      have folded := shared.map toLower
      have same : ((nameOf cells c).take word.length).map toLower = word := by
        rw [List.map_take]
        exact (List.prefix_iff_eq_take.mp begins).symm
      rw [same] at folded
      exact folded
    · intro few other
      rcases names other with exact_ | earlier
      · exact absurd exact_ (enough.mp few)
      · exact earlier

end Alisl.Cli
