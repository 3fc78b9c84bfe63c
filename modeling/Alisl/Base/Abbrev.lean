import Mathlib.Data.List.Basic
import Mathlib.Data.List.Infix
import Mathlib.Data.List.Nodup

/-! Abbreviated names. An entry of a list is taken for a word that begins its name when the
word has as many letters as the entry needs, or all of its letters. -/

namespace Alisl.Base

structure Abbreviated (Entry Letter Kind : Type) where
  name : Entry → List Letter
  kind : Entry → Kind
  needs : Entry → Nat

namespace Abbreviated

variable {Entry Letter Kind : Type} (entries : Abbreviated Entry Letter Kind)

def Takes (kind : Kind) (word : List Letter) (c : Entry) : Prop :=
  entries.kind c = kind ∧ word <+: entries.name c ∧
    (entries.needs c ≤ word.length ∨ entries.name c = word)

instance [DecidableEq Letter] [DecidableEq Kind] (kind : Kind) (word : List Letter) (c : Entry) :
    Decidable (entries.Takes kind word c) :=
  inferInstanceAs (Decidable (_ ∧ _ ∧ (_ ∨ _)))

/-- The word begins this name, and is the whole name or begins no other. -/
def Means (level : List Entry) (word : List Letter) (c : Entry) : Prop :=
  word <+: entries.name c ∧
    (entries.name c = word ∨ ∀ p ∈ level, p ≠ c → ¬ word <+: entries.name p)

/-- What is asked of a shorter word that begins a name: an entry that it means needs no more
letters, and where it may stand for others as well the entry needs more, or an earlier one of the
same kind has the word for its name. -/
structure FitsWord (level : List Entry) (c : Entry) (word : List Letter) : Prop where
  enough : (∀ p ∈ level, p ≠ c → ¬ word <+: entries.name p) → entries.needs c ≤ word.length
  earlier : entries.needs c ≤ word.length → (∃ p ∈ level, p ≠ c ∧ word <+: entries.name p) →
    ∀ front back, level = front ++ c :: back →
      ∃ d ∈ front, entries.kind d = entries.kind c ∧ entries.name d = word

def Fits (Spoken : List Letter → Prop) (level : List Entry) : Prop :=
  ∀ c ∈ level, ∀ word, Spoken word → word <+: entries.name c → entries.name c ≠ word →
    entries.FitsWord level c word

/-- The first entry that is taken is the one the word means. -/
def Resolves [DecidableEq Letter] [DecidableEq Kind] (Spoken : List Letter → Prop)
    (level : List Entry) : Prop :=
  ∀ kind word, Spoken word → ∀ c,
    level.find? (fun p => decide (entries.Takes kind word p)) = some c ↔
      c ∈ level ∧ entries.kind c = kind ∧ entries.Means level word c

variable {entries} [DecidableEq Letter] [DecidableEq Kind] {Spoken : List Letter → Prop}
  {level : List Entry}

omit [DecidableEq Letter] [DecidableEq Kind] in
/-- Only the entries of the list matter. -/
theorem Fits.congr {others : Abbreviated Entry Letter Kind} (fits : entries.Fits Spoken level)
    (name : ∀ p ∈ level, others.name p = entries.name p)
    (kind : ∀ p ∈ level, others.kind p = entries.kind p)
    (needs : ∀ p ∈ level, others.needs p = entries.needs p) : others.Fits Spoken level := by
  intro c member word spoken begins shorter
  rw [name c member] at begins shorter
  have fitting := fits c member word spoken begins shorter
  constructor
  · intro only
    rw [needs c member]
    apply fitting.enough
    intro p inside different
    rw [← name p inside]
    exact only p inside different
  · rintro few ⟨p, inside, different, shared⟩ front back split
    rw [needs c member] at few
    rw [name p inside] at shared
    rcases fitting.earlier few ⟨p, inside, different, shared⟩ front back split with
      ⟨d, first, kinds, named⟩
    have listed : d ∈ level := by
      rw [split]
      exact List.mem_append_left _ first
    exact ⟨d, first, by rw [kind d listed, kind c member, kinds], by rw [name d listed, named]⟩

theorem takes_of_found {kind : Kind} {word : List Letter} {c : Entry}
    (found : level.find? (fun p => decide (entries.Takes kind word p)) = some c) :
    entries.Takes kind word c := by
  have taken := List.find?_some found
  exact of_decide_eq_true taken

theorem fits_of_resolves (resolves : entries.Resolves Spoken level) : entries.Fits Spoken level := by
  intro c member word spoken begins shorter
  constructor
  · intro only
    have found := (resolves (entries.kind c) word spoken c).mpr ⟨member, rfl, begins, .inr only⟩
    rcases (takes_of_found found).2.2 with enough | same
    · exact enough
    · exact absurd same shorter
  · intro enough other front back split
    rcases other with ⟨p, inside, different, shared⟩
    have taken : entries.Takes (entries.kind c) word c := ⟨rfl, begins, .inl enough⟩
    have ambiguous : ¬ entries.Means level word c := by
      intro meant
      rcases meant.2 with whole | only
      · exact shorter whole
      · exact only p inside different shared
    cases first : front.find? (fun p => decide (entries.Takes (entries.kind c) word p)) with
    | none =>
        have found : level.find? (fun p => decide (entries.Takes (entries.kind c) word p)) = some c := by
          rw [split, List.find?_append, first, Option.none_or, List.find?_cons, decide_eq_true taken]
        exact absurd ((resolves (entries.kind c) word spoken c).mp found).2.2 ambiguous
    | some d =>
        have found : level.find? (fun p => decide (entries.Takes (entries.kind c) word p)) = some d := by
          rw [split, List.find?_append, first, Option.some_or]
        rcases (resolves (entries.kind c) word spoken d).mp found with ⟨_, kind, meant⟩
        refine ⟨d, List.mem_of_find?_eq_some first, kind, ?_⟩
        rcases meant.2 with whole | only
        · exact whole
        · have apart : c ≠ d := by
            intro same
            subst same
            exact ambiguous meant
          exact absurd begins (only c member apart)

/-- A taken entry is meant. -/
theorem Fits.means (fits : entries.Fits Spoken level) {kind : Kind} {word : List Letter}
    (spoken : Spoken word) {c : Entry}
    (found : level.find? (fun p => decide (entries.Takes kind word p)) = some c) :
    entries.Means level word c := by
  have taken := takes_of_found found
  have member := List.mem_of_find?_eq_some found
  by_cases whole : entries.name c = word
  · exact ⟨taken.2.1, .inl whole⟩
  refine ⟨taken.2.1, .inr ?_⟩
  intro p inside different shared
  rcases taken.2.2 with enough | same
  · rcases List.find?_eq_some_iff_append.mp found with ⟨_, before, after, split, none_⟩
    rcases (fits c member word spoken taken.2.1 whole).earlier enough ⟨p, inside, different, shared⟩
      before after split with ⟨d, first, kinds, named⟩
    have early : entries.Takes kind word d :=
      ⟨kinds.trans taken.1, named ▸ List.prefix_rfl, .inr named⟩
    have missed := none_ d first
    rw [decide_eq_true early] at missed
    cases missed
  · exact whole same

theorem resolves_of_fits (distinct : ∀ c ∈ level, ∀ d ∈ level, entries.name c = entries.name d → c = d)
    (fits : entries.Fits Spoken level) : entries.Resolves Spoken level := by
  intro kind word spoken c
  constructor
  · intro found
    exact ⟨List.mem_of_find?_eq_some found, (takes_of_found found).1, fits.means spoken found⟩
  · rintro ⟨member, right, begins, meant⟩
    have taken : entries.Takes kind word c := by
      refine ⟨right, begins, ?_⟩
      by_cases whole : entries.name c = word
      · exact .inr whole
      · left
        apply (fits c member word spoken begins whole).enough
        rcases meant with same | only
        · exact absurd same whole
        · exact only
    cases found : level.find? (fun p => decide (entries.Takes kind word p)) with
    | none =>
        rw [List.find?_eq_none] at found
        exact absurd (decide_eq_true taken) (found c member)
    | some d =>
        have other := List.mem_of_find?_eq_some found
        have both := fits.means spoken found
        congr 1
        by_contra apart
        -- both are named by the word, since neither is the only one it begins
        have mine : entries.name c = word := by
          rcases meant with whole | only
          · exact whole
          · exact absurd both.1 (only d other apart)
        have its : entries.name d = word := by
          rcases both.2 with whole | only
          · exact whole
          · exact absurd begins (only c member (Ne.symm apart))
        exact apart (distinct d other c member (its.trans mine.symm))

theorem resolves_iff_fits
    (distinct : ∀ c ∈ level, ∀ d ∈ level, entries.name c = entries.name d → c = d) :
    entries.Resolves Spoken level ↔ entries.Fits Spoken level :=
  ⟨fits_of_resolves, resolves_of_fits distinct⟩

end Abbreviated

end Alisl.Base
