import Alisl.Storage.MtdTable

/-! The handles of the MTD devices: one for each open device, in the entry of its number. -/

namespace Alisl.Storage

open Alisl.Base

namespace Table

variable {text : List Char} {table after : Table}

/-- The handles are the open devices, each in the entry of its number, and the counts of a device
are those of the calls. -/
structure Orderly (text : List Char) (table : Table) : Prop where
  tame : table.wild = false
  parts : ∀ i, i < table.partCount →
    ∃ entries, procMtd text = some entries ∧ entries[i]? = some (table.partinfo i)
  counted : ∀ entries, procMtd text = some entries →
    table.count = 0 ∨ table.count = entries.length
  slots : ∀ i h, table.list i = some h →
    i < table.count ∧ ∃ dev, table.dev h = some dev ∧ dev.mtd = i ∧ 0 < dev.openCnt
  owned : ∀ h dev, table.dev h = some dev →
    ∃ i : Nat, dev.mtd = i ∧ table.list i = some h ∧ table.closes i + dev.openCnt = table.opens i
  idle : ∀ n : Int, (∀ i : Nat, n = i → table.list i = none) → table.closes n = table.opens n
  fresh : ∀ h, table.fresh ≤ h → table.dev h = none
  accesses : ∀ access ∈ table.accesses, 0 ≤ access.1 ∧ access.1 < access.2

/-- A scan changes only the partitions and the length of the handle list. -/
structure Scanned (table scanned : Table) : Prop where
  list : scanned.list = table.list
  count : table.count ≤ scanned.count
  dev : scanned.dev = table.dev
  fresh : scanned.fresh = table.fresh
  accesses : scanned.accesses = table.accesses
  opens : scanned.opens = table.opens
  closes : scanned.closes = table.closes
  wild : scanned.wild = table.wild

theorem fits_le (partFails : Option Nat) (n : Nat) : fits partFails n ≤ n := by
  cases partFails with
  | none => exact le_refl n
  | some k => exact min_le_left _ _

theorem Orderly.scanned {scanned : Table} (orderly : Orderly text table) (same : Scanned table scanned)
    (parts : ∀ i, i < scanned.partCount →
      ∃ entries, procMtd text = some entries ∧ entries[i]? = some (scanned.partinfo i))
    (counted : ∀ entries, procMtd text = some entries →
      scanned.count = 0 ∨ scanned.count = entries.length) :
    Orderly text scanned := by
  constructor
  case tame => rw [same.wild, orderly.tame]
  case parts => exact parts
  case counted => exact counted
  case slots =>
    intro i h found
    rw [same.list] at found
    rcases orderly.slots i h found with ⟨inside, rest⟩
    rw [same.dev]
    exact ⟨lt_of_lt_of_le inside same.count, rest⟩
  case owned =>
    rw [same.dev, same.list, same.opens, same.closes]
    exact orderly.owned
  case idle =>
    rw [same.list, same.opens, same.closes]
    exact orderly.idle
  case fresh =>
    rw [same.fresh, same.dev]
    exact orderly.fresh
  case accesses =>
    rw [same.accesses]
    exact orderly.accesses

/-- New entries of the handle list hold no handle. -/
theorem Orderly.list_eq (orderly : Orderly text table) (n : Nat) :
    (fun i => if table.count ≤ i ∧ i < n then none else table.list i) = table.list := by
  funext i
  split
  case isTrue beyond =>
    cases found : table.list i with
    | none => rfl
    | some h => exact absurd (orderly.slots i h found).1 (by omega)
  case isFalse => rfl

theorem Orderly.getPartinfo {scanned : Table} (orderly : Orderly text table) {answers : Answers}
    (moved : table.getPartinfo text answers = some scanned) :
    Orderly text scanned ∧ Scanned table scanned := by
  unfold Table.getPartinfo at moved
  split at moved
  · cases moved
    exact ⟨orderly, rfl, le_refl _, rfl, rfl, rfl, rfl, rfl, rfl⟩
  · rcases Option.map_eq_some_iff.mp moved with ⟨parts, parsed, made⟩
    have read : ∀ i, i < fits answers.partFails parts.length →
        ∃ entries, procMtd text = some entries ∧
          entries[i]? = some (if i < fits answers.partFails parts.length
            then parts[i]?.getD ⟨[], 0⟩ else table.partinfo i) := by
      intro i below
      have inside := lt_of_lt_of_le below (fits_le answers.partFails parts.length)
      exact ⟨parts, parsed, by simp [inside, below]⟩
    dsimp only at made
    split at made
    · have same : Scanned table scanned := by
        rw [← made]
        exact ⟨rfl, le_refl _, rfl, rfl, rfl, rfl, rfl, rfl⟩
      refine ⟨orderly.scanned same ?_ ?_, same⟩
      · rw [← made]
        exact read
      · rw [← made]
        exact orderly.counted
    · split at made
      case isTrue grows =>
        have same : Scanned table scanned := by
          rw [← made]
          exact ⟨orderly.list_eq parts.length, le_of_lt grows.1, rfl, rfl, rfl, rfl, rfl, rfl⟩
        refine ⟨orderly.scanned same ?_ ?_, same⟩
        · rw [← made]
          exact read
        · intro entries other
          rw [parsed, Option.some.injEq] at other
          rw [← made, other]
          exact .inr rfl
      case isFalse =>
        have same : Scanned table scanned := by
          rw [← made]
          exact ⟨rfl, le_refl _, rfl, rfl, rfl, rfl, rfl, rfl⟩
        refine ⟨orderly.scanned same ?_ ?_, same⟩
        · rw [← made]
          exact read
        · rw [← made]
          exact orderly.counted

/-- The handle is that of an open device. -/
def Live (table : Table) (handle : Option Nat) (mtd : Int) : Prop :=
  ∃ h dev, handle = some h ∧ table.dev h = some dev ∧ dev.mtd = mtd

/-- Handles are new only once. -/
theorem Orderly.held_lt (orderly : Orderly text table) {h : Nat} {dev : Dev}
    (held : table.dev h = some dev) : h < table.fresh := by
  by_contra above
  rw [orderly.fresh h (Nat.not_lt.mp above)] at held
  cases held

theorem Orderly.enter (orderly : Orderly text table) {i : Nat} (inside : i < table.count)
    (free : table.list i = none) : Orderly text (table.enter i) := by
  have even := orderly.idle i (fun j same => by rw [← Int.ofNat.inj same]; exact free)
  constructor
  case tame => exact orderly.tame
  case parts => exact orderly.parts
  case counted => exact orderly.counted
  case slots =>
    intro j h found
    unfold Table.enter at found ⊢
    dsimp only at found ⊢
    rcases eq_or_ne j i with rfl | other
    · simp only [Function.update_self, Option.some.injEq] at found
      subst found
      exact ⟨inside, ⟨j, 1⟩, by simp, rfl, Nat.one_pos⟩
    · rw [Function.update_of_ne other] at found
      rcases orderly.slots j h found with ⟨below, dev, held, rest⟩
      have older : h ≠ table.fresh := ne_of_lt (orderly.held_lt held)
      exact ⟨below, dev, by simpa [Function.update_of_ne older] using held, rest⟩
  case owned =>
    intro h dev held
    unfold Table.enter at held ⊢
    dsimp only at held ⊢
    rcases eq_or_ne h table.fresh with rfl | older
    · rw [Function.update_self, Option.some.injEq] at held
      subst held
      exact ⟨i, rfl, by simp, by simp [even]⟩
    · rw [Function.update_of_ne older] at held
      rcases orderly.owned h dev held with ⟨j, number, listed, counted⟩
      have other : j ≠ i := by
        rintro rfl
        simp [free] at listed
      refine ⟨j, number, by simpa [other] using listed, ?_⟩
      simpa [other] using counted
  case idle =>
    intro n empty
    unfold Table.enter at empty ⊢
    dsimp only at empty ⊢
    have other : n ≠ i := by
      rintro rfl
      simpa using empty i rfl
    rw [Function.update_of_ne other]
    apply orderly.idle
    intro j same
    have listed := empty j same
    rwa [Function.update_of_ne (by rintro rfl; exact other same)] at listed
  case fresh =>
    intro h above
    have newer : table.fresh + 1 ≤ h := above
    unfold Table.enter
    dsimp only
    rw [Function.update_of_ne (by omega)]
    exact orderly.fresh h (by omega)
  case accesses => exact orderly.accesses

theorem Orderly.openNew (orderly : Orderly text table) (answers : Answers) {i : Nat}
    (inside : i < table.count) (free : table.list i = none) :
    Orderly text (table.openNew answers i).2.2 ∧
      ((table.openNew answers i).1 = .none →
        Live (table.openNew answers i).2.2 (table.openNew answers i).2.1 i) := by
  unfold Table.openNew
  split
  · exact ⟨orderly, by simp⟩
  · split
    · exact ⟨orderly, by simp⟩
    · split
      · exact ⟨orderly, by simp⟩
      · refine ⟨orderly.enter inside free, ?_⟩
        intro _
        exact ⟨table.fresh, ⟨i, 1⟩, rfl, by simp [Table.enter], rfl⟩

/-- Only the count of one device and of its calls changes. -/
theorem Orderly.recount (orderly : Orderly text table) {h : Nat} {dev : Dev}
    (held : table.dev h = some dev) {openCnt : Nat} (positive : 0 < openCnt) {opens closes : Int → Nat}
    (counted : closes dev.mtd + openCnt = opens dev.mtd)
    (others : ∀ n, n ≠ dev.mtd → closes n = table.closes n ∧ opens n = table.opens n) :
    Orderly text { table with
      dev := Function.update table.dev h (some { dev with openCnt }), opens, closes } := by
  rcases orderly.owned h dev held with ⟨slot, number, listed, _⟩
  constructor
  case tame => exact orderly.tame
  case parts => exact orderly.parts
  case counted => exact orderly.counted
  case slots =>
    intro i other found
    dsimp only at found ⊢
    rcases orderly.slots i other found with ⟨inside, old, had, same, rest⟩
    refine ⟨inside, ?_⟩
    rcases eq_or_ne other h with rfl | apart
    · rw [held, Option.some.injEq] at had
      subst had
      exact ⟨{ dev with openCnt }, by simp, same, positive⟩
    · exact ⟨old, by simpa [apart] using had, same, rest⟩
  case owned =>
    intro other old had
    dsimp only at had ⊢
    rcases eq_or_ne other h with rfl | apart
    · rw [Function.update_self, Option.some.injEq] at had
      subst had
      refine ⟨slot, number, listed, ?_⟩
      rw [← number]
      exact counted
    · rw [Function.update_of_ne apart] at had
      rcases orderly.owned other old had with ⟨i, same, entry, sum⟩
      have elsewhere : (i : Int) ≠ dev.mtd := by
        intro equal
        rw [number] at equal
        rw [Int.ofNat.inj equal, listed, Option.some.injEq] at entry
        exact apart entry.symm
      refine ⟨i, same, entry, ?_⟩
      rw [(others i elsewhere).1, (others i elsewhere).2]
      exact sum
  case idle =>
    intro n empty
    have elsewhere : n ≠ dev.mtd := by
      intro equal
      have none := empty slot (equal.trans number)
      simp [listed] at none
    dsimp only
    rw [(others n elsewhere).1, (others n elsewhere).2]
    exact orderly.idle n empty
  case fresh =>
    intro other above
    have apart : other ≠ h := ne_of_gt (lt_of_lt_of_le (orderly.held_lt held) above)
    dsimp only
    rw [Function.update_of_ne apart]
    exact orderly.fresh other above
  case accesses => exact orderly.accesses

theorem Orderly.share (orderly : Orderly text table) {h : Nat} {dev : Dev}
    (held : table.dev h = some dev) : Orderly text (table.share h dev) := by
  rcases orderly.owned h dev held with ⟨i, number, _, counted⟩
  apply orderly.recount held (Nat.succ_pos _)
  · rw [Function.update_self, number]
    omega
  · intro n other
    exact ⟨rfl, Function.update_of_ne other _ _⟩

theorem Orderly.release (orderly : Orderly text table) {h : Nat} {dev : Dev}
    (held : table.dev h = some dev) (more : dev.openCnt - 1 ≠ 0) :
    Orderly text ((table.countClose dev.mtd).release h dev) := by
  rcases orderly.owned h dev held with ⟨i, number, _, counted⟩
  apply orderly.recount held (Nat.pos_of_ne_zero more)
  · simp only [countClose, Function.update_self]
    rw [number]
    omega
  · intro n other
    exact ⟨Function.update_of_ne other _ _, rfl⟩

theorem Orderly.drop (orderly : Orderly text table) {h : Nat} {dev : Dev}
    (held : table.dev h = some dev) (last : dev.openCnt - 1 = 0) (positive : dev.openCnt ≠ 0) :
    Orderly text ((table.countClose dev.mtd).drop h) := by
  rcases orderly.owned h dev held with ⟨slot, number, listed, counted⟩
  have only : ∀ i, table.list i = some h → i = slot := by
    intro i found
    rcases orderly.slots i h found with ⟨_, old, had, same, _⟩
    rw [held, Option.some.injEq] at had
    subst had
    exact Int.ofNat.inj (same.symm.trans number)
  have cleared : ∀ i, ((table.countClose dev.mtd).drop h).list i =
      if i = slot then none else table.list i := by
    intro i
    show (if i < table.count ∧ table.list i = some h then none else table.list i) = _
    rcases eq_or_ne i slot with rfl | other
    · rw [if_pos ⟨(orderly.slots i h listed).1, listed⟩, if_pos rfl]
    · rw [if_neg (fun found => other (only i found.2)), if_neg other]
  constructor
  case tame => exact orderly.tame
  case parts => exact orderly.parts
  case counted => exact orderly.counted
  case slots =>
    intro i other found
    rw [cleared] at found
    split at found
    case isTrue => cases found
    case isFalse apart =>
      rcases orderly.slots i other found with ⟨inside, old, had, rest⟩
      refine ⟨inside, old, ?_, rest⟩
      have different : other ≠ h := by
        rintro rfl
        exact apart (only i found)
      show Function.update table.dev h none other = some old
      rw [Function.update_of_ne different, had]
  case owned =>
    intro other old had
    have different : other ≠ h := by
      rintro rfl
      simp [Table.drop] at had
    have before : table.dev other = some old := by
      simpa [Table.drop, countClose, different] using had
    rcases orderly.owned other old before with ⟨i, same, entry, sum⟩
    have apart : i ≠ slot := by
      rintro rfl
      rw [listed, Option.some.injEq] at entry
      exact different entry.symm
    refine ⟨i, same, by rw [cleared, if_neg apart, entry], ?_⟩
    have elsewhere : (i : Int) ≠ dev.mtd := by
      rw [number]
      exact fun equal => apart (Int.ofNat.inj equal)
    show Function.update table.closes dev.mtd _ i + old.openCnt = table.opens i
    rw [Function.update_of_ne elsewhere, sum]
  case idle =>
    intro n empty
    show Function.update table.closes dev.mtd (table.closes dev.mtd + 1) n = table.opens n
    rcases eq_or_ne n dev.mtd with rfl | other
    · rw [Function.update_self, number]
      omega
    · rw [Function.update_of_ne other]
      apply orderly.idle
      intro i same
      have none := empty i same
      rw [cleared, if_neg] at none
      · exact none
      · rintro rfl
        exact other (same.trans number.symm)
  case fresh =>
    intro other above
    have apart : other ≠ h := ne_of_gt (lt_of_lt_of_le (orderly.held_lt held) above)
    show Function.update table.dev h none other = none
    rw [Function.update_of_ne apart]
    exact orderly.fresh other above
  case accesses =>
    intro access member
    rcases List.mem_append.mp member with looped | before
    · rcases List.mem_map.mp looped with ⟨i, below, rfl⟩
      have inside := List.mem_range.mp below
      exact ⟨Int.natCast_nonneg i, Int.ofNat_lt.mpr inside⟩
    · exact orderly.accesses access before

theorem Orderly.mtdClose (orderly : Orderly text table) {handle : Option Nat} {ret : Ret}
    (moved : table.mtdClose handle = some (ret, after)) : Orderly text after := by
  cases handle with
  | none =>
      cases moved
      exact orderly
  | some h =>
      rcases Option.map_eq_some_iff.mp moved with ⟨dev, held, made⟩
      split at made
      · cases made
        exact orderly
      case isFalse positive =>
        split at made
        case isTrue more =>
          cases made
          exact orderly.release held more
        case isFalse last =>
          cases made
          exact orderly.drop held (not_not.mp last) positive

/-- The index is in the bounds of the handle list, or larger and refused. -/
def inBounds (table : Table) (index : Int) : Bool :=
  decide (table.tooLarge index) || (decide (0 ≤ index) && decide (index ≠ table.count))

theorem Orderly.access (orderly : Orderly text table) {index : Int} (low : 0 ≤ index)
    (high : index < table.count) :
    Orderly text { table with accesses := (index, table.count) :: table.accesses } where
  tame := orderly.tame
  parts := orderly.parts
  counted := orderly.counted
  slots := orderly.slots
  owned := orderly.owned
  idle := orderly.idle
  fresh := orderly.fresh
  accesses := by
    intro access member
    rcases List.mem_cons.mp member with rfl | before
    · exact ⟨low, high⟩
    · exact orderly.accesses access before

theorem Orderly.mtdOpen (orderly : Orderly text table) {answers : Answers} {index : Int}
    {ret : Ret} {handle : Option Nat}
    (bounded : ∀ scanned, (if table.tooLarge index then table.getPartinfo text answers
      else some table) = some scanned → scanned.inBounds index = true)
    (moved : table.mtdOpen text answers index = some (ret, handle, after)) :
    Orderly text after ∧ (ret = .none → Live after handle index) := by
  rcases Option.bind_eq_some_iff.mp moved with ⟨scanned, scan, moved⟩
  have bounds := bounded scanned scan
  have good : Orderly text scanned := by
    split at scan
    · exact (orderly.getPartinfo scan).1
    · cases scan
      exact orderly
  split at moved
  case isTrue =>
    cases moved
    exact ⟨good, by simp⟩
  case isFalse fits =>
    have low : 0 ≤ index ∧ index ≠ scanned.count := by
      simpa [inBounds, fits] using bounds
    have high : index < scanned.count := by
      have below : ¬ index > scanned.count := fun above => fits (.inr above)
      omega
    have access := good.access low.1 high
    dsimp only at moved
    rw [if_neg (by omega)] at moved
    have inside : index.toNat < scanned.count := by omega
    have same : (index.toNat : Int) = index := Int.toNat_of_nonneg low.1
    split at moved
    case h_1 free =>
      have spec := access.openNew answers inside free
      rw [Option.some.inj moved, same] at spec
      exact spec
    case h_2 h listed =>
      rcases Option.map_eq_some_iff.mp moved with ⟨dev, held, made⟩
      rcases access.slots index.toNat h listed with ⟨_, old, had, number, positive⟩
      rw [had, Option.some.injEq] at held
      subst held
      rw [if_pos (Nat.pos_iff_ne_zero.mp positive)] at made
      cases made
      refine ⟨access.share had, ?_⟩
      intro _
      exact ⟨h, _, rfl, Function.update_self _ _ _, number.trans same⟩

/-- Nothing the open of entry `i` asks of the system fails. -/
def reaches (table : Table) (again : Answers) (i : Nat) : Bool :=
  (decide (table.count ≠ 0) ||
    (again.fopen && decide (again.partFails = none) && again.handleList)) &&
    ((table.list i).isSome || (again.path && again.construct && again.opened))

/-- A scan in which nothing fails gives every partition an entry. -/
theorem getPartinfo_count {answers : Answers} {parts : List PartInfo} {scanned : Table}
    (parsed : procMtd text = some parts) (any : parts ≠ []) (empty : table.count = 0)
    (fine : (answers.fopen && decide (answers.partFails = none) && answers.handleList) = true)
    (scan : table.getPartinfo text answers = some scanned) : scanned.count = parts.length := by
  simp only [Bool.and_eq_true, decide_eq_true_iff] at fine
  have positive : 0 < parts.length := List.length_pos_of_ne_nil any
  simp only [Table.getPartinfo, fine.1.1, fine.1.2, fine.2, parsed, fits, empty] at scan
  simp [positive, any] at scan
  rw [← scan]

theorem Orderly.reached (orderly : Orderly text table) {again : Answers} {i : Nat}
    (known : i < table.partCount) (reaches : table.reaches again i = true) :
    (∀ scanned, (if table.tooLarge i then table.getPartinfo text again else some table) =
      some scanned → scanned.inBounds i = true) ∧
    ∀ result, table.mtdOpen text again i = some result → result.1 = .none := by
  rcases orderly.parts i known with ⟨entries, parsed, entry⟩
  have inside : i < entries.length := (List.getElem?_eq_some_iff.mp entry).1
  rw [Table.reaches, Bool.and_eq_true] at reaches
  have counts : ∀ scanned, (if table.tooLarge i then table.getPartinfo text again
      else some table) = some scanned →
        scanned.count = entries.length ∧ scanned.list = table.list ∧ Orderly text scanned := by
    intro scanned scan
    split at scan
    case isTrue large =>
      have empty : table.count = 0 := by
        rcases large with empty | above
        · exact empty
        · rcases orderly.counted entries parsed with empty | full
          · exact empty
          · rw [full] at above
            omega
      have fine := reaches.1
      simp only [empty, ne_eq, not_true_eq_false, decide_false, Bool.false_or] at fine
      have count := getPartinfo_count parsed (List.ne_nil_of_length_pos (by omega)) empty fine scan
      rcases orderly.getPartinfo scan with ⟨good, same⟩
      exact ⟨count, same.list, good⟩
    case isFalse small =>
      cases scan
      rcases orderly.counted entries parsed with empty | full
      · exact absurd (.inl empty) small
      · exact ⟨full, rfl, orderly⟩
  constructor
  · intro scanned scan
    have count := (counts scanned scan).1
    simp [inBounds, count]
    omega
  · intro result moved
    rcases Option.bind_eq_some_iff.mp moved with ⟨scanned, scan, moved⟩
    rcases counts scanned scan with ⟨count, list, good⟩
    have fits : ¬ scanned.tooLarge i := by
      rintro (empty | above)
      · omega
      · rw [count] at above
        omega
    rw [if_neg fits] at moved
    dsimp only at moved
    rw [if_neg (by rw [count]; omega), list, Int.toNat_natCast] at moved
    split at moved
    case h_1 free =>
      have able := reaches.2
      rw [free] at able
      simp only [Option.isSome_none, Bool.false_or, Bool.and_eq_true] at able
      rw [← Option.some.inj moved]
      simp [Table.openNew, able]
    case h_2 h listed =>
      rcases Option.map_eq_some_iff.mp moved with ⟨dev, held, made⟩
      rw [← list] at listed
      rcases good.slots i h listed with ⟨_, old, had, _, positive⟩
      rw [had, Option.some.injEq] at held
      subst held
      rw [if_pos (Nat.pos_iff_ne_zero.mp positive)] at made
      rw [← made]

/-- The indexes are in the bounds of the handle list, as long as after a scan, and a partition that
is opened by name has the number of its line and nothing fails on the way. -/
def sound (text : List Char) (table : Table) : TableLabel → Bool
  | .mtdOpen index answers =>
      match if table.tooLarge index then table.getPartinfo text answers else some table with
      | none => true
      | some scanned => scanned.inBounds index
  | .mtdOpenByName name _ answers again =>
      match if table.partCount = 0 then table.getPartinfo text answers else some table with
      | none => true
      | some scanned =>
          match scanned.findName name with
          | none => true
          | some i => decide ((scanned.partinfo i).index = i) && scanned.reaches again i
  | .mtdClose _ => true

/-- What the table promises. -/
structure Kept (text : List Char) (table : Table) : Prop where
  bounds : ∀ access ∈ table.accesses, 0 ≤ access.1 ∧ access.1 < access.2
  opened : ∀ index handle, table.result = .opened index .none handle → Live table handle index
  named : ∀ name handle, table.result = .named name .none handle →
    ∃ parts part, procMtd text = some parts ∧ part ∈ parts ∧ part.name = name ∧
      Live table handle part.index
  same : ∀ handle other mtd, Live table handle mtd → Live table other mtd → handle = other
  stays : ∀ mtd, (∃ handle, Live table handle mtd) ↔ table.closes mtd < table.opens mtd

theorem Orderly.same (orderly : Orderly text table) (handle other : Option Nat) (mtd : Int)
    (first : Live table handle mtd) (second : Live table other mtd) : handle = other := by
  rcases first with ⟨h, dev, rfl, held, number⟩
  rcases second with ⟨h', dev', rfl, held', number'⟩
  rcases orderly.owned h dev held with ⟨i, same, listed, _⟩
  rcases orderly.owned h' dev' held' with ⟨j, same', listed', _⟩
  have equal : i = j := by omega
  rw [← listed, ← listed', equal]

theorem Orderly.stays (orderly : Orderly text table) (mtd : Int) :
    (∃ handle, Live table handle mtd) ↔ table.closes mtd < table.opens mtd := by
  constructor
  case mp =>
    intro live
    rcases live with ⟨_, h, dev, rfl, held, rfl⟩
    rcases orderly.owned h dev held with ⟨i, number, listed, counted⟩
    rcases orderly.slots i h listed with ⟨_, old, had, _, positive⟩
    rw [held, Option.some.injEq] at had
    subst had
    rw [number]
    omega
  case mpr =>
    intro more
    by_contra closed
    have even := orderly.idle mtd (by
      intro i same
      cases listed : table.list i with
      | none => rfl
      | some h =>
          rcases orderly.slots i h listed with ⟨_, dev, held, number, _⟩
          exact absurd ⟨some h, h, dev, rfl, held, number.trans same.symm⟩ closed)
    omega

theorem Orderly.result (orderly : Orderly text table) (result : Result) :
    Orderly text { table with result } where
  tame := orderly.tame
  parts := orderly.parts
  counted := orderly.counted
  slots := orderly.slots
  owned := orderly.owned
  idle := orderly.idle
  fresh := orderly.fresh
  accesses := orderly.accesses

theorem Orderly.kept (orderly : Orderly text table)
    (opened : ∀ index handle, table.result = .opened index .none handle → Live table handle index)
    (named : ∀ name handle, table.result = .named name .none handle →
      ∃ parts part, procMtd text = some parts ∧ part ∈ parts ∧ part.name = name ∧
        Live table handle part.index) : Kept text table where
  bounds := orderly.accesses
  opened
  named
  same := orderly.same
  stays := orderly.stays

theorem Orderly.mtdOpenByName (orderly : Orderly text table) {answers again : Answers}
    {name : List Char} {old handle : Option Nat} {ret : Ret}
    (meets : sound text table (.mtdOpenByName name old answers again) = true)
    (moved : table.mtdOpenByName text answers again name old = some (ret, handle, after)) :
    Orderly text after ∧ (ret = .none →
      ∃ parts part, procMtd text = some parts ∧ part ∈ parts ∧ part.name = name ∧
        Live after handle part.index) := by
  rcases Option.bind_eq_some_iff.mp moved with ⟨scanned, scan, moved⟩
  have good : Orderly text scanned := by
    split at scan
    · exact (orderly.getPartinfo scan).1
    · cases scan
      exact orderly
  simp only [sound, scan] at meets
  split at moved
  case h_1 =>
    cases moved
    exact ⟨good, by simp⟩
  case h_2 i found =>
    rw [found] at meets
    dsimp only at meets
    rw [Bool.and_eq_true, decide_eq_true_iff] at meets
    rcases Option.map_eq_some_iff.mp moved with ⟨⟨inner, written, next⟩, opened, made⟩
    rcases List.find?_range_eq_some.mp found with ⟨matched, member, _⟩
    have known : i < scanned.partCount := List.mem_range.mp member
    rcases good.reached known meets.2 with ⟨bounded, succeeds⟩
    have fine : inner = .none := succeeds _ opened
    rcases good.mtdOpen bounded opened with ⟨kept, live⟩
    rcases live fine with ⟨h, dev, rfl, held, number⟩
    cases made
    refine ⟨kept, ?_⟩
    intro _
    rcases good.parts i known with ⟨entries, parsed, entry⟩
    refine ⟨entries, scanned.partinfo i, parsed, List.mem_of_getElem? entry, ?_, ?_⟩
    · exact (of_decide_eq_true matched).symm
    · exact ⟨h, dev, rfl, held, number.trans meets.1.symm⟩

end Table

def soundTable (text : List Char) : Machine Table TableLabel :=
  (mtdTable text).restrict (fun table label => table.sound text label = true)

namespace Table

theorem orderly_kept (text : List Char) :
    ∀ table, (soundTable text).Reachable table → Orderly text table ∧ Kept text table := by
  apply Machine.Reachable.always
  · intro table start
    rw [show table = zero from start]
    have orderly : Orderly text zero :=
      ⟨rfl, by simp [zero], fun _ _ => .inl rfl, by simp [zero], by simp [zero], fun _ _ => rfl,
        fun _ _ => rfl, by simp [zero]⟩
    exact ⟨orderly, orderly.kept (by simp [zero]) (by simp [zero])⟩
  · intro table label after _ before moved
    rcases Machine.restrict_next.mp moved with ⟨meets, moved⟩
    rcases before with ⟨orderly, -⟩
    simp only [mtdTable, step, orderly.tame] at moved
    cases label with
    | mtdOpen index answers =>
        rcases Option.map_eq_some_iff.mp moved with ⟨⟨ret, handle, next⟩, opened, rfl⟩
        have bounded : ∀ scanned, (if table.tooLarge index then table.getPartinfo text answers
            else some table) = some scanned → scanned.inBounds index = true := by
          intro scanned scan
          simpa only [sound, scan] using meets
        rcases orderly.mtdOpen bounded opened with ⟨kept, live⟩
        refine ⟨kept.result _, (kept.result _).kept ?_ (by simp)⟩
        intro other handle result
        cases result
        exact live rfl
    | mtdOpenByName name old answers again =>
        rcases Option.map_eq_some_iff.mp moved with ⟨⟨ret, handle, next⟩, opened, rfl⟩
        rcases orderly.mtdOpenByName meets opened with ⟨kept, live⟩
        refine ⟨kept.result _, (kept.result _).kept (by simp) ?_⟩
        intro other handle result
        cases result
        exact live rfl
    | mtdClose handle =>
        rcases Option.map_eq_some_iff.mp moved with ⟨⟨ret, next⟩, closed, rfl⟩
        have kept := orderly.mtdClose closed
        exact ⟨kept.result _, (kept.result _).kept (by simp) (by simp)⟩

/-- In runs whose calls are sound the table keeps its promises. -/
theorem mtd_handles_kept (text : List Char) (table : Table)
    (reachable : (soundTable text).Reachable table) : Kept text table :=
  (orderly_kept text table reachable).2

def allSucceed : Answers := ⟨true, none, true, true, true, true⟩

/-- Two partitions. -/
def twoParts : List Char :=
  "mtd0: 00080000 00020000 \"boot\"\nmtd1: 00400000 00020000 \"kernel\"\n".toList

theorem mtd_handles_kept_two : ∃ table, (soundTable twoParts).Reachable table ∧
    table.result = .named "kernel".toList .none (some 0) ∧ table.opens 1 = 1 ∧
      Kept twoParts table := by
  have ran : ((soundTable twoParts).run zero
      [.mtdOpenByName "kernel".toList none allSucceed allSucceed]).map
        (fun table => (table.result, table.opens 1)) =
      some (.named "kernel".toList .none (some 0), 1) := by
    decide +kernel
  rcases Option.map_eq_some_iff.mp ran with ⟨table, reached, result⟩
  rw [Prod.mk.injEq] at result
  have reachable : (soundTable twoParts).Reachable table :=
    Machine.reachable_of_run (.initial rfl) reached
  exact ⟨table, reachable, result.1, result.2, mtd_handles_kept twoParts table reachable⟩

/-- Index 2 passes the test against a count of two, and the entry behind the list is read. -/
theorem handle_list_overrun : ¬ ∀ text table, (mtdTable text).Reachable table → Kept text table := by
  intro always
  have ran : ((mtdTable twoParts).run zero [.mtdOpen 2 allSucceed]).map
      (fun table => table.accesses) = some [(2, 2)] := by
    decide +kernel
  rcases Option.map_eq_some_iff.mp ran with ⟨table, reached, accesses⟩
  have reachable : (mtdTable twoParts).Reachable table :=
    Machine.reachable_of_run (.initial rfl) reached
  have bounds := (always twoParts table reachable).bounds (2, 2) (by simp [accesses])
  exact absurd bounds.2 (by decide)

end Table

end Alisl.Storage
