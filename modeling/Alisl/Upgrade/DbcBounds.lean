import Alisl.Upgrade.DbcReads

/-! Which messages keep the table parsers inside their section. -/

namespace Alisl.Upgrade

open Alisl.Base

/-- A group in a section: a compatibility descriptor takes ten bytes whatever its
length, and the group descriptors end at a cut or before the private data length. -/
def GroupFits (memory : Memory) (data limit : Nat) : Prop :=
  (∀ descriptor ∈ groupDescriptors memory (data + 8), descriptor + 10 ≤ limit) ∧
    (groupCut memory (groupInfoAt memory data)).elim
      (groupInfoAt memory data + 2 + getBe16 memory (groupInfoAt memory data) + 2 ≤ limit)
      (fun cut => cut + 2 ≤ limit)

/-- A DSI: its header, and the first group if there is one. -/
def DsiFits (memory : Memory) (data limit : Nat) : Prop :=
  (dsiGroups memory data).2 ≤ limit ∧
    ((dsiGroups memory data).1 = 0 ∨ GroupFits memory (dsiGroups memory data).2 limit)

/-- Modules up to the first whose blocks cannot be counted or whose descriptors
are cut off, and the private data length behind all of them. -/
def RecordsFit (memory : Memory) (blocksize limit : Nat) : Nat → Nat → Prop
  | 0, data => data + 2 ≤ limit
  | count + 1, data =>
      if CountsBlocks blocksize (getBe32 memory (data + 2)) then
        (moduleCut memory (data + 6)).elim
          (RecordsFit memory blocksize limit count (data + 7 + (memory (data + 6)).toNat))
          (fun cut => cut + 2 ≤ limit)
      else data + 6 ≤ limit

/-- A DII: only its transaction id if it is another group's. -/
def DiiFits (memory : Memory) (data groupId limit : Nat) : Prop :=
  if getBe32 memory (data + 4) ≠ groupId then data + 8 ≤ limit
  else diiCountAt memory data + 2 ≤ limit ∧
    (diiCount memory data ≤ dcModuleMax →
      RecordsFit memory (diiBlocksize memory data) limit (diiCount memory data)
        (diiCountAt memory data + 2))

section Fields

variable (memory : Memory) (limit : Nat) {Value : Type}

theorem below_readByte_bind (data : Nat) (next : Nat → Reader Value) :
    (readByte data >>= next).Below limit memory ↔
      data + 1 ≤ limit ∧ (next (memory data).toNat).Below limit memory := by
  have one : (readByte data).Below limit memory ↔ data + 1 ≤ limit := by
    rw [readByte, Reading.below_bind, Reading.below_cell]
    exact and_iff_left (Reading.below_pure memory limit _)
  rw [Reading.below_bind, one]
  rfl

theorem below_readBe16_bind (data : Nat) (next : Nat → Reader Value) :
    (readBe16 data >>= next).Below limit memory ↔
      data + 2 ≤ limit ∧ (next (getBe16 memory data)).Below limit memory := by
  rw [Reading.below_bind_of memory limit (value_readBe16 memory data)]
  refine and_congr_left (fun _ => ?_)
  simp only [readBe16, below_readByte_bind, Reading.below_pure, and_true]
  omega

theorem below_readBe24_bind (data : Nat) (next : Nat → Reader Value) :
    (readBe24 data >>= next).Below limit memory ↔
      data + 3 ≤ limit ∧ (next (getBe24 memory data)).Below limit memory := by
  rw [Reading.below_bind_of memory limit (value_readBe24 memory data)]
  refine and_congr_left (fun _ => ?_)
  simp only [readBe24, below_readByte_bind, Reading.below_pure, and_true]
  omega

theorem below_readBe32_bind (data : Nat) (next : Nat → Reader Value) :
    (readBe32 data >>= next).Below limit memory ↔
      data + 4 ≤ limit ∧ (next (getBe32 memory data)).Below limit memory := by
  rw [Reading.below_bind_of memory limit (value_readBe32 memory data)]
  refine and_congr_left (fun _ => ?_)
  simp only [readBe32, below_readByte_bind, Reading.below_pure, and_true]
  omega

end Fields

/-! A list of descriptors. -/

/-- How a parser walks a list of descriptors, `reads` being that what it reads from a
descriptor on lies below the limit. It stops at the first that is cut off or malformed;
from each of the others it may read as far as that reaches. -/
structure Walks {State : Type} (malformed : Nat → Nat → Bool) (memory : Memory) (limit : Nat)
    (reads : Nat → Nat → Nat → State → Prop) : Prop where
  done : ∀ fuel data state, reads fuel 0 data state
  stops : ∀ fuel left data state,
    (left + 1 < (memory (data + 1)).toNat + 2 ∨
      malformed (memory data).toNat (memory (data + 1)).toNat = true) →
    (reads (fuel + 1) (left + 1) data state ↔ data + 2 ≤ limit)
  passes : ∀ fuel left data state,
    ¬ (left + 1 < (memory (data + 1)).toNat + 2 ∨
      malformed (memory data).toNat (memory (data + 1)).toNat = true) →
    ∃ far next, data + 2 ≤ far ∧ far ≤ data + 2 + (memory (data + 1)).toNat ∧
      (reads (fuel + 1) (left + 1) data state ↔ far ≤ limit ∧
        reads fuel (left + 1 - ((memory (data + 1)).toNat + 2))
          (data + 2 + (memory (data + 1)).toNat) next)

section Walk

variable {State : Type} {malformed : Nat → Nat → Bool} {memory : Memory} {limit : Nat}
  {reads : Nat → Nat → Nat → State → Prop}

/-- Up to a cut, the header there is read last. -/
theorem Walks.cut (walks : Walks malformed memory limit reads) (fuel left data cut : Nat)
    (state : State) (enough : left ≤ fuel)
    (found : descriptorCut malformed memory fuel left data = some cut) :
    reads fuel left data state ↔ cut + 2 ≤ limit := by
  induction fuel generalizing left data state with
  | zero =>
      rw [Nat.le_zero.mp enough] at found
      cases found
  | succ fuel ih =>
      cases left with
      | zero => cases found
      | succ left =>
          rw [descriptorCut] at found
          by_cases stop : left + 1 < (memory (data + 1)).toNat + 2 ∨
              malformed (memory data).toNat (memory (data + 1)).toNat = true
          · rw [if_pos stop, Option.some.injEq] at found
            rw [walks.stops fuel left data state stop, found]
          · rw [if_neg stop] at found
            have behind := descriptorCut_ge _ memory _ _ _ _ found
            rcases walks.passes fuel left data state stop with ⟨far, next, _, near, step⟩
            rw [step, ih _ _ next (by omega) found]
            omega

/-- Without a cut, the reads stay in the list. -/
theorem Walks.whole (walks : Walks malformed memory limit reads) (fuel left data : Nat)
    (state : State) (enough : left ≤ fuel)
    (whole : descriptorCut malformed memory fuel left data = none) (inside : data + left ≤ limit) :
    reads fuel left data state := by
  induction fuel generalizing left data state with
  | zero =>
      rw [Nat.le_zero.mp enough]
      exact walks.done 0 data state
  | succ fuel ih =>
      cases left with
      | zero => exact walks.done (fuel + 1) data state
      | succ left =>
          rw [descriptorCut] at whole
          by_cases stop : left + 1 < (memory (data + 1)).toNat + 2 ∨
              malformed (memory data).toNat (memory (data + 1)).toNat = true
          · rw [if_pos stop] at whole
            cases whole
          · rw [if_neg stop] at whole
            have long : (memory (data + 1)).toNat + 2 ≤ left + 1 :=
              Nat.le_of_not_lt (not_or.mp stop).1
            rcases walks.passes fuel left data state stop with ⟨far, next, _, near, step⟩
            exact step.mpr ⟨by omega, ih _ _ next (by omega) whole (by omega)⟩

end Walk

/-! DSI. -/

section Dsi

variable (memory : Memory) (limit : Nat) (param : DsiParam)

theorem below_readDsiFit (data descriptorType : Nat) (fit : DsiFit) :
    (readDsiFit param data descriptorType fit).Below limit memory ↔ data + 10 ≤ limit := by
  simp only [readDsiFit, below_readByte_bind, below_readBe24_bind, below_readBe16_bind,
    Reading.below_pure, and_true]
  omega

/-- The header of the descriptor that does not fit lies before the field behind the list. -/
theorem below_readDsiDescriptors (count data left : Nat) (fit : DsiFit)
    (behind : data + left + 2 ≤ limit) :
    (readDsiDescriptors param count data left fit).Below limit memory ↔
      ∀ descriptor ∈ compatibilityDescriptors memory count data left, descriptor + 10 ≤ limit := by
  induction count generalizing data left fit with
  | zero =>
      refine iff_of_true (Reading.below_pure memory limit _) ?_
      exact fun descriptor none => absurd none List.not_mem_nil
  | succ count ih =>
      rw [readDsiDescriptors, below_readByte_bind, below_readByte_bind, compatibilityDescriptors]
      have header : data + 1 ≤ limit ∧ data + 1 + 1 ≤ limit := ⟨by omega, by omega⟩
      by_cases short : left < (memory (data + 1)).toNat + 2
      · rw [if_pos short, if_pos short]
        refine iff_of_true ⟨header.1, header.2, Reading.below_pure memory limit _⟩ ?_
        exact fun descriptor none => absurd none List.not_mem_nil
      · rw [if_neg short, if_neg short, Reading.below_bind, below_readDsiFit,
          ih _ _ _ (by omega), List.forall_mem_cons, and_iff_right header.1, and_iff_right header.2]

theorem below_readDsiCompatibility (data newSwVersion : Nat)
    (behind : data + 2 + getBe16 memory data + 2 ≤ limit) :
    (readDsiCompatibility param data newSwVersion).Below limit memory ↔
      ∀ descriptor ∈ groupDescriptors memory data, descriptor + 10 ≤ limit := by
  rw [readDsiCompatibility, below_readBe16_bind, groupDescriptors,
    and_iff_right (by omega : data + 2 ≤ limit)]
  by_cases short : getBe16 memory data < 2
  · rw [if_pos short, if_pos short]
    refine iff_of_true (Reading.below_pure memory limit _) ?_
    exact fun descriptor none => absurd none List.not_mem_nil
  · rw [if_neg short, if_neg short, below_readBe16_bind, Reading.below_bind,
      and_iff_right (by omega : data + 2 + 2 ≤ limit), and_iff_left (Reading.below_pure memory limit _)]
    exact below_readDsiDescriptors memory limit param _ _ _ _ (by omega)

theorem walks_readDsiGroupInfo : Walks (fun _ _ => false) memory limit
    (fun fuel left data (_ : Unit) => (readDsiGroupInfo fuel left data).Below limit memory) := by
  constructor
  case done =>
      intro fuel data state
      rw [readDsiGroupInfo]
      exact Reading.below_pure memory limit _
  case stops =>
      intro fuel left data state stop
      have short := stop.resolve_right Bool.false_ne_true
      rw [readDsiGroupInfo, below_readByte_bind, below_readByte_bind, if_pos short,
        and_iff_left (Reading.below_pure memory limit _)]
      omega
  case passes =>
      intro fuel left data state stop
      refine ⟨data + 2, (), by omega, by omega, ?_⟩
      rw [readDsiGroupInfo, below_readByte_bind, below_readByte_bind, if_neg (not_or.mp stop).1,
        ← and_assoc]
      refine and_congr_left (fun _ => ?_)
      omega

theorem below_readDsiGroup (data : Nat) (state : DsiStore) :
    (readDsiGroup param data state).Below limit memory ↔ GroupFits memory data limit := by
  have at_ : (dsiCompatibility true memory param (data + 8) state.newSwVersion).1 =
      groupInfoAt memory data := by
    rw [dsiCompatibility_end, groupInfoAt]
  have info : groupInfoAt memory data = data + 8 + 2 + getBe16 memory (data + 8) := rfl
  rw [readDsiGroup, below_readBe32_bind, below_readBe32_bind,
    Reading.below_bind_of memory limit (value_readDsiCompatibility memory ..), below_readBe16_bind,
    Reading.below_bind_of memory limit (value_readDsiGroupInfo memory ..), at_,
    dsiGroupInfo_eq memory _ _ _ (Nat.le_refl _), ← groupCut, GroupFits]
  -- what follows the compatibility descriptors says that they have room
  have descriptors (behind : groupInfoAt memory data + 2 ≤ limit) :=
    below_readDsiCompatibility memory limit param (data + 8) state.newSwVersion
      (info ▸ behind)
  cases cut : groupCut memory (groupInfoAt memory data) with
  | none =>
      simp only [Option.elim_none, Option.elim_some, below_readBe16_bind]
      have room (inside : groupInfoAt memory data + 2 + getBe16 memory (groupInfoAt memory data) ≤
          limit) :=
        (walks_readDsiGroupInfo memory limit).whole _ _ _ () (Nat.le_refl _) cut inside
      constructor
      · rintro ⟨_, _, compatibility, length, _, last, _⟩
        exact ⟨(descriptors length).mp compatibility, last⟩
      · rintro ⟨compatibility, last⟩
        exact ⟨by omega, by omega, (descriptors (by omega)).mpr compatibility, by omega,
          room (by omega), last, Reading.below_pure memory limit _⟩
  | some cut_ =>
      have last := (walks_readDsiGroupInfo memory limit).cut _ _ _ _ () (Nat.le_refl _) cut
      have behind := descriptorCut_ge _ memory _ _ _ _ cut
      simp only [Option.elim_some, Option.elim_none, last]
      constructor
      · rintro ⟨_, _, compatibility, length, inside, _⟩
        exact ⟨(descriptors length).mp compatibility, inside⟩
      · rintro ⟨compatibility, inside⟩
        exact ⟨by omega, by omega, (descriptors (by omega)).mpr compatibility, by omega, inside,
          Reading.below_pure memory limit _⟩

theorem below_readDsiMessage (data : Nat) (state : DsiStore) :
    (readDsiMessage param data state).Below limit memory ↔ DsiFits memory data limit := by
  rw [readDsiMessage, below_readBe32_bind, below_readByte_bind, below_readBe16_bind,
    below_readBe16_bind, below_readBe16_bind, below_readBe16_bind, DsiFits, dsiGroups,
    readMessageHeader]
  dsimp only
  by_cases none_ : getBe16 memory (data + 12 + (memory (data + 9)).toNat + 20 + 2 +
      getBe16 memory (data + 12 + (memory (data + 9)).toNat + 20) + 2) = 0
  · rw [if_pos none_, and_iff_left (Reading.below_pure memory limit _),
      and_iff_left (Or.inl none_)]
    omega
  · rw [if_neg none_, below_readDsiGroup, or_iff_right none_]
    constructor
    · rintro ⟨_, _, _, _, _, last, group⟩
      exact ⟨by omega, group⟩
    · rintro ⟨last, group⟩
      exact ⟨by omega, by omega, by omega, by omega, by omega, by omega, group⟩

end Dsi

/-! DII. -/

section Dii

variable (memory : Memory) (limit : Nat)

theorem walks_readDiiDescriptors : Walks shortLink memory limit
    (fun fuel left data entry => (readDiiDescriptors fuel left data entry).Below limit memory) := by
  have short_iff : ∀ data, shortLink (memory data).toNat (memory (data + 1)).toNat = true ↔
      (memory data).toNat = 0x04 ∧ (memory (data + 1)).toNat < 3 := by
    intro data
    rw [shortLink, Bool.and_eq_true, decide_eq_true_iff, decide_eq_true_iff]
  constructor
  case done =>
      intro fuel data entry
      rw [readDiiDescriptors]
      exact Reading.below_pure memory limit _
  case stops =>
      intro fuel left data entry stop
      rw [readDiiDescriptors, below_readByte_bind, below_readByte_bind]
      by_cases long : left + 1 < (memory (data + 1)).toNat + 2
      · rw [if_pos long, and_iff_left (Reading.below_pure memory limit _)]
        omega
      · have short := (short_iff data).mp (stop.resolve_left long)
        rw [if_neg long, if_pos short.1, if_pos short.2,
          and_iff_left (Reading.below_pure memory limit _)]
        omega
  case passes =>
      intro fuel left data entry stop
      rcases not_or.mp stop with ⟨long, fits⟩
      rw [short_iff, not_and] at fits
      rw [readDiiDescriptors, below_readByte_bind, below_readByte_bind, if_neg long]
      by_cases link : (memory data).toNat = 0x04
      · have room := fits link
        refine ⟨data + 5, linkModule (memory (data + 2)).toNat (getBe16 memory (data + 3)) entry,
          by omega, by omega, ?_⟩
        rw [if_pos link, if_neg room, below_readByte_bind, below_readBe16_bind]
        simp only [← and_assoc]
        refine and_congr_left (fun _ => ?_)
        omega
      · refine ⟨data + 2, entry, by omega, by omega, ?_⟩
        rw [if_neg link, ← and_assoc]
        refine and_congr_left (fun _ => ?_)
        omega

theorem recordsFit_start (blocksize count data : Nat)
    (fits : RecordsFit memory blocksize limit count data) : data + 2 ≤ limit := by
  induction count generalizing data with
  | zero => exact fits
  | succ count ih =>
      rw [RecordsFit] at fits
      split at fits
      · cases cut : moduleCut memory (data + 6) with
        | none =>
            rw [cut, Option.elim_none] at fits
            have next := ih _ fits
            omega
        | some cut_ =>
            rw [cut, Option.elim_some] at fits
            have behind := descriptorCut_ge _ memory _ _ _ _ cut
            omega
      · omega

theorem below_readDiiModules (dataAddr count index data : Nat) (table : ModuleTable) :
    (readDiiModules dataAddr count index data table).Below limit memory ↔
      RecordsFit memory table.blocksize limit count data := by
  induction count generalizing index data table with
  | zero =>
      rw [readDiiModules, below_readBe16_bind, RecordsFit,
        and_iff_left (Reading.below_pure memory limit _)]
  | succ count ih =>
      rw [readDiiModules, below_readBe16_bind, below_readBe32_bind, RecordsFit]
      dsimp only
      by_cases none_ : table.blocksize = 0
      · rw [if_pos none_, if_neg (fun counts : CountsBlocks _ _ => counts.1 none_),
          and_iff_left (Reading.below_pure memory limit _)]
        omega
      · by_cases many : 32 * bitMapNum < blockNumOf (getBe32 memory (data + 2)) table.blocksize
        · rw [if_neg none_, if_pos many,
            if_neg (fun counts : CountsBlocks _ _ => Nat.not_lt.mpr counts.2 many),
            and_iff_left (Reading.below_pure memory limit _)]
          omega
        · have counts : CountsBlocks table.blocksize (getBe32 memory (data + 2)) :=
            ⟨none_, Nat.not_lt.mp many⟩
          rw [if_neg none_, if_neg many, if_pos counts, below_readByte_bind,
            Reading.below_bind_of memory limit (value_readDiiDescriptors memory ..)]
          generalize freshModule (table.modules index) _ _ _ _ = entry
          have at_ : data + 6 + 1 = data + 7 := rfl
          cases cut : moduleCut memory (data + 6) with
          | none =>
              have ends := diiDescriptors_whole memory (data + 6) entry cut
              rw [moduleCut, at_] at cut
              rw [at_] at ends
              rw [if_pos ends.1, ends.2, ih, Option.elim_none]
              constructor
              · rintro ⟨_, _, _, _, rest⟩
                exact rest
              · intro rest
                have start := recordsFit_start memory limit _ _ _ rest
                exact ⟨by omega, by omega, by omega, (walks_readDiiDescriptors memory limit).whole _ _ _
                  _ (Nat.le_refl _) cut (by omega), rest⟩
          | some cut_ =>
              have ends := diiDescriptors_cut memory (data + 6) cut_ entry cut
              rw [moduleCut, at_] at cut
              rw [at_] at ends
              have behind := descriptorCut_ge _ memory _ _ _ _ cut
              rw [if_neg (ends ▸ Bool.false_ne_true), and_iff_left (Reading.below_pure memory limit _),
                Option.elim_some,
                (walks_readDiiDescriptors memory limit).cut _ _ _ _ _ (Nat.le_refl _) cut]
              omega

theorem below_readDiiMessage (data groupId dataAddr : Nat) (table : ModuleTable) :
    (readDiiMessage data groupId dataAddr table).Below limit memory ↔
      DiiFits memory data groupId limit := by
  rw [readDiiMessage, below_readBe32_bind, DiiFits]
  by_cases other : getBe32 memory (data + 4) ≠ groupId
  · rw [if_pos other, if_pos other, and_iff_left (Reading.below_pure memory limit _)]
  · rw [if_neg other, if_neg other, below_readByte_bind, below_readBe16_bind, below_readBe32_bind,
      below_readBe16_bind, below_readBe16_bind, below_readBe16_bind, diiCount, diiBlocksize,
      diiCountAt, readMessageHeader]
    dsimp only
    by_cases many : dcModuleMax < getBe16 memory (data + 12 + (memory (data + 9)).toNat + 6 + 10 + 2 +
        getBe16 memory (data + 12 + (memory (data + 9)).toNat + 6 + 10))
    · rw [if_pos many, and_iff_left (Reading.below_pure memory limit _),
        and_iff_left (fun few => absurd many (Nat.not_lt.mpr few))]
      omega
    · rw [if_neg many, below_readDiiModules, forall_prop_of_true (Nat.not_lt.mp many)]
      constructor
      · rintro ⟨_, _, _, _, _, _, last, records⟩
        exact ⟨by omega, records⟩
      · rintro ⟨last, records⟩
        exact ⟨by omega, by omega, by omega, by omega, by omega, by omega, last, records⟩

end Dii

end Alisl.Upgrade
