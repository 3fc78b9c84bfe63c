import Alisl.Upgrade.Source.Services

/-! `url_read` and `url_seek` over a cache that gives out the bytes of the file one after
the other. -/

namespace Alisl.Upgrade.Net.Url

open Alisl.Base Alisl.Upgrade.Source

/-- A file being downloaded; `ready` says for each call of `url_read_cache`, in order,
whether the bytes it asks for come in time. -/
structure Download where
  file : List Byte
  ready : Nat → Bool

/-- `file_offset` of the cache, and how many calls of `url_read_cache` there were. -/
structure Stream where
  fileOffset : Nat
  asked : Nat
  deriving DecidableEq, Repr

/-- `ALISLUPG_ERR_INVALIDPARAM` as an `int`. -/
def errInvalidParam : Int := 10

/-- `url_read_cache`; `none` is -1. -/
def urlReadCache (download : Download) (size : Nat) (nci : Stream) : Option (List Byte) × Stream :=
  if download.ready nci.asked ∧ nci.fileOffset + size ≤ download.file.length then
    (some (part download.file nci.fileOffset size),
      { fileOffset := nci.fileOffset + size, asked := nci.asked + 1 })
  else (none, { nci with asked := nci.asked + 1 })

/-- The loop of `url_read`; each turn reads a byte at least. -/
def readLoop (download : Download) (size perSize : Nat) :
    Nat → List Byte → Stream → Option (List Byte) × Stream
  | 0, _, nci => (none, nci)
  | turns + 1, down, nci =>
      if down.length < size then
        let ask := if perSize ≤ size - down.length then perSize else size - down.length
        match urlReadCache download ask nci with
        | (none, nci) => (none, nci)
        | (some bytes, nci) => readLoop download size perSize turns (down ++ bytes) nci
      else (some down, nci)

/-- What `url_read` returns, and the bytes it has put to `ptr`. -/
structure ReadResult where
  ret : Int
  bytes : List Byte
  deriving DecidableEq, Repr

/-- `url_read` to a buffer. -/
def urlReadTo (download : Download) (size : Int) (nci : Stream) : ReadResult × Stream :=
  if size = 0 then (⟨errInvalidParam, []⟩, nci)
  else
    let size := size.toNat
    match readLoop download size (if size < 10240 then size else 10240) (size + 1) [] nci with
    | (none, nci) => (⟨-1, []⟩, nci)
    | (some bytes, nci) => (⟨bytes.length, bytes⟩, nci)

inductive Whence where
  | set
  | cur
  | other
  deriving DecidableEq, Repr

inductive NetErr where
  | none
  | transferFail
  | other
  deriving DecidableEq, Repr

/-- The loop of `url_seek`; each turn reads a byte at least. -/
def seekLoop (download : Download) (offset : Int) : Nat → Int → Stream → NetErr × Stream
  | 0, _, nci => (.transferFail, nci)
  | turns + 1, curOffset, nci =>
      if curOffset < offset then
        let left := offset - curOffset
        let (result, nci) := urlReadTo download (if seekBufSize ≤ left then seekBufSize else left) nci
        if result.ret < 0 then (.transferFail, nci)
        else seekLoop download offset turns (curOffset + result.ret) nci
      else (.none, nci)

/-- `url_seek`. -/
def urlSeekTo (download : Download) (offset : Int) (whence : Whence) (nci : Stream) :
    NetErr × Stream :=
  match whence with
  | .set => seekLoop download offset (offset.toNat + 1) nci.fileOffset nci
  | .cur => seekLoop download offset (offset.toNat + 1) 0 nci
  | .other => (.other, nci)

inductive UrlCall where
  | seek (offset : Int) (whence : Whence)
  | read (size : Int)

/-- The results of the reads of a sequence of calls that all report success. -/
def urlRun (download : Download) : List UrlCall → Stream → Option (List ReadResult)
  | [], _ => some []
  | .seek offset whence :: calls, nci =>
      match urlSeekTo download offset whence nci with
      | (.none, nci) => urlRun download calls nci
      | (_, _) => none
  | .read size :: calls, nci =>
      let (result, nci) := urlReadTo download size nci
      if 0 < result.ret then (urlRun download calls nci).map (result :: ·) else none

/-- Where the calls define each read to begin, and its size. -/
def wanted (position : Int) : List UrlCall → List (Int × Int)
  | [] => []
  | .seek offset .set :: calls => wanted offset calls
  | .seek offset .cur :: calls => wanted (position + offset) calls
  | .seek _ .other :: calls => wanted position calls
  | .read size :: calls => (position, size) :: wanted (position + size) calls

/-- The read returned the bytes of the file at its position. -/
structure Right (file : List Byte) (want : Int × Int) (result : ReadResult) : Prop where
  count : result.ret = want.2
  inside : 0 ≤ want.1 ∧ want.1 + want.2 ≤ file.length
  bytes : result.bytes = part file want.1.toNat want.2.toNat

/-- The stream stands where each read is to begin, or on the same bytes; no read is of
size 0. -/
def Aligned (file : List Byte) : Nat → Int → List UrlCall → Prop
  | _, _, [] => True
  | fileOffset, _, .seek offset .set :: calls =>
      Aligned file (max fileOffset offset.toNat) offset calls
  | fileOffset, position, .seek offset .cur :: calls =>
      Aligned file (fileOffset + offset.toNat) (position + offset) calls
  | fileOffset, position, .seek _ .other :: calls => Aligned file fileOffset position calls
  | fileOffset, position, .read size :: calls =>
      size ≠ 0 ∧ 0 ≤ position ∧
      part file position.toNat size.toNat = part file fileOffset size.toNat ∧
      Aligned file (fileOffset + size.toNat) (position + size) calls

/-- Every seek is one that is supported and goes ahead, and every read is of some bytes. -/
def Forward : Nat → List UrlCall → Prop
  | _, [] => True
  | fileOffset, .seek offset .set :: calls => (fileOffset : Int) ≤ offset ∧ Forward offset.toNat calls
  | fileOffset, .seek offset .cur :: calls => 0 ≤ offset ∧ Forward (fileOffset + offset.toNat) calls
  | _, .seek _ .other :: _ => False
  | fileOffset, .read size :: calls => 0 < size ∧ Forward (fileOffset + size.toNat) calls

/-- Where calls that only go ahead leave the stream. -/
def lastOffset : Nat → List UrlCall → Nat
  | fileOffset, [] => fileOffset
  | _, .seek offset .set :: calls => lastOffset offset.toNat calls
  | fileOffset, .seek offset .cur :: calls => lastOffset (fileOffset + offset.toNat) calls
  | fileOffset, .seek _ .other :: calls => lastOffset fileOffset calls
  | fileOffset, .read size :: calls => lastOffset (fileOffset + size.toNat) calls

section

variable {download : Download}

theorem readLoop_some {size perSize turns count base asked : Nat} {bytes : List Byte} {after : Stream}
    (short : count ≤ size) (inside : base + count ≤ download.file.length)
    (read : readLoop download size perSize turns (part download.file base count)
      ⟨base + count, asked⟩ = (some bytes, after)) :
    bytes = part download.file base size ∧ after.fileOffset = base + size ∧
      base + size ≤ download.file.length := by
  induction turns generalizing count asked with
  | zero => cases read
  | succ turns ih =>
      rw [readLoop, part_length _ _ _ inside] at read
      by_cases more : count < size
      · rw [if_pos more] at read
        generalize asking : (if perSize ≤ size - count then perSize else size - count) = ask at read
        have most : ask ≤ size - count := by
          rw [← asking]
          split
          · assumption
          · exact Nat.le_refl _
        dsimp only at read
        rw [urlReadCache] at read
        dsimp only at read
        by_cases given : download.ready asked ∧ base + count + ask ≤ download.file.length
        · rw [if_pos given] at read
          dsimp only at read
          rw [part_append, Nat.add_assoc] at read
          exact ih (by omega) (by omega) read
        · rw [if_neg given] at read
          cases read
      · rw [if_neg more] at read
        have all : count = size := by omega
        subst all
        cases read
        exact ⟨rfl, rfl, inside⟩

/-- With all bytes in time a loop of enough turns reads them. -/
theorem readLoop_ready (ready : ∀ n, download.ready n = true)
    {size perSize turns count base asked : Nat} (some_ : 1 ≤ perSize) (short : count ≤ size)
    (inside : base + size ≤ download.file.length) (enough : size - count < turns) :
    ∃ after : Stream, readLoop download size perSize turns (part download.file base count)
        ⟨base + count, asked⟩ = (some (part download.file base size), after) ∧
      after.fileOffset = base + size := by
  induction turns generalizing count asked with
  | zero => omega
  | succ turns ih =>
      have length := part_length download.file base count (by omega)
      rw [readLoop, length]
      by_cases more : count < size
      · rw [if_pos more]
        generalize asking : (if perSize ≤ size - count then perSize else size - count) = ask
        have most : ask ≤ size - count := by
          rw [← asking]
          split
          · assumption
          · exact Nat.le_refl _
        have least : 1 ≤ ask := by
          rw [← asking]
          split <;> omega
        have given : download.ready asked ∧ base + count + ask ≤ download.file.length :=
          ⟨ready asked, by omega⟩
        obtain ⟨after, read, there⟩ : ∃ after : Stream,
            readLoop download size perSize turns (part download.file base (count + ask))
              ⟨base + (count + ask), asked + 1⟩ = (some (part download.file base size), after) ∧
            after.fileOffset = base + size := ih (by omega) (by omega)
        refine ⟨after, ?_, there⟩
        dsimp only
        rw [urlReadCache]
        dsimp only
        rw [if_pos given]
        dsimp only
        rw [part_append, Nat.add_assoc]
        exact read
      · rw [if_neg more]
        have all : count = size := by omega
        subst all
        exact ⟨_, rfl, rfl⟩

/-- A read of some bytes fails or returns the next ones. -/
theorem urlReadTo_cases {size : Int} (some_ : 0 < size) {nci : Stream}
    (within : nci.fileOffset ≤ download.file.length) :
    (urlReadTo download size nci).1.ret = -1 ∨
      ((urlReadTo download size nci).1 =
          ⟨size, part download.file nci.fileOffset size.toNat⟩ ∧
        (urlReadTo download size nci).2.fileOffset = nci.fileOffset + size.toNat ∧
        nci.fileOffset + size.toNat ≤ download.file.length) := by
  have start : part download.file nci.fileOffset 0 = [] := List.take_zero
  rw [urlReadTo, if_neg (by omega)]
  dsimp only
  cases loop : readLoop download size.toNat
      (if size.toNat < 10240 then size.toNat else 10240) (size.toNat + 1) [] nci with
  | mk down after =>
      cases down with
      | none => exact .inl rfl
      | some bytes =>
          rw [← start] at loop
          obtain ⟨same, there, inside⟩ := readLoop_some (Nat.zero_le _) within loop
          have length := part_length download.file nci.fileOffset size.toNat inside
          apply Or.inr
          refine ⟨?_, there, inside⟩
          dsimp only
          rw [same, length, Int.toNat_of_nonneg (by omega)]

theorem urlReadTo_ready (ready : ∀ n, download.ready n = true) {size : Int} (some_ : 0 < size)
    {nci : Stream} (inside : nci.fileOffset + size.toNat ≤ download.file.length) :
    (urlReadTo download size nci).1.ret = size := by
  have start : part download.file nci.fileOffset 0 = [] := List.take_zero
  have least : 1 ≤ (if size.toNat < 10240 then size.toNat else 10240) := by
    split <;> omega
  obtain ⟨after, read, _⟩ : ∃ after : Stream,
      readLoop download size.toNat (if size.toNat < 10240 then size.toNat else 10240)
        (size.toNat + 1) (part download.file nci.fileOffset 0) ⟨nci.fileOffset + 0, nci.asked⟩ =
        (some (part download.file nci.fileOffset size.toNat), after) ∧
      after.fileOffset = nci.fileOffset + size.toNat :=
    readLoop_ready ready least (Nat.zero_le _) inside (by omega)
  rw [start] at read
  have whole : readLoop download size.toNat (if size.toNat < 10240 then size.toNat else 10240)
      (size.toNat + 1) [] nci = (some (part download.file nci.fileOffset size.toNat), after) := read
  rw [urlReadTo, if_neg (by omega)]
  dsimp only
  rw [whole]
  dsimp only
  rw [part_length _ _ _ inside, Int.toNat_of_nonneg (by omega)]

/-- The reads of a read that reports success. -/
theorem urlReadTo_success {size : Int} {nci : Stream}
    (within : nci.fileOffset ≤ download.file.length)
    (success : 0 < (urlReadTo download size nci).1.ret) (some_ : size ≠ 0) :
    0 < size ∧
      (urlReadTo download size nci).1 = ⟨size, part download.file nci.fileOffset size.toNat⟩ ∧
      (urlReadTo download size nci).2.fileOffset = nci.fileOffset + size.toNat ∧
      nci.fileOffset + size.toNat ≤ download.file.length := by
  have positive : 0 < size := by
    by_contra negative
    have none_ : size.toNat = 0 := by omega
    have empty : readLoop download 0 (if 0 < 10240 then 0 else 10240) (0 + 1) [] nci =
        (some [], nci) := rfl
    rw [urlReadTo, if_neg some_, none_] at success
    dsimp only at success
    rw [empty] at success
    exact Int.lt_irrefl 0 success
  rcases urlReadTo_cases positive within with failed | read
  · rw [failed] at success
    exact absurd success (by decide)
  · exact ⟨positive, read⟩

/-- The step of a seek reads some of what is left. -/
theorem seekStep_bounds {left : Int} (more : 0 < left) :
    0 < (if (seekBufSize : Int) ≤ left then (seekBufSize : Int) else left) ∧
      (if (seekBufSize : Int) ≤ left then (seekBufSize : Int) else left) ≤ left := by
  have buffer : (0 : Int) < seekBufSize := by decide
  split
  case isTrue fits => exact ⟨buffer, fits⟩
  case isFalse => exact ⟨more, Int.le_refl _⟩

theorem seekLoop_success {offset curOffset : Int} {turns : Nat} {nci after : Stream}
    (within : nci.fileOffset ≤ download.file.length)
    (sought : seekLoop download offset turns curOffset nci = (.none, after)) :
    after.fileOffset = nci.fileOffset + (offset - curOffset).toNat ∧
      after.fileOffset ≤ download.file.length := by
  induction turns generalizing curOffset nci with
  | zero => cases sought
  | succ turns ih =>
      rw [seekLoop] at sought
      by_cases more : curOffset < offset
      · rw [if_pos more] at sought
        dsimp only at sought
        have bounds := seekStep_bounds (Int.sub_pos.mpr more)
        generalize (if (seekBufSize : Int) ≤ offset - curOffset then (seekBufSize : Int)
          else offset - curOffset) = ask at sought bounds
        rcases urlReadTo_cases bounds.1 within with failed | ⟨result, there, inside⟩
        · rw [if_pos (by rw [failed]; decide)] at sought
          cases sought
        · have given : ¬ (urlReadTo download ask nci).1.ret < 0 := by
            rw [result]
            exact Int.not_lt.mpr (Int.le_of_lt bounds.1)
          rw [if_neg given, result] at sought
          dsimp only at sought
          obtain ⟨place, inFile⟩ := ih (by omega) sought
          rw [there] at place
          exact ⟨by omega, inFile⟩
      · rw [if_neg more] at sought
        cases sought
        exact ⟨by omega, within⟩

/-- Where a seek that reports success leaves the stream: never further back. -/
theorem urlSeekTo_success {offset : Int} {whence : Whence} {nci after : Stream}
    (within : nci.fileOffset ≤ download.file.length)
    (sought : urlSeekTo download offset whence nci = (.none, after)) :
    after.fileOffset ≤ download.file.length ∧
      ((whence = .set ∧ after.fileOffset = max nci.fileOffset offset.toNat) ∨
        (whence = .cur ∧ after.fileOffset = nci.fileOffset + offset.toNat)) := by
  cases whence with
  | set =>
      obtain ⟨place, inFile⟩ := seekLoop_success within sought
      exact ⟨inFile, .inl ⟨rfl, by omega⟩⟩
  | cur =>
      obtain ⟨place, inFile⟩ := seekLoop_success within sought
      rw [Int.sub_zero] at place
      exact ⟨inFile, .inr ⟨rfl, place⟩⟩
  | other => cases sought

theorem seekLoop_ready (ready : ∀ n, download.ready n = true) {offset curOffset : Int}
    {turns : Nat} {nci : Stream} (enough : (offset - curOffset).toNat < turns)
    (inside : nci.fileOffset + (offset - curOffset).toNat ≤ download.file.length) :
    (seekLoop download offset turns curOffset nci).1 = .none := by
  induction turns generalizing curOffset nci with
  | zero => omega
  | succ turns ih =>
      rw [seekLoop]
      by_cases more : curOffset < offset
      · rw [if_pos more]
        dsimp only
        have bounds := seekStep_bounds (Int.sub_pos.mpr more)
        generalize (if (seekBufSize : Int) ≤ offset - curOffset then (seekBufSize : Int)
          else offset - curOffset) = ask at bounds ⊢
        have room : nci.fileOffset + ask.toNat ≤ download.file.length := by omega
        have count := urlReadTo_ready ready bounds.1 room
        have given : ¬ (urlReadTo download ask nci).1.ret < 0 := by
          rw [count]
          exact Int.not_lt.mpr (Int.le_of_lt bounds.1)
        have there : (urlReadTo download ask nci).2.fileOffset = nci.fileOffset + ask.toNat := by
          have within : nci.fileOffset ≤ download.file.length := by omega
          rcases urlReadTo_cases bounds.1 within with failed | read
          · omega
          · exact read.2.1
        rw [if_neg given, count]
        apply ih
        · omega
        · rw [there]
          omega
      · rw [if_neg more]

/-! ### Runs -/

/-- A read that reports success is the read of its position exactly if the bytes there
are the ones the stream stands before. -/
theorem right_iff {size position : Int} {nci : Stream}
    (within : nci.fileOffset ≤ download.file.length)
    (success : 0 < (urlReadTo download size nci).1.ret) :
    Right download.file (position, size) (urlReadTo download size nci).1 ↔
      size ≠ 0 ∧ 0 ≤ position ∧ part download.file position.toNat size.toNat =
        part download.file nci.fileOffset size.toNat := by
  constructor
  · intro right
    have some_ : size ≠ 0 := by
      have count := right.count
      dsimp only at count
      omega
    obtain ⟨_, result, _, _⟩ := urlReadTo_success within success some_
    have bytes := right.bytes
    rw [result] at bytes
    exact ⟨some_, right.inside.1, bytes.symm⟩
  · rintro ⟨some_, positive, same⟩
    obtain ⟨more, result, _, inside⟩ := urlReadTo_success within success some_
    have length := congrArg List.length same
    rw [part_length _ _ _ inside, part, List.length_take, List.length_drop] at length
    constructor
    case count => rw [result]
    case inside =>
        dsimp only
        omega
    case bytes => rw [result, same]

theorem run_right_iff {calls : List UrlCall} {nci : Stream} {results : List ReadResult}
    (position : Int) (within : nci.fileOffset ≤ download.file.length)
    (ran : urlRun download calls nci = some results) :
    List.Forall₂ (Right download.file) (wanted position calls) results ↔
      Aligned download.file nci.fileOffset position calls := by
  induction calls generalizing nci results position with
  | nil =>
      cases ran
      exact iff_of_true .nil trivial
  | cons call calls ih =>
      cases call with
      | seek offset whence =>
          rw [urlRun] at ran
          cases sought : urlSeekTo download offset whence nci with
          | mk err after =>
              rw [sought] at ran
              cases err with
              | none =>
                  obtain ⟨inFile, place⟩ := urlSeekTo_success within sought
                  rcases place with ⟨rfl, place⟩ | ⟨rfl, place⟩
                  · rw [wanted, Aligned, ← place]
                    exact ih offset inFile ran
                  · rw [wanted, Aligned, ← place]
                    exact ih (position + offset) inFile ran
              | transferFail => cases ran
              | other => cases ran
      | read size =>
          rw [urlRun] at ran
          dsimp only at ran
          by_cases success : 0 < (urlReadTo download size nci).1.ret
          · rw [if_pos success] at ran
            obtain ⟨rest, ranRest, rfl⟩ := Option.map_eq_some_iff.mp ran
            rw [wanted, List.forall₂_cons, right_iff within success, Aligned]
            constructor
            · rintro ⟨⟨some_, positive, same⟩, others⟩
              obtain ⟨_, _, place, inFile⟩ := urlReadTo_success within success some_
              have later := ih (position + size) (place ▸ inFile) ranRest
              rw [place] at later
              exact ⟨some_, positive, same, later.mp others⟩
            · rintro ⟨some_, positive, same, others⟩
              obtain ⟨_, _, place, inFile⟩ := urlReadTo_success within success some_
              have later := ih (position + size) (place ▸ inFile) ranRest
              rw [place] at later
              exact ⟨⟨some_, positive, same⟩, later.mpr others⟩
          · rw [if_neg success] at ran
            cases ran

theorem forward_aligned (file : List Byte) {calls : List UrlCall} {fileOffset : Nat}
    (forward : Forward fileOffset calls) : Aligned file fileOffset fileOffset calls := by
  induction calls generalizing fileOffset with
  | nil => trivial
  | cons call calls ih =>
      cases call with
      | seek offset whence =>
          cases whence with
          | set =>
              have ahead : fileOffset ≤ offset.toNat := by
                have bound := forward.1
                omega
              have there : (offset.toNat : Int) = offset := by
                have bound := forward.1
                omega
              have rest := ih forward.2
              rw [there] at rest
              rw [Aligned, Nat.max_eq_right ahead]
              exact rest
          | cur =>
              have rest := ih forward.2
              rw [Nat.cast_add, Int.toNat_of_nonneg forward.1] at rest
              exact rest
          | other => exact forward.elim
      | read size =>
          have some_ : size ≠ 0 := Int.ne_of_gt forward.1
          have rest := ih forward.2
          rw [Nat.cast_add, Int.toNat_of_nonneg (Int.le_of_lt forward.1)] at rest
          have here : ((fileOffset : Int)).toNat = fileOffset := Int.toNat_natCast fileOffset
          refine ⟨some_, Int.natCast_nonneg fileOffset, ?_, rest⟩
          rw [here]

theorem le_lastOffset {calls : List UrlCall} {fileOffset : Nat}
    (forward : Forward fileOffset calls) : fileOffset ≤ lastOffset fileOffset calls := by
  induction calls generalizing fileOffset with
  | nil => exact Nat.le_refl _
  | cons call calls ih =>
      cases call with
      | seek offset whence =>
          cases whence with
          | set =>
              have ahead := forward.1
              have rest := ih forward.2
              rw [lastOffset]
              omega
          | cur => exact Nat.le_trans (Nat.le_add_right _ _) (ih forward.2)
          | other => exact forward.elim
      | read size => exact Nat.le_trans (Nat.le_add_right _ _) (ih forward.2)

/-- Calls that go ahead inside of the file succeed if the bytes come in time. -/
theorem forward_succeeds (ready : ∀ n, download.ready n = true) {calls : List UrlCall}
    {nci : Stream} (forward : Forward nci.fileOffset calls)
    (inside : lastOffset nci.fileOffset calls ≤ download.file.length) :
    ∃ results, urlRun download calls nci = some results := by
  induction calls generalizing nci with
  | nil => exact ⟨[], rfl⟩
  | cons call calls ih =>
      have within := Nat.le_trans (le_lastOffset forward) inside
      cases call with
      | seek offset whence =>
          cases whence with
          | set =>
              have room := Nat.le_trans (le_lastOffset forward.2) inside
              have ahead := forward.1
              have success : (urlSeekTo download offset .set nci).1 = .none :=
                seekLoop_ready ready (by omega) (by omega)
              cases sought : urlSeekTo download offset .set nci with
              | mk err after =>
                  rw [sought] at success
                  dsimp only at success
                  subst success
                  obtain ⟨_, ⟨_, place⟩ | ⟨wrong, _⟩⟩ := urlSeekTo_success within sought
                  · have there : after.fileOffset = offset.toNat := by omega
                    rw [urlRun, sought]
                    apply ih
                    · rw [there]
                      exact forward.2
                    · rw [there]
                      exact inside
                  · cases wrong
          | cur =>
              have room := Nat.le_trans (le_lastOffset forward.2) inside
              have success : (urlSeekTo download offset .cur nci).1 = .none :=
                seekLoop_ready ready (by omega) (by omega)
              cases sought : urlSeekTo download offset .cur nci with
              | mk err after =>
                  rw [sought] at success
                  dsimp only at success
                  subst success
                  obtain ⟨_, ⟨wrong, _⟩ | ⟨_, place⟩⟩ := urlSeekTo_success within sought
                  · cases wrong
                  · rw [urlRun, sought]
                    apply ih
                    · rw [place]
                      exact forward.2
                    · rw [place]
                      exact inside
          | other => exact forward.elim
      | read size =>
          have room := Nat.le_trans (le_lastOffset forward.2) inside
          have count := urlReadTo_ready ready forward.1 room
          have success : 0 < (urlReadTo download size nci).1.ret := by
            rw [count]
            exact forward.1
          obtain ⟨_, _, place, _⟩ := urlReadTo_success within success (Int.ne_of_gt forward.1)
          obtain ⟨results, ran⟩ : ∃ results,
              urlRun download calls (urlReadTo download size nci).2 = some results := by
            apply ih
            · rw [place]
              exact forward.2
            · rw [place]
              exact inside
          refine ⟨(urlReadTo download size nci).1 :: results, ?_⟩
          rw [urlRun]
          dsimp only
          rw [if_pos success, ran]
          rfl

end

/-- The stream behind `url_open`. -/
def opened : Stream := ⟨0, 0⟩

/-- Reads and seeks that all report success and never go back return the file; others
do exactly where the bytes at both places agree. -/
theorem url_reads_right (download : Download) (calls : List UrlCall) (results : List ReadResult)
    (ran : urlRun download calls opened = some results) :
    (Forward 0 calls → List.Forall₂ (Right download.file) (wanted 0 calls) results) ∧
    (List.Forall₂ (Right download.file) (wanted 0 calls) results ↔
      Aligned download.file 0 0 calls) := by
  have exactly : List.Forall₂ (Right download.file) (wanted 0 calls) results ↔
      Aligned download.file 0 0 calls := run_right_iff 0 (Nat.zero_le _) ran
  exact ⟨fun forward => exactly.mpr (forward_aligned download.file forward), exactly⟩

/-- A file of three bytes that come in time. -/
def threeBytes : Download where
  file := [1, 2, 3]
  ready := fun _ => true

theorem url_reads_right_ahead :
    urlRun threeBytes [.seek 1 .set, .read 2] opened = some [⟨2, [2, 3]⟩] ∧
    List.Forall₂ (Right threeBytes.file) [(1, 2)] [⟨2, [2, 3]⟩] := by
  have ran : urlRun threeBytes [.seek 1 .set, .read 2] opened = some [⟨2, [2, 3]⟩] := by
    decide +kernel
  have forward : Forward 0 [.seek 1 .set, .read 2] := ⟨by decide, by decide, trivial⟩
  exact ⟨ran, (url_reads_right threeBytes _ _ ran).1 forward⟩

/-- A seek back reports success and leaves the stream where it is. -/
theorem url_seek_back :
    ¬ ∀ (download : Download) (calls : List UrlCall) (results : List ReadResult),
      urlRun download calls opened = some results →
        List.Forall₂ (Right download.file) (wanted 0 calls) results := by
  intro claimed
  have ran : urlRun threeBytes [.read 1, .seek 0 .set, .read 1] opened =
      some [⟨1, [1]⟩, ⟨1, [2]⟩] := by
    decide +kernel
  have rights := claimed threeBytes _ _ ran
  have second := (List.forall₂_cons.mp (List.forall₂_cons.mp rights).2).1.bytes
  revert second
  decide

end Alisl.Upgrade.Net.Url
