import Alisl.Base.Client
import Alisl.Base.Cut
import Alisl.Upgrade.Tune
import Alisl.Upgrade.Net.Cache

/-! `upgrade_obj_loop` of the OTA, NET and USB plugins, as programs that call
what they read from and hand chunks over to the writer. A call also stands for
each test of `desc->error`, which other threads set. -/

namespace Alisl.Upgrade.Source

open Alisl.Base

/-- `sizeof(alislupg_header_t)`: 28 bytes and MAX_PART image records of 32. -/
def headerSize : Nat := 28 + 64 * 32

/-! The loop the three plugins share. `raised` is the test of `desc->error`,
`read` fills `tune->buf` from an offset of the package, `shrink` is the size of
the next read. -/

section

variable {Call : Type} {Answer : Call → Type}

def objLoop (raised : (Bool → Client Call Answer Chunk) → Client Call Answer Chunk)
    (read : Memory → Nat → Nat → (Option Memory → Client Call Answer Chunk) →
      Client Call Answer Chunk)
    (shrink : Nat → Nat → Nat → Nat) (total : Nat) :
    Nat → List Elem → Memory → Nat → Nat → Nat → Client Call Answer Chunk
  | 0, _, _, _, _, _ => .stop false
  | _ + 1, [], _, _, _, _ => .stop true
  | fuel + 1, elem :: rest, buf, elemread, perread, totalread =>
      if totalread < total then
        raised (fun error =>
          if error then .stop false
          else
            let perread := if elem.imgSize < upgBufSize then elem.imgSize else perread
            read buf (elem.imgOffset + elemread) perread (fun
              | none => .stop false
              | some buf =>
                  let elemread := elemread + perread
                  let totalread := totalread + perread
                  let left := shrink elem.imgSize elemread perread
                  .hand ⟨elem, slice buf 0 perread⟩
                    (if left = 0 then
                      objLoop raised read shrink total fuel rest buf 0 upgBufSize totalread
                    else
                      objLoop raised read shrink total fuel (elem :: rest) buf elemread left
                        totalread)))
      else .stop true

end

/-- A round reads at least a byte or leaves an element behind. -/
def rounds (total : Nat) (elems : List Elem) : Nat := total + elems.length + 1

/-- The OTA loop does not test for `img_size >= elemread`. -/
def shrinkOta (imgSize elemread perread : Nat) : Nat :=
  let remain := ulongSub imgSize elemread
  if remain < upgBufSize then remain else perread

def shrinkGuarded (imgSize elemread perread : Nat) : Nat :=
  if elemread ≤ imgSize ∧ imgSize - elemread < upgBufSize then imgSize - elemread else perread

/-! USB: `fseek` and `fread` of the file, or `usb_file_seek` and `usb_file_read`
of the buffer it was loaded into. Neither result is tested. -/

inductive UsbCall where
  | raised
  | fopen
  | fread (offset size : Nat)

def UsbCall.Answer : UsbCall → Type
  | .raised => Bool
  | .fopen => Bool
  | .fread _ _ => List Byte

abbrev UsbClient := Client UsbCall UsbCall.Answer Chunk

def usbRead (buf : Memory) (offset perread : Nat) (next : Option Memory → UsbClient) : UsbClient :=
  .call (.fread offset perread) (fun bytes => next (some (store buf 0 bytes)))

def usbObjLoop (method : Net.Method) (pktsz : Nat) (elems : List Elem) (buf : Memory) : UsbClient :=
  let total := pktsz - headerSize
  let loop := objLoop (fun next => .call .raised next) usbRead shrinkGuarded total
    (rounds total elems) elems buf 0 upgBufSize 0
  match method with
  | .pieceByPiece => .call .fopen (fun (opened : Bool) => if opened then loop else .stop false)
  | .oneShot => loop

/-! NET: `url_seek` and `url_read`, which read through the cache. -/

inductive NetCall where
  | raised
  | urlOpen
  | fileOffset
  | readCache (size : Nat)

def NetCall.Answer : NetCall → Type
  | .raised => Bool
  | .urlOpen => Bool
  | .fileOffset => Nat
  | .readCache _ => Option (List Byte)

abbrev NetClient := Client NetCall NetCall.Answer Chunk

def urlReadLoop (size perSize : Nat) (next : Option (List Byte) → NetClient) :
    Nat → List Byte → NetClient
  | 0, _ => next none
  | fuel + 1, down =>
      if down.length < size then
        let ask := if perSize ≤ size - down.length then perSize else size - down.length
        .call (.readCache ask) (fun
          | none => next none
          | some bytes => urlReadLoop size perSize next fuel (down ++ bytes))
      else next (some down)

/-- A read of nothing returns an error code, which is positive. -/
def urlRead (size : Nat) (next : Option (List Byte) → NetClient) : NetClient :=
  if size = 0 then next (some [])
  else urlReadLoop size (if size < 10240 then size else 10240) next (size + 1) []

def seekBufSize : Nat := 1024

def urlSeekLoop (offset : Nat) (next : Bool → NetClient) : Nat → Nat → NetClient
  | 0, _ => next false
  | fuel + 1, curOffset =>
      if curOffset < offset then
        urlRead (if seekBufSize ≤ offset - curOffset then seekBufSize else offset - curOffset) (fun
          | none => next false
          | some bytes => urlSeekLoop offset next fuel (curOffset + bytes.length))
      else next true

def urlSeek (offset : Nat) (next : Bool → NetClient) : NetClient :=
  .call .fileOffset (fun curOffset => urlSeekLoop offset next (offset + 1) curOffset)

def netRead (buf : Memory) (offset perread : Nat) (next : Option Memory → NetClient) : NetClient :=
  urlSeek offset (fun sought =>
    if sought then
      urlRead perread (fun
        | none => next none
        | some bytes => next (some (store buf 0 bytes)))
    else next none)

def netObjLoop (method : Net.Method) (pktsz : Nat) (elems : List Elem) (buf : Memory) : NetClient :=
  let total := pktsz - headerSize
  let loop := urlSeek headerSize (fun sought =>
    if sought then
      objLoop (fun next => .call .raised next) netRead shrinkGuarded total (rounds total elems)
        elems buf 0 upgBufSize 0
    else .stop false)
  if elems = [] then .stop true
  else match method with
    | .pieceByPiece => .call .urlOpen (fun (opened : Bool) => if opened then loop else .stop false)
    | .oneShot => loop

/-! OTA: `ota_file_read` of what follows. The header is read over, whatever the
read returns. -/

inductive OtaCall where
  | raised
  | otaFileRead (size : Nat)

def OtaCall.Answer : OtaCall → Type
  | .raised => Bool
  | .otaFileRead _ => Int × List Byte

abbrev OtaClient := Client OtaCall OtaCall.Answer Chunk

def otaRead (buf : Memory) (_ perread : Nat) (next : Option Memory → OtaClient) : OtaClient :=
  .call (.otaFileRead perread) (fun (answer : Int × List Byte) =>
    if answer.1 < 0 then next none else next (some (store buf 0 answer.2)))

def otaObjLoop (pktsz : Nat) (elems : List Elem) (buf : Memory) : OtaClient :=
  let total := pktsz - headerSize
  if elems = [] then .stop true
  else .call (.otaFileRead headerSize) (fun _ =>
    objLoop (fun next => .call .raised next) otaRead shrinkOta total (rounds total elems)
      elems buf 0 upgBufSize 0)

/-! The package, and the chunks it is to be handed over in. -/

def Contiguous : Nat → List Elem → Prop
  | _, [] => True
  | offset, elem :: rest => elem.imgOffset = offset ∧ Contiguous (offset + elem.imgSize) rest

/-- A package as the pack tool lays it out: behind the header the images, one
after the other. -/
structure Package where
  bytes : List Byte
  elems : List Elem
  positive : ∀ elem ∈ elems, 1 ≤ elem.imgSize
  contiguous : Contiguous headerSize elems
  length : bytes.length = headerSize + (elems.map Elem.imgSize).sum

def image (bytes : List Byte) (elem : Elem) : List Byte :=
  (bytes.drop elem.imgOffset).take elem.imgSize

def planOf (bytes : List Byte) (elems : List Elem) : List Chunk :=
  elems.flatMap (fun elem => (cut upgBufSize (image bytes elem)).map (Chunk.mk elem))

def Package.plan (package : Package) : List Chunk := planOf package.bytes package.elems

end Alisl.Upgrade.Source
