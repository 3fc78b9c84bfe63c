import Alisl.Base.Bytes

/-! Data shared by the upgrade source and the flash writer. -/

namespace Alisl.Upgrade

open Alisl.Base

inductive UpgErr where
  | none
  | noSupportObj
  | noPluginRegister
  | pluginRegErr
  | parseCfgErr
  | cantGetCfg
  | tooManyParts
  | notEnoughSpace
  | mismatchPgsz
  | verifyFail
  | invalidParam
  | fileOperateFail
  | downloadFail
  | invalidPackage
  | other
  deriving DecidableEq, Repr

/-- One `upg_elem_t` of the list; `addr` is the address malloc gave it, the
identity by which the writer recognises the element it wrote last. -/
structure Elem where
  addr : Nat
  partName : String
  imgSize : Nat
  imgOffset : Nat
  deriving DecidableEq, Repr

/-- What the source hands over in `tune->elem`, `tune->buf` and `tune->size`. -/
structure Chunk where
  elem : Elem
  data : List Byte
  deriving DecidableEq, Repr

def upgBufSize : Nat := 512 * 1024

def bootName : String := "boot"
def bootNameBak : String := "bootbak"
def sflashName : String := "sflash"

def scsHashLevel1Len : Nat := 0x130
def scsSigLen : Nat := 0x100
def bootParamTotalSize : Nat := 0x5d0

end Alisl.Upgrade
