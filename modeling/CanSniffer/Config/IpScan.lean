import CanSniffer.Config.SettingsHandler

/-! `IpStringToIntArray` with its group buffer, its counters and every store it makes
(`SettingsHandler.c`). -/

namespace CanSniffer.Config

open Lib Decimal Storage

inductive IpStore
  | element (i : Nat)
  | arr (i : Nat)
  deriving DecidableEq, Repr

def ipSuccess : Int := 0
def errorInvalidFormat : Int := -1
def errorTooManySegments : Int := -2

/-- `arr` is the memory from the caller's array on. -/
structure IpScan where
  element : Nat → UInt8
  valTmp : UInt32
  charCount : UInt8
  elemCount : UInt8
  arr : Nat → UInt8
  stores : List IpStore

namespace IpScan

def storeElement (s : IpScan) (i : UInt8) (c : UInt8) : IpScan :=
  { s with
    element := fun j => if j = i.toNat then c else s.element j
    stores := s.stores ++ [.element i.toNat] }

def storeArr (s : IpScan) (i : UInt8) (c : UInt8) : IpScan :=
  { s with
    arr := fun j => if j = i.toNat then c else s.arr j
    stores := s.stores ++ [.arr i.toNat] }

def text (s : IpScan) : List UInt8 := (List.range 4).map s.element

def storeGroup (s : IpScan) : IpScan × Bool :=
  let s := { s with valTmp := convertToInteger s.text s.valTmp }
  if 255 < s.valTmp then (s, false)
  else ({ s.storeArr s.elemCount s.valTmp.toUInt8 with elemCount := s.elemCount + 1 }, true)

/-- The body of the loop, with what it returns if it does. -/
def step (s : IpScan) (c : UInt8) : IpScan × Option Int :=
  if isDigit c then
    if s.charCount < 3 then
      let s := { s.storeElement s.charCount c with charCount := s.charCount + 1 }
      (s.storeElement s.charCount 0, none)
    else (s, some errorInvalidFormat)
  else if c = 0x2E then
    if s.charCount = 0 then (s, some errorInvalidFormat)
    else
      let (s, ok) := s.storeGroup
      if ¬ok then (s, some errorInvalidFormat)
      else if 3 < s.elemCount then (s, some errorTooManySegments)
      else ({ s with charCount := 0 }, none)
  else (s, some errorInvalidFormat)

def finish (s : IpScan) : IpScan × Int :=
  if s.charCount = 0 then (s, errorInvalidFormat)
  else
    let (s, ok) := s.storeGroup
    if ¬ok then (s, errorInvalidFormat)
    else (s, if s.elemCount = 4 then ipSuccess else errorInvalidFormat)

/-- The index is an octet, and so is the length that it stays below. -/
def loop (ip : Nat → UInt8) (len index : UInt8) (s : IpScan) : IpScan × Int :=
  if _h : index < len then
    match s.step (ip index.toNat) with
    | (s, none) => loop ip len (index + 1) s
    | (s, some code) => (s, code)
  else s.finish
termination_by len.toNat - index.toNat
decreasing_by
  have hlen := len.toNat_lt
  have hlt := UInt8.lt_iff_toNat_lt.mp _h
  rw [UInt8.toNat_add, UInt8.toNat_one]
  omega

/-- `valTmp` is not initialised. -/
def init (arr : Nat → UInt8) (valTmp : UInt32) : IpScan where
  element _ := 0
  valTmp
  charCount := 0
  elemCount := 0
  arr
  stores := []

end IpScan

/-- `ip` is the memory from the string on. -/
def scanIp (ip : Nat → UInt8) (len : UInt8) (arr : Nat → UInt8) (valTmp : UInt32) : IpScan × Int :=
  IpScan.loop ip len 0 (.init arr valTmp)

end CanSniffer.Config
