import CanSniffer.Drivers.CanAbs

/-! The running time, kept by the timer's interrupt and read by `FDCAN_GetTimestampHook`
(`CanCtrl.c`, `timer.c`).  `Time` does not wrap around here: its 64 bits last for ages. -/

namespace CanSniffer.Drivers

open Lib

/-- Who calls the hook: a task or an interrupt below the timer's, or the FDCAN interrupt, which is
above it. -/
inductive HookContext
  | below (id : Nat)
  | fdcan
  deriving DecidableEq, Repr

/-- The counter and the copy of the update flag, read at once. Not in the program: the true time
and `Time` then, whether every overflow was in `Time` or shown by the flag, and whether the timer's
interrupt had cleared the flag and not yet added the period. -/
structure HookReading where
  cnt : Nat
  uif : Bool
  now : Nat
  time : Nat
  accounted : Bool
  cleared : Bool
  deriving DecidableEq, Repr

inductive HookPoint
  | entered
  | first (timeSnapshot1 : Nat)
  | counted (timeSnapshot1 : Nat) (r : HookReading)
  deriving DecidableEq, Repr

/-- Not in the program: `floor` is the highest value that had been returned when the call came. -/
structure HookCall where
  point : HookPoint
  floor : Nat
  deriving DecidableEq, Repr

structure HookReturn where
  context : HookContext
  value : Nat
  reading : HookReading
  floor : Nat
  deriving DecidableEq, Repr

/-- `cleared` is where the timer's interrupt is. Not in the program: `overflows`, `returned` and
`highest`. -/
structure TimerState where
  overflows : Nat
  cnt : Nat
  uif : Bool
  cleared : Bool
  time : Nat
  calls : HookContext → Option HookCall
  returned : List HookReturn
  highest : Nat

inductive TimerEvent
  | tick
  | clearFlag
  | addPeriod
  | call (c : HookContext)
  | snapshot1 (c : HookContext)
  | read (c : HookContext)
  | snapshot2 (c : HookContext)
  deriving DecidableEq, Repr

namespace TimerState

def period (arr : UInt16) : Nat := (getTimerPeriod arr).toNat

def start : TimerState where
  overflows := 0
  cnt := 0
  uif := false
  cleared := false
  time := 0
  calls := fun _ => none
  returned := []
  highest := 0

def now (arr : UInt16) (s : TimerState) : Nat := s.overflows * period arr + s.cnt

def flagged (arr : UInt16) (uif : Bool) : Nat := if uif then period arr else 0

/-- Every overflow is in `Time` or shown by the flag. -/
def accounted (arr : UInt16) (s : TimerState) : Bool :=
  decide (s.overflows * period arr = s.time + flagged arr s.uif)

def setCall (s : TimerState) (c : HookContext) (call : Option HookCall) : TimerState :=
  { s with calls := fun i => if i = c then call else s.calls i }

/-- The processor is with nobody above `c`. -/
def free (s : TimerState) : HookContext → Bool
  | .below _ => !s.cleared && (s.calls .fdcan).isNone
  | .fdcan => true

def tick (arr : UInt16) (s : TimerState) : TimerState :=
  if s.cnt + 1 = period arr then { s with cnt := 0, overflows := s.overflows + 1, uif := true }
  else { s with cnt := s.cnt + 1 }

def reading (arr : UInt16) (s : TimerState) : HookReading where
  cnt := s.cnt
  uif := s.uif
  now := s.now arr
  time := s.time
  accounted := s.accounted arr
  cleared := s.cleared

def finish (s : TimerState) (r : HookReturn) : TimerState :=
  { s.setCall r.context none with
    returned := r :: s.returned
    highest := Nat.max s.highest r.value }

/-- The loop starts over if `Time` has changed. -/
def snapshot2 (arr : UInt16) (s : TimerState) (c : HookContext) (floor timeSnapshot1 : Nat)
    (r : HookReading) : TimerState :=
  if timeSnapshot1 ≠ s.time then s.setCall c (some { point := .entered, floor })
  else
    s.finish {
      context := c
      value := timeSnapshot1 + r.cnt + flagged arr r.uif
      reading := r
      floor }

/-- The timer's interrupt does not run while the FDCAN interrupt does, nor anybody below it while
it runs. -/
def step (arr : UInt16) : Step TimerState TimerEvent
  | s, .tick => some (s.tick arr)
  | s, .clearFlag =>
    if s.uif && !s.cleared && (s.calls .fdcan).isNone then
      some { s with uif := false, cleared := true }
    else none
  | s, .addPeriod =>
    if s.cleared && (s.calls .fdcan).isNone then
      some { s with time := s.time + period arr, cleared := false }
    else none
  | s, .call c =>
    if s.free c && (s.calls c).isNone then
      some (s.setCall c (some { point := .entered, floor := s.highest }))
    else none
  | s, .snapshot1 c =>
    match s.calls c with
    | some { point := .entered, floor } =>
      if s.free c then some (s.setCall c (some { point := .first s.time, floor })) else none
    | _ => none
  | s, .read c =>
    match s.calls c with
    | some { point := .first timeSnapshot1, floor } =>
      if s.free c then
        some (s.setCall c (some { point := .counted timeSnapshot1 (s.reading arr), floor }))
      else none
    | _ => none
  | s, .snapshot2 c =>
    match s.calls c with
    | some { point := .counted timeSnapshot1 r, floor } =>
      if s.free c then some (s.snapshot2 arr c floor timeSnapshot1 r) else none
    | _ => none

end TimerState

end CanSniffer.Drivers
