/-! The timer that counts microseconds (`timer.c`).  What the HAL answers is an argument.  A
division by zero cannot happen for the resolution in use. -/

namespace CanSniffer.Drivers

/-- The timers, in the groups that `GetTimerMaxARR` and `GetTimerInputClock` tell apart. -/
inductive TimInstance where
  | tim1 | tim2 | tim3 | tim4 | tim5 | tim6 | tim7 | tim8
  | tim12 | tim13 | tim14 | tim15 | tim16 | tim17
  deriving DecidableEq, Repr

def timx : TimInstance := .tim3

def getTimerMaxARR (htim : TimInstance) : Nat :=
  if htim = .tim2 ∨ htim = .tim5 then 0xFFFFFFFF else 0xFFFF

/-- What `HAL_RCC_GetClockConfig` and the bus frequencies report; `divided` is whether the divider
is another one than `RCC_HCLK_DIV1`. -/
structure ClockConfig where
  pclk1 : UInt32
  apb1Divided : Bool
  pclk2 : UInt32
  apb2Divided : Bool
  deriving DecidableEq, Repr

def getTimerInputClock (c : ClockConfig) (htim : TimInstance) : UInt32 :=
  if htim = .tim1 ∨ htim = .tim8 ∨ htim = .tim15 ∨ htim = .tim16 ∨ htim = .tim17 then
    if c.apb2Divided then c.pclk2 * 2 else c.pclk2
  else if c.apb1Divided then c.pclk1 * 2 else c.pclk1

/-- The loop over the auto-reload values down to 1: the prescaler and the auto-reload, both as the
registers take them. -/
def arrLoop (totalCounts : Nat) : Nat → Option (Nat × Nat)
  | 0 => none
  | arr + 1 =>
    let divisor := arr + 1 + 1
    if totalCounts % divisor ≠ 0 then arrLoop totalCounts arr
    else
      -- the difference is cut to 32 bits before it is compared
      let prescaler := (totalCounts / divisor + UInt64.size - 1) % UInt64.size % UInt32.size
      if prescaler + 1 = 0 ∨ 0x10000 < prescaler + 1 then arrLoop totalCounts arr
      else some (prescaler, arr + 1)

def totalCounts (timerClk : UInt32) (targetFreq : UInt64) : Nat :=
  timerClk.toNat * 1000 / targetFreq.toNat

/-- `ComputePrescalerAndARR`; `none` is its result 1. -/
def computePrescalerAndARR (timerClk : UInt32) (targetFreq : UInt64) (maxArr : UInt32) :
    Option (Nat × Nat) :=
  if targetFreq = 0 then none else arrLoop (totalCounts timerClk targetFreq) maxArr.toNat

def baseConstant : Nat := 10000000000

def freqLoop (resolution : Nat) : Nat → Option Nat
  | 0 => none
  | arr + 1 =>
    let freqInt := baseConstant / (resolution * (arr + 1 + 1) % UInt32.size)
    if baseConstant = freqInt * resolution % UInt64.size * (arr + 1 + 1) % UInt64.size then
      some (freqInt / 10)
    else freqLoop resolution arr

structure TimInit where
  prescaler : Nat
  period : Nat
  deriving DecidableEq, Repr

/-- The result, what the handle is programmed with, and whether `TIM_ErrorHandlerHook`, which does
nothing, was called. -/
structure TimxInitResult where
  res : UInt8
  init : Option TimInit
  errorHook : Bool
  deriving DecidableEq, Repr

/-- The rest of `TIMx_Init` once the pair is found: `initialized` and `started` are what
`HAL_TIM_Base_Init` and `HAL_TIM_Base_Start_IT` answer. -/
def timxProgram (inputClock : UInt32) (resolution : UInt32) (initialized started : Bool) :
    Option (Nat × Nat) → TimxInitResult
  | none => { res := 1, init := none, errorHook := false }
  | some (prescaler, arr) =>
    { res := if started = false then 2 else if initialized = false then 1 else 0
      init := some { prescaler, period := arr }
      errorHook := decide (resolution.toNat ≠ inputClock.toNat / (1 + prescaler) / 1000000) }

def timxInitFrom (inputClock : UInt32) (maxArr : Nat) (resolution : UInt32)
    (initialized started : Bool) : TimxInitResult :=
  match freqLoop resolution.toNat maxArr with
  | none => { res := 1, init := none, errorHook := true }
  | some freq =>
    timxProgram inputClock resolution initialized started
      (computePrescalerAndARR inputClock (UInt64.ofNat freq) (UInt32.ofNat maxArr))

def timxInit (c : ClockConfig) (resolution : UInt32) (initialized started : Bool) :
    TimxInitResult :=
  timxInitFrom (getTimerInputClock c timx) (getTimerMaxARR timx) resolution initialized started

end CanSniffer.Drivers
