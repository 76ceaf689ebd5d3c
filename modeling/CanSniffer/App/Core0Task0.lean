import CanSniffer.Lib.Transition

/-! The main loop that takes settings from the web pages and applies them (`Core0Task0.c`,
`consume_param_values` of `SettingsHandler.c`, `CanCtrl.c`).  `Error_Handler` lights a LED and
returns. -/

namespace CanSniffer.App

open Lib

structure AppFcdanConfig where
  baudrate : UInt32
  mode : UInt8
  deriving DecidableEq, Repr

structure AppConfig where
  updated : Bool
  can1 : AppFcdanConfig
  can2 : AppFcdanConfig
  deriving DecidableEq, Repr

namespace AppFcdanConfig

def setBaudrate (c : AppFcdanConfig) (value : String) : AppFcdanConfig :=
  if value = "250000" then { c with baudrate := 250000 }
  else if value = "500000" then { c with baudrate := 500000 }
  else if value = "1000000" then { c with baudrate := 1000000 }
  else c

def setMode (c : AppFcdanConfig) (value : String) : AppFcdanConfig :=
  if value = "1" then { c with mode := 1 }
  else if value = "2" then { c with mode := 2 }
  else if value = "3" then { c with mode := 3 }
  else c

end AppFcdanConfig

namespace AppConfig

def setDefaults : AppConfig where
  updated := false
  can1 := { baudrate := 250000, mode := 2 }
  can2 := { baudrate := 250000, mode := 2 }

def setCan1 (c : AppConfig) (can1 : AppFcdanConfig) : AppConfig :=
  { c with can1, updated := c.updated || decide (can1 ≠ c.can1) }

def setCan2 (c : AppConfig) (can2 : AppFcdanConfig) : AppConfig :=
  { c with can2, updated := c.updated || decide (can2 ≠ c.can2) }

def consumeBaud (c : AppConfig) (param value : String) : AppConfig :=
  if param = "baud1" then c.setCan1 (c.can1.setBaudrate value)
  else if param = "baud2" then c.setCan2 (c.can2.setBaudrate value)
  else c

def consumeMode (c : AppConfig) (param value : String) : AppConfig :=
  if param = "mode1" then c.setCan1 (c.can1.setMode value)
  else if param = "mode2" then c.setCan2 (c.can2.setMode value)
  else c

end AppConfig

structure AppControlData where
  runCanTracer : Bool
  canTracerActionPending : Bool
  requestedRunCanTracer : Bool
  canTracerActionDelayPolls : UInt8
  applyConfig : Bool
  deriving DecidableEq, Repr

namespace AppControlData

def init : AppControlData where
  runCanTracer := false
  canTracerActionPending := false
  requestedRunCanTracer := false
  canTracerActionDelayPolls := 0
  applyConfig := false

def getAction (d : AppControlData) (action : UInt8) : AppControlData :=
  { d with
    requestedRunCanTracer := decide (action ≠ 0)
    canTracerActionDelayPolls := 2
    canTracerActionPending := true }

def pollAction (d : AppControlData) : AppControlData :=
  if d.canTracerActionPending then
    if 0 < d.canTracerActionDelayPolls then
      { d with canTracerActionDelayPolls := d.canTracerActionDelayPolls - 1 }
    else
      { d with runCanTracer := d.requestedRunCanTracer, canTracerActionPending := false }
  else d

end AppControlData

structure CanCtrlData where
  sendingActive : Bool
  can1 : AppFcdanConfig
  can2 : AppFcdanConfig
  deriving DecidableEq, Repr

def CanCtrlData.set (d : AppControlData) (c : AppConfig) : CanCtrlData where
  sendingActive := d.runCanTracer
  can1 := c.can1
  can2 := c.can2

/-- What a driver was last given.  It starts in a mode of its own. -/
structure Given where
  baudrate : UInt32
  mode : Option UInt8
  deriving DecidableEq, Repr

def Given.Holds (g : Given) (c : AppFcdanConfig) : Prop :=
  g.baudrate = c.baudrate ∧ g.mode = some c.mode

instance (g : Given) (c : AppFcdanConfig) : Decidable (g.Holds c) :=
  inferInstanceAs (Decidable (_ ∧ _))

/-- Where the loop is: in `http_poll`, or past `SettingsHandler_Poll`. -/
inductive LoopPoint
  | httpPoll
  | apply (canConfigChanged : Bool)
  deriving DecidableEq, Repr

/-- Not in the program: `owed` is whether a request to apply the settings was seen and no pass
since has found the tracer stopped, `missed` whether such a pass left a driver with other
settings than `appConfig`. -/
structure Core0Task0 where
  appConfig : AppConfig
  /-- `AppSettings` points to `appConfig`. -/
  settingsInit : Bool
  ctrl : AppControlData
  canCtrl : CanCtrlData
  driver1 : Given
  driver2 : Given
  point : LoopPoint
  owed : Bool
  missed : Bool

/-- What `ConfigManager_Initialize` and `ConfigManager_LoadConfig` come to. -/
inductive ConfigLoad
  | notInitialized
  | notLoaded
  | loaded (can1 can2 : AppFcdanConfig)

/-- What happens to the loop.  The log task stops the tracer when it likes. -/
inductive LoopEvent
  | param (param value : String)
  | action (action : UInt8)
  | logStopped
  | polled
  | applied

namespace Core0Task0

def init : Core0Task0 where
  appConfig := .setDefaults
  settingsInit := false
  ctrl := .init
  canCtrl := .set .init .setDefaults
  driver1 := { baudrate := AppConfig.setDefaults.can1.baudrate, mode := none }
  driver2 := { baudrate := AppConfig.setDefaults.can2.baudrate, mode := none }
  point := .httpPoll
  owed := false
  missed := false

def give (s : Core0Task0) : Core0Task0 :=
  let canCtrl := CanCtrlData.set s.ctrl s.appConfig
  { s with
    canCtrl
    driver1 := { baudrate := canCtrl.can1.baudrate, mode := some canCtrl.can1.mode }
    driver2 := { baudrate := canCtrl.can2.baudrate, mode := some canCtrl.can2.mode } }

def start : ConfigLoad → Core0Task0
  | .notInitialized => init
  | .notLoaded => { init with settingsInit := true }
  | .loaded can1 can2 =>
    { init with appConfig := { updated := false, can1, can2 }, settingsInit := true }.give

def startsWith (param start : String) : Bool := start.toList.isPrefixOf param.toList

/-- `httpd_post_cb` and the settings of a query.  Without `AppSettings` there is nothing to write
to. -/
def consumeParamValues (s : Core0Task0) (param value : String) : Option Core0Task0 :=
  if param ∈ ["baud1", "baud2", "mode1", "mode2"] ∧ s.settingsInit = false then none
  else if startsWith param "baud" then
    some { s with appConfig := s.appConfig.consumeBaud param value }
  else if startsWith param "mode" then
    some { s with appConfig := s.appConfig.consumeMode param value }
  else if param = "action" ∧ value = "apply" then some { s with ctrl.applyConfig := true }
  else some s

def settingsHandlerPoll (s : Core0Task0) : Bool := s.appConfig.updated

/-- From the end of `http_poll` to the apply request. -/
def afterPoll (s : Core0Task0) : Core0Task0 :=
  let canConfigChanged := s.settingsHandlerPoll
  { s with
    ctrl := s.ctrl.pollAction
    appConfig.updated := if canConfigChanged then false else s.appConfig.updated
    point := .apply canConfigChanged }

def Current (s : Core0Task0) : Prop :=
  s.driver1.Holds s.appConfig.can1 ∧ s.driver2.Holds s.appConfig.can2

instance (s : Core0Task0) : Decidable s.Current := inferInstanceAs (Decidable (_ ∧ _))

def asked (s : Core0Task0) : Bool := s.owed || s.ctrl.applyConfig

def handleApply (s : Core0Task0) (canConfigChanged : Bool) : Core0Task0 :=
  if s.ctrl.applyConfig = true ∧ s.ctrl.runCanTracer = false then
    if canConfigChanged then { s.give with ctrl.applyConfig := false }
    else { s with ctrl.applyConfig := false }
  else { s with ctrl.applyConfig := false }

/-- `handleApply` and what becomes of the request. -/
def afterApply (s : Core0Task0) (canConfigChanged : Bool) : Core0Task0 :=
  let t := s.handleApply canConfigChanged
  if s.ctrl.runCanTracer then { t with point := .httpPoll, owed := s.asked }
  else
    { t with
      point := .httpPoll
      owed := false
      missed := s.missed || (s.asked && decide (¬t.Current)) }

def step : Step Core0Task0 LoopEvent := fun s l =>
  match s.point, l with
  | .httpPoll, .param param value => s.consumeParamValues param value
  | .httpPoll, .action action => some { s with ctrl := s.ctrl.getAction action }
  | .httpPoll, .polled => some s.afterPoll
  | .apply canConfigChanged, .applied => some (s.afterApply canConfigChanged)
  | _, .logStopped => some { s with ctrl.runCanTracer := false }
  | _, _ => none

end Core0Task0

end CanSniffer.App
