import Mathlib.Data.List.Basic
import Mathlib.Data.Nat.Digits.Defs
import Mathlib.Data.UInt

/-! The battery device: what it keeps of the battery, what it publishes, and the calls
that the battery manager and its timers make. -/
namespace Battery

def kExistingBatteryPath : ℕ := 1
def kNewBatteryPath : ℕ := 2
def kDefaultPollInterval : UInt32 := 0
def kQuickPollInterval : UInt32 := 1
def kBatteryReadAllTimeout : UInt32 := 10000
def BATTERY_DISCHARGING : UInt32 := 1
def BATTERY_CHARGING : UInt32 := 2
def BIF_POWER_UNIT : ℕ := 0
def BIF_DESIGN_CAPACITY : ℕ := 1
def BIF_LAST_FULL_CAPACITY : ℕ := 2
def BIF_DESIGN_VOLTAGE : ℕ := 4
def BIF_MODEL_NUMBER : ℕ := 9
def BIF_SERIAL_NUMBER : ℕ := 10
def BIF_BATTERY_TYPE : ℕ := 11
def BIF_OEM : ℕ := 12
def BIF_CYCLE_COUNT : ℕ := 13
def kMaxGeneratedSerialSize : ℕ := 44

abbrev OSSymbol := List Char

/-- An object of an ACPI package; `other` is neither a number nor a text. A name that is given as
data is left out: its symbol is made without a copy of a buffer that is gone when it is read. -/
inductive OSObject where
  | number (value : UInt32)
  | string (text : List Char)
  | other
  deriving DecidableEq, Repr

def unknownObjectKey : OSSymbol := "Unknown".toList

/-- Anything but a number counts as `ACPI_UNKNOWN`. -/
def getValueFromArray (array : List OSObject) (index : ℕ) : UInt32 :=
  match array[index]? with
  | some (.number value) => value
  | _ => 0xFFFFFFFF

def getSymbolFromArray (array : List OSObject) (index : ℕ) : OSSymbol :=
  match array[index]? with
  | some (.string text) => text
  | _ => unknownObjectKey

/-- A `_BIF` package, with the 13 objects that ACPI asks for at least. -/
structure BIF where
  array : List OSObject
  complete : 13 ≤ array.length
  deriving DecidableEq, Repr

/-- The four numbers of a `_BST` package. -/
structure BST where
  state : UInt32
  presentRate : UInt32
  remainingCapacity : UInt32
  presentVoltage : UInt32
  deriving DecidableEq, Repr

/-- What one round of reads obtains; `none` where an evaluation fails. -/
structure Reads where
  batterySTA : Option UInt32
  batteryBIF : Option BIF
  batteryBST : Option BST
  deriving DecidableEq, Repr

/-- The present bit of a `_STA` value. -/
def staPresent (sta : UInt32) : Bool := sta &&& 0x10 != 0

inductive ReadError where
  | overallTimeoutExpired | zeroCapacity | permanentFailure
  deriving DecidableEq, Repr

/-- A timer, the time it is set to, and whether a work loop has it. -/
structure IOTimerEventSource where
  timeoutMS : Option UInt32
  inWorkLoop : Bool
  deriving DecidableEq, Repr

namespace IOTimerEventSource

def cancelTimeout (t : IOTimerEventSource) : IOTimerEventSource := { t with timeoutMS := none }

def setTimeoutMS (t : IOTimerEventSource) (ms : UInt32) : IOTimerEventSource :=
  { t with timeoutMS := some ms }

def armed (t : IOTimerEventSource) : Bool := t.timeoutMS.isSome

end IOTimerEventSource

/-- The battery information in the format of older applications. -/
structure LegacyBatteryInfo where
  acInstalled : Bool
  batteryInstalled : Bool
  batteryCharging : Bool
  currentCharge : UInt32
  capacity : UInt32
  voltage : UInt32
  amperage : UInt32
  cycleCount : UInt32
  deriving DecidableEq, Repr

/-- The published properties. A flag or number of the power source class that has not
been published reads as `false` or 0, as does `fullyCharged`. -/
structure Properties where
  batteryInstalled : Bool
  isCharging : Bool
  fullyCharged : Bool
  externalConnected : Bool
  externalChargeCapable : Bool
  currentCapacity : UInt32
  maxCapacity : UInt32
  timeRemaining : UInt32
  amperage : UInt32
  voltage : UInt32
  cycleCount : UInt32
  adapterInfo : UInt32
  location : UInt32
  manufacturer : Option OSSymbol
  errorCondition : Option ReadError
  designCapacity : Option UInt32
  deviceName : Option OSSymbol
  type : Option OSSymbol
  maxErr : Option UInt32
  manufactureDate : Option UInt32
  serialNumber : Option UInt32
  manufacturerData : Option (List UInt8)
  averageTimeToEmpty : Option UInt32
  averageTimeToFull : Option UInt32
  instantTimeToEmpty : Option UInt32
  instantTimeToFull : Option UInt32
  instantAmperage : Option UInt32
  quickPoll : Option Bool
  cellVoltage : Option (List UInt16)
  temperature : Option UInt16
  softwareSerial : Option OSSymbol
  legacyInfo : Option LegacyBatteryInfo
  latestErrorType : Option ReadError
  deriving DecidableEq, Repr

namespace Properties

/-- Nothing has been published yet. -/
def empty : Properties where
  batteryInstalled := false
  isCharging := false
  fullyCharged := false
  externalConnected := false
  externalChargeCapable := false
  currentCapacity := 0
  maxCapacity := 0
  timeRemaining := 0
  amperage := 0
  voltage := 0
  cycleCount := 0
  adapterInfo := 0
  location := 0
  manufacturer := none
  errorCondition := none
  designCapacity := none
  deviceName := none
  type := none
  maxErr := none
  manufactureDate := none
  serialNumber := none
  manufacturerData := none
  averageTimeToEmpty := none
  averageTimeToFull := none
  instantTimeToEmpty := none
  instantTimeToFull := none
  instantAmperage := none
  quickPoll := none
  cellVoltage := none
  temperature := none
  softwareSerial := none
  legacyInfo := none
  latestErrorType := none

def rebuildLegacyIOBatteryInfo (p : Properties) : Properties :=
  { p with
    legacyInfo := some
      ⟨p.externalConnected, p.batteryInstalled, p.isCharging, p.currentCapacity, p.maxCapacity,
        p.voltage, p.amperage, p.cycleCount⟩ }

/-- The properties that `clearBatteryState` sets or removes. -/
def clear (p : Properties) : Properties :=
  { p with
    batteryInstalled := false
    isCharging := false
    currentCapacity := 0
    maxCapacity := 0
    timeRemaining := 0
    amperage := 0
    voltage := 0
    cycleCount := 0
    adapterInfo := 0
    location := 0
    manufacturer := none
    legacyInfo := none
    errorCondition := none
    designCapacity := none
    deviceName := none
    type := none
    maxErr := none
    manufactureDate := none
    serialNumber := none
    manufacturerData := none
    averageTimeToEmpty := none
    averageTimeToFull := none
    instantTimeToEmpty := none
    instantTimeToFull := none
    instantAmperage := none
    quickPoll := none
    cellVoltage := none
    temperature := none
    softwareSerial := none }

end Properties

structure AppleACPIBatteryDevice where
  pollTimer : IOTimerEventSource
  batteryReadAllTimer : IOTimerEventSource
  pollingInterval : UInt32
  pollingOverridden : Bool
  batteryPresent : Bool
  acConnected : Bool
  acChargeCapable : Bool
  powerUnit : UInt32
  designVoltage : UInt32
  currentVoltage : UInt32
  designCapacity : UInt32
  currentCapacity : UInt32
  maxCapacity : UInt32
  currentRate : UInt32
  averageRate : UInt32
  status : UInt32
  cycleCount : UInt32
  serialNumber : UInt16
  deviceName : Option OSSymbol
  serial : Option OSSymbol
  type : Option OSSymbol
  manufacturer : Option OSSymbol
  properties : Properties
  deriving DecidableEq, Repr

namespace AppleACPIBatteryDevice

def publish (s : AppleACPIBatteryDevice) (f : Properties → Properties) : AppleACPIBatteryDevice :=
  { s with properties := f s.properties }

def logReadError (s : AppleACPIBatteryDevice) (errorType : ReadError) : AppleACPIBatteryDevice :=
  s.publish fun p => { p with latestErrorType := some errorType }

def setFullyCharged (s : AppleACPIBatteryDevice) (charged : Bool) : AppleACPIBatteryDevice :=
  s.publish fun p => { p with fullyCharged := charged }

def setErrorCondition (s : AppleACPIBatteryDevice) (error : ReadError) : AppleACPIBatteryDevice :=
  s.publish fun p => { p with errorCondition := some error }

/-- The current capacity, kept and published. -/
def setCurrentCapacity (s : AppleACPIBatteryDevice) (capacity : UInt32) :
    AppleACPIBatteryDevice :=
  { s with currentCapacity := capacity }.publish fun p => { p with currentCapacity := capacity }

def clearBatteryState (s : AppleACPIBatteryDevice) : AppleACPIBatteryDevice :=
  { s with
    batteryPresent := false
    acConnected := false
    acChargeCapable := false
    properties := s.properties.clear.rebuildLegacyIOBatteryInfo }

def setBatterySTA (s : AppleACPIBatteryDevice) (sta : UInt32) : AppleACPIBatteryDevice :=
  { s with batteryPresent := staPresent sta }.publish fun p =>
    { p with batteryInstalled := staPresent sta }

def setBatteryBIF (s : AppleACPIBatteryDevice) (p : BIF) : AppleACPIBatteryDevice :=
  let s := { s with
    powerUnit := getValueFromArray p.array BIF_POWER_UNIT
    designCapacity := getValueFromArray p.array BIF_DESIGN_CAPACITY
    maxCapacity := getValueFromArray p.array BIF_LAST_FULL_CAPACITY
    designVoltage := getValueFromArray p.array BIF_DESIGN_VOLTAGE
    deviceName := some (getSymbolFromArray p.array BIF_MODEL_NUMBER)
    serial := some (getSymbolFromArray p.array BIF_SERIAL_NUMBER)
    serialNumber := (getValueFromArray p.array BIF_SERIAL_NUMBER).toUInt16
    type := some (getSymbolFromArray p.array BIF_BATTERY_TYPE)
    manufacturer := some (getSymbolFromArray p.array BIF_OEM)
    cycleCount :=
      if p.array.length > 13 then getValueFromArray p.array BIF_CYCLE_COUNT else 0 }
  let s :=
    if s.designCapacity = 0 ∨ s.maxCapacity = 0 then s.logReadError .zeroCapacity else s
  s.publish fun p =>
    { p with
      designCapacity := some s.designCapacity
      maxCapacity := s.maxCapacity
      deviceName := s.deviceName
      type := s.type
      manufacturer := s.manufacturer
      cycleCount := s.cycleCount
      maxErr := some 0
      manufactureDate := some 0
      serialNumber := some 0
      manufacturerData := some [] }

/-- `constructAppleSerialNumber`. A name that no `_BIF` package has given is unknown. -/
def appleSerialNumber (s : AppleACPIBatteryDevice) : OSSymbol :=
  let name (symbol : Option OSSymbol) : OSSymbol := symbol.getD "Unknown".toList
  let serial := match s.serial with
    | some serial => serial
    | none =>
      if s.serialNumber ≠ 0 then Nat.toDigits 10 s.serialNumber.toNat else "Unknown".toList
  (['-'].intercalate [name s.manufacturer, name s.deviceName, name s.type, serial]).take
    (kMaxGeneratedSerialSize - 1)

/-- The first part of `setBatteryBST`: the rates and the status. A rate of 0 is taken for
half of the capacity, and a change of the status starts a new average. -/
def readStatus (s : AppleACPIBatteryDevice) (p : BST) : AppleACPIBatteryDevice :=
  let rate := if p.presentRate &&& 0x8000 ≠ 0 then 0xFFFF - p.presentRate else p.presentRate
  let rate := if rate = 0 then s.maxCapacity / 2 else rate
  let average := if s.averageRate ≠ 0 then (s.averageRate + rate) / 2 else rate
  { s.setCurrentCapacity p.remainingCapacity with
    currentVoltage := p.presentVoltage
    currentRate := rate
    averageRate := if p.state ^^^ s.status ≠ 0 then 0 else average
    status := p.state }.publish fun q => { q with voltage := p.presentVoltage }

/-- The flags that each of the four battery states sets. -/
def setSupply (s : AppleACPIBatteryDevice) (fullyCharged isCharging acConnected acChargeCapable :
    Bool) : AppleACPIBatteryDevice :=
  { s with acConnected, acChargeCapable }.publish fun p =>
    { p with
      fullyCharged, isCharging
      externalConnected := acConnected
      externalChargeCapable := acChargeCapable }

/-- The rates and times that each of the four battery states sets. -/
def setTimes (s : AppleACPIBatteryDevice) (amperage instantAmperage timeRemaining
    averageTimeToEmpty averageTimeToFull instantTimeToEmpty instantTimeToFull : UInt32) :
    AppleACPIBatteryDevice :=
  s.publish fun p =>
    { p with
      amperage, timeRemaining
      instantAmperage := some instantAmperage
      averageTimeToEmpty := some averageTimeToEmpty
      averageTimeToFull := some averageTimeToFull
      instantTimeToEmpty := some instantTimeToEmpty
      instantTimeToFull := some instantTimeToFull }

/-- Minutes until `capacity` is used up or loaded. -/
def minutes (capacity rate : UInt32) : UInt32 := if rate ≠ 0 then 60 * capacity / rate else 0xffff

def setState (s : AppleACPIBatteryDevice) (currentStatus : UInt32) : AppleACPIBatteryDevice :=
  let discharging := currentStatus &&& BATTERY_DISCHARGING ≠ 0
  let charging := currentStatus &&& BATTERY_CHARGING ≠ 0
  if discharging ∧ charging then
    (((s.logReadError .permanentFailure).setErrorCondition .permanentFailure).setSupply
      false false true false).setTimes 0 0 0 0 0 0 0
  else if discharging then
    (s.setSupply false false false false).setTimes (-s.averageRate) (-s.currentRate)
      (minutes s.currentCapacity s.averageRate) (minutes s.currentCapacity s.averageRate) 0xffff
      (minutes s.currentCapacity s.currentRate) 0xffff
  else if charging then
    (s.setSupply false true true true).setTimes s.averageRate s.currentRate
      (minutes (s.maxCapacity - s.currentCapacity) s.averageRate) 0xffff
      (minutes (s.maxCapacity - s.currentCapacity) s.averageRate) 0xffff
      (minutes (s.maxCapacity - s.currentCapacity) s.currentRate)
  else
    ((s.setSupply true false true true).setTimes 0 0 0xffff 0xffff 0xffff 0xffff
      0xffff).setCurrentCapacity s.maxCapacity

/-- Polls are quick while a battery below 5% discharges on AC power. -/
def setQuickPoll (s : AppleACPIBatteryDevice) : AppleACPIBatteryDevice :=
  if !s.pollingOverridden && s.maxCapacity != 0 then
    let quick : Bool := 100 * s.currentCapacity / s.maxCapacity < 5 && s.acConnected
    { s with
      pollingInterval := if quick then kQuickPollInterval else kDefaultPollInterval }.publish
        fun p => { p with quickPoll := some quick }
  else s

/-- The four cells share the voltage. -/
def setCells (s : AppleACPIBatteryDevice) : AppleACPIBatteryDevice :=
  let cell := (s.currentVoltage / 4).toUInt16
  let last := (s.currentVoltage - cell.toUInt32 - cell.toUInt32 - cell.toUInt32).toUInt16
  s.publish fun p =>
    { p with cellVoltage := some [cell, cell, cell, last], temperature := some cell }

def setBatteryBST (s : AppleACPIBatteryDevice) (p : BST) : AppleACPIBatteryDevice :=
  let s := ((s.readStatus p).setState p.state).setQuickPoll.setCells
  { s with
    batteryReadAllTimer := s.batteryReadAllTimer.cancelTimeout
    properties :=
      { s.properties with softwareSerial := some s.appleSerialNumber }.rebuildLegacyIOBatteryInfo }

/-- The polling table with its two intervals. -/
def milliSecPollingTable (interval : UInt32) : UInt32 :=
  if interval = kDefaultPollInterval then 30000 else 1000

/-- The poll timer at the end of a poll. -/
def restartPollTimer (s : AppleACPIBatteryDevice) : AppleACPIBatteryDevice :=
  { s with
    pollTimer := s.pollTimer.setTimeoutMS
      (if s.pollingOverridden then 1000 * s.pollingInterval
      else milliSecPollingTable s.pollingInterval) }

/-- The `_STA` value of a round; a failed evaluation leaves everything as it is. -/
def readSTA (s : AppleACPIBatteryDevice) (r : Reads) : AppleACPIBatteryDevice :=
  r.batterySTA.elim s s.setBatterySTA

def readBIF (s : AppleACPIBatteryDevice) (r : Reads) : AppleACPIBatteryDevice :=
  r.batteryBIF.elim s s.setBatteryBIF

def readBST (s : AppleACPIBatteryDevice) (r : Reads) : AppleACPIBatteryDevice :=
  r.batteryBST.elim s s.setBatteryBST

/-- A poll on the existing battery path. -/
def pollExisting (s : AppleACPIBatteryDevice) (r : Reads) : AppleACPIBatteryDevice :=
  let s := s.readSTA r
  let s :=
    if s.batteryPresent then (s.readBIF r).readBST r
    else (s.setFullyCharged false).clearBatteryState
  s.restartPollTimer

/-- The timers on the new battery path. -/
def beginReadAll (s : AppleACPIBatteryDevice) : AppleACPIBatteryDevice :=
  { s with
    pollTimer := s.pollTimer.cancelTimeout
    batteryReadAllTimer :=
      s.batteryReadAllTimer.cancelTimeout.setTimeoutMS kBatteryReadAllTimeout }

def pollBatteryState (s : AppleACPIBatteryDevice) (path : ℕ) (r : Reads) :
    AppleACPIBatteryDevice :=
  if path = kNewBatteryPath then s.beginReadAll.pollExisting r else s.pollExisting r

def handleBatteryInserted (s : AppleACPIBatteryDevice) (r : Reads) : AppleACPIBatteryDevice :=
  s.pollBatteryState kNewBatteryPath r

def handleBatteryRemoved (s : AppleACPIBatteryDevice) : AppleACPIBatteryDevice :=
  s.clearBatteryState

def pollingTimeOut (s : AppleACPIBatteryDevice) (r : Reads) : AppleACPIBatteryDevice :=
  s.pollBatteryState kExistingBatteryPath r

def incompleteReadTimeOut (s : AppleACPIBatteryDevice) (r : Reads) : AppleACPIBatteryDevice :=
  (s.logReadError .overallTimeoutExpired).pollBatteryState kExistingBatteryPath r

/-- The device in `start`, before the initial poll. Of the two timers only the poll timer
is added to the work loop. -/
def fresh (debugPollingSetting : Option UInt32) : AppleACPIBatteryDevice :=
  clearBatteryState
    { pollTimer := ⟨none, true⟩
      batteryReadAllTimer := ⟨none, false⟩
      pollingInterval := debugPollingSetting.getD kDefaultPollInterval
      pollingOverridden := debugPollingSetting.isSome
      batteryPresent := false
      acConnected := false
      acChargeCapable := false
      powerUnit := 0
      designVoltage := 0
      currentVoltage := 0
      designCapacity := 0
      currentCapacity := 0
      maxCapacity := 0
      currentRate := 0
      averageRate := 0
      status := 0
      cycleCount := 0
      serialNumber := 0
      deviceName := none
      serial := none
      type := none
      manufacturer := none
      properties := .empty }

def start (debugPollingSetting : Option UInt32) (r : Reads) : AppleACPIBatteryDevice :=
  (fresh debugPollingSetting).pollBatteryState kNewBatteryPath r

end AppleACPIBatteryDevice
end Battery
