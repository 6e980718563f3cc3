import NetbookInstaller.Transition.Runs
import Mathlib.Data.Rat.Floor
import Mathlib.Data.UInt

/-! The state of the Synaptics touchpad driver, its preferences and its drag timer. -/
namespace TouchPad

/-- The `double` arithmetic of the driver. What is proved about the driver does not depend on
what an integer out of range becomes, and where it depends on the rounding it says so. -/
class Double (D : Type) extends Add D, Sub D, Mul D, Div D, OfScientific D, IntCast D where
  lt : D → D → Bool
  toSInt32 : D → ℤ

/-- Exact arithmetic. -/
instance : Double ℚ where
  lt x y := decide (x < y)
  toSInt32 x := if x < 0 then ⌈x⌉ else ⌊x⌋

inductive Event where
  | defaultEvent | dragging | scrolling | horizontalScrolling | verticalScrolling | zooming
  | movement | swipe
  deriving DecidableEq, Repr

def SCROLL_MODE_NONE : UInt8 := 0
def SCROLL_MODE_TWO_FINGER : UInt8 := 1
def SCROLL_MODE_EDGE : UInt8 := 2
def GESTURE_MODE_NONE : UInt8 := 0
def GESTURE_MODE_SCROLL : UInt8 := 1
def Z_LIGHT_FINGER : UInt32 := 30

/-- What the preferences pane sets. -/
structure Prefs (D : Type) where
  scrollMode : UInt8
  gestureMode : UInt8
  horizScroll : Bool
  clicking : Bool
  dragging : Bool
  dragLock : Bool
  secondaryClick : Bool
  swapButtons : Bool
  oneFingerThreshold : D
  twoFingerThreshold : D
  threeFingerThreshold : D
  hysteresis : D
  scrollArea : D
  scrollSpeed : D
  trackSpeed : D
  clickDelay : UInt32
  releaseDelay : UInt32

/-- The calls that deliver events: to the superclass, or to the keyboard for a swipe. -/
inductive Dispatched where
  | relativePointerEvent (dx dy : ℤ) (buttons : UInt8)
  | scrollWheelEvent (deltaAxis1 deltaAxis2 : ℤ)
  | swipeEvent (right : Bool)
  deriving DecidableEq, Repr

/-- `dragTimeout` is the time for which the drag timer is armed. -/
structure SynapticsTouchPad (D : Type) where
  touchPadModeByte : UInt8
  capabilities : UInt16
  scaleFactor : D
  pref : Prefs D
  event : Event
  tapped : Bool
  dragging : Bool
  dragLocked : Bool
  streamdx : ℤ
  streamdy : ℤ
  streamdt : UInt64
  settleTime : ℕ
  prevX : UInt32
  prevY : UInt32
  prevNumFingers : ℕ
  prevPacketSecond : UInt32
  prevPacketTime : UInt32
  dragTimeout : Option UInt32
  dispatched : List Dispatched

variable {D : Type} [Double D]

def defaultPrefs : Prefs D where
  scrollMode := SCROLL_MODE_NONE
  gestureMode := GESTURE_MODE_SCROLL
  horizScroll := false
  clicking := false
  dragging := false
  dragLock := false
  secondaryClick := false
  swapButtons := false
  oneFingerThreshold := IntCast.intCast Z_LIGHT_FINGER.toNat
  twoFingerThreshold := 250.0
  threeFingerThreshold := 650.0
  hysteresis := 0.08
  scrollArea := 0.05
  scrollSpeed := 1.3
  trackSpeed := 1.6
  clickDelay := 280000
  releaseDelay := 400000

/-- The dictionary that the preferences pane sends. -/
structure ParamProperties where
  scrollMode : Option UInt8
  horizScroll : Option Bool
  scrollArea : Option UInt32
  gestureMode : Option UInt8
  tapToClick : Option Bool
  draggin : Option Bool
  dragLock : Option Bool
  secondaryClick : Option Bool
  swapButtons : Option Bool
  oneFingerThreshold : Option UInt32
  twoFingerThreshold : Option UInt32
  threeFingerThreshold : Option UInt32
  scrollSpeed : Option UInt32
  trackSpeed : Option UInt32
  clickDelay : Option UInt32
  releaseDelay : Option UInt32
  deriving DecidableEq, Repr

def ofUInt32 (n : UInt32) : D := IntCast.intCast n.toNat

def Prefs.set (pref : Prefs D) (dict : ParamProperties) : Prefs D where
  scrollMode := dict.scrollMode.getD pref.scrollMode
  horizScroll := dict.horizScroll.getD pref.horizScroll
  scrollArea := (dict.scrollArea.map fun n => 0.006 * ofUInt32 n).getD pref.scrollArea
  gestureMode := dict.gestureMode.getD pref.gestureMode
  clicking := dict.tapToClick.getD pref.clicking
  dragging := dict.draggin.getD pref.dragging
  dragLock := dict.dragLock.getD pref.dragLock
  secondaryClick := dict.secondaryClick.getD pref.secondaryClick
  swapButtons := dict.swapButtons.getD pref.swapButtons
  oneFingerThreshold := (dict.oneFingerThreshold.map fun n =>
    ofUInt32 (Z_LIGHT_FINGER + 2 * (10 - n))).getD pref.oneFingerThreshold
  twoFingerThreshold := (dict.twoFingerThreshold.map fun n =>
    ofUInt32 (215 + 20 * (10 - n))).getD pref.twoFingerThreshold
  threeFingerThreshold := (dict.threeFingerThreshold.map fun n =>
    ofUInt32 (650 + 20 * (10 - n))).getD pref.threeFingerThreshold
  hysteresis := pref.hysteresis
  scrollSpeed := (dict.scrollSpeed.map fun n => 0.9 + 0.2 * ofUInt32 n).getD pref.scrollSpeed
  trackSpeed := (dict.trackSpeed.map fun n => 0.4 + 0.2 * ofUInt32 n).getD pref.trackSpeed
  clickDelay := dict.clickDelay.getD pref.clickDelay
  releaseDelay := dict.releaseDelay.getD pref.releaseDelay

inductive WhatToDo where
  | disableDevice | enableDevice
  deriving DecidableEq, Repr

namespace SynapticsTouchPad

/-- The driver after `init` and `start`, with the capabilities it has read. -/
def start (capabilities : UInt16) (extendedCapabilities : UInt32) (scaleFactor : D) :
    SynapticsTouchPad D where
  touchPadModeByte :=
    if capabilities &&& 0x8000 != 0 || extendedCapabilities &&& 0x040000 != 0 then 0xC1 else 0xC0
  capabilities
  scaleFactor
  pref := defaultPrefs
  event := .defaultEvent
  tapped := false
  dragging := false
  dragLocked := false
  streamdx := 0
  streamdy := 0
  streamdt := 0
  settleTime := 0
  prevX := 0
  prevY := 0
  prevNumFingers := 0
  prevPacketSecond := 0
  prevPacketTime := 0
  dragTimeout := none
  dispatched := []

/-- `W_MODE` and, if the pad is in it, `CAP_MULTIFINGER`. -/
def wMode (s : SynapticsTouchPad D) : Bool := s.touchPadModeByte &&& 0x01 != 0

def capMultifinger (s : SynapticsTouchPad D) : Bool := s.capabilities &&& 0x0002 != 0

def dispatch (s : SynapticsTouchPad D) (e : Dispatched) : SynapticsTouchPad D :=
  { s with dispatched := s.dispatched ++ [e] }

def setParamProperties (s : SynapticsTouchPad D) (dict : ParamProperties) : SynapticsTouchPad D :=
  { s with pref := s.pref.set dict, dragLocked := false, dragging := false, tapped := false }

/-- The commands to the pad are left out. -/
def setDevicePowerState (s : SynapticsTouchPad D) : WhatToDo → SynapticsTouchPad D
  | .disableDevice => s
  | .enableDevice =>
    { s with streamdx := 0, streamdy := 0, settleTime := 0, tapped := false, dragLocked := false }

/-- The action of the drag timer: the tap that no second tap followed is sent. -/
def draggingTimeout (s : SynapticsTouchPad D) : SynapticsTouchPad D :=
  let s := { s with
    dragLocked := false
    tapped := false
    dragging := false
    event := .movement
    dragTimeout := none }
  (s.dispatch (.relativePointerEvent 0 0 1)).dispatch (.relativePointerEvent 0 0 0)

end SynapticsTouchPad
end TouchPad
