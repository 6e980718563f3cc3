import NetbookInstaller.TouchPad.AccelerationTable
import NetbookInstaller.TouchPad.State

/-! What the touchpad driver does with an absolute packet. -/
namespace TouchPad

open Double

def ABSOLUTE_X_MAX : ℤ := 5312
def ABSOLUTE_Y_MIN : ℤ := 1568
def TAP_LENGTH_MIN : UInt64 := 10000
def ACCELERATION_TABLE_SIZE : ℕ := 1867
def W_TWOFINGERS : UInt8 := 0
def W_THREEPLUS : UInt8 := 1
def W_FINGER_MIN : UInt8 := 4
def LEFT_CLICK : UInt8 := 0x01
def RIGHT_CLICK : UInt8 := 0x02

/-- A packet and the system time at which it is handled. -/
structure Packet where
  bytes : Vector UInt8 6
  second : UInt32
  currentTime : UInt32
  deriving DecidableEq, Repr

namespace Packet

def buttons (p : Packet) (swapButtons : Bool) : UInt8 :=
  if swapButtons then ((p.bytes[0] &&& 0x01) <<< 1) ||| ((p.bytes[0] &&& 0x02) >>> 1)
  else p.bytes[0] &&& 0x3

def pressureZ (p : Packet) : UInt8 := p.bytes[2]

def absX (p : Packet) : UInt32 :=
  p.bytes[4].toUInt32 ||| ((p.bytes[1].toUInt32 &&& 0x0F) <<< 8) |||
    ((p.bytes[3].toUInt32 &&& 0x10) <<< 8)

def absY (p : Packet) : UInt32 :=
  p.bytes[5].toUInt32 ||| ((p.bytes[1].toUInt32 &&& 0xF0) <<< 4) |||
    ((p.bytes[3].toUInt32 &&& 0x20) <<< 7)

def wValue (p : Packet) (wMode : Bool) : UInt8 :=
  if wMode then
    ((p.bytes[3] &&& 0x4) >>> 2) ||| ((p.bytes[0] &&& 0x30) >>> 2) ||| ((p.bytes[0] &&& 0x4) >>> 1)
  else W_FINGER_MIN

/-- The bytes of a relative packet. -/
def relative (p : Packet) : UInt8 × UInt8 × UInt8 := (p.bytes[0], p.bytes[1], p.bytes[2])

/-- The first byte has the form `10xx0xxx` of the documented layout. -/
def FirstForm (bytes : Vector UInt8 6) : Prop := bytes[0] &&& 0xC8 = 0x80

/-- The fourth byte has the form `11xx0xxx`. -/
def FourthForm (bytes : Vector UInt8 6) : Prop := bytes[3] &&& 0xC8 = 0xC0

end Packet

/-- A sum of `SInt32`. -/
def addSInt32 (x y : ℤ) : ℤ := (x + y).bmod (2 ^ 32)

def accelerate (d : ℤ) : ℤ :=
  if d.natAbs < ACCELERATION_TABLE_SIZE then
    if 0 ≤ d then accelerationTable[d.natAbs]! else -accelerationTable[d.natAbs]!
  else d

variable {D : Type} [Double D]

namespace SynapticsTouchPad

/-- The time since the last packet, in 32 bits. -/
def dt (s : SynapticsTouchPad D) (p : Packet) : UInt64 :=
  ((p.second - s.prevPacketSecond) * 1000000 + (p.currentTime - s.prevPacketTime)).toUInt64

/-- The movement since the last packet. The averages and the jump prevention of the
source stand in a comment that runs up to the end of the next one. -/
def movement (s : SynapticsTouchPad D) (p : Packet) : ℤ × ℤ :=
  let dx := (p.absX - s.prevX).toBitVec.toInt
  let dy := toSInt32 (IntCast.intCast (p.absY - s.prevY).toBitVec.toInt / s.scaleFactor : D)
  let scaled (d : ℤ) : ℤ :=
    match s.event with
    | .scrolling | .verticalScrolling | .horizontalScrolling =>
      toSInt32 (IntCast.intCast (2 * d) * s.pref.scrollSpeed : D)
    | _ => toSInt32 (IntCast.intCast d * s.pref.trackSpeed : D)
  (accelerate (scaled dx), accelerate (scaled dy))

/-- The number of fingers before the gesture mode is looked at. -/
def fingers (s : SynapticsTouchPad D) (p : Packet) : ℕ :=
  let w := p.wValue s.wMode
  let z : D := IntCast.intCast p.pressureZ.toNat
  let wz : D := IntCast.intCast (w.toNat * p.pressureZ.toNat)
  let button := p.buttons s.pref.swapButtons != 0
  let one := s.pref.oneFingerThreshold
  let two := s.pref.twoFingerThreshold
  let three := s.pref.threeFingerThreshold
  let factor : D := 1.0 - s.pref.hysteresis
  if s.wMode && s.capMultifinger then
    if lt z one then 0 else if w = W_TWOFINGERS then 2 else if w = W_THREEPLUS then 3 else 1
  else if s.wMode then
    match s.prevNumFingers with
    | 0 => if lt z one then 0 else if lt wz two || button then 1 else if lt wz three then 2 else 3
    | 1 =>
      if lt z (one * factor) then 0
      else if lt wz two || button then 1 else if lt wz three then 2 else 3
    | 2 =>
      if lt z (one * factor) then 0
      else if lt wz (two * factor) || button then 1 else if lt wz three then 2 else 3
    | 3 =>
      if lt z (one * factor) then 0
      else if lt wz (two * factor) || button then 1
      else if w < 12 || lt wz (three * factor) then 2 else 3
    | _ => 4
  else
    -- the threshold is compared, but the 1 is assigned in any case
    1

def numFingers (s : SynapticsTouchPad D) (p : Packet) : ℕ :=
  if s.fingers p = 3 then
    if s.pref.gestureMode = GESTURE_MODE_NONE then 0
    else if s.pref.gestureMode = GESTURE_MODE_SCROLL then 2
    else 3
  else s.fingers p

/-- The event of a packet, before the touchpad has settled. -/
def nextEvent (s : SynapticsTouchPad D) (p : Packet) : Event :=
  if s.event = .swipe ∧ s.settleTime ≠ 0 then .swipe
  else if s.dt p > 20000 ∨ s.numFingers p = 0 then .defaultEvent
  else
    match s.event with
    | .verticalScrolling => .verticalScrolling
    | .horizontalScrolling => .horizontalScrolling
    | .dragging => .dragging
    | _ =>
      match s.numFingers p with
      | 1 => .movement
      | 2 => if s.pref.scrollMode = SCROLL_MODE_TWO_FINGER then .scrolling else .movement
      | 3 => .swipe
      | _ => .defaultEvent

/-- `TAPPING`. -/
def tapping (s : SynapticsTouchPad D) : Bool :=
  s.streamdt < s.pref.clickDelay.toUInt64 && s.streamdt > TAP_LENGTH_MIN &&
    s.streamdx.natAbs ≤ 50 && s.streamdy.natAbs ≤ 50

end SynapticsTouchPad

/-- The driver within a packet, with the local variables that change. -/
structure Frame (D : Type) extends SynapticsTouchPad D where
  prevEvent : Event
  numFingers : ℕ
  buttons : UInt8
  dx : ℤ
  dy : ℤ

namespace Frame

def ofPacket (s : SynapticsTouchPad D) (p : Packet) : Frame D where
  toSynapticsTouchPad := { s with
    streamdt := s.streamdt + s.dt p
    streamdx := addSInt32 s.streamdx (s.movement p).1
    streamdy := addSInt32 s.streamdy (s.movement p).2
    event := s.nextEvent p }
  prevEvent := s.event
  numFingers := s.numFingers p
  buttons := p.buttons s.pref.swapButtons
  dx := (s.movement p).1
  dy := (s.movement p).2

def dispatch (f : Frame D) (e : Dispatched) : Frame D :=
  { f with toSynapticsTouchPad := f.toSynapticsTouchPad.dispatch e }

def edgeScrolling (p : Packet) (f : Frame D) : Frame D :=
  let edge := f.prevEvent = .defaultEvent ∧ f.pref.scrollMode = SCROLL_MODE_EDGE
  if edge ∧ lt (IntCast.intCast ABSOLUTE_X_MAX * (1.0 - f.pref.scrollArea)) (ofUInt32 p.absX : D) then
    { f with event := .verticalScrolling }
  else if edge ∧ f.pref.horizScroll ∧
      lt (ofUInt32 p.absY) (IntCast.intCast ABSOLUTE_Y_MIN * (1.0 + f.pref.scrollArea / 2.0) : D) then
    { f with event := .horizontalScrolling }
  else f

def scrolling (f : Frame D) : Frame D :=
  -- the second test of the source, for an event that is not scrolling, is never reached
  if f.prevEvent ≠ .scrolling ∨ f.event ≠ .scrolling ∨ f.settleTime = 1 then
    { f with dx := 0, dy := 0 }
  else f

def newStream (f : Frame D) : Frame D :=
  let f := { f with
    settleTime := 2
    streamdx := 0
    streamdy := 0
    streamdt := 0
    dx := if f.event = Event.scrolling then f.dx else 0
    dy := if f.event = Event.scrolling then f.dy else 0 }
  if f.dragging then { f with dragTimeout := none, dragging := false, event := .dragging } else f

def endOfScrolling (f : Frame D) : Frame D :=
  let f := { f with settleTime := if f.numFingers = 3 then 5 else 10, event := .scrolling }
  if f.pref.clicking && f.pref.secondaryClick && f.tapping then
    { f with buttons := RIGHT_CLICK, event := .movement }
  else f

/-- A tap is sent at once, or held back until it is clear that no drag follows. -/
def endOfMovement (f : Frame D) : Frame D :=
  let f := { f with settleTime := 5 }
  if f.pref.clicking && f.tapping then
    if !f.pref.dragging then { f with buttons := LEFT_CLICK }
    else if f.dragLocked then { f with dragLocked := false }
    else { f with tapped := true, dragTimeout := some f.pref.clickDelay }
  else f

/-- A drag that was a tap becomes a double click. -/
def endOfDragging (f : Frame D) : Frame D :=
  let f := { f with settleTime := 10, event := .defaultEvent }
  if f.tapping then
    if f.dragLocked then { f with dragLocked := false }
    else
      let f := (f.dispatch (.relativePointerEvent 0 0 1)).dispatch (.relativePointerEvent 0 0 0)
      { f with buttons := 0x01, tapped := false }
  else { f with dragging := true, dragTimeout := some f.pref.releaseDelay }

def dispatchSwipe (f : Frame D) : Frame D :=
  if f.streamdx > 25 then f.dispatch (.swipeEvent true)
  else if f.streamdx < -25 then f.dispatch (.swipeEvent false)
  else f

def endOfSwipe (f : Frame D) : Frame D :=
  let f := if f.numFingers = 0 then { f.dispatchSwipe with event := .defaultEvent } else f
  -- the settle time set for a swipe that goes on is overwritten: the cases fall through
  { f with settleTime := 10 }

def endOfStream (f : Frame D) : Frame D :=
  match f.prevEvent with
  | .scrolling => f.endOfScrolling
  | .movement => f.endOfMovement
  | .dragging => f.endOfDragging
  | .zooming | .swipe => f.endOfSwipe
  | .horizontalScrolling | .verticalScrolling | .defaultEvent => { f with settleTime := 10 }

def eventChanged (f : Frame D) : Frame D :=
  if f.settleTime = 0 then
    if f.prevEvent = .defaultEvent then f.newStream
    else if f.event = .defaultEvent then f.endOfStream
    else
      { f with
        settleTime := if f.event ≠ .scrolling then 10 else f.settleTime
        dx := 0
        dy := 0 }
  else { f with settleTime := f.settleTime - 1 }

def draggingCalculations (f : Frame D) : Frame D :=
  if f.event = .dragging then f
  else if f.pref.clicking && f.pref.dragging && f.tapped &&
      decide (f.streamdt < f.pref.clickDelay.toUInt64) && decide (f.event = .movement) then
    { f with
      event := .dragging, tapped := false, dragging := false
      dragLocked := f.pref.dragLock || f.dragLocked
      dragTimeout := none }
  else f

/-- The touchpad settles when the event has just changed or has recently changed. -/
def settle (p : Packet) (f : Frame D) : Frame D :=
  if f.prevEvent ≠ f.event ∨ f.settleTime ≠ 0 then
    (((f.edgeScrolling p).scrolling).eventChanged).draggingCalculations
  else f

/-- `buttons |= _dragging`. -/
def addDragging (f : Frame D) : UInt8 := f.buttons ||| if f.dragging then 1 else 0

def sendMovement (f : Frame D) : Frame D :=
  f.dispatch (.relativePointerEvent f.dx (-1 * f.dy) f.addDragging)

def send (f : Frame D) : Frame D :=
  match f.event with
  | .horizontalScrolling => f.dispatch (.scrollWheelEvent 0 (-1 * f.dx))
  | .verticalScrolling => f.dispatch (.scrollWheelEvent f.dy 0)
  | .scrolling =>
    let f :=
      if !f.pref.horizScroll then { f with dx := 0 }
      else if |f.dy| * 4 > |f.dx| then { f with dx := 0 }
      else if |f.dx| / 4 > |f.dy| then { f with dy := 0 }
      else f
    f.dispatch (.scrollWheelEvent f.dy (-1 * f.dx))
  | .dragging =>
    if f.buttons ≠ 0 then
      sendMovement { f with
        event := .movement, tapped := false, dragging := false, dragLocked := false, buttons := 0 }
    else sendMovement { f with buttons := 0x01 }
  | .movement => f.sendMovement
  | .zooming | .swipe | .defaultEvent =>
    f.dispatch (.relativePointerEvent 0 0 f.addDragging)

end Frame

/-- The driver after an absolute packet. -/
def SynapticsTouchPad.dispatchRelativePointerEventWithAbsolutePacket (s : SynapticsTouchPad D)
    (p : Packet) : SynapticsTouchPad D :=
  let f := ((Frame.ofPacket s p).settle p).send
  { f.toSynapticsTouchPad with
    prevX := p.absX
    prevY := p.absY
    prevNumFingers := f.numFingers
    prevPacketSecond := p.second
    prevPacketTime := p.currentTime }

/-- What can happen to the driver. -/
inductive Action where
  | absolutePacket (p : Packet)
  | timerExpires
  | setParamProperties (dict : ParamProperties)
  | setDevicePowerState (whatToDo : WhatToDo)
  deriving DecidableEq, Repr

/-- The timer expires only if it is armed. -/
def step (s : SynapticsTouchPad D) : Action → Option (SynapticsTouchPad D)
  | .absolutePacket p => some (s.dispatchRelativePointerEventWithAbsolutePacket p)
  | .timerExpires => if s.dragTimeout.isSome then some s.draggingTimeout else none
  | .setParamProperties dict => some (s.setParamProperties dict)
  | .setDevicePowerState whatToDo => some (s.setDevicePowerState whatToDo)

end TouchPad
