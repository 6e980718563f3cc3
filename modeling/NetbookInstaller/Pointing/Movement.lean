import NetbookInstaller.Pointing.Acceleration
import NetbookInstaller.Transition.Runs
import Mathlib

/-! How the movements of a mouse or a touchpad become movements of the pointer: they are scaled
by the acceleration, and what is left of a whole unit is kept for the next movement. -/
namespace Pointing

open Transition

def kAccelMouse : UInt32 := 0x0001
def EV_RB : UInt32 := 0x01
def EV_LB : UInt32 := 0x04
def NX_OneButton : UInt32 := 0
def NX_LeftButton : UInt32 := 1
def NX_RightButton : UInt32 := 2

/-- The events for the HID system. A movement with the scroll button held is one of the wheel. -/
inductive PointerEvent where
  | relative (buttons : UInt32) (deltaX deltaY : Int32)
  | scrollWheel (deltaAxis1 deltaAxis2 deltaAxis3 : Int32)
  deriving DecidableEq

structure IOHIPointing where
  scaleSegments : Option (List CursorDeviceSegment)
  fractX : Int32
  fractY : Int32
  accelerateMode : UInt32
  buttonMode : UInt32
  scrollButtonMask : UInt32
  isSeized : Bool
  events : List PointerEvent
  unwantedDirectionChanges : ℕ
  deriving DecidableEq

inductive PointingAction where
  | setupForAcceleration (desired resolution : Int32) (table : Table)
  | dispatchRelativePointerEvent (dx dy : Int32) (buttonState : UInt32)
  | setPointingMode (accelerateMode : UInt32)
  | setButtonMode (buttonMode : UInt32)
  | setScrollMouseButton (value : UInt32)
  | seize (isSeized : Bool)

section ScaleAxes

variable (fixed : IOFixed)

def magnitude (dx dy : Int32) : Int32 :=
  let absDx := dx.abs
  let absDy := dy.abs
  if absDx > absDy then absDx + absDy / 2 else absDy + absDx / 2

/-- The fractional part with sign extend. -/
def fraction (x : Int32) : Int32 := if x ≥ 0 then x &&& 0xffff else x ||| 0xffff0000

/-- The scale for a movement that is not zero; it is looked up beyond the segments if each of them
ends before `mag`. -/
def lookupScale (segments : List CursorDeviceSegment) (mag : Int32) : Option Int32 :=
  (segments.find? fun segment => mag ≤ segment.devUnits).map fun segment =>
    fixed.divide (segment.intercept + fixed.multiply mag segment.slope) mag

structure Scaled where
  dx : Int32
  dy : Int32
  fractX : Int32
  fractY : Int32

def ScaleAxes (segments : List CursorDeviceSegment) (fractX fractY dx dy : Int32) :
    Option Scaled :=
  let mag := magnitude (dx <<< 16) (dy <<< 16)
  if mag = 0 then some ⟨dx, dy, fractX, fractY⟩
  else
    (lookupScale fixed segments mag).map fun scale =>
      let x := fixed.multiply (dx <<< 16) scale + fractX
      let y := fixed.multiply (dy <<< 16) scale + fractY
      ⟨x / 65536, y / 65536, fraction x, fraction y⟩

end ScaleAxes

namespace IOHIPointing

def init : IOHIPointing where
  scaleSegments := none
  fractX := 0
  fractY := 0
  -- of the mouse and of the scroll wheel
  accelerateMode := 0x0003
  buttonMode := NX_RightButton
  scrollButtonMask := 0
  isSeized := false
  events := []
  unwantedDirectionChanges := 0

variable (fixed : IOFixed) (buttonCount : ℕ)

def scalePointer (s : IOHIPointing) (dx dy : Int32) : Option Scaled :=
  match s.scaleSegments with
  | none => some ⟨dx, dy, s.fractX, s.fractY⟩
  | some segments => ScaleAxes fixed segments s.fractX s.fractY dx dy

/-- The left, the right and the middle button change places; the others follow in order. -/
def shuffled (buttonState : UInt32) : UInt32 :=
  (if buttonState &&& 1 ≠ 0 then EV_LB else 0) ||| (if buttonState &&& 2 ≠ 0 then EV_RB else 0) |||
    (if buttonState &&& 4 ≠ 0 then 2 else 0) ||| (buttonState &&& ~~~0x7)

/-- Button tying and mapping. -/
def mapped (s : IOHIPointing) (buttons : UInt32) : UInt32 :=
  if s.buttonMode = NX_OneButton then
    if buttons &&& (EV_LB ||| EV_RB) ≠ 0 then (buttons ||| EV_LB) &&& ~~~EV_RB else buttons
  else if buttonCount > 1 ∧ s.buttonMode = NX_LeftButton then
    (buttons &&& ~~~(EV_LB ||| EV_RB)) ||| ((if buttons &&& EV_LB ≠ 0 then EV_RB else 0) |||
      (if buttons &&& EV_RB ≠ 0 then EV_LB else 0))
  else buttons

/-- The direction of a movement is not what it was, as the driver logs it. -/
def unwanted (old new : Int32) : Bool := (old < 0 && new > 0) || (old > 0 && new < 0)

def accelerates (s : IOHIPointing) : Bool := s.accelerateMode &&& kAccelMouse ≠ 0

def dispatchRelativePointerEvent (s : IOHIPointing) (dx dy : Int32) (buttonState : UInt32) :
    Option IOHIPointing :=
  if s.isSeized then some s
  else if s.scrollButtonMask &&& buttonState ≠ 0 then
    some { s with events := s.events ++ [.scrollWheel (-dy) (-dx) 0] }
  else if s.accelerates then
    (s.scalePointer fixed dx dy).map fun m =>
      { s with
        fractX := m.fractX
        fractY := m.fractY
        events := s.events ++ [.relative (s.mapped buttonCount (shuffled buttonState)) m.dx m.dy]
        unwantedDirectionChanges :=
          s.unwantedDirectionChanges + (unwanted dx m.dx).toNat + (unwanted dy m.dy).toNat }
  else
    some { s with
      events := s.events ++ [.relative (s.mapped buttonCount (shuffled buttonState)) dx dy] }

/-- Segments without room are written beyond what was allocated. -/
def setupForAcceleration (s : IOHIPointing) (desired resolution : Int32) (table : Table) :
    Option IOHIPointing :=
  let devScale := fixed.divide resolution FRAME_RATE
  let crsrScale := fixed.divide SCREEN_RESOLUTION FRAME_RATE
  match SetupAcceleration fixed (some table) desired devScale crsrScale with
  | .kept => some s
  | .disabled => some { s with scaleSegments := none }
  | .allocated segCount segments =>
    if segments.length ≤ segCount then
      some { s with scaleSegments := some segments, fractX := 0, fractY := 0 }
    else none

/-- A step is not defined if it touches memory outside of the segments. -/
def step (s : IOHIPointing) : PointingAction → Option IOHIPointing
  | .setupForAcceleration desired resolution table =>
    s.setupForAcceleration fixed desired resolution table
  | .dispatchRelativePointerEvent dx dy buttonState =>
    s.dispatchRelativePointerEvent fixed buttonCount dx dy buttonState
  | .setPointingMode accelerateMode => some { s with accelerateMode }
  | .setButtonMode buttonMode => some { s with buttonMode }
  | .setScrollMouseButton value =>
    some { s with scrollButtonMask := if value = 0 then 0 else 1 <<< (value - 1) }
  | .seize isSeized => some { s with isSeized }

end IOHIPointing

section Memory

variable {fixed : IOFixed} {buttonCount : ℕ}

/-- The segments are none, or go up to the largest movement. -/
def IOHIPointing.Bounded (s : IOHIPointing) : Prop :=
  ∀ segments ∈ s.scaleSegments, ∃ segment ∈ segments, segment.devUnits = MAX_DEVICE_THRESHOLD

theorem le_max_device_threshold (mag : Int32) : mag ≤ MAX_DEVICE_THRESHOLD := by
  rw [Int32.le_iff_toInt_le]
  have hmax : MAX_DEVICE_THRESHOLD.toInt = 2 ^ 31 - 1 := by decide
  have := mag.toInt_lt
  omega

theorem lookupScale_isSome {segments : List CursorDeviceSegment}
    (h : ∃ segment ∈ segments, segment.devUnits = MAX_DEVICE_THRESHOLD) (mag : Int32) :
    (lookupScale fixed segments mag).isSome := by
  obtain ⟨segment, hmem, hlast⟩ := h
  rw [lookupScale, Option.isSome_map, List.find?_isSome]
  refine ⟨segment, hmem, ?_⟩
  rw [hlast]
  exact decide_eq_true (le_max_device_threshold mag)

theorem IOHIPointing.scalePointer_isSome {s : IOHIPointing} (h : s.Bounded) (dx dy : Int32) :
    (s.scalePointer fixed dx dy).isSome := by
  rw [scalePointer]
  split
  · rfl
  next segments hsegments =>
    rw [ScaleAxes]
    split
    · rfl
    · rw [Option.isSome_map]
      exact lookupScale_isSome (h segments hsegments) _

/-- Between the two curves that an acceleration is mixed from there is a point. -/
def PointingAction.HasPoints (fixed : IOFixed) : PointingAction → Prop
  | .setupForAcceleration desired resolution table =>
    fixed.divide resolution FRAME_RATE ≠ 0 → fixed.divide SCREEN_RESOLUTION FRAME_RATE ≠ 0 →
      ¬desired < 0 → (bracket fixed table desired).HasPoints
  | _ => True

namespace IOHIPointing

variable {s t : IOHIPointing} {a : PointingAction} {as : List PointingAction}

theorem setup_isSome_iff (s : IOHIPointing) (desired resolution : Int32) (table : Table) :
    (s.setupForAcceleration fixed desired resolution table).isSome ↔
      (PointingAction.setupForAcceleration desired resolution table).HasPoints fixed := by
  rw [setupForAcceleration, PointingAction.HasPoints]
  split
  next hkept =>
    refine iff_of_true rfl fun hdev hcrsr hdesired => ?_
    simp [SetupAcceleration, hdev, hcrsr, hdesired] at hkept
  next hdisabled =>
    refine iff_of_true rfl fun hdev hcrsr hdesired => ?_
    simp [SetupAcceleration, hdev, hcrsr, hdesired] at hdisabled
  next segCount segments hallocated =>
    obtain ⟨-, hroom⟩ := setupAcceleration_allocated hallocated
    have hvalid : fixed.divide resolution FRAME_RATE ≠ 0 ∧
        fixed.divide SCREEN_RESOLUTION FRAME_RATE ≠ 0 ∧ ¬desired < 0 := by
      rw [SetupAcceleration] at hallocated
      split_ifs at hallocated with hzero hdesired
      exact ⟨fun h => hzero (.inl h), fun h => hzero (.inr h), hdesired⟩
    rw [← hroom]
    constructor
    · intro hsome _ _ _
      by_contra hfull
      rw [if_neg hfull] at hsome
      contradiction
    · intro hfits
      rw [if_pos (hfits hvalid.1 hvalid.2.1 hvalid.2.2)]
      rfl

/-- An acceleration leaves the driver as it is, turns the scaling off or replaces the
segments. -/
theorem setup_cases {desired resolution : Int32} {table : Table}
    (h : s.setupForAcceleration fixed desired resolution table = some t) :
    let setup := SetupAcceleration fixed (some table) desired (fixed.divide resolution FRAME_RATE)
      (fixed.divide SCREEN_RESOLUTION FRAME_RATE)
    (setup = .kept ∧ t = s) ∨ (setup = .disabled ∧ t = { s with scaleSegments := none }) ∨
      ∃ segCount segments, setup = .allocated segCount segments ∧
        t = { s with scaleSegments := some segments, fractX := 0, fractY := 0 } := by
  simp only [setupForAcceleration] at h ⊢
  split at h
  next hkept => exact .inl ⟨hkept, (Option.some.inj h).symm⟩
  next hdisabled => exact .inr (.inl ⟨hdisabled, (Option.some.inj h).symm⟩)
  next segCount segments hallocated =>
    obtain ⟨-, hsome⟩ := Option.ite_none_right_eq_some.mp h
    exact .inr (.inr ⟨segCount, segments, hallocated, (Option.some.inj hsome).symm⟩)

theorem step_isSome_iff (h : s.Bounded) :
    (s.step fixed buttonCount a).isSome ↔ a.HasPoints fixed := by
  cases a with
  | setupForAcceleration desired resolution table => exact setup_isSome_iff s _ _ table
  | dispatchRelativePointerEvent dx dy buttonState =>
    refine iff_of_true ?_ trivial
    rw [step, dispatchRelativePointerEvent]
    split_ifs
    · rfl
    · rfl
    · rw [Option.isSome_map]
      exact scalePointer_isSome h dx dy
    · rfl
  | setPointingMode accelerateMode => exact iff_of_true rfl trivial
  | setButtonMode buttonMode => exact iff_of_true rfl trivial
  | setScrollMouseButton value => exact iff_of_true rfl trivial
  | seize isSeized => exact iff_of_true rfl trivial

theorem Bounded.step (h : s.Bounded) (hstep : s.step fixed buttonCount a = some t) :
    t.Bounded := by
  cases a with
  | setupForAcceleration desired resolution table =>
    obtain ⟨-, rfl⟩ | ⟨-, rfl⟩ | ⟨segCount, segments, hallocated, rfl⟩ := setup_cases hstep
    · exact h
    · exact fun segments hnone => absurd hnone (Option.not_mem_none segments)
    · intro segments' hsegments
      cases hsegments
      exact (setupAcceleration_allocated hallocated).1
  | dispatchRelativePointerEvent dx dy buttonState =>
    simp only [IOHIPointing.step, dispatchRelativePointerEvent] at hstep
    split_ifs at hstep
    · cases hstep
      exact h
    · cases hstep
      exact h
    · obtain ⟨m, -, rfl⟩ := Option.map_eq_some_iff.mp hstep
      exact h
    · cases hstep
      exact h
  | setPointingMode accelerateMode =>
    cases hstep
    exact h
  | setButtonMode buttonMode =>
    cases hstep
    exact h
  | setScrollMouseButton value =>
    cases hstep
    exact h
  | seize isSeized =>
    cases hstep
    exact h

theorem bounded_init : init.Bounded := fun _ h => absurd h (Option.not_mem_none _)

/-- The driver stays within the memory of the segments, whatever is set and moved, exactly if it
is never given two curves without a point. -/
theorem run_isSome_iff (as : List PointingAction) :
    (run (step fixed buttonCount) init as).isSome ↔ ∀ a ∈ as, a.HasPoints fixed := by
  have hstart : ∀ s : IOHIPointing, s.Bounded →
      ((run (step fixed buttonCount) s as).isSome ↔ ∀ a ∈ as, a.HasPoints fixed) := by
    induction as with
    | nil => simp
    | cons a as ih =>
      intro s hs
      rw [List.forall_mem_cons, ← @step_isSome_iff _ buttonCount _ _ hs, run]
      cases hstep : s.step fixed buttonCount a with
      | none => simp
      | some t => simpa using ih t (hs.step hstep)
  exact hstart init bounded_init

end IOHIPointing

end Memory

end Pointing
