import NetbookInstaller.Pointing.Movement

/-! How far the pointer moves: what the hand's movements come to by the scale, except for the
units that are kept too much. -/
namespace Pointing

open Transition

section Fractions

theorem or_upper (v : BitVec 32) : v ||| 0xffff0000#32 = (v &&& 0xffff#32) + 0xffff0000#32 := by
  have hdisjoint : (v &&& 0xffff#32) &&& 0xffff0000#32 = 0#32 := by
    rw [BitVec.and_assoc]
    exact BitVec.and_zero
  rw [BitVec.add_eq_or_of_and_eq_zero _ _ hdisjoint]
  apply BitVec.eq_of_getLsbD_eq
  intro i hi
  interval_cases i <;> simp

theorem toNat_and_lower (v : BitVec 32) : (v &&& 0xffff#32).toNat = v.toNat % 65536 := by
  rw [BitVec.toNat_and]
  exact Nat.and_two_pow_sub_one_eq_mod v.toNat 16

theorem toNat_or_upper (v : BitVec 32) :
    (v ||| 0xffff0000#32).toNat = v.toNat % 65536 + 0xffff0000 := by
  have hupper : BitVec.toNat 0xffff0000#32 = 0xffff0000 := BitVec.toNat_ofNat _ _
  have hlt : v.toNat % 65536 < 65536 := Nat.mod_lt _ (by decide)
  rw [or_upper, BitVec.toNat_add, toNat_and_lower, hupper]
  omega

theorem toInt_or_upper (x : Int32) :
    (x ||| 0xffff0000).toInt = (x.toBitVec ||| 0xffff0000#32).toInt := by
  rw [← Int32.toInt_toBitVec, Int32.toBitVec_or, Int32.toBitVec_ofNat]
  rfl

theorem toInt_fraction (x : Int32) :
    (fraction x).toInt = if 0 ≤ x.toInt then x.toInt % 65536 else x.toInt % 65536 - 65536 := by
  have hx : x.toInt = x.toBitVec.toInt := rfl
  have hlower := toNat_and_lower x.toBitVec
  have hmod := BitVec.toInt_eq_toNat_cond x.toBitVec
  have hlt := x.toBitVec.isLt
  rw [fraction]
  have hzero : (x ≥ 0) = (0 ≤ x.toInt) := propext Int32.le_iff_toInt_le
  simp only [hzero]
  split
  · have hval : (x &&& 0xffff).toInt = (x.toBitVec &&& 0xffff#32).toInt := rfl
    rw [hval, BitVec.toInt_eq_toNat_cond, hlower, hx, hmod]
    omega
  · rw [toInt_or_upper, BitVec.toInt_eq_toNat_cond, toNat_or_upper, hx, hmod]
    omega

theorem toInt_div (x : Int32) : (x / 65536).toInt = x.toInt.tdiv 65536 := by
  rw [Int32.toInt_div_of_ne_right x 65536 (by decide)]
  rfl

theorem tdiv_of_neg {x : ℤ} (h : x < 0) : x.tdiv 65536 = -(-x / 65536) := by
  rw [← Int.tdiv_eq_ediv_of_nonneg (by omega), Int.neg_tdiv, neg_neg]

theorem div_add_fraction (x : Int32) : 65536 * (x / 65536).toInt + (fraction x).toInt +
    (if x.toInt < 0 ∧ x.toInt % 65536 = 0 then 65536 else 0) = x.toInt := by
  rw [toInt_div, toInt_fraction]
  rcases lt_or_ge x.toInt 0 with hneg | hpos
  · rw [tdiv_of_neg hneg, if_neg (by omega)]
    split <;> omega
  · rw [Int.tdiv_eq_ediv_of_nonneg hpos, if_pos hpos, if_neg (by omega)]
    omega

end Fractions

inductive Axis where
  | x
  | y
  deriving DecidableEq

/-- The component along an axis. -/
def Axis.pick {β : Type*} (axis : Axis) (atX atY : β) : β :=
  match axis with
  | .x => atX
  | .y => atY

def PointerEvent.delta (axis : Axis) : PointerEvent → ℤ
  | .relative _ deltaX deltaY => (axis.pick deltaX deltaY).toInt
  | .scrollWheel _ _ _ => 0

/-- How far the events move the pointer. -/
def travel (axis : Axis) (events : List PointerEvent) : ℤ := (events.map (·.delta axis)).sum

namespace IOHIPointing

variable (fixed : IOFixed) {buttonCount : ℕ} {s t : IOHIPointing} {a : PointingAction}
  {as : List PointingAction} {axis : Axis}

def fract (s : IOHIPointing) (axis : Axis) : ℤ := (axis.pick s.fractX s.fractY).toInt

/-- The scale of a movement; without one it is passed on as it is. -/
def scale (s : IOHIPointing) (dx dy : Int32) : Option Int32 :=
  if s.accelerates then
    s.scaleSegments.bind fun segments =>
      if magnitude (dx <<< 16) (dy <<< 16) = 0 then none
      else lookupScale fixed segments (magnitude (dx <<< 16) (dy <<< 16))
  else none

/-- A movement moves the pointer. -/
def moves (s : IOHIPointing) (buttonState : UInt32) : Bool :=
  !s.isSeized && s.scrollButtonMask &&& buttonState = 0

/-- How far an action ought to move the pointer, in fractions of a unit. New segments drop what
has been kept. -/
def due (axis : Axis) (s : IOHIPointing) : PointingAction → ℤ
  | .dispatchRelativePointerEvent dx dy buttonState =>
    if s.moves buttonState then
      match s.scale fixed dx dy with
      | none => 65536 * (axis.pick dx dy).toInt
      | some scale => (fixed.multiply (axis.pick dx dy <<< 16) scale).toInt
    else 0
  | .setupForAcceleration desired resolution table =>
    match SetupAcceleration fixed (some table) desired (fixed.divide resolution FRAME_RATE)
        (fixed.divide SCREEN_RESOLUTION FRAME_RATE) with
    | .allocated _ _ => -s.fract axis
    | _ => 0
  | _ => 0

/-- A movement that comes to a whole number of units to the left, or up: it leaves a fraction of a
whole unit. -/
def Overshoots (axis : Axis) (s : IOHIPointing) (a : PointingAction) : Prop :=
  match a with
  | .dispatchRelativePointerEvent dx dy buttonState =>
    s.moves buttonState = true ∧ (s.scale fixed dx dy).isSome ∧
      s.fract axis + s.due fixed axis a < 0 ∧ (s.fract axis + s.due fixed axis a) % 65536 = 0
  | _ => False

instance (axis : Axis) (s : IOHIPointing) (a : PointingAction) :
    Decidable (s.Overshoots fixed axis a) :=
  match a with
  | .dispatchRelativePointerEvent _ _ _ => inferInstanceAs (Decidable (_ ∧ _ ∧ _ ∧ _))
  | .setupForAcceleration _ _ _ | .setPointingMode _ | .setButtonMode _
  | .setScrollMouseButton _ | .seize _ => inferInstanceAs (Decidable False)

/-- A scaled movement fits into a word together with what has been kept. -/
def InRange (s : IOHIPointing) (a : PointingAction) : Prop :=
  match a with
  | .dispatchRelativePointerEvent dx dy _ =>
    s.scale fixed dx dy ≠ none → ∀ axis ∈ [Axis.x, Axis.y],
      -2 ^ 31 ≤ s.fract axis + s.due fixed axis a ∧ s.fract axis + s.due fixed axis a < 2 ^ 31
  | _ => True

instance (s : IOHIPointing) : DecidablePred (s.InRange fixed)
  | .dispatchRelativePointerEvent _ _ _ => inferInstanceAs (Decidable (_ → ∀ _ ∈ [_, _], _ ∧ _))
  | .setupForAcceleration _ _ _ | .setPointingMode _ | .setButtonMode _
  | .setScrollMouseButton _ | .seize _ => .isTrue trivial

variable {fixed}

theorem travel_append (axis : Axis) (events : List PointerEvent) (e : PointerEvent) :
    travel axis (events ++ [e]) = travel axis events + e.delta axis := by
  simp [travel]

/-- What an axis shows of a movement, and keeps of it. -/
structure AxisMoves (scaled : Option Int32) (component fract : Int32) (delta fract' : Int32) :
    Prop where
  unscaled : scaled = none → delta = component ∧ fract' = fract
  scaled : ∀ v ∈ scaled, delta = (v + fract) / 65536 ∧ fract' = fraction (v + fract)

theorem scalePointer_moves {dx dy : Int32} {m : Scaled} (hacc : s.accelerates = true)
    (h : s.scalePointer fixed dx dy = some m) (axis : Axis) :
    AxisMoves ((s.scale fixed dx dy).map (fixed.multiply (axis.pick dx dy <<< 16)))
      (axis.pick dx dy) (axis.pick s.fractX s.fractY) (axis.pick m.dx m.dy)
      (axis.pick m.fractX m.fractY) := by
  rw [scalePointer] at h
  rw [scale, if_pos hacc]
  cases hsegments : s.scaleSegments with
  | none =>
    rw [hsegments, Option.some.injEq] at h
    subst h
    cases axis <;> exact ⟨fun _ => ⟨rfl, rfl⟩, fun _ hv => absurd hv (Option.not_mem_none _)⟩
  | some segments =>
    rw [hsegments] at h
    simp only [ScaleAxes] at h
    rw [Option.bind_some]
    split_ifs at h ⊢ with hmag
    · rw [Option.some.injEq] at h
      subst h
      cases axis <;> exact ⟨fun _ => ⟨rfl, rfl⟩, fun _ hv => absurd hv (Option.not_mem_none _)⟩
    · obtain ⟨scale, hscale, rfl⟩ := Option.map_eq_some_iff.mp h
      rw [hscale, Option.map_some]
      refine ⟨fun hnone => absurd hnone (Option.some_ne_none _), fun v hv => ?_⟩
      cases hv
      cases axis <;> exact ⟨rfl, rfl⟩

theorem toInt_add_of_range {x y : Int32} (hlow : -2 ^ 31 ≤ x.toInt + y.toInt)
    (hhigh : x.toInt + y.toInt < 2 ^ 31) : (x + y).toInt = x.toInt + y.toInt := by
  rw [Int32.toInt_add]
  exact Int.bmod_eq_of_le (by omega) (by omega)

/-- A movement of the pointer, with what is kept of it, is the one that is due, but for a unit that
is kept too much. -/
theorem dispatch_travel {dx dy : Int32} {buttonState : UInt32} (axis : Axis)
    (hok : s.InRange fixed (.dispatchRelativePointerEvent dx dy buttonState))
    (h : s.dispatchRelativePointerEvent fixed buttonCount dx dy buttonState = some t) :
    65536 * travel axis t.events + t.fract axis +
        65536 * ((if s.Overshoots fixed axis (.dispatchRelativePointerEvent dx dy buttonState)
          then 1 else 0 : ℕ) : ℤ) =
      65536 * travel axis s.events + s.fract axis +
        s.due fixed axis (.dispatchRelativePointerEvent dx dy buttonState) := by
  rw [dispatchRelativePointerEvent] at h
  split_ifs at h with hseized hscroll hacc
  · cases h
    have hstill : s.moves buttonState = false := by simp [moves, hseized]
    simp [Overshoots, due, hstill]
  · cases h
    have hstill : s.moves buttonState = false := by simp [moves, hscroll]
    simp [Overshoots, due, hstill, travel_append, PointerEvent.delta, fract]
  · obtain ⟨m, hm, rfl⟩ := Option.map_eq_some_iff.mp h
    have hmoves : s.moves buttonState = true := by simpa [moves, hseized] using hscroll
    obtain ⟨hunscaled, hscaled⟩ := scalePointer_moves hacc hm axis
    have hdelta : (PointerEvent.relative (s.mapped buttonCount (shuffled buttonState)) m.dx
        m.dy).delta axis = (axis.pick m.dx m.dy).toInt := rfl
    simp only [InRange, travel_append, hdelta, Overshoots, due, hmoves, if_true, true_and,
      fract] at hok ⊢
    cases hscale : s.scale fixed dx dy with
    | none =>
      rw [hscale] at hunscaled
      obtain ⟨hcomponent, hfract⟩ := hunscaled rfl
      rw [hcomponent, hfract]
      simp only [Option.isSome_none, Bool.false_eq_true, false_and, if_false]
      ring
    | some scale =>
      rw [hscale] at hscaled hok
      obtain ⟨hcomponent, hfract⟩ := hscaled _ rfl
      have hrange := hok (Option.some_ne_none _) axis (by cases axis <;> decide)
      have hsum := toInt_add_of_range (x := fixed.multiply (axis.pick dx dy <<< 16) scale)
        (y := axis.pick s.fractX s.fractY) (by linarith [hrange.1]) (by linarith [hrange.2])
      have hsplit := div_add_fraction (fixed.multiply (axis.pick dx dy <<< 16) scale +
        axis.pick s.fractX s.fractY)
      rw [hcomponent, hfract]
      simp only [Option.isSome_some, true_and]
      rw [hsum, add_comm (fixed.multiply _ _).toInt] at hsplit
      split_ifs at hsplit ⊢
      · push_cast
        linarith
      · push_cast
        linarith
  · cases h
    have hmoves : s.moves buttonState = true := by simpa [moves, hseized] using hscroll
    have hnone : s.scale fixed dx dy = none := if_neg hacc
    simp only [travel_append, Overshoots, due, hmoves, hnone, Option.isSome_none,
      Bool.false_eq_true, false_and, and_false, if_false, if_true, PointerEvent.delta, fract]
    ring

theorem step_travel (axis : Axis) (hok : s.InRange fixed a)
    (hstep : s.step fixed buttonCount a = some t) :
    65536 * travel axis t.events + t.fract axis +
        65536 * ((if s.Overshoots fixed axis a then 1 else 0 : ℕ) : ℤ) =
      65536 * travel axis s.events + s.fract axis + s.due fixed axis a := by
  cases a with
  | setupForAcceleration desired resolution table =>
    simp only [Overshoots, due]
    obtain ⟨hkept, rfl⟩ | ⟨hdisabled, rfl⟩ | ⟨segCount, segments, hallocated, rfl⟩ :=
      setup_cases hstep
    · simp [hkept]
    · simp [hdisabled, fract]
    · cases axis <;> simp [hallocated, fract, Axis.pick]
  | dispatchRelativePointerEvent dx dy buttonState => exact dispatch_travel axis hok hstep
  | setPointingMode accelerateMode =>
    cases hstep
    simp [Overshoots, due, fract]
  | setButtonMode buttonMode =>
    cases hstep
    simp [Overshoots, due, fract]
  | setScrollMouseButton value =>
    cases hstep
    simp [Overshoots, due, fract]
  | seize isSeized =>
    cases hstep
    simp [Overshoots, due, fract]

/-- The way of the pointer is the sum of the scaled movements, but for less than a unit that is
still kept, and for a whole unit for each movement that overshoots. -/
theorem run_travel (axis : Axis) (hok : Guarded (step fixed buttonCount) (InRange fixed) init as)
    (hrun : run (step fixed buttonCount) init as = some t) :
    65536 * travel axis t.events + t.fract axis + 65536 * (total (step fixed buttonCount)
        (fun s a => if s.Overshoots fixed axis a then 1 else 0) init as : ℤ) =
      accumulated (step fixed buttonCount) (due fixed axis) init as := by
  have hsum := @Guarded.run_measure_add _ _ _ _
    (fun s : IOHIPointing => 65536 * travel axis s.events + s.fract axis) _ _ _
    (fun s a t hok hstep => step_travel axis hok hstep) _ _ _ hok hrun
  have hstart : 65536 * travel axis init.events + init.fract axis = 0 := by
    cases axis <;> rfl
  rw [hsum, hstart, zero_add]

/-- The operations as the kernel has them. -/
def kernelFixed : IOFixed where
  multiply a b := Int32.ofInt (a.toInt * b.toInt / 65536)
  divide a b := Int32.ofInt ((a.toInt * 65536).tdiv b.toInt)

/-- The acceleration of a device with the resolution of the screen. -/
def unitScale : PointingAction := .setupForAcceleration 0 SCREEN_RESOLUTION defaultTable

def left : PointingAction := .dispatchRelativePointerEvent (-1) 0 0

def atUnitScale : IOHIPointing :=
  { init with scaleSegments := some [⟨MAX_DEVICE_THRESHOLD, 65536, 0⟩] }

def afterLeft : IOHIPointing :=
  { atUnitScale with fractX := -65536, events := [.relative 0 (-1) 0] }

def afterLeftTwice : IOHIPointing :=
  { atUnitScale with fractX := -65536, events := [.relative 0 (-1) 0, .relative 0 (-2) 0] }

theorem step_unitScale : init.step kernelFixed 1 unitScale = some atUnitScale := by decide +kernel

theorem step_left : atUnitScale.step kernelFixed 1 left = some afterLeft := by decide +kernel

theorem step_leftTwice : afterLeft.step kernelFixed 1 left = some afterLeftTwice := by
  decide +kernel

theorem run_leftTwice :
    run (step kernelFixed 1) init [unitScale, left, left] = some afterLeftTwice := by
  simp only [run, step_unitScale, step_left, step_leftTwice, Option.bind_some]

theorem guarded_leftTwice {ok : IOHIPointing → PointingAction → Prop} (hsetup : ok init unitScale)
    (hfirst : ok atUnitScale left) (hsecond : ok afterLeft left) :
    Guarded (step kernelFixed 1) ok init [unitScale, left, left] := by
  simp only [Guarded, step_unitScale, step_left, Option.some.injEq, forall_eq', hsetup, hfirst,
    hsecond, implies_true, and_self]

theorem overshoots_leftTwice :
    total (step kernelFixed 1) (fun s a => if s.Overshoots kernelFixed .x a then 1 else 0) init
      [unitScale, left, left] = 2 := by
  have hsetup : ¬init.Overshoots kernelFixed .x unitScale := by decide +kernel
  have hfirst : atUnitScale.Overshoots kernelFixed .x left := by decide +kernel
  have hsecond : afterLeft.Overshoots kernelFixed .x left := by decide +kernel
  simp only [total, step_unitScale, step_left, step_leftTwice]
  rw [if_neg hsetup, if_pos hfirst, if_pos hsecond]

theorem due_leftTwice :
    accumulated (step kernelFixed 1) (due kernelFixed .x) init [unitScale, left, left] =
      -131072 := by
  have hsetup : init.due kernelFixed .x unitScale = 0 := by decide +kernel
  have hfirst : atUnitScale.due kernelFixed .x left = -65536 := by decide +kernel
  have hsecond : afterLeft.due kernelFixed .x left = -65536 := by decide +kernel
  simp only [accumulated, step_unitScale, step_left, step_leftTwice]
  rw [hsetup, hfirst, hsecond]
  rfl

/-- By two units to the left the pointer moves three. -/
theorem leftTwice_travel : travel .x afterLeftTwice.events = -3 := by
  have hok : Guarded (step kernelFixed 1) (InRange kernelFixed) init [unitScale, left, left] :=
    guarded_leftTwice trivial (by decide +kernel) (by decide +kernel)
  have hkept : afterLeftTwice.fract .x = -65536 := by decide +kernel
  have hsum := @run_travel kernelFixed 1 afterLeftTwice [unitScale, left, left] .x hok run_leftTwice
  rw [overshoots_leftTwice, due_leftTwice, hkept] at hsum
  generalize travel .x afterLeftTwice.events = way at hsum ⊢
  push_cast at hsum
  omega

end IOHIPointing

end Pointing
