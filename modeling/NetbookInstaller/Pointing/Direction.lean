import NetbookInstaller.Pointing.Travel

/-! When the pointer moves against the hand, which the driver logs as an unwanted change of the
direction. -/
namespace Pointing

open Transition

namespace IOHIPointing

variable {fixed : IOFixed} {buttonCount : ℕ} {s t : IOHIPointing} {a : PointingAction}
  {as : List PointingAction}

/-- The scale keeps the direction of the hand, and the movement is small enough for it. -/
def Steady (fixed : IOFixed) (s : IOHIPointing) : PointingAction → Prop
  | .dispatchRelativePointerEvent dx dy _ =>
    ∀ scale ∈ s.scale fixed dx dy, 0 ≤ scale.toInt ∧ ∀ component ∈ [dx, dy],
      component.toInt.natAbs < 2 ^ 15 ∧ component.toInt.natAbs * scale.toInt < 2 ^ 30
  | _ => True

instance (s : IOHIPointing) : DecidablePred (s.Steady fixed)
  | .dispatchRelativePointerEvent dx dy _ =>
    inferInstanceAs (Decidable (∀ scale ∈ s.scale fixed dx dy, _ ∧ ∀ component ∈ [dx, dy], _ ∧ _))
  | .setupForAcceleration _ _ _ | .setPointingMode _ | .setButtonMode _
  | .setScrollMouseButton _ | .seize _ => .isTrue trivial

/-- A movement to the right, or down, that is scaled to nothing while a whole unit to the left,
or up, is still kept. -/
def Stalls (fixed : IOFixed) (s : IOHIPointing) : PointingAction → Prop
  | .dispatchRelativePointerEvent dx dy buttonState =>
    s.moves buttonState = true ∧ s.scale fixed dx dy = some 0 ∧
      (0 < dx.toInt ∧ s.fractX.toInt = -65536 ∨ 0 < dy.toInt ∧ s.fractY.toInt = -65536)
  | _ => False

instance (s : IOHIPointing) : DecidablePred (s.Stalls fixed)
  | .dispatchRelativePointerEvent _ _ _ =>
    inferInstanceAs (Decidable (_ ∧ _ ∧ (_ ∧ _ ∨ _ ∧ _)))
  | .setupForAcceleration _ _ _ | .setPointingMode _ | .setButtonMode _
  | .setScrollMouseButton _ | .seize _ => .isFalse id

/-- What is kept is less than a unit, or a whole one to the left or up. -/
def Kept (s : IOHIPointing) : Prop :=
  (-65536 ≤ s.fractX.toInt ∧ s.fractX.toInt < 65536) ∧
    (-65536 ≤ s.fractY.toInt ∧ s.fractY.toInt < 65536)

theorem zero_range : -65536 ≤ (0 : Int32).toInt ∧ (0 : Int32).toInt < 65536 := by decide

theorem fraction_range (x : Int32) : -65536 ≤ (fraction x).toInt ∧ (fraction x).toInt < 65536 := by
  rw [toInt_fraction]
  split <;> omega

theorem toInt_shiftLeft {x : Int32} (h : x.toInt.natAbs < 2 ^ 15) :
    (x <<< 16).toInt = 65536 * x.toInt := by
  have hshift : (x <<< 16).toBitVec = x.toBitVec <<< 16 := by
    rw [Int32.toBitVec_shiftLeft]
    rfl
  have hx : x.toInt = x.toBitVec.toInt := rfl
  rw [← Int32.toInt_toBitVec, hshift, BitVec.toInt_eq_toNat_cond, BitVec.toNat_shiftLeft,
    Nat.shiftLeft_eq]
  rw [hx, BitVec.toInt_eq_toNat_cond] at h ⊢
  have hlt := x.toBitVec.isLt
  omega

/-- `IOFixedMultiply`: the product, less the bits that are too many behind the point. -/
def Multiplies (fixed : IOFixed) : Prop :=
  ∀ a b : Int32, fixed.multiply a b = Int32.ofInt (a.toInt * b.toInt / 65536)

theorem natAbs_mul_le {c k : ℤ} (hk : 0 ≤ k) (h : c.natAbs * k < 2 ^ 30) :
    -2 ^ 30 < c * k ∧ c * k < 2 ^ 30 := by
  rcases le_or_gt 0 c with hc | hc
  · have hnat : (c.natAbs : ℤ) = c := Int.natAbs_of_nonneg hc
    rw [hnat] at h
    exact ⟨by linarith [mul_nonneg hc hk], h⟩
  · have hnat : (c.natAbs : ℤ) = -c := by omega
    rw [hnat] at h
    exact ⟨by linarith, by linarith [mul_nonneg (neg_nonneg.mpr hc.le) hk]⟩

theorem multiply_shift (hfixed : Multiplies fixed) {component scale : Int32}
    (hscale : 0 ≤ scale.toInt) (hsmall : component.toInt.natAbs < 2 ^ 15)
    (hfits : component.toInt.natAbs * scale.toInt < 2 ^ 30) :
    (fixed.multiply (component <<< 16) scale).toInt = component.toInt * scale.toInt := by
  obtain ⟨hlow, hhigh⟩ := natAbs_mul_le hscale hfits
  have hproduct : (component <<< 16).toInt * scale.toInt / 65536 =
      component.toInt * scale.toInt := by
    rw [toInt_shiftLeft hsmall, mul_assoc, Int.mul_ediv_cancel_left _ (by decide)]
  rw [hfixed, hproduct]
  exact Int32.toInt_ofInt_of_le (by linarith) (by linarith)

theorem tdiv_neg_iff (x : ℤ) : x.tdiv 65536 < 0 ↔ x ≤ -65536 := by
  rcases le_or_gt 0 x with hx | hx
  · rw [Int.tdiv_eq_ediv_of_nonneg hx]
    omega
  · rw [tdiv_of_neg hx]
    omega

theorem tdiv_pos_iff (x : ℤ) : 0 < x.tdiv 65536 ↔ 65536 ≤ x := by
  have hneg := tdiv_neg_iff (-x)
  rw [Int.neg_tdiv] at hneg
  omega

/-- Along one axis, the pointer moves against the hand only out of a unit that was kept. -/
theorem unwanted_iff {component fract scaled scale : Int32} (hscale : 0 ≤ scale.toInt)
    (hscaled : scaled.toInt = component.toInt * scale.toInt)
    (hrange : -2 ^ 30 < scaled.toInt ∧ scaled.toInt < 2 ^ 30)
    (hkept : -65536 ≤ fract.toInt ∧ fract.toInt < 65536) :
    unwanted component ((scaled + fract) / 65536) = true ↔
      scale = 0 ∧ 0 < component.toInt ∧ fract.toInt = -65536 := by
  have hsum : (scaled + fract).toInt = scaled.toInt + fract.toInt :=
    toInt_add_of_range (by omega) (by omega)
  have hzero : scale = 0 ↔ scale.toInt = 0 := Int32.toInt_inj.symm
  simp only [unwanted, Bool.or_eq_true, Bool.and_eq_true, decide_eq_true_eq, gt_iff_lt,
    Int32.lt_iff_toInt_lt, toInt_div, Int32.toInt_zero, tdiv_neg_iff, tdiv_pos_iff, hsum, hzero]
  rcases lt_trichotomy component.toInt 0 with hneg | hnone | hpos
  · have hleft : scaled.toInt ≤ 0 := by
      rw [hscaled]
      exact mul_nonpos_of_nonpos_of_nonneg hneg.le hscale
    omega
  · omega
  · have hright : scale.toInt = 0 ∨ 0 < scaled.toInt := by
      rcases hscale.eq_or_lt with h | h
      · exact .inl h.symm
      · exact .inr (hscaled ▸ mul_pos hpos h)
    have hnothing : scale.toInt = 0 → scaled.toInt = 0 := fun h => by rw [hscaled, h, mul_zero]
    omega

theorem unwanted_self (x : Int32) : unwanted x x = false := by
  simp only [unwanted, Bool.or_eq_false_iff, Bool.and_eq_false_iff, decide_eq_false_iff_not,
    gt_iff_lt, Int32.lt_iff_toInt_lt]
  omega

/-- What scaling by one scale, or none, does to both axes. -/
theorem scalePointer_unwanted (hfixed : Multiplies fixed) {dx dy : Int32} {m : Scaled}
    (hkept : s.Kept) (hacc : s.accelerates = true) (hm : s.scalePointer fixed dx dy = some m)
    (hok : ∀ scale ∈ s.scale fixed dx dy, 0 ≤ scale.toInt ∧ ∀ component ∈ [dx, dy],
      component.toInt.natAbs < 2 ^ 15 ∧ component.toInt.natAbs * scale.toInt < 2 ^ 30)
    (axis : Axis) :
    (-65536 ≤ (axis.pick m.fractX m.fractY).toInt ∧
        (axis.pick m.fractX m.fractY).toInt < 65536) ∧
      (unwanted (axis.pick dx dy) (axis.pick m.dx m.dy) = true ↔ s.scale fixed dx dy = some 0 ∧
        0 < (axis.pick dx dy).toInt ∧ (axis.pick s.fractX s.fractY).toInt = -65536) := by
  have hfract : -65536 ≤ (axis.pick s.fractX s.fractY).toInt ∧
      (axis.pick s.fractX s.fractY).toInt < 65536 := by
    cases axis
    · exact hkept.1
    · exact hkept.2
  obtain ⟨hunscaled, hscaled⟩ := scalePointer_moves hacc hm axis
  cases hscale : s.scale fixed dx dy with
  | none =>
    rw [hscale] at hunscaled
    obtain ⟨hdelta, hsame⟩ := hunscaled rfl
    rw [hdelta, hsame, unwanted_self]
    exact ⟨hfract, by simp⟩
  | some scale =>
    rw [hscale] at hscaled
    obtain ⟨hdelta, hnew⟩ := hscaled _ rfl
    obtain ⟨hpositive, hcomponents⟩ := hok scale hscale
    obtain ⟨hsmall, hfits⟩ := hcomponents (axis.pick dx dy) (by cases axis <;> simp [Axis.pick])
    have hproduct := multiply_shift hfixed hpositive hsmall hfits
    have hrange := natAbs_mul_le hpositive hfits
    rw [hdelta, hnew, Option.some.injEq]
    exact ⟨fraction_range _, unwanted_iff hpositive hproduct (hproduct ▸ hrange) hfract⟩

theorem dispatch_unwanted (hfixed : Multiplies fixed) {dx dy : Int32} {buttonState : UInt32}
    (hkept : s.Kept) (hok : s.Steady fixed (.dispatchRelativePointerEvent dx dy buttonState))
    (h : s.dispatchRelativePointerEvent fixed buttonCount dx dy buttonState = some t) :
    t.Kept ∧ s.unwantedDirectionChanges ≤ t.unwantedDirectionChanges ∧
      (t.unwantedDirectionChanges = s.unwantedDirectionChanges ↔
        ¬s.Stalls fixed (.dispatchRelativePointerEvent dx dy buttonState)) := by
  rw [dispatchRelativePointerEvent] at h
  split_ifs at h with hseized hscroll hacc
  · cases h
    have hstill : s.moves buttonState = false := by simp [moves, hseized]
    exact ⟨hkept, le_rfl, iff_of_true rfl fun hstalls => by simp [Stalls, hstill] at hstalls⟩
  · cases h
    refine ⟨hkept, le_rfl, iff_of_true rfl fun hstalls => hscroll ?_⟩
    have hmoves := hstalls.1
    simp only [moves, Bool.and_eq_true, decide_eq_true_eq] at hmoves
    exact hmoves.2
  · obtain ⟨m, hm, rfl⟩ := Option.map_eq_some_iff.mp h
    have hmoves : s.moves buttonState = true := by simpa [moves, hseized] using hscroll
    obtain ⟨hx, hunwantedX⟩ := scalePointer_unwanted hfixed hkept hacc hm hok .x
    obtain ⟨hy, hunwantedY⟩ := scalePointer_unwanted hfixed hkept hacc hm hok .y
    simp only [Axis.pick] at hx hy hunwantedX hunwantedY
    refine ⟨⟨hx, hy⟩, Nat.le_add_right_of_le (Nat.le_add_right _ _), ?_⟩
    have hstalls : s.Stalls fixed (.dispatchRelativePointerEvent dx dy buttonState) ↔
        unwanted dx m.dx = true ∨ unwanted dy m.dy = true := by
      rw [Stalls, hunwantedX, hunwantedY, ← and_or_left]
      simp only [hmoves, true_and]
    rw [hstalls]
    cases unwanted dx m.dx <;> cases unwanted dy m.dy <;> simp
    omega
  · cases h
    have hnone : s.scale fixed dx dy = none := if_neg hacc
    exact ⟨hkept, le_rfl, iff_of_true rfl fun hstalls => by simp [Stalls, hnone] at hstalls⟩

theorem step_unwanted (hfixed : Multiplies fixed) (hkept : s.Kept) (hok : s.Steady fixed a)
    (hstep : s.step fixed buttonCount a = some t) :
    t.Kept ∧ s.unwantedDirectionChanges ≤ t.unwantedDirectionChanges ∧
      (t.unwantedDirectionChanges = s.unwantedDirectionChanges ↔ ¬s.Stalls fixed a) := by
  cases a with
  | setupForAcceleration desired resolution table =>
    obtain ⟨-, rfl⟩ | ⟨-, rfl⟩ | ⟨segCount, segments, -, rfl⟩ := setup_cases hstep
    · exact ⟨hkept, le_rfl, iff_of_true rfl id⟩
    · exact ⟨hkept, le_rfl, iff_of_true rfl id⟩
    · exact ⟨⟨zero_range, zero_range⟩, le_rfl, iff_of_true rfl id⟩
  | dispatchRelativePointerEvent dx dy buttonState => exact dispatch_unwanted hfixed hkept hok hstep
  | setPointingMode accelerateMode =>
    cases hstep
    exact ⟨hkept, le_rfl, iff_of_true rfl id⟩
  | setButtonMode buttonMode =>
    cases hstep
    exact ⟨hkept, le_rfl, iff_of_true rfl id⟩
  | setScrollMouseButton value =>
    cases hstep
    exact ⟨hkept, le_rfl, iff_of_true rfl id⟩
  | seize isSeized =>
    cases hstep
    exact ⟨hkept, le_rfl, iff_of_true rfl id⟩

/-- The driver logs that the pointer has moved against the hand exactly if a movement stalls. -/
theorem run_unwanted_iff (hfixed : Multiplies fixed)
    (hok : Guarded (step fixed buttonCount) (Steady fixed) init as)
    (hrun : run (step fixed buttonCount) init as = some t) :
    t.unwantedDirectionChanges = 0 ↔
      Guarded (step fixed buttonCount) (fun s a => ¬s.Stalls fixed a) init as := by
  have hmeasure := @Guarded.run_measure_eq_iff _ _ _ _ Kept
    (fun s => (s.unwantedDirectionChanges : ℤ)) (fun s a => ¬s.Stalls fixed a)
    (fun _ _ _ hkept hok hstep => (step_unwanted hfixed hkept hok hstep).1)
    (fun _ _ _ hkept hok hstep => by
      obtain ⟨-, hle, hiff⟩ := step_unwanted hfixed hkept hok hstep
      exact ⟨by exact_mod_cast hle, by exact_mod_cast hiff⟩) _ _ _
    (show init.Kept from ⟨zero_range, zero_range⟩) hok hrun
  exact_mod_cast hmeasure.2

theorem steady_left (hscale : s.scale kernelFixed (-1) 0 = some 65536) :
    s.Steady kernelFixed left := by
  intro scale hmem
  rw [hscale] at hmem
  cases hmem
  refine ⟨by decide, fun component hcomponent => ?_⟩
  simp only [List.mem_cons, List.not_mem_nil, or_false] at hcomponent
  have hscale : (65536 : Int32).toInt = 65536 := by decide
  obtain rfl | rfl := hcomponent
  · have hleft : (-1 : Int32).toInt = -1 := by decide
    rw [hleft, hscale]
    norm_num
  · rw [Int32.toInt_zero, hscale]
    norm_num

theorem leftTwice_unwanted : afterLeftTwice.unwantedDirectionChanges = 0 :=
  (@run_unwanted_iff kernelFixed 1 _ _ (fun _ _ => rfl)
    (guarded_leftTwice trivial (steady_left (by decide +kernel)) (steady_left (by decide +kernel)))
    run_leftTwice).mpr
    (guarded_leftTwice (by decide +kernel) (by decide +kernel) (by decide +kernel))

end IOHIPointing

end Pointing
