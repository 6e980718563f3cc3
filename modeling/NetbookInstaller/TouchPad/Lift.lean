import NetbookInstaller.TouchPad.Buttons
import Mathlib.Tactic.NormNum

/-! Whether the touchpad driver sees the finger lift, whatever the preferences are. The
thresholds are computed in 32 bits and compared as `double`. -/
namespace TouchPad

open Double Transition

/-- What the driver relies on of the arithmetic of `double`: a result that is not too large
is the exact one, rounded. Rounding is monotone and keeps short dyadic numbers. -/
class RoundedDouble (D : Type) extends Double D where
  Represents : D → ℚ → Prop
  rounded : ℚ → ℚ
  rounded_mono : Monotone rounded
  rounded_dyadic : ∀ (n : ℤ) (k : ℕ), |n| ≤ 2 ^ 53 → k ≤ 53 → rounded (n / 2 ^ k) = n / 2 ^ k
  lt_iff : ∀ {x y p q}, Represents x p → Represents y q → (lt x y = true ↔ p < q)
  represents_intCast : ∀ n : ℤ, |n| ≤ 2 ^ 53 → Represents (IntCast.intCast n) n
  represents_ofScientific : ∀ m s e, (OfScientific.ofScientific m s e : ℚ) ≤ 2 ^ 53 →
    Represents (OfScientific.ofScientific m s e) (rounded (OfScientific.ofScientific m s e))
  represents_sub : ∀ {x y p q}, Represents x p → Represents y q → |p - q| ≤ 2 ^ 53 →
    Represents (x - y) (rounded (p - q))
  represents_mul : ∀ {x y p q}, Represents x p → Represents y q → |p * q| ≤ 2 ^ 53 →
    Represents (x * y) (rounded (p * q))

instance : RoundedDouble ℚ where
  Represents x q := x = q
  rounded := id
  rounded_mono := monotone_id
  rounded_dyadic _ _ _ _ := rfl
  lt_iff := by
    rintro x y _ _ rfl rfl
    exact decide_eq_true_iff
  represents_intCast _ _ := rfl
  represents_ofScientific _ _ _ _ := rfl
  represents_sub := by
    rintro x y _ _ rfl rfl _
    rfl
  represents_mul := by
    rintro x y _ _ rfl rfl _
    rfl

variable {D : Type} [RoundedDouble D]

namespace RoundedDouble

theorem rounded_natCast {n : ℕ} (hn : n ≤ 2 ^ 53) : rounded D n = n := by
  have h := rounded_dyadic (D := D) n 0 (by rw [Nat.abs_cast]; exact_mod_cast hn) (by decide)
  simpa using h

theorem le_rounded {p : ℚ} (n : ℤ) (k : ℕ) (hn : |n| ≤ 2 ^ 53) (hk : k ≤ 53) (h : n / 2 ^ k ≤ p) :
    n / 2 ^ k ≤ rounded D p := by
  rw [← rounded_dyadic (D := D) n k hn hk]
  exact rounded_mono h

theorem rounded_le {p : ℚ} (n : ℤ) (k : ℕ) (hn : |n| ≤ 2 ^ 53) (hk : k ≤ 53) (h : p ≤ n / 2 ^ k) :
    rounded D p ≤ n / 2 ^ k := by
  rw [← rounded_dyadic (D := D) n k hn hk]
  exact rounded_mono h

theorem represents_ofUInt32 (n : UInt32) : Represents (ofUInt32 n : D) n.toNat := by
  have hlt := n.toNat_lt
  have hn : (n.toNat : ℤ) ≤ 2 ^ 53 := by omega
  exact_mod_cast represents_intCast (D := D) n.toNat (by rw [Nat.abs_cast]; exact hn)

/-- One less the hysteresis. -/
theorem represents_factor : ∃ f : ℚ, Represents (1.0 - 0.08 : D) f ∧ 7 / 8 ≤ f ∧ f ≤ 1 := by
  have hone : Represents (1.0 : D) 1 := by
    have h := represents_ofScientific (D := D) 10 true 1 (by norm_num)
    have heq : (OfScientific.ofScientific 10 true 1 : ℚ) = (1 : ℕ) := by norm_num
    rw [heq, rounded_natCast (by norm_num)] at h
    exact_mod_cast h
  have hhysteresis := represents_ofScientific (D := D) 8 true 2 (by norm_num)
  have hnonneg : 0 ≤ rounded D (OfScientific.ofScientific 8 true 2) := by
    have h := le_rounded (D := D) (p := OfScientific.ofScientific 8 true 2) 0 0 (by norm_num)
      (by decide) (by norm_num)
    norm_num at h ⊢
    exact h
  have hle : rounded D (OfScientific.ofScientific 8 true 2) ≤ 1 / 8 := by
    have h := rounded_le (D := D) (p := OfScientific.ofScientific 8 true 2) 1 3 (by norm_num)
      (by decide) (by norm_num)
    norm_num at h ⊢
    exact h
  generalize rounded D (OfScientific.ofScientific 8 true 2) = r at hhysteresis hnonneg hle
  refine ⟨_, represents_sub hone hhysteresis (abs_le.mpr ⟨by linarith, by linarith⟩), ?_, ?_⟩
  · have h := le_rounded (D := D) (p := 1 - r) 7 3 (by norm_num) (by decide) (by norm_num; linarith)
    norm_num at h ⊢
    exact h
  · have h := rounded_le (D := D) (p := 1 - r) 1 0 (by norm_num) (by decide) (by norm_num; linarith)
    norm_num at h ⊢
    exact h

/-- A threshold less the hysteresis. -/
theorem represents_reduced {x : D} {q : ℚ} (hx : Represents x q) (hnonneg : 0 ≤ q)
    (hle : q ≤ 2 ^ 32) : ∃ t : ℚ, Represents (x * (1.0 - 0.08) : D) t ∧
      (1 ≤ q → 7 / 8 ≤ t) ∧ ∀ n : ℕ, q = n → t ≤ n := by
  obtain ⟨f, hf, hlow, hhigh⟩ := represents_factor (D := D)
  have hbound : q * f ≤ q := mul_le_of_le_one_right hnonneg hhigh
  have hpos : 0 ≤ q * f := mul_nonneg hnonneg (by linarith)
  refine ⟨_, represents_mul hx hf (abs_le.mpr ⟨by linarith, by linarith⟩), fun hq => ?_, ?_⟩
  · have hmul : 7 / 8 ≤ q * f := hlow.trans (le_mul_of_one_le_left (by linarith) hq)
    have h := le_rounded (D := D) (p := q * f) 7 3 (by norm_num) (by decide) (by norm_num; exact hmul)
    norm_num at h ⊢
    exact h
  · rintro n rfl
    have hn : n ≤ 2 ^ 53 := by
      have h : n ≤ 2 ^ 32 := by exact_mod_cast hle
      omega
    calc rounded D (n * f) ≤ rounded D n := rounded_mono hbound
      _ = n := rounded_natCast hn

end RoundedDouble

/-- The preference for one finger, as the last dictionary that had one has set it. -/
def nextPreference (preference : UInt32) : Action → UInt32
  | .setParamProperties dict => dict.oneFingerThreshold.getD preference
  | _ => preference

/-- Before the first dictionary the threshold is what the preference 10 would make it. -/
def oneFingerPreference (as : List Action) : UInt32 := as.foldl nextPreference 10

namespace SynapticsTouchPad

/-- A packet without pressure has no finger, and neither has one whose pressure is below the
threshold less the hysteresis. -/
structure SeesLift (s : SynapticsTouchPad D) (p : Packet) : Prop where
  zero : p.pressureZ = 0 → s.numFingers p = 0
  light : lt (IntCast.intCast p.pressureZ.toNat)
    (s.pref.oneFingerThreshold * (1.0 - s.pref.hysteresis)) = true → s.numFingers p = 0

/-- In W mode the threshold is not zero, or the packet has pressure, or its three fingers
are ignored. Otherwise no packet will do that the pressure says is a lift. -/
def LiftSeen (s : SynapticsTouchPad D) (preference : UInt32) (p : Packet) : Prop :=
  if s.wMode then
    (preference ≠ 25 ∧ preference ≠ 25 + 0x80000000) ∨ p.pressureZ ≠ 0 ∨
      (s.capMultifinger = true ∧ p.wValue true = W_THREEPLUS ∧
        s.pref.gestureMode = GESTURE_MODE_NONE)
  else
    p.pressureZ ≠ 0 ∧ lt (IntCast.intCast p.pressureZ.toNat)
      (s.pref.oneFingerThreshold * (1.0 - s.pref.hysteresis)) = false

/-- What is known of the thresholds, and of the fingers, in every reachable state. -/
structure Tuned (preference : UInt32) (s : SynapticsTouchPad D) : Prop where
  one : s.pref.oneFingerThreshold = ofUInt32 (Z_LIGHT_FINGER + 2 * (10 - preference))
  two : ∃ q : ℚ, RoundedDouble.Represents s.pref.twoFingerThreshold q ∧ 1 ≤ q ∧ q ≤ 2 ^ 32
  hysteresis : s.pref.hysteresis = 0.08
  fingers : s.prevNumFingers ≤ 3

/-- The threshold wraps to zero for two preferences. -/
theorem oneFinger_eq_zero (n : UInt32) :
    (Z_LIGHT_FINGER + 2 * (10 - n)).toNat = 0 ↔ n = 25 ∨ n = 25 + 0x80000000 := by
  have hlt := n.toNat_lt
  rw [← UInt32.toNat_inj, ← UInt32.toNat_inj]
  simp only [Z_LIGHT_FINGER, UInt32.toNat_add, UInt32.toNat_mul, UInt32.toNat_sub, UInt32.reduceToNat]
  omega

theorem twoFinger_ne_zero (n : UInt32) : 1 ≤ (215 + 20 * (10 - n)).toNat := by
  have hlt := n.toNat_lt
  simp only [UInt32.toNat_add, UInt32.toNat_mul, UInt32.toNat_sub, UInt32.reduceToNat]
  omega

theorem start_tuned (capabilities : UInt16) (extendedCapabilities : UInt32) (scaleFactor : D) :
    (start capabilities extendedCapabilities scaleFactor).Tuned 10 := by
  refine ⟨rfl, ⟨250, ?_, by norm_num, by norm_num⟩, rfl, Nat.zero_le 3⟩
  have h := RoundedDouble.represents_ofScientific (D := D) 2500 true 1 (by norm_num)
  have heq : (OfScientific.ofScientific 2500 true 1 : ℚ) = (250 : ℕ) := by norm_num
  rw [heq, RoundedDouble.rounded_natCast (by norm_num)] at h
  exact_mod_cast h

theorem Tuned.setParamProperties {s : SynapticsTouchPad D} {n : UInt32} (h : s.Tuned n)
    (dict : ParamProperties) :
    (s.setParamProperties dict).Tuned (dict.oneFingerThreshold.getD n) := by
  refine ⟨?_, ?_, h.hysteresis, h.fingers⟩
  · show (dict.oneFingerThreshold.map _).getD s.pref.oneFingerThreshold = _
    cases dict.oneFingerThreshold with
    | none => exact h.one
    | some m => rfl
  · show ∃ q : ℚ, RoundedDouble.Represents
      ((dict.twoFingerThreshold.map _).getD s.pref.twoFingerThreshold) q ∧ _
    cases dict.twoFingerThreshold with
    | none => exact h.two
    | some m =>
      have hlt := (215 + 20 * (10 - m)).toNat_lt
      refine ⟨_, RoundedDouble.represents_ofUInt32 _, ?_, ?_⟩
      · exact_mod_cast twoFinger_ne_zero m
      · exact_mod_cast hlt.le

theorem Tuned.packet {s : SynapticsTouchPad D} {n : UInt32} (h : s.Tuned n) (p : Packet) :
    (s.dispatchRelativePointerEventWithAbsolutePacket p).Tuned n := by
  have hcarries := packet_carries s p
  have hpref : (s.dispatchRelativePointerEventWithAbsolutePacket p).pref = s.pref := hcarries.pref
  have hfingers : (s.dispatchRelativePointerEventWithAbsolutePacket p).prevNumFingers =
      s.numFingers p := hcarries.numFingers
  refine ⟨?_, ?_, ?_, ?_⟩
  · rw [hpref, h.one]
  · rw [hpref]
    exact h.two
  · rw [hpref, h.hysteresis]
  · rw [hfingers]
    exact numFingers_le h.fingers p

theorem run_tuned {as : List Action} {s t : SynapticsTouchPad D} {n : UInt32} (h : s.Tuned n)
    (hrun : run step s as = some t) :
    t.Tuned (as.foldl nextPreference n) := by
  induction as generalizing s n with
  | nil => exact Option.some.inj hrun ▸ h
  | cons a as ih =>
    obtain ⟨u, hu, hrun⟩ := run_cons.mp hrun
    rw [List.foldl_cons]
    refine ih ?_ hrun
    cases a with
    | absolutePacket p => exact Option.some.inj hu ▸ h.packet p
    | timerExpires =>
      rw [step, Option.ite_none_right_eq_some, Option.some.injEq] at hu
      exact hu.2 ▸ ⟨h.one, h.two, h.hysteresis, h.fingers⟩
    | setParamProperties dict => exact Option.some.inj hu ▸ h.setParamProperties dict
    | setDevicePowerState whatToDo =>
      cases whatToDo with
      | disableDevice => exact Option.some.inj hu ▸ h
      | enableDevice => exact Option.some.inj hu ▸ ⟨h.one, h.two, h.hysteresis, h.fingers⟩

theorem represents_pressure (p : Packet) :
    RoundedDouble.Represents (IntCast.intCast p.pressureZ.toNat : D) p.pressureZ.toNat := by
  have hlt := p.pressureZ.toNat_lt
  have hn : (p.pressureZ.toNat : ℤ) ≤ 2 ^ 53 := by omega
  exact_mod_cast RoundedDouble.represents_intCast (D := D) p.pressureZ.toNat
    (by rw [Nat.abs_cast]; exact hn)

/-- The threshold for one finger, and the same less the hysteresis. -/
theorem Tuned.represents {s : SynapticsTouchPad D} {n : UInt32} (h : s.Tuned n) :
    RoundedDouble.Represents s.pref.oneFingerThreshold
        (Z_LIGHT_FINGER + 2 * (10 - n)).toNat ∧
      ∃ t : ℚ, RoundedDouble.Represents
          (s.pref.oneFingerThreshold * (1.0 - s.pref.hysteresis)) t ∧
        (1 ≤ (Z_LIGHT_FINGER + 2 * (10 - n)).toNat → 7 / 8 ≤ t) ∧
        t ≤ (Z_LIGHT_FINGER + 2 * (10 - n)).toNat := by
  have hlt := (Z_LIGHT_FINGER + 2 * (10 - n)).toNat_lt
  have hone := RoundedDouble.represents_ofUInt32 (D := D) (Z_LIGHT_FINGER + 2 * (10 - n))
  obtain ⟨t, ht, hlow, hhigh⟩ := RoundedDouble.represents_reduced hone (Nat.cast_nonneg _)
    (by exact_mod_cast hlt.le)
  rw [h.one, h.hysteresis]
  exact ⟨hone, t, ht, fun hpos => hlow (by exact_mod_cast hpos), hhigh _ rfl⟩

/-- In W mode a positive threshold is above any pressure that is to be a lift. -/
theorem Tuned.reportsNoFinger {s : SynapticsTouchPad D} {n : UInt32} (h : s.Tuned n) {p : Packet}
    (hone : (Z_LIGHT_FINGER + 2 * (10 - n)).toNat ≠ 0)
    (hlight : p.pressureZ = 0 ∨ lt (IntCast.intCast p.pressureZ.toNat)
      (s.pref.oneFingerThreshold * (1.0 - s.pref.hysteresis)) = true) :
    s.ReportsNoFinger p := by
  obtain ⟨honeFinger, t, ht, hlow, hhigh⟩ := h.represents
  have hreduced := hlow (Nat.one_le_iff_ne_zero.mpr hone)
  have hz := represents_pressure (D := D) p
  have hless : (p.pressureZ.toNat : ℚ) < t := by
    rcases hlight with hzero | hlight
    · rw [hzero]
      exact lt_of_lt_of_le (by norm_num) hreduced
    · exact (RoundedDouble.lt_iff hz ht).mp hlight
  exact ⟨(RoundedDouble.lt_iff hz honeFinger).mpr (hless.trans_le hhigh),
    .inr ((RoundedDouble.lt_iff hz ht).mpr hless)⟩

/-- With the threshold at zero a packet without pressure has the fingers of its W value, or
the one finger that the lower thresholds leave. -/
theorem Tuned.fingers_eq {s : SynapticsTouchPad D} {n : UInt32} (h : s.Tuned n) {p : Packet}
    (hw : s.wMode = true) (hone : (Z_LIGHT_FINGER + 2 * (10 - n)).toNat = 0)
    (hz : p.pressureZ = 0) :
    s.fingers p =
      if s.capMultifinger = true then
        if p.wValue true = W_TWOFINGERS then 2 else if p.wValue true = W_THREEPLUS then 3 else 1
      else 1 := by
  obtain ⟨honeFinger, t, ht, -, hhigh⟩ := h.represents
  obtain ⟨q, hq, hlow, hhighq⟩ := h.two
  obtain ⟨u, hu, hlowu, -⟩ := RoundedDouble.represents_reduced hq (by linarith) hhighq
  have hzero : RoundedDouble.Represents (IntCast.intCast (0 : ℤ) : D) 0 := by
    exact_mod_cast RoundedDouble.represents_intCast (D := D) 0 (by norm_num)
  rw [hone] at honeFinger hhigh
  have hnotOne : lt (IntCast.intCast (0 : ℤ)) s.pref.oneFingerThreshold = false := by
    rw [← Bool.not_eq_true, RoundedDouble.lt_iff hzero honeFinger]
    simp
  have hnotReduced : lt (IntCast.intCast (0 : ℤ))
      (s.pref.oneFingerThreshold * (1.0 - s.pref.hysteresis)) = false := by
    rw [← Bool.not_eq_true, RoundedDouble.lt_iff hzero ht, not_lt]
    exact_mod_cast hhigh
  have htwo : lt (IntCast.intCast (0 : ℤ)) s.pref.twoFingerThreshold = true :=
    (RoundedDouble.lt_iff hzero hq).mpr (by linarith)
  have htwoReduced : lt (IntCast.intCast (0 : ℤ))
      (s.pref.twoFingerThreshold * (1.0 - s.pref.hysteresis)) = true := by
    rw [h.hysteresis, RoundedDouble.lt_iff hzero hu]
    linarith [hlowu hlow]
  have hprev := h.fingers
  have hzNat : p.pressureZ.toNat = 0 := by rw [hz]; rfl
  unfold SynapticsTouchPad.fingers
  rw [hzNat, hw]
  simp only [Nat.cast_zero, mul_zero, hnotOne, hnotReduced, htwo, htwoReduced,
    Bool.true_and, Bool.true_or, Bool.false_eq_true, if_true, if_false]
  split
  · rfl
  · split
    · rfl
    · rfl
    · rfl
    · rfl
    next h0 h1 h2 h3 => exact absurd hprev (prevNumFingers_cases h0 h1 h2 h3)

theorem Tuned.numFingers_eq_zero_iff {s : SynapticsTouchPad D} {n : UInt32} (h : s.Tuned n)
    {p : Packet} (hw : s.wMode = true) (hone : (Z_LIGHT_FINGER + 2 * (10 - n)).toNat = 0)
    (hz : p.pressureZ = 0) :
    s.numFingers p = 0 ↔ s.capMultifinger = true ∧ p.wValue true = W_THREEPLUS ∧
      s.pref.gestureMode = GESTURE_MODE_NONE := by
  have hne : W_THREEPLUS ≠ W_TWOFINGERS := by decide
  rw [numFingers, h.fingers_eq hw hone hz]
  by_cases hmulti : s.capMultifinger = true
  · by_cases hthree : p.wValue true = W_THREEPLUS
    · simp only [hmulti, hthree, hne, if_true, if_false, true_and]
      split_ifs <;> simp_all
    · simp only [hmulti, hthree, if_true, if_false]
      split_ifs <;> simp_all
  · simp [hmulti]

/-- In Z mode there always is one finger. -/
theorem numFingers_of_not_wMode {s : SynapticsTouchPad D} (hw : s.wMode = false) (p : Packet) :
    s.numFingers p = 1 := by
  simp [numFingers, fingers, hw]

theorem Tuned.liftSeen_iff {s : SynapticsTouchPad D} {n : UInt32} (h : s.Tuned n) (p : Packet) :
    s.SeesLift p ↔ s.LiftSeen n p := by
  unfold LiftSeen
  cases hw : s.wMode with
  | false =>
    have hone := numFingers_of_not_wMode hw p
    rw [if_neg (by simp)]
    constructor
    · rintro ⟨hzero, hlight⟩
      refine ⟨fun hz => ?_, ?_⟩
      · rw [hzero hz] at hone
        cases hone
      · rw [← Bool.not_eq_true]
        intro hlt
        rw [hlight hlt] at hone
        cases hone
    · rintro ⟨hz, hlt⟩
      exact ⟨fun h => absurd h hz, fun h => by rw [hlt] at h; cases h⟩
  | true =>
    rw [if_pos rfl, ← not_or, ← oneFinger_eq_zero]
    by_cases hone : (Z_LIGHT_FINGER + 2 * (10 - n)).toNat = 0
    · have hnotLight : ¬ lt (IntCast.intCast p.pressureZ.toNat)
          (s.pref.oneFingerThreshold * (1.0 - s.pref.hysteresis)) = true := by
        obtain ⟨-, t, ht, -, hhigh⟩ := h.represents
        rw [RoundedDouble.lt_iff (represents_pressure p) ht, not_lt]
        rw [hone] at hhigh
        exact hhigh.trans (by exact_mod_cast Nat.zero_le _)
      have hiff (hz : p.pressureZ = 0) := h.numFingers_eq_zero_iff hw hone hz
      constructor
      · intro hsees
        refine .inr ?_
        by_cases hz : p.pressureZ = 0
        · exact .inr ((hiff hz).mp (hsees.zero hz))
        · exact .inl hz
      · rintro (hpositive | hz | hthree)
        · exact absurd hone hpositive
        · exact ⟨fun h => absurd h hz, fun h => absurd h hnotLight⟩
        · exact ⟨fun hz => (hiff hz).mpr hthree, fun h => absurd h hnotLight⟩
    · refine iff_of_true ⟨fun hz => ?_, fun hlt => ?_⟩ (.inl hone)
      · exact numFingers_eq_zero hw h.fingers (h.reportsNoFinger hone (.inl hz))
      · exact numFingers_eq_zero hw h.fingers (h.reportsNoFinger hone (.inr hlt))

/-- In every state that the driver can get into, with every pad and whatever preferences it
has been sent, it sees the lift in exactly the packets for which `LiftSeen` holds. -/
theorem seesLift_iff {capabilities : UInt16} {extendedCapabilities : UInt32} {scaleFactor : D}
    {as : List Action} {s : SynapticsTouchPad D}
    (hrun : run step (start capabilities extendedCapabilities scaleFactor) as = some s)
    (p : Packet) : s.SeesLift p ↔ s.LiftSeen (oneFingerPreference as) p :=
  (run_tuned (start_tuned _ _ _) hrun).liftSeen_iff p

/-- The preference 11 is within the range of the pane, the preference 25 is not. -/
def tuned (preference : UInt32) : ParamProperties :=
  { scrollMode := none, horizScroll := none, scrollArea := none, gestureMode := none
    tapToClick := none, draggin := none, dragLock := none, secondaryClick := none
    swapButtons := none, oneFingerThreshold := some preference, twoFingerThreshold := none
    threeFingerThreshold := none, scrollSpeed := none, trackSpeed := none, clickDelay := none
    releaseDelay := none }

/-- No pressure, and a W value that a finger may have. -/
def noPressure : Packet := ⟨#v[0x90, 0, 0, 0xC0, 0, 0], 0, 0⟩

theorem tunedPad_seesLift :
    ((start 0x8000 0 (1 : ℚ)).setParamProperties (tuned 11)).SeesLift noPressure := by
  have hrun : run step (start 0x8000 0 (1 : ℚ)) [.setParamProperties (tuned 11)] =
    some ((start 0x8000 0 1).setParamProperties (tuned 11)) := rfl
  exact (seesLift_iff hrun noPressure).mpr (.inl ⟨by decide, by decide⟩)

/-- A pad without W mode, and a pad whose threshold has wrapped to zero. -/
theorem noPressure_not_seesLift :
    ¬ (start 0 0 (1 : ℚ)).SeesLift noPressure ∧
      ¬ ((start 0x8000 0 (1 : ℚ)).setParamProperties (tuned 25)).SeesLift noPressure := by
  constructor
  · intro h
    exact absurd (h.zero rfl) (by decide)
  · intro h
    have hpad := (start_tuned (D := ℚ) 0x8000 0 1).setParamProperties (tuned 25)
    have hiff := hpad.numFingers_eq_zero_iff (p := noPressure) (by decide) (by decide) rfl
    exact absurd (hiff.mp (h.zero rfl)).1 (by decide)

end SynapticsTouchPad
end TouchPad
