import NetbookInstaller.TouchPad.Buttons
import Mathlib.Tactic.IntervalCases

/-! The finger count on a touch that does not change. It is made from the count before it
and from comparisons that come out the same for every packet. -/
namespace TouchPad

open Transition

/-- What the comparisons of a packet in W mode say. The reduced ones are those with the
hysteresis; `narrow` is a W value below 12. -/
structure Comparisons where
  belowOne : Bool
  belowOneReduced : Bool
  belowTwo : Bool
  belowTwoReduced : Bool
  belowThree : Bool
  belowThreeReduced : Bool
  button : Bool
  narrow : Bool
  deriving DecidableEq, Repr

namespace Comparisons

/-- The ladder of a count. -/
def rung (c : Comparisons) : ℕ → ℕ
  | 0 =>
    if c.belowOne then 0 else if c.belowTwo || c.button then 1 else if c.belowThree then 2 else 3
  | 1 =>
    if c.belowOneReduced then 0
    else if c.belowTwo || c.button then 1 else if c.belowThree then 2 else 3
  | 2 =>
    if c.belowOneReduced then 0
    else if c.belowTwoReduced || c.button then 1 else if c.belowThree then 2 else 3
  | 3 =>
    if c.belowOneReduced then 0
    else if c.belowTwoReduced || c.button then 1
    else if c.narrow || c.belowThreeReduced then 2 else 3
  | _ => 4

/-- What holds of the comparisons if the thresholds are positive and in order, and the
hysteresis takes a part of each away. -/
structure Ordered (c : Comparisons) : Prop where
  one : c.belowOneReduced = true → c.belowOne = true
  two : c.belowTwoReduced = true → c.belowTwo = true
  three : c.belowThreeReduced = true → c.belowThree = true
  twoThree : c.belowTwo = true → c.belowThree = true
  twoThreeReduced : c.belowTwoReduced = true → c.belowThreeReduced = true

/-- The touch counts as three fingers, unless it did so before. -/
def Alternates (c : Comparisons) (prev : ℕ) : Prop :=
  c.narrow = true ∧ c.button = false ∧ c.belowThree = false ∧
    (if prev = 0 then c.belowOne else c.belowOneReduced) = false

end Comparisons

/-- What the gesture mode makes of three fingers. -/
def remapped (gestureMode : UInt8) (fingers : ℕ) : ℕ :=
  if fingers = 3 then
    if gestureMode = GESTURE_MODE_NONE then 0
    else if gestureMode = GESTURE_MODE_SCROLL then 2
    else 3
  else fingers

def keepsThree (gestureMode : UInt8) : Prop :=
  gestureMode ≠ GESTURE_MODE_NONE ∧ gestureMode ≠ GESTURE_MODE_SCROLL

theorem remapped_of_le {gestureMode : UInt8} {n : ℕ} (hn : n ≤ 2) : remapped gestureMode n = n :=
  if_neg (by omega)

theorem remapped_three {gestureMode : UInt8} :
    remapped gestureMode 3 = 3 ∧ keepsThree gestureMode ∨
      remapped gestureMode 3 ≤ 2 ∧ ¬ keepsThree gestureMode := by
  unfold remapped keepsThree
  rw [if_pos rfl]
  split_ifs with hnone hscroll
  · exact .inr ⟨by omega, fun h => h.1 hnone⟩
  · exact .inr ⟨by omega, fun h => h.2 hscroll⟩
  · exact .inl ⟨rfl, hnone, hscroll⟩

namespace Comparisons

variable {c : Comparisons} {gestureMode : UInt8}

/-- A touch that is light for every count. -/
theorem rung_light (hc : c.Ordered) (hone : c.belowOneReduced = true) {n : ℕ} (hn : n ≤ 3) :
    c.rung n = 0 := by
  have hbelow := hc.one hone
  interval_cases n <;> simp [rung, hone, hbelow]

/-- A touch that three fingers do not make: a count below three stays after one packet. -/
theorem rung_low (hc : c.Ordered) (hone : c.belowOneReduced = false)
    (hlow : c.button = true ∨ c.belowThree = true) {n : ℕ} (hn : n ≤ 2) :
    c.rung n ≤ 2 ∧ c.rung (c.rung n) = c.rung n := by
  have htwo := hc.two
  rcases hlow with hbutton | hthree
  · interval_cases n <;> simp [rung, hone, hbutton]
    cases c.belowOne <;> simp
  · interval_cases n
    · cases hbelow : c.belowOne <;> cases htwo' : c.belowTwo <;> cases hbutton : c.button <;>
        cases hreduced : c.belowTwoReduced <;> simp_all [rung]
    · cases htwo' : c.belowTwo <;> cases hbutton : c.button <;>
        cases hreduced : c.belowTwoReduced <;> simp_all [rung]
    · cases hbutton : c.button <;> cases hreduced : c.belowTwoReduced <;> simp_all [rung]

/-- A touch that three fingers make. A narrow one does not after a count of three. -/
theorem rung_high (hc : c.Ordered) (hone : c.belowOneReduced = false) (hbutton : c.button = false)
    (hthree : c.belowThree = false) :
    c.rung 0 = (if c.belowOne then 0 else 3) ∧ c.rung 1 = 3 ∧ c.rung 2 = 3 ∧
      c.rung 3 = if c.narrow then 2 else 3 := by
  have htwo : c.belowTwo = false := by
    rw [← Bool.not_eq_true]
    intro h
    rw [hc.twoThree h] at hthree
    cases hthree
  have htwoReduced : c.belowTwoReduced = false := by
    rw [← Bool.not_eq_true]
    intro h
    rw [hc.two h] at htwo
    cases htwo
  have hthreeReduced : c.belowThreeReduced = false := by
    rw [← Bool.not_eq_true]
    intro h
    rw [hc.three h] at hthree
    cases hthree
  simp [rung, hone, hbutton, hthree, htwo, htwoReduced, hthreeReduced]

theorem rung_le (c : Comparisons) {n : ℕ} (hn : n ≤ 3) : c.rung n ≤ 3 := by
  interval_cases n <;> simp only [rung] <;> split_ifs <;> omega

/-- The finger count after a count of `n`. -/
def count (c : Comparisons) (gestureMode : UInt8) (n : ℕ) : ℕ := remapped gestureMode (c.rung n)

theorem count_le (c : Comparisons) (gestureMode : UInt8) {n : ℕ} (hn : n ≤ 3) :
    c.count gestureMode n ≤ 3 := by
  have hrung := c.rung_le hn
  unfold count remapped
  split_ifs <;> omega

/-- Below the rungs of three fingers the second count is a fixed point. -/
theorem count_low (hc : c.Ordered) (hone : c.belowOneReduced = false)
    (hlow : c.button = true ∨ c.belowThree = true) {n : ℕ} (hn : n ≤ 3) :
    c.count gestureMode (c.count gestureMode (c.count gestureMode n)) =
      c.count gestureMode (c.count gestureMode n) := by
  have hfixed {m : ℕ} (hm : m ≤ 2) :
      c.count gestureMode (c.count gestureMode m) = c.count gestureMode m := by
    obtain ⟨hle, hrung⟩ := rung_low hc hone hlow hm
    have hcount : c.count gestureMode m = c.rung m := remapped_of_le hle
    rw [hcount, count, hrung, remapped_of_le hle]
  rcases Nat.lt_or_ge (c.count gestureMode n) 3 with hlt | hge
  · exact hfixed (Nat.le_of_lt_succ hlt)
  · have hthree : c.count gestureMode n = 3 := Nat.le_antisymm (c.count_le gestureMode hn) hge
    have hn3 : n = 3 := by
      by_contra hne
      obtain ⟨hle, -⟩ := rung_low hc hone hlow (n := n) (by omega)
      rw [count, remapped_of_le hle] at hthree
      omega
    subst hn3
    simp only [hthree]

/-- Above the rungs of three fingers the count goes back and forth if it is kept and W is
narrow. -/
theorem count_high (hc : c.Ordered) (hone : c.belowOneReduced = false) (hbutton : c.button = false)
    (hthree : c.belowThree = false) {n : ℕ} (hn : n ≤ 3) :
    c.count gestureMode (c.count gestureMode (c.count gestureMode n)) =
        c.count gestureMode (c.count gestureMode n) ↔
      ¬ (keepsThree gestureMode ∧ c.narrow = true ∧ (n = 0 → c.belowOne = false)) := by
  obtain ⟨h0, h1, h2, h3⟩ := rung_high hc hone hbutton hthree
  have hcount0 : c.count gestureMode 0 = if c.belowOne then 0 else remapped gestureMode 3 := by
    rw [count, h0]
    split
    · exact remapped_of_le (by omega)
    · rfl
  have hcount1 : c.count gestureMode 1 = remapped gestureMode 3 := by rw [count, h1]
  have hcount2 : c.count gestureMode 2 = remapped gestureMode 3 := by rw [count, h2]
  have hcount3 : c.count gestureMode 3 = if c.narrow then 2 else remapped gestureMode 3 := by
    rw [count, h3]
    split
    · exact remapped_of_le (by omega)
    · rfl
  rcases @remapped_three gestureMode with ⟨hthree, hkeeps⟩ | ⟨htwo, hkeeps⟩
  · rw [hthree] at hcount0 hcount1 hcount2 hcount3
    interval_cases n <;> cases hbelow : c.belowOne <;> cases hnarrow : c.narrow <;>
      simp [hcount0, hcount1, hcount2, hcount3, hkeeps, hbelow, hnarrow]
  · generalize remapped gestureMode 3 = t at htwo hcount0 hcount1 hcount2 hcount3
    refine iff_of_true ?_ fun h => hkeeps h.1
    interval_cases n <;> interval_cases t <;> cases hbelow : c.belowOne <;>
      cases hnarrow : c.narrow <;> simp [hcount0, hcount1, hcount2, hcount3, hbelow, hnarrow]

/-- The count on an unchanging touch stands still from the second one on, unless it
alternates. -/
theorem count_settles_iff (hc : c.Ordered) {n : ℕ} (hn : n ≤ 3) :
    c.count gestureMode (c.count gestureMode (c.count gestureMode n)) =
        c.count gestureMode (c.count gestureMode n) ↔
      ¬ (keepsThree gestureMode ∧ c.Alternates n) := by
  cases hone : c.belowOneReduced with
  | true =>
    have hcount {m : ℕ} (hm : m ≤ 3) : c.count gestureMode m = 0 := by
      rw [count, rung_light hc hone hm, remapped_of_le (by omega)]
    refine iff_of_true ?_ ?_
    · rw [hcount hn, hcount (Nat.zero_le 3), hcount (Nat.zero_le 3)]
    · rintro ⟨-, -, -, -, habove⟩
      rw [hone, hc.one hone, ite_self] at habove
      cases habove
  | false =>
    by_cases hlow : c.button = true ∨ c.belowThree = true
    · refine iff_of_true (count_low hc hone hlow hn) ?_
      rintro ⟨-, -, hbutton, hthree, -⟩
      rw [hbutton, hthree] at hlow
      simp at hlow
    · rw [not_or, Bool.not_eq_true, Bool.not_eq_true] at hlow
      rw [count_high hc hone hlow.1 hlow.2 hn, Alternates]
      have habove : (if n = 0 then c.belowOne else c.belowOneReduced) = false ↔
          (n = 0 → c.belowOne = false) := by
        rw [hone]
        split <;> simp_all
      rw [habove]
      simp [hlow]

end Comparisons
/-- The same W, Z and buttons, as the driver reads them. -/
structure SynapticsTouchPad.SameTouch {D : Type} (s : SynapticsTouchPad D) (p q : Packet) : Prop where
  wValue : p.wValue s.wMode = q.wValue s.wMode
  pressureZ : p.pressureZ = q.pressureZ
  buttons : p.buttons s.pref.swapButtons = q.buttons s.pref.swapButtons

namespace SynapticsTouchPad

section Counts
variable {D : Type} [Double D]

/-- The driver after the first `k` packets. -/
def after (s : SynapticsTouchPad D) (p : ℕ → Packet) : ℕ → SynapticsTouchPad D
  | 0 => s
  | k + 1 => (s.after p k).dispatchRelativePointerEventWithAbsolutePacket (p k)

/-- The fingers of packet `k`. -/
def fingerCount (s : SynapticsTouchPad D) (p : ℕ → Packet) (k : ℕ) : ℕ :=
  (s.after p k).numFingers (p k)

/-- The fingers that a packet would have after a count of `n`. -/
def countAfter (s : SynapticsTouchPad D) (p : Packet) (n : ℕ) : ℕ :=
  { s with prevNumFingers := n }.numFingers p

theorem countAfter_remapped (s : SynapticsTouchPad D) (p : Packet) (n : ℕ) :
    s.countAfter p n =
      remapped s.pref.gestureMode ({ s with prevNumFingers := n }.fingers p) := rfl

theorem after_kept (s : SynapticsTouchPad D) (p : ℕ → Packet) (k : ℕ) :
    (s.after p k).touchPadModeByte = s.touchPadModeByte ∧
      (s.after p k).capabilities = s.capabilities ∧ (s.after p k).pref = s.pref := by
  induction k with
  | zero => exact ⟨rfl, rfl, rfl⟩
  | succ k ih =>
    have hcarries := packet_carries (s.after p k) (p k)
    obtain ⟨hmode, hcapabilities, hpref⟩ := ih
    exact ⟨hcarries.touchPadModeByte.trans hmode, hcarries.capabilities.trans hcapabilities,
      hcarries.pref.trans hpref⟩

/-- The count depends on the touch and on the count before it, as long as the mode and the
preferences stay. -/
theorem numFingers_congr {s t : SynapticsTouchPad D} {p q : Packet}
    (hmode : t.touchPadModeByte = s.touchPadModeByte) (hcapabilities : t.capabilities = s.capabilities)
    (hpref : t.pref = s.pref) (hsame : s.SameTouch p q) :
    t.numFingers p = s.countAfter q t.prevNumFingers := by
  have hw : t.wMode = s.wMode := by rw [wMode, hmode, wMode]
  have hmulti : t.capMultifinger = s.capMultifinger := by
    rw [capMultifinger, hcapabilities, capMultifinger]
  have hfingers : t.fingers p = { s with prevNumFingers := t.prevNumFingers }.fingers q := by
    unfold fingers
    rw [hw, hmulti, hpref, hsame.wValue, hsame.pressureZ, hsame.buttons]
    rfl
  rw [numFingers, hfingers, hpref]
  rfl

theorem fingerCount_zero {s : SynapticsTouchPad D} {p : ℕ → Packet} :
    s.fingerCount p 0 = s.countAfter (p 0) s.prevNumFingers := rfl

theorem fingerCount_succ {s : SynapticsTouchPad D} {p : ℕ → Packet}
    (hsame : ∀ k, s.SameTouch (p k) (p 0)) (k : ℕ) :
    s.fingerCount p (k + 1) = s.countAfter (p 0) (s.fingerCount p k) := by
  obtain ⟨hmode, hcapabilities, hpref⟩ := s.after_kept p (k + 1)
  have hcarries := packet_carries (s.after p k) (p k)
  have hprev : (s.after p (k + 1)).prevNumFingers = s.fingerCount p k := hcarries.numFingers
  rw [fingerCount, numFingers_congr hmode hcapabilities hpref (hsame (k + 1)), hprev]

end Counts

/-- Positive thresholds in order, and a hysteresis that takes a part of them away. -/
structure Thresholds (pref : Prefs ℚ) : Prop where
  one : 0 < pref.oneFingerThreshold
  two : 0 < pref.twoFingerThreshold
  twoThree : pref.twoFingerThreshold ≤ pref.threeFingerThreshold
  nonneg : 0 ≤ pref.hysteresis
  ltOne : pref.hysteresis < 1

variable {s : SynapticsTouchPad ℚ} {p : Packet}

/-- The comparisons of a packet in W mode. -/
def comparisons (s : SynapticsTouchPad ℚ) (p : Packet) : Comparisons :=
  let z : ℚ := (p.pressureZ.toNat : ℤ)
  let wz : ℚ := ((p.wValue true).toNat * p.pressureZ.toNat : ℤ)
  let factor := 1 - s.pref.hysteresis
  { belowOne := z < s.pref.oneFingerThreshold
    belowOneReduced := z < s.pref.oneFingerThreshold * factor
    belowTwo := wz < s.pref.twoFingerThreshold
    belowTwoReduced := wz < s.pref.twoFingerThreshold * factor
    belowThree := wz < s.pref.threeFingerThreshold
    belowThreeReduced := wz < s.pref.threeFingerThreshold * factor
    button := p.buttons s.pref.swapButtons != 0
    narrow := p.wValue true < 12 }

theorem comparisons_ordered (ht : Thresholds s.pref) : (s.comparisons p).Ordered := by
  have hfactor : 1 - s.pref.hysteresis ≤ 1 := by linarith [ht.nonneg]
  have hpos : 0 ≤ 1 - s.pref.hysteresis := by linarith [ht.ltOne]
  have hone := mul_le_of_le_one_right ht.one.le hfactor
  have htwo := mul_le_of_le_one_right ht.two.le hfactor
  have hthree := mul_le_of_le_one_right (ht.two.le.trans ht.twoThree) hfactor
  have htwoThree := mul_le_mul_of_nonneg_right ht.twoThree hpos
  refine ⟨?_, ?_, ?_, ?_, ?_⟩ <;> simp only [comparisons, decide_eq_true_eq] <;> intro h
  · exact h.trans_le hone
  · exact h.trans_le htwo
  · exact h.trans_le hthree
  · exact h.trans_le ht.twoThree
  · exact h.trans_le htwoThree

theorem countAfter_eq (hw : s.wMode = true) (hmulti : s.capMultifinger = false) {n : ℕ}
    (hn : n ≤ 3) : s.countAfter p n = (s.comparisons p).count s.pref.gestureMode n := by
  have hfingers : { s with prevNumFingers := n }.fingers p = (s.comparisons p).rung n := by
    have hw' : { s with prevNumFingers := n }.wMode = true := hw
    have hmulti' : { s with prevNumFingers := n }.capMultifinger = false := hmulti
    have hone : (1.0 : ℚ) = 1 := by norm_num
    unfold fingers
    rw [hw', hmulti', hone]
    interval_cases n <;> rfl
  rw [countAfter_remapped, hfingers, Comparisons.count]

/-- The touch is a narrow one of three fingers, on a pad that tells them by W and Z alone and
with a gesture mode that leaves them alone. -/
structure Alternates (s : SynapticsTouchPad ℚ) (p : Packet) : Prop where
  wMode : s.wMode = true
  single : s.capMultifinger = false
  keeps : keepsThree s.pref.gestureMode
  narrow : p.wValue true < 12
  button : p.buttons s.pref.swapButtons = 0
  three : s.pref.threeFingerThreshold ≤ (p.wValue true).toNat * p.pressureZ.toNat
  one : (if s.prevNumFingers = 0 then s.pref.oneFingerThreshold
    else s.pref.oneFingerThreshold * (1 - s.pref.hysteresis)) ≤ p.pressureZ.toNat

theorem alternates_iff (hw : s.wMode = true) (hmulti : s.capMultifinger = false) :
    s.Alternates p ↔ keepsThree s.pref.gestureMode ∧
      (s.comparisons p).Alternates s.prevNumFingers := by
  have habove : (if s.prevNumFingers = 0 then (s.comparisons p).belowOne
      else (s.comparisons p).belowOneReduced) = false ↔
      (if s.prevNumFingers = 0 then s.pref.oneFingerThreshold
        else s.pref.oneFingerThreshold * (1 - s.pref.hysteresis)) ≤ p.pressureZ.toNat := by
    split <;> simp [comparisons]
  have hthree : (s.comparisons p).belowThree = false ↔
      s.pref.threeFingerThreshold ≤ (p.wValue true).toNat * p.pressureZ.toNat := by
    simp [comparisons]
  rw [Comparisons.Alternates, habove, hthree]
  constructor
  · intro h
    exact ⟨h.keeps, decide_eq_true h.narrow, by simp [comparisons, h.button], h.three, h.one⟩
  · rintro ⟨hkeeps, hnarrow, hbutton, hthree, hone⟩
    exact ⟨hw, hmulti, hkeeps, of_decide_eq_true hnarrow, by simpa [comparisons] using hbutton,
      hthree, hone⟩

/-- Where the count before a packet does not matter, the count stands still at once. -/
theorem countAfter_const (h : ¬ (s.wMode = true ∧ s.capMultifinger = false)) (m n : ℕ) :
    s.countAfter p m = s.countAfter p n := by
  have hfingers (k : ℕ) : { s with prevNumFingers := k }.fingers p = s.fingers p := by
    have hw' : { s with prevNumFingers := k }.wMode = s.wMode := rfl
    have hmulti' : { s with prevNumFingers := k }.capMultifinger = s.capMultifinger := rfl
    unfold fingers
    rw [hw', hmulti']
    cases hw : s.wMode with
    | false => rfl
    | true =>
      have hmulti : s.capMultifinger = true := by
        rw [← Bool.not_eq_false]
        exact fun hfalse => h ⟨hw, hfalse⟩
      rw [hmulti]
      rfl
  rw [countAfter_remapped, countAfter_remapped, hfingers m, hfingers n]

/-- On a touch that does not change, the finger count stands still from the second packet on
in exactly the cases in which it does not alternate between two and three. -/
theorem fingerCount_settles_iff (ht : Thresholds s.pref) (hprev : s.prevNumFingers ≤ 3)
    {p : ℕ → Packet} (hsame : ∀ k, s.SameTouch (p k) (p 0)) :
    (∀ k, 1 ≤ k → s.fingerCount p k = s.fingerCount p 1) ↔ ¬ s.Alternates (p 0) := by
  rw [constant_from_iff (fingerCount_succ hsame), fingerCount_succ hsame, fingerCount_zero]
  by_cases hsingle : s.wMode = true ∧ s.capMultifinger = false
  · obtain ⟨hw, hmulti⟩ := hsingle
    have hcount {n : ℕ} (hn : n ≤ 3) : s.countAfter (p 0) n =
        (s.comparisons (p 0)).count s.pref.gestureMode n := countAfter_eq hw hmulti hn
    have hle {n : ℕ} (hn : n ≤ 3) :=
      Comparisons.count_le (s.comparisons (p 0)) s.pref.gestureMode hn
    rw [hcount hprev, hcount (hle hprev), hcount (hle (hle hprev)), alternates_iff hw hmulti]
    exact Comparisons.count_settles_iff (comparisons_ordered ht) hprev
  · exact iff_of_true (countAfter_const hsingle _ _) fun h => hsingle ⟨h.wMode, h.single⟩

/-- A pad in W mode without the capability, with the default thresholds. -/
def pad (gestureMode : UInt8) : SynapticsTouchPad ℚ :=
  let s := start 0x8000 0 1
  { s with pref := { s.pref with gestureMode } }

/-- Pressure 200 and, at a W value of 8, a touch above the threshold for three fingers. -/
def touch : Packet := ⟨#v[0xA0, 0, 200, 0xC0, 0, 0], 0, 0⟩

theorem pad_thresholds (gestureMode : UInt8) : Thresholds (pad gestureMode).pref := by
  refine ⟨?_, ?_, ?_, ?_, ?_⟩
  · show (0 : ℚ) < (30 : ℤ)
    norm_num
  · show (0 : ℚ) < 250.0
    norm_num
  · show (250.0 : ℚ) ≤ 650.0
    norm_num
  · show (0 : ℚ) ≤ 0.08
    norm_num
  · show (0.08 : ℚ) < 1
    norm_num

/-- With the default gesture mode three fingers count as two, again and again. -/
theorem defaultPad_settles : ¬ (pad GESTURE_MODE_SCROLL).Alternates touch ∧
    ∀ k, 1 ≤ k → (pad GESTURE_MODE_SCROLL).fingerCount (fun _ => touch) k =
      (pad GESTURE_MODE_SCROLL).fingerCount (fun _ => touch) 1 := by
  have hsteady : ¬ (pad GESTURE_MODE_SCROLL).Alternates touch := fun h => h.keeps.2 rfl
  have hiff := fingerCount_settles_iff (s := pad GESTURE_MODE_SCROLL) (p := fun _ => touch)
    (pad_thresholds _) (by decide) fun _ => ⟨rfl, rfl, rfl⟩
  exact ⟨hsteady, hiff.mpr hsteady⟩

/-- The touch is above all thresholds, but narrow. -/
theorem touch_comparisons (gestureMode : UInt8) : (pad gestureMode).comparisons touch =
    ⟨false, false, false, false, false, false, false, true⟩ := by
  have hone : ¬ ((200 : ℤ) : ℚ) < (30 : ℤ) := by norm_num
  have honeReduced : ¬ ((200 : ℤ) : ℚ) < (30 : ℤ) * (1 - 0.08) := by norm_num
  have htwo : ¬ ((8 * 200 : ℤ) : ℚ) < 250.0 := by norm_num
  have htwoReduced : ¬ ((8 * 200 : ℤ) : ℚ) < 250.0 * (1 - 0.08) := by norm_num
  have hthree : ¬ ((8 * 200 : ℤ) : ℚ) < 650.0 := by norm_num
  have hthreeReduced : ¬ ((8 * 200 : ℤ) : ℚ) < 650.0 * (1 - 0.08) := by norm_num
  refine (Comparisons.mk.injEq ..).mpr ⟨?_, ?_, ?_, ?_, ?_, ?_, rfl, rfl⟩
  · exact decide_eq_false hone
  · exact decide_eq_false honeReduced
  · exact decide_eq_false htwo
  · exact decide_eq_false htwoReduced
  · exact decide_eq_false hthree
  · exact decide_eq_false hthreeReduced

/-- With a gesture mode that leaves three fingers alone the count is three, two, three. -/
theorem gesturePad_alternates : ¬ ∀ k, 1 ≤ k →
    (pad 2).fingerCount (fun _ => touch) k = (pad 2).fingerCount (fun _ => touch) 1 := by
  have hsucc := fingerCount_succ (s := pad 2) (p := fun _ => touch) fun _ => ⟨rfl, rfl, rfl⟩
  have hcount {n : ℕ} (hn : n ≤ 3) : (pad 2).countAfter touch n = _ := countAfter_eq rfl rfl hn
  rw [touch_comparisons] at hcount
  have hzero : (pad 2).countAfter touch 0 = 3 := hcount (by omega)
  have hthree : (pad 2).countAfter touch 3 = 2 := hcount (by omega)
  have htwo : (pad 2).countAfter touch 2 = 3 := hcount (by omega)
  intro h
  have hsame := h 2 (by omega)
  rw [hsucc, hsucc, fingerCount_zero] at hsame
  rw [show (pad 2).prevNumFingers = 0 from rfl, hzero, hthree, htwo] at hsame
  cases hsame

end SynapticsTouchPad
end TouchPad
