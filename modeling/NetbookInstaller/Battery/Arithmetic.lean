import NetbookInstaller.Battery.History
import Mathlib.Data.Nat.Bitwise

/-! The numbers that the battery device publishes, against the same numbers without a bound. -/
namespace Battery

open AppleACPIBatteryDevice

/-- The rate of a report; the bits of a negative number stand for its amount. -/
def decodedRate (p : BST) : UInt32 :=
  if p.presentRate &&& 0x8000 ≠ 0 then 0xFFFF - p.presentRate else p.presentRate

/-- A rate of 0 is taken for half of the capacity. -/
def reportedRate (maxCapacity : UInt32) (p : BST) : UInt32 :=
  if decodedRate p = 0 then maxCapacity / 2 else decodedRate p

def Discharging (p : BST) : Prop := p.state &&& BATTERY_DISCHARGING ≠ 0
def Charging (p : BST) : Prop := p.state &&& BATTERY_CHARGING ≠ 0

instance (p : BST) : Decidable (Discharging p) := inferInstanceAs (Decidable (_ ≠ _))
instance (p : BST) : Decidable (Charging p) := inferInstanceAs (Decidable (_ ≠ _))

/-- A battery that neither charges nor discharges counts as full. -/
def shownCapacity (maxCapacity : UInt32) (p : BST) : UInt32 :=
  if Discharging p ∨ Charging p then p.remainingCapacity else maxCapacity

/-- Minutes until a capacity is used up or loaded, of any size. -/
def exactMinutes (capacity rate : ℕ) : ℕ := if rate ≠ 0 then 60 * capacity / rate else 0xffff

/-- The published times. -/
structure Times where
  timeRemaining : ℕ
  averageTimeToEmpty : Option ℕ
  averageTimeToFull : Option ℕ
  instantTimeToEmpty : Option ℕ
  instantTimeToFull : Option ℕ
  deriving DecidableEq, Repr

def Properties.times (q : Properties) : Times where
  timeRemaining := q.timeRemaining.toNat
  averageTimeToEmpty := q.averageTimeToEmpty.map UInt32.toNat
  averageTimeToFull := q.averageTimeToFull.map UInt32.toNat
  instantTimeToEmpty := q.instantTimeToEmpty.map UInt32.toNat
  instantTimeToFull := q.instantTimeToFull.map UInt32.toNat

/-- The times of a battery that discharges. -/
def emptyTimes (capacity average rate : ℕ) : Times where
  timeRemaining := exactMinutes capacity average
  averageTimeToEmpty := some (exactMinutes capacity average)
  averageTimeToFull := some 0xffff
  instantTimeToEmpty := some (exactMinutes capacity rate)
  instantTimeToFull := some 0xffff

/-- The times of a battery that lacks some capacity and is charging. -/
def fullTimes (capacity average rate : ℕ) : Times where
  timeRemaining := exactMinutes capacity average
  averageTimeToEmpty := some 0xffff
  averageTimeToFull := some (exactMinutes capacity average)
  instantTimeToEmpty := some 0xffff
  instantTimeToFull := some (exactMinutes capacity rate)

/-- All five times at one value. -/
def allTimes (minutes : ℕ) : Times :=
  ⟨minutes, some minutes, some minutes, some minutes, some minutes⟩

/-- Each rate counts as much as all before it together. -/
def decayingMean (rates : List ℕ) : ℕ :=
  rates.foldl (fun average rate => if average ≠ 0 then (average + rate) / 2 else rate) 0

/-- The rates since the last change of the status, without that of the report that changes it. -/
def ratesSince (maxCapacity status : UInt32) (rates : List ℕ) : List BST → List ℕ
  | [] => rates
  | p :: ps =>
    if p.state = status then
      ratesSince maxCapacity status (rates ++ [(reportedRate maxCapacity p).toNat]) ps
    else ratesSince maxCapacity p.state [] ps

/-- What a device publishes after a report, while the products and differences that it
forms fit a word. -/
structure ExactReport (maxCapacity : UInt32) (overridden : Bool) (p : BST)
    (u : AppleACPIBatteryDevice) : Prop where
  decoded : p.presentRate &&& 0x8000 ≠ 0 → p.presentRate.toNat ≤ 0xFFFF →
    (decodedRate p).toNat = 0xFFFF - p.presentRate.toNat ∧ (decodedRate p).toNat ≤ 0x7FFF
  discharges : Discharging p → ¬ Charging p → u.properties.amperage = -u.averageRate
  discharging : Discharging p → ¬ Charging p → 60 * p.remainingCapacity.toNat < 2 ^ 32 →
    u.properties.times = emptyTimes p.remainingCapacity.toNat u.averageRate.toNat
      (reportedRate maxCapacity p).toNat
  charges : ¬ Discharging p → Charging p → u.properties.amperage = u.averageRate
  charging : ¬ Discharging p → Charging p →
    p.remainingCapacity.toNat ≤ maxCapacity.toNat →
    60 * (maxCapacity.toNat - p.remainingCapacity.toNat) < 2 ^ 32 →
    u.properties.times = fullTimes (maxCapacity.toNat - p.remainingCapacity.toNat)
      u.averageRate.toNat (reportedRate maxCapacity p).toNat
  charged : ¬ Discharging p → ¬ Charging p → u.properties.times = allTimes 0xffff
  broken : Discharging p → Charging p → u.properties.times = allTimes 0
  quickPoll : overridden = false → maxCapacity ≠ 0 →
    100 * (shownCapacity maxCapacity p).toNat < 2 ^ 32 →
    u.properties.quickPoll = some (decide
      (100 * (shownCapacity maxCapacity p).toNat / maxCapacity.toNat < 5 ∧
        (Discharging p → Charging p)))

section Words
variable {x capacity : UInt32}

theorem le_of_sign (h : x &&& 0x8000 ≠ 0) : 0x8000 ≤ x.toNat := by
  by_contra hlt
  apply h
  rw [← UInt32.toNat_inj, UInt32.toNat_and]
  show x.toNat &&& 2 ^ 15 = 0
  rw [Nat.and_two_pow, Nat.testBit_lt_two_pow (by omega)]
  rfl

theorem decodedRate_sign {p : BST} (h : p.presentRate &&& 0x8000 ≠ 0)
    (hword : p.presentRate.toNat ≤ 0xFFFF) :
    (decodedRate p).toNat = 0xFFFF - p.presentRate.toNat ∧ (decodedRate p).toNat ≤ 0x7FFF := by
  have hsign := le_of_sign h
  have hsub : (0xFFFF - p.presentRate).toNat = 0xFFFF - p.presentRate.toNat :=
    UInt32.toNat_sub_of_le _ _ (UInt32.le_iff_toNat_le.mpr hword)
  rw [decodedRate, if_pos h, hsub]
  omega

theorem toNat_mul_of_lt {factor : UInt32} (h : factor.toNat * x.toNat < 2 ^ 32) :
    (factor * x).toNat = factor.toNat * x.toNat := by
  rw [UInt32.toNat_mul, Nat.mod_eq_of_lt h]

theorem toNat_minutes (rate : UInt32) (h : 60 * capacity.toNat < 2 ^ 32) :
    (minutes capacity rate).toNat = exactMinutes capacity.toNat rate.toNat := by
  unfold minutes exactMinutes
  by_cases hrate : rate = 0
  · rw [if_neg (not_not.mpr hrate), if_neg (by simp [hrate])]
    rfl
  · have hne : rate.toNat ≠ 0 := by
      intro hzero
      exact hrate (UInt32.toNat_inj.mp hzero)
    have hproduct : (60 * capacity).toNat = 60 * capacity.toNat := toNat_mul_of_lt h
    rw [if_pos hrate, if_pos hne, UInt32.toNat_div, hproduct]

theorem toNat_missing {maxCapacity : UInt32} (h : capacity.toNat ≤ maxCapacity.toNat) :
    (maxCapacity - capacity).toNat = maxCapacity.toNat - capacity.toNat :=
  UInt32.toNat_sub_of_le _ _ (UInt32.le_iff_toNat_le.mpr h)

end Words

section Report
variable (s : AppleACPIBatteryDevice) (p : BST)

theorem setQuickPoll_times : s.setQuickPoll.properties.times = s.properties.times := by
  unfold setQuickPoll
  split <;> rfl

theorem setBatteryBST_times : (s.setBatteryBST p).properties.times =
    ((s.readStatus p).setState p.state).properties.times := by
  have hbst : (s.setBatteryBST p).properties.times =
      ((s.readStatus p).setState p.state).setQuickPoll.properties.times := by
    unfold AppleACPIBatteryDevice.setBatteryBST
    generalize ((s.readStatus p).setState p.state).setQuickPoll = q
    rfl
  exact hbst.trans (setQuickPoll_times _)

theorem setBatteryBST_averageRate :
    (s.setBatteryBST p).averageRate = (s.readStatus p).averageRate :=
  (setBatteryBST_same s p).averageRate

section Status
variable {p} (t : AppleACPIBatteryDevice)

theorem setState_both (hd : Discharging p) (hc : Charging p) : t.setState p.state =
    (((t.logReadError .permanentFailure).setErrorCondition .permanentFailure).setSupply
      false false true false).setTimes 0 0 0 0 0 0 0 :=
  if_pos ⟨hd, hc⟩

theorem setState_discharging (hd : Discharging p) (hc : ¬ Charging p) : t.setState p.state =
    (t.setSupply false false false false).setTimes (-t.averageRate) (-t.currentRate)
      (minutes t.currentCapacity t.averageRate) (minutes t.currentCapacity t.averageRate) 0xffff
      (minutes t.currentCapacity t.currentRate) 0xffff :=
  (if_neg fun h => hc h.2).trans (if_pos hd)

theorem setState_charging (hd : ¬ Discharging p) (hc : Charging p) : t.setState p.state =
    (t.setSupply false true true true).setTimes t.averageRate t.currentRate
      (minutes (t.maxCapacity - t.currentCapacity) t.averageRate) 0xffff
      (minutes (t.maxCapacity - t.currentCapacity) t.averageRate) 0xffff
      (minutes (t.maxCapacity - t.currentCapacity) t.currentRate) :=
  (if_neg fun h => hd h.1).trans ((if_neg hd).trans (if_pos hc))

theorem setState_charged (hd : ¬ Discharging p) (hc : ¬ Charging p) : t.setState p.state =
    ((t.setSupply true false true true).setTimes 0 0 0xffff 0xffff 0xffff 0xffff
      0xffff).setCurrentCapacity t.maxCapacity :=
  (if_neg fun h => hd h.1).trans ((if_neg hd).trans (if_neg hc))

end Status

/-- The capacity and the connection that the quick poll test sees. -/
theorem setState_poll :
    ((s.readStatus p).setState p.state).currentCapacity = shownCapacity s.maxCapacity p ∧
      ((s.readStatus p).setState p.state).acConnected =
        decide (Discharging p → Charging p) := by
  unfold shownCapacity
  by_cases hd : Discharging p <;> by_cases hc : Charging p
  · rw [setState_both _ hd hc, if_pos (.inl hd), decide_eq_true fun _ => hc]
    exact ⟨rfl, rfl⟩
  · rw [setState_discharging _ hd hc, if_pos (.inl hd), decide_eq_false fun h => hc (h hd)]
    exact ⟨rfl, rfl⟩
  · rw [setState_charging _ hd hc, if_pos (.inr hc), decide_eq_true fun h => absurd h hd]
    exact ⟨rfl, rfl⟩
  · rw [setState_charged _ hd hc, if_neg (not_or.mpr ⟨hd, hc⟩),
      decide_eq_true fun h => absurd h hd]
    exact ⟨rfl, rfl⟩

theorem quickPoll_exact (hoverridden : s.pollingOverridden = false) (hmax : s.maxCapacity ≠ 0)
    (h : 100 * s.currentCapacity.toNat < 2 ^ 32) :
    s.setQuickPoll.properties.quickPoll =
      some (decide (100 * s.currentCapacity.toNat / s.maxCapacity.toNat < 5) && s.acConnected) := by
  have hproduct : (100 * s.currentCapacity).toNat = 100 * s.currentCapacity.toNat :=
    toNat_mul_of_lt h
  have hquotient : 100 * s.currentCapacity / s.maxCapacity < 5 ↔
      100 * s.currentCapacity.toNat / s.maxCapacity.toNat < 5 := by
    rw [UInt32.lt_iff_toNat_lt, UInt32.toNat_div, hproduct]
    rfl
  unfold setQuickPoll
  rw [if_pos (by simp [hoverridden, hmax])]
  simp only [publish, decide_eq_decide.mpr hquotient]

theorem setBatteryBST_quickPoll : (s.setBatteryBST p).properties.quickPoll =
    ((s.readStatus p).setState p.state).setQuickPoll.properties.quickPoll := by
  unfold AppleACPIBatteryDevice.setBatteryBST
  generalize ((s.readStatus p).setState p.state).setQuickPoll = q
  rfl

/-- Every report is published exactly, as far as it fits. -/
theorem setBatteryBST_exact :
    ExactReport s.maxCapacity s.pollingOverridden p (s.setBatteryBST p) where
  decoded := decodedRate_sign
  discharges hd hc := by
    rw [setBatteryBST_amperage, setBatteryBST_averageRate, setState_discharging _ hd hc]
    rfl
  discharging hd hc hcapacity := by
    rw [setBatteryBST_times, setBatteryBST_averageRate, setState_discharging _ hd hc]
    have haverage := toNat_minutes ((s.readStatus p).averageRate) hcapacity
    have hrate := toNat_minutes (reportedRate s.maxCapacity p) hcapacity
    unfold emptyTimes
    rw [← haverage, ← hrate]
    rfl
  charges hd hc := by
    rw [setBatteryBST_amperage, setBatteryBST_averageRate, setState_charging _ hd hc]
    rfl
  charging hd hc hle hcapacity := by
    rw [setBatteryBST_times, setBatteryBST_averageRate, setState_charging _ hd hc]
    have hmissing := toNat_missing hle
    rw [← hmissing] at hcapacity ⊢
    have haverage := toNat_minutes ((s.readStatus p).averageRate) hcapacity
    have hrate := toNat_minutes (reportedRate s.maxCapacity p) hcapacity
    unfold fullTimes
    rw [← haverage, ← hrate]
    rfl
  charged hd hc := by
    rw [setBatteryBST_times, setState_charged _ hd hc]
    rfl
  broken hd hc := by
    rw [setBatteryBST_times, setState_both _ hd hc]
    rfl
  quickPoll hoverridden hmax hcapacity := by
    have hsame := setState_same (s.readStatus p) p.state
    obtain ⟨hcurrent, hconnected⟩ := setState_poll s p
    have hpoll := quickPoll_exact ((s.readStatus p).setState p.state)
      (hsame.pollingOverridden.trans hoverridden) (hsame.maxCapacity ▸ hmax)
      (by rwa [hcurrent])
    rw [setBatteryBST_quickPoll, hpoll, hcurrent, hconnected, hsame.maxCapacity,
      Bool.decide_and]
    rfl

end Report

section Average
variable {maxCapacity status : UInt32} {rates : List ℕ}

theorem decayingMean_append (rates : List ℕ) (rate : ℕ) : decayingMean (rates ++ [rate]) =
    if decayingMean rates ≠ 0 then (decayingMean rates + rate) / 2 else rate := by
  unfold decayingMean
  rw [List.foldl_append]
  rfl

theorem decayingMean_lt {bound : ℕ} (hbound : 0 < bound) (h : ∀ rate ∈ rates, rate < bound) :
    decayingMean rates < bound := by
  induction rates using List.reverseRecOn with
  | nil => exact hbound
  | append_singleton rates rate ih =>
    have hrates := ih fun r hr => h r (List.mem_append_left _ hr)
    have hrate := h rate (List.mem_append_right _ (List.mem_singleton_self rate))
    rw [decayingMean_append]
    split <;> omega

/-- The average rate of a device, if no sum of rates has left the words. -/
structure Averages (maxCapacity status : UInt32) (rates : List ℕ) (s : AppleACPIBatteryDevice) :
    Prop where
  maxCapacity : s.maxCapacity = maxCapacity
  status : s.status = status
  averageRate : (∀ rate ∈ rates, rate < 2 ^ 31) → s.averageRate.toNat = decayingMean rates

variable {s : AppleACPIBatteryDevice}

theorem Averages.same (h : Averages maxCapacity status rates s) {p : BST} (hp : p.state = status) :
    Averages maxCapacity status (rates ++ [(reportedRate maxCapacity p).toNat])
      (s.setBatteryBST p) where
  maxCapacity := (setBatteryBST_same s p).maxCapacity.trans h.maxCapacity
  status := (setBatteryBST_same s p).status.trans hp
  averageRate hrates := by
    have hold := fun r hr => hrates r (List.mem_append_left _ hr)
    have hrate := hrates _ (List.mem_append_right _ (List.mem_singleton_self _))
    have haverage : (s.readStatus p).averageRate =
        if s.averageRate ≠ 0 then (s.averageRate + reportedRate maxCapacity p) / 2
        else reportedRate maxCapacity p := by
      rw [← h.maxCapacity]
      exact if_neg (not_not.mpr (UInt32.xor_eq_zero_iff.mpr (hp.trans h.status.symm)))
    have hmean := h.averageRate hold
    have hlt := decayingMean_lt (by omega) hold
    rw [setBatteryBST_averageRate, haverage, decayingMean_append, ← hmean]
    by_cases hzero : s.averageRate = 0
    · rw [if_neg (not_not.mpr hzero), if_neg (by simp [hzero])]
    · have hne : s.averageRate.toNat ≠ 0 := fun hnat => hzero (UInt32.toNat_inj.mp hnat)
      rw [if_pos hzero, if_pos hne, UInt32.toNat_div, UInt32.toNat_add,
        Nat.mod_eq_of_lt (by omega)]
      rfl

theorem Averages.changed (h : Averages maxCapacity status rates s) {p : BST}
    (hp : p.state ≠ status) : Averages maxCapacity p.state [] (s.setBatteryBST p) where
  maxCapacity := (setBatteryBST_same s p).maxCapacity.trans h.maxCapacity
  status := (setBatteryBST_same s p).status
  averageRate _ := by
    have hchanged : p.state ^^^ s.status ≠ 0 := by
      rw [h.status]
      exact fun hzero => hp (UInt32.xor_eq_zero_iff.mp hzero)
    have haverage : (s.readStatus p).averageRate = 0 := if_pos hchanged
    rw [setBatteryBST_averageRate, haverage]
    rfl

theorem Averages.foldl (h : Averages maxCapacity status rates s) (history : List BST) :
    ∃ status', Averages maxCapacity status' (ratesSince maxCapacity status rates history)
      (history.foldl setBatteryBST s) := by
  induction history generalizing status rates s with
  | nil => exact ⟨status, h⟩
  | cons p history ih =>
    unfold ratesSince
    split
    next hp => exact ih (h.same hp)
    next hp => exact ih (h.changed hp)

end Average

/-- The device after a `_BIF` package and the reports that follow it. -/
def reported (s : AppleACPIBatteryDevice) (package : BIF) (history : List BST) :
    AppleACPIBatteryDevice :=
  history.foldl setBatteryBST (s.setBatteryBIF package)

theorem setBatteryBIF_averages (s : AppleACPIBatteryDevice) (package : BIF) :
    Averages (getValueFromArray package.array BIF_LAST_FULL_CAPACITY) s.status [s.averageRate.toNat]
      (s.setBatteryBIF package) := by
  have hmean : decayingMean [s.averageRate.toNat] = s.averageRate.toNat := rfl
  unfold setBatteryBIF
  dsimp only
  split <;> exact ⟨rfl, rfl, fun _ => hmean.symm⟩

theorem reported_pollingOverridden (s : AppleACPIBatteryDevice) (package : BIF)
    (history : List BST) :
    (reported s package history).pollingOverridden = s.pollingOverridden := by
  induction history using List.reverseRecOn with
  | nil => exact pollingOverridden_setBatteryBIF s package
  | append_singleton history p ih =>
    unfold reported at ih ⊢
    rw [List.foldl_append]
    exact (setBatteryBST_same _ p).pollingOverridden.trans ih

/-- Every report after a `_BIF` package is published exactly as far as it fits, with the
decaying mean of the rates since the last change of the status. -/
theorem reports_exact (s : AppleACPIBatteryDevice) (package : BIF) (history : List BST) (p : BST) :
    ExactReport (getValueFromArray package.array BIF_LAST_FULL_CAPACITY) s.pollingOverridden p
        ((reported s package history).setBatteryBST p) ∧
      ((∀ rate ∈ ratesSince (getValueFromArray package.array BIF_LAST_FULL_CAPACITY) s.status
          [s.averageRate.toNat] (history ++ [p]), rate < 2 ^ 31) →
        ((reported s package history).setBatteryBST p).averageRate.toNat =
          decayingMean (ratesSince (getValueFromArray package.array BIF_LAST_FULL_CAPACITY) s.status
            [s.averageRate.toNat] (history ++ [p]))) := by
  have hbif := setBatteryBIF_averages s package
  constructor
  · obtain ⟨status, hhistory⟩ := hbif.foldl history
    have hexact := setBatteryBST_exact (reported s package history) p
    rwa [reported_pollingOverridden, show (reported s package history).maxCapacity = _ from
      hhistory.maxCapacity] at hexact
  · intro hrates
    obtain ⟨status, hall⟩ := hbif.foldl (history ++ [p])
    have hmean := hall.averageRate hrates
    rwa [List.foldl_append] at hmean

/-- A battery of 4000 mAh at most. -/
def smallBIF : BIF where
  array :=
    [.number 1, .number 4400, .number 4000, .number 1, .number 11100, .number 400, .number 200,
      .number 10, .number 10, .string [], .string [], .string [], .string []]
  complete := by decide

/-- A report of a battery that discharges from 4000 mAh. -/
def discharges (rate : UInt32) : BST := ⟨1, rate, 4000, 12000⟩

theorem reports_exact_small :
    ((reported (fresh none) smallBIF [discharges 1000, discharges 2000]).setBatteryBST
        (discharges 4000)).averageRate.toNat = 3000 ∧
      ((reported (fresh none) smallBIF [discharges 1000, discharges 2000]).setBatteryBST
        (discharges 4000)).properties.times =
        ⟨80, some 80, some 0xffff, some 60, some 0xffff⟩ := by
  obtain ⟨hexact, hmean⟩ :=
    reports_exact (fresh none) smallBIF [discharges 1000, discharges 2000] (discharges 4000)
  have haverage := hmean (by decide)
  refine ⟨haverage.trans (by decide), ?_⟩
  have htimes := hexact.discharging (by decide) (by decide) (by decide)
  rw [htimes, haverage]
  decide

/-- The first report after a change of the status is left out of the mean, so the times of
a battery that discharges at 1000 are unknown; later rates weigh more than the mean of all. -/
theorem reports_not_mean :
    (reported (fresh none) smallBIF [discharges 1000]).averageRate.toNat = 0 ∧
      (reported (fresh none) smallBIF [discharges 1000]).properties.timeRemaining.toNat ≠
        60 * 4000 / 1000 ∧
      (reported (fresh none) smallBIF
          [discharges 1000, discharges 2000, discharges 4000]).averageRate.toNat ≠
        (1000 + 2000 + 4000) / 3 := by
  refine ⟨?_, ?_, ?_⟩ <;> decide

end Battery
