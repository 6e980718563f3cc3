import NetbookInstaller.Battery.Published

/-! What an old battery leaves behind when it is removed, and which part of it shows in
the values that are published of the next one. -/
namespace Battery

/-- The battery is charging or discharging: only then the average rate is published. -/
def Rated (status : UInt32) : Prop :=
  ¬ (status &&& BATTERY_DISCHARGING ≠ 0 ↔ status &&& BATTERY_CHARGING ≠ 0)

instance (status : UInt32) : Decidable (Rated status) := inferInstanceAs (Decidable (¬ _))

namespace AppleACPIBatteryDevice

def run (s : AppleACPIBatteryDevice) (history : List Call) : AppleACPIBatteryDevice :=
  history.foldl apply s

/-- The battery is removed: by the manager, or by a poll that finds none. -/
inductive Removed (s : AppleACPIBatteryDevice) : AppleACPIBatteryDevice → Prop
  | handleBatteryRemoved : Removed s s.handleBatteryRemoved
  | pollBatteryState (path : ℕ) (r : Reads) (h : ¬ s.powerSource.PresentAfter r) :
      Removed s (s.pollBatteryState path r)

/-- What is published after each of some polls. -/
def polled (s : AppleACPIBatteryDevice) : List Reads → List Properties
  | [] => []
  | r :: rs => (s.pollingTimeOut r).properties :: (s.pollingTimeOut r).polled rs

/-- What is published of a battery that is inserted and polled. -/
def publishedInserted (s : AppleACPIBatteryDevice) (r : Reads) (rs : List Reads) :
    List Properties :=
  (s.handleBatteryInserted r).properties :: (s.handleBatteryInserted r).polled rs

/-- What a device that starts publishes of the battery it finds. -/
def publishedStarted (debugPollingSetting : Option UInt32) (r : Reads) (rs : List Reads) :
    List Properties :=
  (start debugPollingSetting r).properties :: (start debugPollingSetting r).polled rs

/-- Nothing is left of an old battery that could be published of a new one. -/
structure Forgotten (s : AppleACPIBatteryDevice) : Prop where
  fullyCharged : s.properties.fullyCharged = false
  externalConnected : s.properties.externalConnected = false
  externalChargeCapable : s.properties.externalChargeCapable = false
  latestErrorType : s.properties.latestErrorType = none
  maxCapacity : s.maxCapacity = 0
  status : ¬ Rated s.status
  serial : s.appleSerialNumber = "Unknown-Unknown-Unknown-Unknown".toList

/-- Two devices that publish the same from now on. The status and the average rate
matter only while the battery is charging or discharging. -/
structure Agree (s t : AppleACPIBatteryDevice) : Prop where
  properties : s.properties = t.properties
  batteryPresent : s.batteryPresent = t.batteryPresent
  pollingOverridden : s.pollingOverridden = t.pollingOverridden
  maxCapacity : s.maxCapacity = t.maxCapacity
  serial : s.appleSerialNumber = t.appleSerialNumber
  average : Rated s.status ∨ Rated t.status →
    s.status = t.status ∧ s.averageRate = t.averageRate

/-- What the Apple serial number is made of. -/
def names (s : AppleACPIBatteryDevice) :
    Option OSSymbol × Option OSSymbol × Option OSSymbol × Option OSSymbol × UInt16 :=
  (s.manufacturer, s.deviceName, s.type, s.serial, s.serialNumber)

theorem appleSerialNumber_congr {s t : AppleACPIBatteryDevice} (h : s.names = t.names) :
    s.appleSerialNumber = t.appleSerialNumber := by
  simp only [names, Prod.mk.injEq] at h
  obtain ⟨hmanufacturer, hdevice, htype, hserial, hnumber⟩ := h
  unfold appleSerialNumber
  rw [hmanufacturer, hdevice, htype, hserial, hnumber]

/-- What the parts of `setBatteryBST` behind the first one leave alone. -/
structure SameBattery (s t : AppleACPIBatteryDevice) : Prop where
  batteryPresent : t.batteryPresent = s.batteryPresent
  pollingOverridden : t.pollingOverridden = s.pollingOverridden
  maxCapacity : t.maxCapacity = s.maxCapacity
  currentVoltage : t.currentVoltage = s.currentVoltage
  names : t.names = s.names
  status : t.status = s.status
  averageRate : t.averageRate = s.averageRate

theorem SameBattery.trans {s t u : AppleACPIBatteryDevice} (hst : SameBattery s t)
    (htu : SameBattery t u) : SameBattery s u :=
  ⟨htu.batteryPresent.trans hst.batteryPresent, htu.pollingOverridden.trans hst.pollingOverridden,
    htu.maxCapacity.trans hst.maxCapacity, htu.currentVoltage.trans hst.currentVoltage,
    htu.names.trans hst.names, htu.status.trans hst.status,
    htu.averageRate.trans hst.averageRate⟩

theorem publish_same (s : AppleACPIBatteryDevice) (f : Properties → Properties) :
    SameBattery s (s.publish f) := ⟨rfl, rfl, rfl, rfl, rfl, rfl, rfl⟩

theorem setSupply_same (s : AppleACPIBatteryDevice) (fullyCharged isCharging acConnected
    acChargeCapable : Bool) :
    SameBattery s (s.setSupply fullyCharged isCharging acConnected acChargeCapable) :=
  ⟨rfl, rfl, rfl, rfl, rfl, rfl, rfl⟩

theorem setCurrentCapacity_same (s : AppleACPIBatteryDevice) (capacity : UInt32) :
    SameBattery s (s.setCurrentCapacity capacity) := ⟨rfl, rfl, rfl, rfl, rfl, rfl, rfl⟩

theorem setState_same (s : AppleACPIBatteryDevice) (currentStatus : UInt32) :
    SameBattery s (s.setState currentStatus) := by
  unfold setState
  extract_lets discharging charging
  split
  · have herror : SameBattery s
        ((s.logReadError .permanentFailure).setErrorCondition .permanentFailure) :=
      (publish_same s _).trans (publish_same _ _)
    exact (herror.trans (setSupply_same _ _ _ _ _)).trans (publish_same _ _)
  · split
    · exact (setSupply_same s _ _ _ _).trans (publish_same _ _)
    · split
      · exact (setSupply_same s _ _ _ _).trans (publish_same _ _)
      · exact ((setSupply_same s _ _ _ _).trans (publish_same _ _)).trans
          (setCurrentCapacity_same _ _)

theorem setQuickPoll_same (s : AppleACPIBatteryDevice) : SameBattery s s.setQuickPoll := by
  unfold setQuickPoll
  split <;> exact ⟨rfl, rfl, rfl, rfl, rfl, rfl, rfl⟩

theorem pollingOverridden_setBatteryBIF (s : AppleACPIBatteryDevice) (p : BIF) :
    (s.setBatteryBIF p).pollingOverridden = s.pollingOverridden := by
  unfold setBatteryBIF
  dsimp only
  split <;> rfl

theorem setBatteryBST_same (s : AppleACPIBatteryDevice) (p : BST) :
    SameBattery (s.readStatus p) (s.setBatteryBST p) := by
  have h := (setState_same (s.readStatus p) p.state).trans (setQuickPoll_same _)
  unfold AppleACPIBatteryDevice.setBatteryBST
  generalize ((s.readStatus p).setState p.state).setQuickPoll = q at h ⊢
  exact ⟨h.batteryPresent, h.pollingOverridden, h.maxCapacity, h.currentVoltage, h.names,
    h.status, h.averageRate⟩

section Agree
variable {s t : AppleACPIBatteryDevice}

/-- What `setState` reads. -/
structure AgreeState (currentStatus : UInt32) (s t : AppleACPIBatteryDevice) : Prop where
  properties : s.properties = t.properties
  pollingOverridden : s.pollingOverridden = t.pollingOverridden
  maxCapacity : s.maxCapacity = t.maxCapacity
  currentCapacity : s.currentCapacity = t.currentCapacity
  currentVoltage : s.currentVoltage = t.currentVoltage
  currentRate : s.currentRate = t.currentRate
  averageRate : Rated currentStatus → s.averageRate = t.averageRate

theorem Agree.readStatus (h : Agree s t) (p : BST) :
    AgreeState p.state (s.readStatus p) (t.readStatus p) := by
  have hproperties : (s.readStatus p).properties = (t.readStatus p).properties := by
    unfold AppleACPIBatteryDevice.readStatus setCurrentCapacity publish
    simp only [h.properties]
  have hrate : (s.readStatus p).currentRate = (t.readStatus p).currentRate := by
    unfold AppleACPIBatteryDevice.readStatus publish
    simp only [h.maxCapacity]
  refine ⟨hproperties, h.pollingOverridden, h.maxCapacity, rfl, rfl, hrate, fun hrated => ?_⟩
  by_cases hstatus : Rated s.status ∨ Rated t.status
  · obtain ⟨hst, havg⟩ := h.average hstatus
    unfold AppleACPIBatteryDevice.readStatus publish
    simp only [h.maxCapacity, hst, havg]
  · -- the new status differs from both old ones, so both averages start again
    rw [not_or] at hstatus
    have hchanged : ∀ old, ¬ Rated old → p.state ^^^ old ≠ 0 := by
      intro old hold hzero
      exact hold (UInt32.xor_eq_zero_iff.mp hzero ▸ hrated)
    unfold AppleACPIBatteryDevice.readStatus publish
    simp only [hchanged _ hstatus.1, hchanged _ hstatus.2, ne_eq, not_false_eq_true, if_true]

theorem AgreeState.setState {currentStatus : UInt32} (h : AgreeState currentStatus s t) :
    (s.setState currentStatus).properties = (t.setState currentStatus).properties ∧
      (s.setState currentStatus).currentCapacity = (t.setState currentStatus).currentCapacity ∧
      (s.setState currentStatus).acConnected = (t.setState currentStatus).acConnected := by
  have haverage := h.averageRate
  unfold Rated at haverage
  unfold AppleACPIBatteryDevice.setState
  by_cases hd : currentStatus &&& BATTERY_DISCHARGING = 0 <;>
    by_cases hc : currentStatus &&& BATTERY_CHARGING = 0 <;>
    simp_all [setSupply, setTimes, setCurrentCapacity, setErrorCondition, publish, logReadError,
      h.properties, h.maxCapacity, h.currentCapacity, h.currentRate]

theorem Agree.setBatteryBST (h : Agree s t) (p : BST) :
    Agree (s.setBatteryBST p) (t.setBatteryBST p) := by
  have hread := h.readStatus p
  obtain ⟨hproperties, hcapacity, hconnected⟩ := hread.setState
  have hs := setState_same (s.readStatus p) p.state
  have ht := setState_same (t.readStatus p) p.state
  have hoverridden := (hs.pollingOverridden.trans hread.pollingOverridden).trans
    ht.pollingOverridden.symm
  have hmax := (hs.maxCapacity.trans hread.maxCapacity).trans ht.maxCapacity.symm
  have hquick : ((s.readStatus p).setState p.state).setQuickPoll.properties =
      ((t.readStatus p).setState p.state).setQuickPoll.properties := by
    unfold setQuickPoll publish
    simp only [hproperties, hcapacity, hconnected, hoverridden, hmax]
    split
    · rfl
    · exact hproperties
  have hs' := setBatteryBST_same s p
  have ht' := setBatteryBST_same t p
  have hvoltage : ((s.readStatus p).setState p.state).setQuickPoll.currentVoltage =
      ((t.readStatus p).setState p.state).setQuickPoll.currentVoltage :=
    ((hs.trans (setQuickPoll_same _)).currentVoltage.trans hread.currentVoltage).trans
      (ht.trans (setQuickPoll_same _)).currentVoltage.symm
  have hserial : ((s.readStatus p).setState p.state).setQuickPoll.setCells.appleSerialNumber =
      ((t.readStatus p).setState p.state).setQuickPoll.setCells.appleSerialNumber :=
    ((appleSerialNumber_congr hs'.names).trans h.serial).trans
      (appleSerialNumber_congr ht'.names).symm
  refine ⟨?_, ?_, ?_, ?_, ?_, ?_⟩
  · unfold AppleACPIBatteryDevice.setBatteryBST
    dsimp only
    rw [hserial]
    unfold setCells publish
    simp only [hquick, hvoltage]
  · exact (hs'.batteryPresent.trans h.batteryPresent).trans ht'.batteryPresent.symm
  · exact (hs'.pollingOverridden.trans h.pollingOverridden).trans ht'.pollingOverridden.symm
  · exact (hs'.maxCapacity.trans h.maxCapacity).trans ht'.maxCapacity.symm
  · exact hserial
  · intro hrated
    have hstatus : Rated p.state := by
      rw [hs'.status, ht'.status] at hrated
      exact hrated.elim id id
    exact ⟨hs'.status.trans ht'.status.symm,
      (hs'.averageRate.trans (hread.averageRate hstatus)).trans ht'.averageRate.symm⟩

theorem Agree.setBatteryBIF (h : Agree s t) (p : BIF) :
    Agree (s.setBatteryBIF p) (t.setBatteryBIF p) := by
  unfold AppleACPIBatteryDevice.setBatteryBIF
  dsimp only
  split
  · exact ⟨by simp only [publish, logReadError, h.properties], h.batteryPresent,
      h.pollingOverridden, rfl, appleSerialNumber_congr rfl, h.average⟩
  · exact ⟨by simp only [publish, h.properties], h.batteryPresent, h.pollingOverridden, rfl,
      appleSerialNumber_congr rfl, h.average⟩

theorem Agree.readSTA (h : Agree s t) (r : Reads) : Agree (s.readSTA r) (t.readSTA r) := by
  unfold AppleACPIBatteryDevice.readSTA
  cases r.batterySTA with
  | none => exact h
  | some sta =>
    exact ⟨by simp only [Option.elim, setBatterySTA, publish, h.properties], rfl,
      h.pollingOverridden, h.maxCapacity, h.serial, h.average⟩

theorem Agree.pollExisting (h : Agree s t) (r : Reads) :
    Agree (s.pollExisting r) (t.pollExisting r) := by
  have hsta := h.readSTA r
  have hbif : Agree ((s.readSTA r).readBIF r) ((t.readSTA r).readBIF r) := by
    unfold readBIF
    cases r.batteryBIF with
    | none => exact hsta
    | some p => exact hsta.setBatteryBIF p
  have hbst : Agree (((s.readSTA r).readBIF r).readBST r)
      (((t.readSTA r).readBIF r).readBST r) := by
    unfold readBST
    cases r.batteryBST with
    | none => exact hbif
    | some p => exact hbif.setBatteryBST p
  have hclear : Agree ((s.readSTA r).setFullyCharged false).clearBatteryState
      ((t.readSTA r).setFullyCharged false).clearBatteryState :=
    ⟨by simp only [clearBatteryState, setFullyCharged, publish, hsta.properties], rfl,
      hsta.pollingOverridden, hsta.maxCapacity, hsta.serial, hsta.average⟩
  unfold AppleACPIBatteryDevice.pollExisting
  dsimp only
  rw [hsta.batteryPresent]
  split
  · exact ⟨hbst.properties, hbst.batteryPresent, hbst.pollingOverridden, hbst.maxCapacity,
      hbst.serial, hbst.average⟩
  · exact ⟨hclear.properties, hclear.batteryPresent, hclear.pollingOverridden,
      hclear.maxCapacity, hclear.serial, hclear.average⟩

/-- The timers do not count. -/
theorem Agree.pollBatteryState (h : Agree s t) (path : ℕ) (r : Reads) :
    Agree (s.pollBatteryState path r) (t.pollBatteryState path r) := by
  unfold AppleACPIBatteryDevice.pollBatteryState
  split
  · exact Agree.pollExisting (s := s.beginReadAll) (t := t.beginReadAll)
      ⟨h.properties, h.batteryPresent, h.pollingOverridden, h.maxCapacity, h.serial, h.average⟩ r
  · exact h.pollExisting r

theorem Agree.polled (h : Agree s t) (rs : List Reads) : s.polled rs = t.polled rs := by
  induction rs generalizing s t with
  | nil => rfl
  | cons r rs ih =>
    have hnext : Agree (s.pollingTimeOut r) (t.pollingTimeOut r) :=
      h.pollBatteryState kExistingBatteryPath r
    rw [AppleACPIBatteryDevice.polled, AppleACPIBatteryDevice.polled, hnext.properties, ih hnext]

end Agree

/-- The properties that removal leaves to the next battery are the ones it does not set. -/
theorem clear_rebuild_congr {p q : Properties} (hfull : p.fullyCharged = q.fullyCharged)
    (hexternal : p.externalConnected = q.externalConnected)
    (hcapable : p.externalChargeCapable = q.externalChargeCapable)
    (herror : p.latestErrorType = q.latestErrorType) :
    p.clear.rebuildLegacyIOBatteryInfo = q.clear.rebuildLegacyIOBatteryInfo := by
  unfold Properties.rebuildLegacyIOBatteryInfo Properties.clear
  rw [hfull, hexternal, hcapable, herror]

theorem pollingOverridden_pollExisting (s : AppleACPIBatteryDevice) (r : Reads) :
    (s.pollExisting r).pollingOverridden = s.pollingOverridden := by
  have hsta : (s.readSTA r).pollingOverridden = s.pollingOverridden := by
    unfold readSTA
    cases r.batterySTA <;> rfl
  have hbif (t : AppleACPIBatteryDevice) :
      (t.readBIF r).pollingOverridden = t.pollingOverridden := by
    unfold readBIF
    cases r.batteryBIF with
    | none => rfl
    | some p => exact pollingOverridden_setBatteryBIF t p
  have hbst (t : AppleACPIBatteryDevice) :
      (t.readBST r).pollingOverridden = t.pollingOverridden := by
    unfold readBST
    cases r.batteryBST with
    | none => rfl
    | some p => exact (setBatteryBST_same t p).pollingOverridden
  unfold pollExisting
  dsimp only
  split
  · exact (hbst _).trans ((hbif _).trans hsta)
  · exact hsta

theorem pollingOverridden_pollBatteryState (s : AppleACPIBatteryDevice) (path : ℕ)
    (r : Reads) : (s.pollBatteryState path r).pollingOverridden = s.pollingOverridden := by
  unfold pollBatteryState
  split
  · exact pollingOverridden_pollExisting s.beginReadAll r
  · exact pollingOverridden_pollExisting s r

theorem pollingOverridden_run (s : AppleACPIBatteryDevice) (history : List Call) :
    (s.run history).pollingOverridden = s.pollingOverridden := by
  induction history generalizing s with
  | nil => rfl
  | cons c history ih =>
    have hcall : (s.apply c).pollingOverridden = s.pollingOverridden := by
      cases c with
      | setBatterySTA sta => rfl
      | setBatteryBIF p => exact pollingOverridden_setBatteryBIF s p
      | setBatteryBST p => exact (setBatteryBST_same s p).pollingOverridden
      | pollBatteryState path r => exact pollingOverridden_pollBatteryState s path r
      | handleBatteryInserted r => exact pollingOverridden_pollBatteryState s kNewBatteryPath r
      | handleBatteryRemoved => rfl
    exact (ih (s.apply c)).trans hcall

/-- Removal clears the battery, whichever way it is noticed. -/
theorem Removed.cleared {s t : AppleACPIBatteryDevice} (h : Removed s t) :
    t.batteryPresent = false ∧ t.pollingOverridden = s.pollingOverridden ∧
      ∃ p : Properties, t.properties = p.clear.rebuildLegacyIOBatteryInfo := by
  cases h with
  | handleBatteryRemoved => exact ⟨rfl, rfl, s.properties, rfl⟩
  | pollBatteryState path r habsent =>
    have hpoll (u : AppleACPIBatteryDevice) (hu : u.batteryPresent = s.batteryPresent) :
        (u.pollExisting r).batteryPresent = false ∧
          ∃ p : Properties, (u.pollExisting r).properties =
            p.clear.rebuildLegacyIOBatteryInfo := by
      have hread : ¬ (u.readSTA r).batteryPresent = true := by
        intro hpresent
        apply habsent
        unfold PowerSource.PresentAfter
        unfold readSTA at hpresent
        cases hsta : r.batterySTA with
        | none => simpa [hsta, hu, powerSource] using hpresent
        | some sta => simpa [hsta, setBatterySTA, publish] using hpresent
      unfold pollExisting
      dsimp only
      rw [if_neg hread]
      exact ⟨rfl, _, rfl⟩
    have hoverridden := pollingOverridden_pollBatteryState s path r
    unfold AppleACPIBatteryDevice.pollBatteryState at hoverridden ⊢
    by_cases hpath : path = kNewBatteryPath
    · rw [if_pos hpath] at hoverridden ⊢
      exact ⟨(hpoll s.beginReadAll rfl).1, hoverridden, (hpoll s.beginReadAll rfl).2⟩
    · rw [if_neg hpath] at hoverridden ⊢
      exact ⟨(hpoll s rfl).1, hoverridden, (hpoll s rfl).2⟩

theorem Removed.agree {s t : AppleACPIBatteryDevice} (h : Removed s t) (hforgotten : t.Forgotten)
    {debugPollingSetting : Option UInt32}
    (hoverridden : s.pollingOverridden = (fresh debugPollingSetting).pollingOverridden) :
    Agree t (fresh debugPollingSetting) := by
  obtain ⟨hpresent, hkept, p, hproperties⟩ := h.cleared
  have hfull := hforgotten.fullyCharged
  have hexternal := hforgotten.externalConnected
  have hcapable := hforgotten.externalChargeCapable
  have herror := hforgotten.latestErrorType
  rw [hproperties] at hfull hexternal hcapable herror
  refine ⟨?_, hpresent, hkept.trans hoverridden, hforgotten.maxCapacity, hforgotten.serial, ?_⟩
  · rw [hproperties]
    exact clear_rebuild_congr (q := .empty) hfull hexternal hcapable herror
  · intro hrated
    have hzero : ¬ Rated (fresh debugPollingSetting).status := by
      show ¬ Rated 0
      decide
    exact absurd hrated (not_or.mpr ⟨hforgotten.status, hzero⟩)

theorem setState_amperage (s : AppleACPIBatteryDevice) {currentStatus : UInt32}
    (h : Rated currentStatus) :
    (s.setState currentStatus).properties.amperage = 0 ↔ s.averageRate = 0 := by
  unfold Rated at h
  unfold setState
  extract_lets discharging charging
  split
  next hboth => exact absurd (iff_of_true hboth.1 hboth.2) h
  next hboth =>
    split
    next hdischarging => exact neg_eq_zero
    next hdischarging =>
      rw [if_pos (by_contra fun hcharging => h (iff_of_false hdischarging hcharging))]
      exact Iff.rfl

theorem setBatteryBST_amperage (s : AppleACPIBatteryDevice) (p : BST) :
    (s.setBatteryBST p).properties.amperage =
      ((s.readStatus p).setState p.state).properties.amperage := by
  have hquick (t : AppleACPIBatteryDevice) :
      t.setQuickPoll.properties.amperage = t.properties.amperage := by
    unfold setQuickPoll
    split <;> rfl
  have hbst : (s.setBatteryBST p).properties.amperage =
      ((s.readStatus p).setState p.state).setQuickPoll.properties.amperage := by
    unfold AppleACPIBatteryDevice.setBatteryBST
    generalize ((s.readStatus p).setState p.state).setQuickPoll = q
    rfl
  exact hbst.trans (hquick _)

/-- A fully charged battery gets its full capacity published. -/
theorem setBatteryBST_zero_currentCapacity (s : AppleACPIBatteryDevice) :
    (s.setBatteryBST ⟨0, 0, 0, 0⟩).properties.currentCapacity = s.maxCapacity := by
  have hquick (t : AppleACPIBatteryDevice) :
      t.setQuickPoll.properties.currentCapacity = t.properties.currentCapacity := by
    unfold setQuickPoll
    split <;> rfl
  have hbst : (s.setBatteryBST ⟨0, 0, 0, 0⟩).properties.currentCapacity =
      ((s.readStatus ⟨0, 0, 0, 0⟩).setState 0).setQuickPoll.properties.currentCapacity := by
    unfold AppleACPIBatteryDevice.setBatteryBST
    dsimp only
    generalize ((s.readStatus ⟨0, 0, 0, 0⟩).setState 0).setQuickPoll = q
    rfl
  exact hbst.trans (hquick _)

/-- Two rates that differ by 2 do not both average to 0 with the same old rate. -/
theorem exists_average_ne_zero (average : UInt32) :
    ∃ rate : UInt32, rate &&& 0x8000 = 0 ∧ rate ≠ 0 ∧
      (if average ≠ 0 then (average + rate) / 2 else rate) ≠ 0 := by
  by_cases hzero : average = 0
  · exact ⟨2, by decide, by decide, by rw [if_neg (not_not.mpr hzero)]; decide⟩
  · have hhalf (rate : UInt32) (h : 2 ≤ (average + rate).toNat) : (average + rate) / 2 ≠ 0 := by
      intro hdiv
      have hnat := congrArg UInt32.toNat hdiv
      rw [UInt32.toNat_div] at hnat
      simp only [UInt32.reduceToNat] at hnat
      omega
    simp only [ne_eq, hzero, not_false_eq_true, if_true]
    by_cases htwo : 2 ≤ (average + 2).toNat
    · exact ⟨2, by decide, by decide, hhalf 2 htwo⟩
    · refine ⟨4, by decide, by decide, hhalf 4 ?_⟩
      rw [UInt32.toNat_add] at htwo ⊢
      simp only [UInt32.reduceToNat] at htwo ⊢
      have hlt := average.toNat_lt
      omega

/-- A round that finds a battery and reads nothing of it shows what is left of the flags. -/
def flagReads : Reads := ⟨some 0x10, none, none⟩

/-- A round that finds a battery and reads its status only. -/
def statusReads (p : BST) : Reads := ⟨some 0x10, none, some p⟩

theorem flagReads_properties (s : AppleACPIBatteryDevice) :
    (s.handleBatteryInserted flagReads).properties =
      { s.properties with batteryInstalled := true } := rfl

theorem statusReads_properties (s : AppleACPIBatteryDevice) (p : BST) :
    (s.handleBatteryInserted (statusReads p)).properties =
      ((s.beginReadAll.setBatterySTA 0x10).setBatteryBST p).properties := rfl

theorem setBatteryBST_softwareSerial (s : AppleACPIBatteryDevice) (p : BST) :
    (s.setBatteryBST p).properties.softwareSerial = some s.appleSerialNumber :=
  congrArg some (appleSerialNumber_congr (setBatteryBST_same s p).names)

/-- What the average rate shows of the old status. -/
theorem not_rated_of_amperage {s u : AppleACPIBatteryDevice} (hu : u.status = 0)
    (h : ∀ p, (s.setBatteryBST p).properties.amperage = (u.setBatteryBST p).properties.amperage) :
    ¬ Rated s.status := by
  intro hrated
  obtain ⟨rate, hsign, hrate, haverage⟩ := exists_average_ne_zero s.averageRate
  have hp := h ⟨s.status, rate, 0, 0⟩
  rw [setBatteryBST_amperage, setBatteryBST_amperage] at hp
  have hfresh : (u.readStatus ⟨s.status, rate, 0, 0⟩).averageRate = 0 := by
    have hchanged : s.status ^^^ u.status ≠ 0 := by
      intro hzero
      rw [UInt32.xor_eq_zero_iff.mp hzero, hu] at hrated
      exact absurd hrated (by decide)
    exact if_pos hchanged
  rw [(setState_amperage _ hrated).mpr hfresh, setState_amperage _ hrated] at hp
  apply haverage
  unfold readStatus publish at hp
  simpa [hsign, hrate] using hp

/-- After a removal the next battery is published as by a device that starts exactly if
the device has forgotten the old one. -/
theorem publishedInserted_iff_forgotten (debugPollingSetting : Option UInt32) (r₀ : Reads)
    (history : List Call) (t : AppleACPIBatteryDevice)
    (h : Removed ((start debugPollingSetting r₀).run history) t) :
    (∀ r rs, t.publishedInserted r rs = publishedStarted debugPollingSetting r rs) ↔
      t.Forgotten := by
  have hoverridden : ((start debugPollingSetting r₀).run history).pollingOverridden =
      (fresh debugPollingSetting).pollingOverridden :=
    (pollingOverridden_run _ history).trans
      (pollingOverridden_pollBatteryState (fresh debugPollingSetting) kNewBatteryPath r₀)
  constructor
  · intro hsame
    have hhead (r : Reads) : (t.handleBatteryInserted r).properties =
        ((fresh debugPollingSetting).handleBatteryInserted r).properties :=
      (List.cons.inj (hsame r [])).1
    have hflags := hhead flagReads
    rw [flagReads_properties, flagReads_properties] at hflags
    have hstatus (p : BST) := hhead (statusReads p)
    simp only [statusReads_properties] at hstatus
    have hcapacity := congrArg Properties.currentCapacity (hstatus ⟨0, 0, 0, 0⟩)
    have hserial := congrArg Properties.softwareSerial (hstatus ⟨0, 0, 0, 0⟩)
    rw [setBatteryBST_zero_currentCapacity, setBatteryBST_zero_currentCapacity] at hcapacity
    rw [setBatteryBST_softwareSerial, setBatteryBST_softwareSerial] at hserial
    exact {
      fullyCharged := congrArg Properties.fullyCharged hflags
      externalConnected := congrArg Properties.externalConnected hflags
      externalChargeCapable := congrArg Properties.externalChargeCapable hflags
      latestErrorType := congrArg Properties.latestErrorType hflags
      maxCapacity := hcapacity
      status := not_rated_of_amperage (s := t.beginReadAll.setBatterySTA 0x10) rfl
        fun p => congrArg Properties.amperage (hstatus p)
      serial := Option.some.inj hserial }
  · intro hforgotten r rs
    have hagree := (h.agree hforgotten hoverridden).pollBatteryState kNewBatteryPath r
    exact congrArg₂ List.cons hagree.properties (hagree.polled rs)

/-! Only a device that has never been given a package has nothing to forget. -/

/-- The battery is found by what a call reads. -/
def presentBehind (present : Bool) : Call → Bool
  | .setBatterySTA sta => staPresent sta
  | .setBatteryBIF _ | .setBatteryBST _ => present
  | .pollBatteryState _ r | .handleBatteryInserted r => r.batterySTA.elim present staPresent
  | .handleBatteryRemoved => false

/-- A call hands a package to the device; a poll does so only if it finds a battery. -/
def HandsOver (present : Bool) : Call → Prop
  | .setBatterySTA _ | .handleBatteryRemoved => False
  | .setBatteryBIF _ | .setBatteryBST _ => True
  | .pollBatteryState _ r | .handleBatteryInserted r =>
    r.batterySTA.elim present staPresent = true ∧ (r.batteryBIF.isSome ∨ r.batteryBST.isSome)

/-- None of the calls hands a package to the device. -/
def NothingRead : Bool → List Call → Prop
  | _, [] => True
  | present, c :: calls => ¬HandsOver present c ∧ NothingRead (presentBehind present c) calls

/-- A package has left its mark: a `_BST` package on the status or the AC adapter, a `_BIF`
package on the capacity or the last error. -/
def Marked (s : AppleACPIBatteryDevice) : Prop :=
  (s.properties.externalConnected = true ∨ Rated s.status) ∨
    (s.maxCapacity ≠ 0 ∨ s.properties.latestErrorType ≠ none)

theorem Marked.not_forgotten {s : AppleACPIBatteryDevice} (h : s.Marked) : ¬s.Forgotten := by
  intro hforgotten
  rcases h with (hexternal | hrated) | (hcapacity | herror)
  · rw [hforgotten.externalConnected] at hexternal
    cases hexternal
  · exact hforgotten.status hrated
  · exact hcapacity hforgotten.maxCapacity
  · exact herror hforgotten.latestErrorType

theorem Marked.congr {s t : AppleACPIBatteryDevice} (h : s.Marked)
    (hexternal : t.properties.externalConnected = s.properties.externalConnected)
    (hstatus : t.status = s.status) (hcapacity : t.maxCapacity = s.maxCapacity)
    (herror : t.properties.latestErrorType = s.properties.latestErrorType) : t.Marked := by
  unfold Marked
  rw [hexternal, hstatus, hcapacity, herror]
  exact h

theorem setBatteryBIF_marked (s : AppleACPIBatteryDevice) (p : BIF) : (s.setBatteryBIF p).Marked := by
  refine .inr ?_
  unfold setBatteryBIF
  dsimp only
  split
  · exact .inr (Option.some_ne_none _)
  next hcapacity => exact .inl fun hzero => hcapacity (.inr hzero)

theorem setBatteryBST_marked (s : AppleACPIBatteryDevice) (p : BST) :
    (s.setBatteryBST p).Marked := by
  refine .inl ?_
  have hexternal : (s.setBatteryBST p).properties.externalConnected =
      (s.powerSource.readBST p.state).externalConnected :=
    congrArg PowerSource.externalConnected (powerSource_setBatteryBST s p)
  rw [hexternal, (setBatteryBST_same s p).status]
  show _ ∨ Rated p.state
  unfold Rated PowerSource.readBST
  by_cases hd : p.state &&& BATTERY_DISCHARGING = 0 <;>
    by_cases hc : p.state &&& BATTERY_CHARGING = 0 <;> simp [hd, hc]

theorem readSTA_marked {s : AppleACPIBatteryDevice} (h : s.Marked) (r : Reads) :
    (s.readSTA r).Marked := by
  unfold readSTA
  cases r.batterySTA with
  | none => exact h
  | some sta => exact h.congr rfl rfl rfl rfl

/-- The packages of a round that finds a battery. -/
theorem readPackages_marked (s : AppleACPIBatteryDevice) (r : Reads)
    (h : s.Marked ∨ r.batteryBIF.isSome ∨ r.batteryBST.isSome) :
    ((s.readBIF r).readBST r).Marked := by
  unfold readBIF readBST
  cases hbst : r.batteryBST with
  | some p => exact setBatteryBST_marked _ p
  | none =>
    cases hbif : r.batteryBIF with
    | some p => exact setBatteryBIF_marked s p
    | none => simpa [hbst, hbif] using h

theorem batteryPresent_readSTA (s : AppleACPIBatteryDevice) (r : Reads) :
    (s.readSTA r).batteryPresent = r.batterySTA.elim s.batteryPresent staPresent := by
  unfold readSTA
  cases r.batterySTA <;> rfl

theorem pollExisting_marked {s : AppleACPIBatteryDevice} {r : Reads}
    (h : s.Marked ∨ r.batterySTA.elim s.batteryPresent staPresent = true ∧
      (r.batteryBIF.isSome ∨ r.batteryBST.isSome)) : (s.pollExisting r).Marked := by
  unfold pollExisting
  dsimp only
  split
  · exact (readPackages_marked (s.readSTA r) r
      (h.imp (readSTA_marked · r) And.right)).congr rfl rfl rfl rfl
  next habsent =>
    rw [batteryPresent_readSTA] at habsent
    have hmarked := readSTA_marked (h.resolve_right fun hpresent => habsent hpresent.1) r
    exact hmarked.congr rfl rfl rfl rfl

theorem pollBatteryState_marked {s : AppleACPIBatteryDevice} (path : ℕ) {r : Reads}
    (h : s.Marked ∨ r.batterySTA.elim s.batteryPresent staPresent = true ∧
      (r.batteryBIF.isSome ∨ r.batteryBST.isSome)) : (s.pollBatteryState path r).Marked := by
  unfold pollBatteryState
  split
  · exact pollExisting_marked (s := s.beginReadAll) (h.imp_left fun h => h.congr rfl rfl rfl rfl)
  · exact pollExisting_marked h

theorem apply_marked {s : AppleACPIBatteryDevice} {c : Call}
    (h : s.Marked ∨ HandsOver s.batteryPresent c) : (s.apply c).Marked := by
  cases c with
  | setBatterySTA sta => exact (h.resolve_right id).congr rfl rfl rfl rfl
  | setBatteryBIF p => exact setBatteryBIF_marked s p
  | setBatteryBST p => exact setBatteryBST_marked s p
  | pollBatteryState path r => exact pollBatteryState_marked path h
  | handleBatteryInserted r => exact pollBatteryState_marked kNewBatteryPath h
  | handleBatteryRemoved => exact (h.resolve_right id).congr rfl rfl rfl rfl

theorem Forgotten.setBatterySTA {s : AppleACPIBatteryDevice} (h : s.Forgotten) (sta : UInt32) :
    (s.setBatterySTA sta).Forgotten :=
  ⟨h.fullyCharged, h.externalConnected, h.externalChargeCapable, h.latestErrorType, h.maxCapacity,
    h.status, h.serial⟩

theorem Forgotten.clearBatteryState {s : AppleACPIBatteryDevice} (h : s.Forgotten) :
    s.clearBatteryState.Forgotten :=
  ⟨h.fullyCharged, h.externalConnected, h.externalChargeCapable, h.latestErrorType, h.maxCapacity,
    h.status, h.serial⟩

theorem Forgotten.pollExisting {s : AppleACPIBatteryDevice} (h : s.Forgotten) {r : Reads}
    (hr : ¬(r.batterySTA.elim s.batteryPresent staPresent = true ∧
      (r.batteryBIF.isSome ∨ r.batteryBST.isSome))) : (s.pollExisting r).Forgotten := by
  have hsta : (s.readSTA r).Forgotten := by
    unfold readSTA
    cases r.batterySTA with
    | none => exact h
    | some sta => exact h.setBatterySTA sta
  unfold AppleACPIBatteryDevice.pollExisting
  dsimp only
  split
  next hpresent =>
    rw [batteryPresent_readSTA] at hpresent
    obtain ⟨hbif, hbst⟩ := not_or.mp fun hread => hr ⟨hpresent, hread⟩
    rw [Bool.not_eq_true, Option.isSome_eq_false_iff, Option.isNone_iff_eq_none] at hbif hbst
    unfold readBIF readBST
    rw [hbif, hbst]
    exact ⟨hsta.fullyCharged, hsta.externalConnected, hsta.externalChargeCapable,
      hsta.latestErrorType, hsta.maxCapacity, hsta.status, hsta.serial⟩
  next =>
    have hcleared : ((s.readSTA r).setFullyCharged false).clearBatteryState.Forgotten :=
      Forgotten.clearBatteryState ⟨rfl, hsta.externalConnected, hsta.externalChargeCapable,
        hsta.latestErrorType, hsta.maxCapacity, hsta.status, hsta.serial⟩
    exact ⟨hcleared.fullyCharged, hcleared.externalConnected, hcleared.externalChargeCapable,
      hcleared.latestErrorType, hcleared.maxCapacity, hcleared.status, hcleared.serial⟩

theorem Forgotten.pollBatteryState {s : AppleACPIBatteryDevice} (h : s.Forgotten) (path : ℕ)
    {r : Reads} (hr : ¬(r.batterySTA.elim s.batteryPresent staPresent = true ∧
      (r.batteryBIF.isSome ∨ r.batteryBST.isSome))) : (s.pollBatteryState path r).Forgotten := by
  unfold AppleACPIBatteryDevice.pollBatteryState
  split
  · exact Forgotten.pollExisting (s := s.beginReadAll) ⟨h.fullyCharged, h.externalConnected,
      h.externalChargeCapable, h.latestErrorType, h.maxCapacity, h.status, h.serial⟩ hr
  · exact h.pollExisting hr

theorem Forgotten.apply {s : AppleACPIBatteryDevice} (h : s.Forgotten) {c : Call}
    (hc : ¬HandsOver s.batteryPresent c) : (s.apply c).Forgotten := by
  cases c with
  | setBatterySTA sta => exact h.setBatterySTA sta
  | setBatteryBIF p => exact absurd trivial hc
  | setBatteryBST p => exact absurd trivial hc
  | pollBatteryState path r => exact h.pollBatteryState path hc
  | handleBatteryInserted r => exact h.pollBatteryState kNewBatteryPath hc
  | handleBatteryRemoved => exact h.clearBatteryState

theorem batteryPresent_apply (s : AppleACPIBatteryDevice) (c : Call) :
    (s.apply c).batteryPresent = presentBehind s.batteryPresent c := by
  have hpoll (r : Reads) : (s.powerSource.poll r).batteryPresent =
      r.batterySTA.elim s.batteryPresent staPresent := by
    rw [PowerSource.poll_eq]
    split
    next hpresent =>
      refine Eq.trans ?_ hpresent.symm
      obtain ⟨sta, information, bst⟩ := r
      cases sta <;> cases bst <;> exact hpresent
    next habsent => exact (Bool.not_eq_true _ ▸ habsent).symm
  refine (congrArg PowerSource.batteryPresent (powerSource_apply s c)).trans ?_
  cases c with
  | setBatterySTA sta => rfl
  | setBatteryBIF p => rfl
  | setBatteryBST p => rfl
  | pollBatteryState path r => exact hpoll r
  | handleBatteryInserted r => exact hpoll r
  | handleBatteryRemoved => rfl

theorem run_marked (s : AppleACPIBatteryDevice) (calls : List Call) (h : s.Marked) :
    (s.run calls).Marked := by
  induction calls generalizing s with
  | nil => exact h
  | cons c calls ih => exact ih _ (apply_marked (.inl h))

/-- A device has nothing to forget exactly as long as no package has been handed to it. -/
theorem run_cases {s : AppleACPIBatteryDevice} (h : s.Forgotten) (calls : List Call) :
    (NothingRead s.batteryPresent calls ∧ (s.run calls).Forgotten) ∨
      (¬NothingRead s.batteryPresent calls ∧ (s.run calls).Marked) := by
  induction calls generalizing s with
  | nil => exact .inl ⟨trivial, h⟩
  | cons c calls ih =>
    by_cases hc : HandsOver s.batteryPresent c
    · exact .inr ⟨fun hnothing => hnothing.1 hc, run_marked _ calls (apply_marked (.inr hc))⟩
    · have hrest := ih (h.apply hc)
      rw [batteryPresent_apply] at hrest
      exact hrest.imp (And.imp_left fun hnothing => ⟨hc, hnothing⟩)
        (And.imp_left fun hread hnothing => hread hnothing.2)

theorem fresh_forgotten (debugPollingSetting : Option UInt32) :
    (fresh debugPollingSetting).Forgotten :=
  ⟨rfl, rfl, rfl, rfl, rfl, by show ¬Rated 0; decide, rfl⟩

/-- A removal is a call that hands over no package. -/
theorem Removed.call {s t : AppleACPIBatteryDevice} (h : Removed s t) :
    ∃ c, t = s.apply c ∧ ¬HandsOver s.batteryPresent c := by
  cases h with
  | handleBatteryRemoved => exact ⟨.handleBatteryRemoved, rfl, id⟩
  | pollBatteryState path r habsent =>
    exact ⟨.pollBatteryState path r, rfl, fun hread => habsent hread.1⟩

/-- After a removal the next battery is published as by a device that starts exactly if no
package has ever been handed to the device. -/
theorem publishedInserted_iff (debugPollingSetting : Option UInt32) (r₀ : Reads)
    (history : List Call) (t : AppleACPIBatteryDevice)
    (h : Removed ((start debugPollingSetting r₀).run history) t) :
    (∀ r rs, t.publishedInserted r rs = publishedStarted debugPollingSetting r rs) ↔
      NothingRead false (.handleBatteryInserted r₀ :: history) := by
  rw [publishedInserted_iff_forgotten debugPollingSetting r₀ history t h]
  obtain ⟨c, rfl, hc⟩ := h.call
  rcases run_cases (fresh_forgotten debugPollingSetting) (.handleBatteryInserted r₀ :: history) with
    ⟨hnothing, hforgotten⟩ | ⟨hread, hmarked⟩
  · exact iff_of_true (Forgotten.apply hforgotten hc) hnothing
  · exact iff_of_false (apply_marked (.inl hmarked)).not_forgotten hread

/-- A battery of which only the presence was ever read leaves nothing behind. -/
theorem flagReads_publishedInserted :
    ∃ t, Removed ((start none flagReads).run [.pollBatteryState 1 flagReads]) t ∧
      ∀ r rs, t.publishedInserted r rs = publishedStarted none r rs :=
  ⟨_, .handleBatteryRemoved,
    (publishedInserted_iff none flagReads [.pollBatteryState 1 flagReads] _
      .handleBatteryRemoved).mpr ⟨by simp [HandsOver, flagReads], by simp [HandsOver, flagReads],
        trivial⟩⟩

/-- A battery that discharges at a rate of 1000. -/
def dischargingReads : Reads := ⟨some 0x1F, none, some ⟨1, 1000, 4000, 12000⟩⟩

/-- The rate of the old battery is averaged into the new one, whichever way the removal
is noticed. -/
theorem dischargingRemoved_published :
    ∃ s t u, s = (start none dischargingReads).run [.pollBatteryState 1 dischargingReads] ∧
      t = s.handleBatteryRemoved ∧ u = s.pollBatteryState 1 ⟨some 0x0F, none, none⟩ ∧
      Removed s t ∧ Removed s u ∧
      t.publishedInserted dischargingReads [] ≠ publishedStarted none dischargingReads [] ∧
      u.publishedInserted dischargingReads [] ≠ publishedStarted none dischargingReads [] := by
  refine ⟨_, _, _, rfl, rfl, rfl, .handleBatteryRemoved, .pollBatteryState 1 _ (by decide), ?_, ?_⟩
  · intro h
    exact absurd (congrArg Properties.amperage (List.cons.inj h).1) (by decide)
  · intro h
    exact absurd (congrArg Properties.amperage (List.cons.inj h).1) (by decide)

end AppleACPIBatteryDevice
end Battery
