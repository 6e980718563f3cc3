import NetbookInstaller.Battery.Device
import NetbookInstaller.Transition.Runs

/-! The flags that the battery device keeps as fields and publishes as properties, and
the calls that leave the two copies apart. -/
namespace Battery

/-- The calls that change the device. -/
inductive Call where
  | setBatterySTA (sta : UInt32)
  | setBatteryBIF (p : BIF)
  | setBatteryBST (p : BST)
  | pollBatteryState (path : ℕ) (r : Reads)
  | handleBatteryInserted (r : Reads)
  | handleBatteryRemoved
  deriving DecidableEq, Repr

namespace AppleACPIBatteryDevice

def apply (s : AppleACPIBatteryDevice) : Call → AppleACPIBatteryDevice
  | .setBatterySTA sta => s.setBatterySTA sta
  | .setBatteryBIF p => s.setBatteryBIF p
  | .setBatteryBST p => s.setBatteryBST p
  | .pollBatteryState path r => s.pollBatteryState path r
  | .handleBatteryInserted r => s.handleBatteryInserted r
  | .handleBatteryRemoved => s.handleBatteryRemoved

def step (s : AppleACPIBatteryDevice) (c : Call) : Option AppleACPIBatteryDevice := some (s.apply c)

end AppleACPIBatteryDevice

/-- The flags of the device, each field beside the property that publishes it. -/
structure PowerSource where
  batteryPresent : Bool
  batteryInstalled : Bool
  acConnected : Bool
  externalConnected : Bool
  acChargeCapable : Bool
  externalChargeCapable : Bool
  isCharging : Bool
  fullyCharged : Bool
  deriving DecidableEq, Repr

namespace PowerSource

/-- What the device says about its power source is consistent. -/
structure Consistent (f : PowerSource) : Prop where
  externalConnected : f.externalConnected = f.acConnected
  externalChargeCapable : f.externalChargeCapable = f.acChargeCapable
  batteryInstalled : f.batteryInstalled = f.batteryPresent
  exclusive : ¬ (f.isCharging = true ∧ f.fullyCharged = true)
  absent : f.batteryInstalled = false → f.isCharging = false ∧ f.fullyCharged = false

/-- What is published of the AC adapter says that there is none. -/
def Unplugged (f : PowerSource) : Prop :=
  f.externalConnected = false ∧ f.externalChargeCapable = false

instance (f : PowerSource) : Decidable f.Unplugged := inferInstanceAs (Decidable (_ ∧ _))

def readSTA (f : PowerSource) (sta : UInt32) : PowerSource :=
  { f with batteryPresent := staPresent sta, batteryInstalled := staPresent sta }

def readBST (f : PowerSource) (state : UInt32) : PowerSource :=
  let discharging : Bool := state &&& BATTERY_DISCHARGING ≠ 0
  let charging : Bool := state &&& BATTERY_CHARGING ≠ 0
  { f with
    acConnected := charging || !discharging
    externalConnected := charging || !discharging
    acChargeCapable := !discharging
    externalChargeCapable := !discharging
    isCharging := charging && !discharging
    fullyCharged := !charging && !discharging }

def clear (f : PowerSource) : PowerSource :=
  { f with
    batteryPresent := false
    batteryInstalled := false
    acConnected := false
    acChargeCapable := false
    isCharging := false }

/-- A round of reads with the handling of an absent battery. -/
def poll (f : PowerSource) (r : Reads) : PowerSource :=
  let f := r.batterySTA.elim f f.readSTA
  if f.batteryPresent then r.batteryBST.elim f fun p => f.readBST p.state
  else { f with fullyCharged := false }.clear

def apply (f : PowerSource) : Call → PowerSource
  | .setBatterySTA sta => f.readSTA sta
  | .setBatteryBIF _ => f
  | .setBatteryBST p => f.readBST p.state
  | .pollBatteryState _ r => f.poll r
  | .handleBatteryInserted r => f.poll r
  | .handleBatteryRemoved => f.clear

/-- The battery is present once a round has read `_STA`. -/
def PresentAfter (f : PowerSource) (r : Reads) : Prop :=
  r.batterySTA.elim f.batteryPresent staPresent = true

instance (f : PowerSource) (r : Reads) : Decidable (f.PresentAfter r) :=
  inferInstanceAs (Decidable (_ = true))

/-- The calls that keep the flags consistent: none that finds or makes the battery absent
while a flag that the call does not clear is published. -/
def Harmless (f : PowerSource) : Call → Prop
  | .setBatterySTA sta =>
    staPresent sta = true ∨ f.isCharging = false ∧ f.fullyCharged = false
  | .setBatteryBIF _ => True
  | .setBatteryBST p => f.batteryPresent = true ∨ p.state &&& BATTERY_DISCHARGING ≠ 0
  | .pollBatteryState _ r | .handleBatteryInserted r => f.PresentAfter r ∨ f.Unplugged
  | .handleBatteryRemoved => f.Unplugged ∧ f.fullyCharged = false

instance (f : PowerSource) : ∀ c, Decidable (f.Harmless c)
  | .setBatterySTA _ => inferInstanceAs (Decidable (_ ∨ _))
  | .setBatteryBIF _ => inferInstanceAs (Decidable True)
  | .setBatteryBST _ => inferInstanceAs (Decidable (_ ∨ _))
  | .pollBatteryState _ _ => inferInstanceAs (Decidable (_ ∨ _))
  | .handleBatteryInserted _ => inferInstanceAs (Decidable (_ ∨ _))
  | .handleBatteryRemoved => inferInstanceAs (Decidable (_ ∧ _))

variable {f : PowerSource}

theorem Consistent.readSTA_iff (h : f.Consistent) (sta : UInt32) :
    (f.readSTA sta).Consistent ↔
      (staPresent sta = true ∨ f.isCharging = false ∧ f.fullyCharged = false) := by
  constructor
  · intro ht
    cases hsta : staPresent sta with
    | true => exact .inl rfl
    | false => exact .inr (ht.absent hsta)
  · intro hsta
    refine ⟨h.externalConnected, h.externalChargeCapable, rfl, h.exclusive, fun habsent => ?_⟩
    rcases hsta with hsta | hflags
    · exact absurd (hsta.symm.trans habsent) (by decide)
    · exact hflags

theorem Consistent.readBST_iff (h : f.Consistent) (state : UInt32) :
    (f.readBST state).Consistent ↔
      (f.batteryPresent = true ∨ state &&& BATTERY_DISCHARGING ≠ 0) := by
  have hinstalled := h.batteryInstalled
  constructor
  · intro ht
    cases hpresent : f.batteryPresent with
    | true => exact .inl rfl
    | false =>
      have hflags := ht.absent (hinstalled.trans hpresent)
      refine .inr fun hzero => ?_
      simp [readBST, hzero] at hflags
  · intro hstate
    refine ⟨rfl, rfl, hinstalled, ?_, fun habsent => ?_⟩
    · rintro ⟨hcharging, hfull⟩
      simp_all [readBST]
    · have habsent' : f.batteryPresent = false := hinstalled.symm.trans habsent
      rcases hstate with hpresent | hdischarging
      · exact absurd (hpresent.symm.trans habsent') (by decide)
      · simp [readBST, hdischarging]

theorem clear_consistent_iff :
    f.clear.Consistent ↔ f.Unplugged ∧ f.fullyCharged = false := by
  constructor
  · intro ht
    exact ⟨⟨ht.externalConnected, ht.externalChargeCapable⟩, (ht.absent rfl).2⟩
  · rintro ⟨⟨hexternal, hcapable⟩, hfull⟩
    exact ⟨hexternal, hcapable, rfl, by simp [clear], fun _ => ⟨rfl, hfull⟩⟩

theorem poll_eq (f : PowerSource) (r : Reads) :
    f.poll r =
      if f.PresentAfter r then
        r.batteryBST.elim (r.batterySTA.elim f f.readSTA) fun p =>
          (r.batterySTA.elim f f.readSTA).readBST p.state
      else { f with fullyCharged := false }.clear := by
  obtain ⟨sta, batteryBIF, batteryBST⟩ := r
  cases sta with
  | none => rfl
  | some sta => rfl

theorem Consistent.poll_iff (h : f.Consistent) (r : Reads) :
    (f.poll r).Consistent ↔ f.PresentAfter r ∨ f.Unplugged := by
  rw [poll_eq]
  by_cases hpresent : f.PresentAfter r
  · rw [if_pos hpresent]
    refine iff_of_true ?_ (.inl hpresent)
    have hread : (r.batterySTA.elim f f.readSTA).Consistent ∧
        (r.batterySTA.elim f f.readSTA).batteryPresent = true := by
      unfold PresentAfter at hpresent
      cases hsta : r.batterySTA with
      | none => exact ⟨h, by simpa [hsta] using hpresent⟩
      | some sta =>
        have hpresent' : staPresent sta = true := by simpa [hsta] using hpresent
        exact ⟨(h.readSTA_iff sta).mpr (.inl hpresent'), hpresent'⟩
    cases r.batteryBST with
    | none => exact hread.1
    | some p => exact (hread.1.readBST_iff p.state).mpr (.inl hread.2)
  · rw [if_neg hpresent]
    constructor
    · intro ht
      exact .inr ⟨ht.externalConnected, ht.externalChargeCapable⟩
    · intro hor
      obtain ⟨hexternal, hcapable⟩ := hor.resolve_left hpresent
      exact ⟨hexternal, hcapable, rfl, by simp [clear], fun _ => ⟨rfl, rfl⟩⟩

theorem Consistent.apply_iff (h : f.Consistent) (c : Call) :
    (f.apply c).Consistent ↔ f.Harmless c := by
  cases c with
  | setBatterySTA sta => exact h.readSTA_iff sta
  | setBatteryBIF p => exact iff_of_true h trivial
  | setBatteryBST p => exact h.readBST_iff p.state
  | pollBatteryState path r => exact h.poll_iff r
  | handleBatteryInserted r => exact h.poll_iff r
  | handleBatteryRemoved => exact clear_consistent_iff

end PowerSource

namespace AppleACPIBatteryDevice

def powerSource (s : AppleACPIBatteryDevice) : PowerSource where
  batteryPresent := s.batteryPresent
  batteryInstalled := s.properties.batteryInstalled
  acConnected := s.acConnected
  externalConnected := s.properties.externalConnected
  acChargeCapable := s.acChargeCapable
  externalChargeCapable := s.properties.externalChargeCapable
  isCharging := s.properties.isCharging
  fullyCharged := s.properties.fullyCharged

/-- The two copies of the flags agree, and they agree with each other. -/
def Consistent (s : AppleACPIBatteryDevice) : Prop := s.powerSource.Consistent

theorem powerSource_setBatteryBIF (s : AppleACPIBatteryDevice) (p : BIF) :
    (s.setBatteryBIF p).powerSource = s.powerSource := by
  unfold setBatteryBIF
  dsimp only
  split <;> rfl

theorem powerSource_setState (s : AppleACPIBatteryDevice) (currentStatus : UInt32) :
    (s.setState currentStatus).powerSource = s.powerSource.readBST currentStatus := by
  unfold setState PowerSource.readBST
  by_cases hd : currentStatus &&& BATTERY_DISCHARGING = 0 <;>
    by_cases hc : currentStatus &&& BATTERY_CHARGING = 0 <;> simp [hd, hc] <;> rfl

theorem powerSource_setQuickPoll (s : AppleACPIBatteryDevice) :
    s.setQuickPoll.powerSource = s.powerSource := by
  unfold setQuickPoll
  split <;> rfl

theorem powerSource_setBatteryBST (s : AppleACPIBatteryDevice) (p : BST) :
    (s.setBatteryBST p).powerSource = s.powerSource.readBST p.state := by
  have hcells : (s.setBatteryBST p).powerSource =
      ((s.readStatus p).setState p.state).setQuickPoll.powerSource := by
    unfold setBatteryBST
    generalize ((s.readStatus p).setState p.state).setQuickPoll = q
    rfl
  calc (s.setBatteryBST p).powerSource
      = ((s.readStatus p).setState p.state).setQuickPoll.powerSource := hcells
    _ = ((s.readStatus p).setState p.state).powerSource := powerSource_setQuickPoll _
    _ = (s.readStatus p).powerSource.readBST p.state := powerSource_setState _ _

theorem powerSource_pollExisting (s : AppleACPIBatteryDevice) (r : Reads) :
    (s.pollExisting r).powerSource = s.powerSource.poll r := by
  have hsta : (s.readSTA r).powerSource =
      r.batterySTA.elim s.powerSource s.powerSource.readSTA := by
    unfold readSTA
    cases r.batterySTA <;> rfl
  have hpresent : (s.readSTA r).batteryPresent =
      (r.batterySTA.elim s.powerSource s.powerSource.readSTA).batteryPresent :=
    congrArg PowerSource.batteryPresent hsta
  have hbif (t : AppleACPIBatteryDevice) : (t.readBIF r).powerSource = t.powerSource := by
    unfold readBIF
    cases r.batteryBIF with
    | none => rfl
    | some p => exact powerSource_setBatteryBIF t p
  have hbst (t : AppleACPIBatteryDevice) : (t.readBST r).powerSource =
      r.batteryBST.elim t.powerSource fun p => t.powerSource.readBST p.state := by
    unfold readBST
    cases r.batteryBST with
    | none => rfl
    | some p => exact powerSource_setBatteryBST t p
  show AppleACPIBatteryDevice.powerSource
    (if (s.readSTA r).batteryPresent then _ else _) = _
  unfold PowerSource.poll
  dsimp only
  rw [← hsta]
  split
  next h => rw [if_pos (by rw [← h]; rfl), hbst, hbif]
  next h => rw [if_neg (by exact h)]; rfl

/-- The flags follow the calls on their own. -/
theorem powerSource_apply (s : AppleACPIBatteryDevice) (c : Call) :
    (s.apply c).powerSource = s.powerSource.apply c := by
  have hpoll (path : ℕ) (r : Reads) :
      (s.pollBatteryState path r).powerSource = s.powerSource.poll r := by
    unfold pollBatteryState
    split
    · exact powerSource_pollExisting s.beginReadAll r
    · exact powerSource_pollExisting s r
  cases c with
  | setBatterySTA sta => rfl
  | setBatteryBIF p => exact powerSource_setBatteryBIF s p
  | setBatteryBST p => exact powerSource_setBatteryBST s p
  | pollBatteryState path r => exact hpoll path r
  | handleBatteryInserted r => exact hpoll kNewBatteryPath r
  | handleBatteryRemoved => rfl

theorem start_consistent (debugPollingSetting : Option UInt32) (r : Reads) :
    (start debugPollingSetting r).Consistent := by
  have hfresh : (fresh debugPollingSetting).powerSource.Consistent :=
    ⟨rfl, rfl, rfl, by simp [powerSource, fresh, clearBatteryState, Properties.empty,
      Properties.clear, Properties.rebuildLegacyIOBatteryInfo], fun _ => ⟨rfl, rfl⟩⟩
  have hstart := powerSource_apply (fresh debugPollingSetting) (.handleBatteryInserted r)
  show ((fresh debugPollingSetting).apply (.handleBatteryInserted r)).powerSource.Consistent
  rw [hstart]
  exact (hfresh.poll_iff r).mpr (.inr ⟨rfl, rfl⟩)

/-- The published flags stay consistent in all states of a run exactly if no call leaves
a flag published that an absent battery must not have. -/
theorem run_consistent_iff (debugPollingSetting : Option UInt32) (r : Reads)
    (calls : List Call) :
    Transition.Throughout step Consistent (start debugPollingSetting r) calls ↔
      Transition.Guarded step (fun s c => s.powerSource.Harmless c)
        (start debugPollingSetting r) calls := by
  refine Transition.throughout_iff_guarded (fun s c hs => ?_)
    (start_consistent debugPollingSetting r) calls
  rw [← PowerSource.Consistent.apply_iff hs c, ← powerSource_apply]
  constructor
  · intro hc t ht
    rw [step, Option.some.injEq] at ht
    exact ht ▸ hc
  · intro h
    exact h _ rfl

/-- A battery that is charged while the AC adapter is connected. -/
def chargedReads : Reads := ⟨some 0x1F, none, some ⟨0, 0, 4000, 12000⟩⟩

/-- The removal of a charged battery, and a poll that finds it gone. -/
theorem chargedRemoved_inconsistent :
    ¬ Transition.Throughout step Consistent (start none chargedReads) [.handleBatteryRemoved] ∧
      ¬ Transition.Throughout step Consistent (start none chargedReads)
        [.pollBatteryState kExistingBatteryPath ⟨some 0x0F, none, none⟩] := by
  constructor
  · intro h
    have habsent := (h.2 _ rfl).absent rfl
    exact absurd habsent.2 (by decide)
  · intro h
    have hexternal := (h.2 _ rfl).externalConnected
    exact absurd hexternal (by decide)

end AppleACPIBatteryDevice
end Battery
