import NetbookInstaller.Battery.Published

/-! The timer that guards the rounds of reads on the new battery path, and when it is
armed. -/
namespace Battery

/-- What makes the device act: the poll timer, the manager, and the read-all timer. -/
inductive Trigger where
  | poll (r : Reads)
  | alarm (r : Reads)
  | inserted (r : Reads)
  | removed
  | wake (r : Reads)
  | readAllTimeOut (r : Reads)
  deriving DecidableEq, Repr

/-- The device; `pending` while no `_BST` package has been delivered since the last round
on the new battery path began. -/
structure ReadRounds where
  device : AppleACPIBatteryDevice
  pending : Bool
  deriving DecidableEq, Repr

namespace ReadRounds

/-- A round of reads delivers a `_BST` package: it reads one for a battery only. -/
def Delivers (s : ReadRounds) (r : Reads) : Prop :=
  s.device.powerSource.PresentAfter r ∧ r.batteryBST.isSome = true

instance (s : ReadRounds) (r : Reads) : Decidable (s.Delivers r) :=
  inferInstanceAs (Decidable (_ ∧ _))

def pollBatteryState (s : ReadRounds) (path : ℕ) (r : Reads) : ReadRounds where
  device := s.device.pollBatteryState path r
  pending := (s.pending || path = kNewBatteryPath) && ¬ s.Delivers r

/-- The device when the read-all timer has run out. -/
def expired (s : ReadRounds) : AppleACPIBatteryDevice :=
  { s.device with batteryReadAllTimer := s.device.batteryReadAllTimer.cancelTimeout }

/-- The action of the read-all timer. -/
def incompleteReadTimeOut (s : ReadRounds) (r : Reads) : ReadRounds where
  device := s.expired.incompleteReadTimeOut r
  pending := s.pending && ¬ s.Delivers r

/-- The read-all timer runs out only while it is set, and calls its action only if a work
loop has it. -/
def step (s : ReadRounds) : Trigger → Option ReadRounds
  | .poll r => some (s.pollBatteryState kExistingBatteryPath r)
  | .alarm r => some (s.pollBatteryState 0 r)
  | .inserted r => some (s.pollBatteryState kNewBatteryPath r)
  | .removed => some { s with device := s.device.handleBatteryRemoved }
  | .wake r => some (s.pollBatteryState kExistingBatteryPath r)
  | .readAllTimeOut r =>
    if s.device.batteryReadAllTimer.armed then
      some (if s.device.batteryReadAllTimer.inWorkLoop then s.incompleteReadTimeOut r else s)
    else none

/-- The device in `start`; its first round is that of an insertion. -/
def fresh (debugPollingSetting : Option UInt32) : ReadRounds := ⟨.fresh debugPollingSetting, false⟩

def Armed (s : ReadRounds) : Prop := s.device.batteryReadAllTimer.armed = true

instance (s : ReadRounds) : Decidable s.Armed := inferInstanceAs (Decidable (_ = true))

/-- The read-all timer watches the reads of a battery. -/
structure Watched (s : ReadRounds) : Prop where
  pending : s.Armed ↔ s.pending = true
  present : s.Armed → s.device.batteryPresent = true

/-- The read-all timer watches the reads after a trigger, and acts when it runs out. -/
structure Sound (s : ReadRounds) (e : Trigger) : Prop where
  watched : ∀ t, s.step e = some t → t.Watched
  expiry : ∀ r t, e = .readAllTimeOut r → s.step e = some t →
    t.device = s.expired.incompleteReadTimeOut r

/-- The triggers that keep the read-all timer right: no insertion without a battery, no
removal while the timer is set, and no time out. -/
def Harmless (s : ReadRounds) : Trigger → Prop
  | .inserted r => s.device.powerSource.PresentAfter r
  | .poll r | .alarm r | .wake r => s.device.powerSource.PresentAfter r ∨ ¬ s.Armed
  | .removed | .readAllTimeOut _ => ¬ s.Armed

instance (s : ReadRounds) : ∀ e, Decidable (s.Harmless e)
  | .inserted r => inferInstanceAs (Decidable (s.device.powerSource.PresentAfter r))
  | .poll r | .alarm r | .wake r =>
    inferInstanceAs (Decidable (s.device.powerSource.PresentAfter r ∨ ¬ s.Armed))
  | .removed | .readAllTimeOut _ => inferInstanceAs (Decidable (¬ s.Armed))

end ReadRounds

namespace AppleACPIBatteryDevice

theorem batteryReadAllTimer_setBatteryBIF (s : AppleACPIBatteryDevice) (p : BIF) :
    (s.setBatteryBIF p).batteryReadAllTimer = s.batteryReadAllTimer := by
  unfold setBatteryBIF
  dsimp only
  split <;> rfl

theorem batteryReadAllTimer_setState (s : AppleACPIBatteryDevice) (currentStatus : UInt32) :
    (s.setState currentStatus).batteryReadAllTimer = s.batteryReadAllTimer := by
  unfold setState
  extract_lets discharging charging
  split
  · rfl
  · split
    · rfl
    · split <;> rfl

theorem batteryReadAllTimer_setBatteryBST (s : AppleACPIBatteryDevice) (p : BST) :
    (s.setBatteryBST p).batteryReadAllTimer = s.batteryReadAllTimer.cancelTimeout := by
  have hquick (t : AppleACPIBatteryDevice) :
      t.setQuickPoll.batteryReadAllTimer = t.batteryReadAllTimer := by
    unfold setQuickPoll
    split <;> rfl
  exact congrArg IOTimerEventSource.cancelTimeout
    ((hquick _).trans (batteryReadAllTimer_setState (s.readStatus p) p.state))

theorem batteryPresent_pollExisting (s : AppleACPIBatteryDevice) (r : Reads) :
    (s.pollExisting r).batteryPresent = decide (s.powerSource.PresentAfter r) := by
  have hpoll : (s.pollExisting r).batteryPresent = (s.powerSource.poll r).batteryPresent :=
    congrArg PowerSource.batteryPresent (powerSource_pollExisting s r)
  rw [hpoll, PowerSource.poll_eq]
  by_cases h : s.powerSource.PresentAfter r
  · rw [if_pos h, decide_eq_true h]
    have hsta : (r.batterySTA.elim s.powerSource s.powerSource.readSTA).batteryPresent = true := by
      unfold PowerSource.PresentAfter at h
      cases hr : r.batterySTA with
      | none => rwa [hr] at h
      | some sta => rwa [hr] at h
    cases r.batteryBST with
    | none => exact hsta
    | some p => exact hsta
  · rw [if_neg h, decide_eq_false h]
    rfl

/-- A round of reads cancels the read-all timer exactly if it delivers a `_BST` package. -/
theorem batteryReadAllTimer_pollExisting (s : AppleACPIBatteryDevice) (r : Reads) :
    (s.pollExisting r).batteryReadAllTimer =
      if s.powerSource.PresentAfter r ∧ r.batteryBST.isSome = true then
        s.batteryReadAllTimer.cancelTimeout
      else s.batteryReadAllTimer := by
  have hsta : (s.readSTA r).batteryReadAllTimer = s.batteryReadAllTimer := by
    unfold readSTA
    cases r.batterySTA <;> rfl
  have hbif : ((s.readSTA r).readBIF r).batteryReadAllTimer = s.batteryReadAllTimer := by
    unfold readBIF
    cases r.batteryBIF with
    | none => exact hsta
    | some p => exact (batteryReadAllTimer_setBatteryBIF _ p).trans hsta
  have hpresent : (s.readSTA r).batteryPresent = true ↔ s.powerSource.PresentAfter r := by
    unfold readSTA PowerSource.PresentAfter
    cases r.batterySTA <;> exact Iff.rfl
  show AppleACPIBatteryDevice.batteryReadAllTimer
    (if (s.readSTA r).batteryPresent then _ else _) = _
  by_cases h : s.powerSource.PresentAfter r
  · rw [if_pos (hpresent.mpr h)]
    unfold readBST
    cases r.batteryBST with
    | none => rwa [if_neg (by simp)]
    | some p =>
      rw [if_pos ⟨h, rfl⟩]
      exact (batteryReadAllTimer_setBatteryBST _ p).trans
        (congrArg IOTimerEventSource.cancelTimeout hbif)
  · rw [if_neg (fun hp => h (hpresent.mp hp)), if_neg (fun hp => h hp.1)]
    exact hsta

end AppleACPIBatteryDevice

namespace ReadRounds
variable {s : ReadRounds}

theorem present_pollBatteryState (s : ReadRounds) (path : ℕ) (r : Reads) :
    (s.pollBatteryState path r).device.batteryPresent = true ↔
      s.device.powerSource.PresentAfter r := by
  unfold pollBatteryState AppleACPIBatteryDevice.pollBatteryState
  dsimp only
  split
  · rw [AppleACPIBatteryDevice.batteryPresent_pollExisting, decide_eq_true_iff]
    exact Iff.rfl
  · rw [AppleACPIBatteryDevice.batteryPresent_pollExisting, decide_eq_true_iff]

theorem armed_pollBatteryState (s : ReadRounds) (path : ℕ) (r : Reads) :
    (s.pollBatteryState path r).Armed ↔
      (s.Armed ∨ path = kNewBatteryPath) ∧ ¬ s.Delivers r := by
  have hpoll (d : AppleACPIBatteryDevice) (hd : d.powerSource = s.device.powerSource) :
      (d.pollExisting r).batteryReadAllTimer.armed = true ↔
        d.batteryReadAllTimer.armed = true ∧ ¬ s.Delivers r := by
    rw [AppleACPIBatteryDevice.batteryReadAllTimer_pollExisting, hd]
    by_cases hdelivers : s.device.powerSource.PresentAfter r ∧ r.batteryBST.isSome = true
    · rw [if_pos hdelivers]
      exact iff_of_false Bool.false_ne_true fun h => h.2 hdelivers
    · rw [if_neg hdelivers]
      exact (and_iff_left hdelivers).symm
  unfold Armed pollBatteryState AppleACPIBatteryDevice.pollBatteryState
  dsimp only
  by_cases hpath : path = kNewBatteryPath
  · rw [if_pos hpath, hpoll s.device.beginReadAll rfl]
    exact and_congr_left' (iff_of_true rfl (.inr hpath))
  · rw [if_neg hpath, hpoll s.device rfl]
    exact and_congr_left' (or_iff_left hpath).symm

theorem pending_pollBatteryState (s : ReadRounds) (path : ℕ) (r : Reads) :
    (s.pollBatteryState path r).pending = true ↔
      (s.pending = true ∨ path = kNewBatteryPath) ∧ ¬ s.Delivers r := by
  simp [pollBatteryState]

/-- A round leaves the timer right exactly if it finds a battery or the timer is not set. -/
theorem Watched.pollBatteryState_iff (h : s.Watched) (path : ℕ) (r : Reads) :
    (s.pollBatteryState path r).Watched ↔
      s.device.powerSource.PresentAfter r ∨ ¬ (s.Armed ∨ path = kNewBatteryPath) := by
  constructor
  · intro ht
    by_contra hnot
    rw [not_or, not_not] at hnot
    have harmed := (armed_pollBatteryState s path r).mpr ⟨hnot.2, fun hd => hnot.1 hd.1⟩
    exact hnot.1 ((present_pollBatteryState s path r).mp (ht.present harmed))
  · intro hor
    refine ⟨?_, fun harmed => ?_⟩
    · rw [armed_pollBatteryState, pending_pollBatteryState, h.pending]
    · have hset := (armed_pollBatteryState s path r).mp harmed
      exact (present_pollBatteryState s path r).mpr (hor.resolve_right (not_not.mpr hset.1))

theorem Watched.removed_iff (h : s.Watched) :
    Watched { s with device := s.device.handleBatteryRemoved } ↔ ¬ s.Armed := by
  constructor
  · intro ht harmed
    exact Bool.false_ne_true (ht.present harmed)
  · intro hnot
    exact ⟨h.pending, fun harmed => absurd harmed hnot⟩

/-- What the time out would do to the device is not what happens: the timer would no
longer be set. -/
theorem expired_ne (r : Reads) (h : s.Armed) :
    s.device ≠ s.expired.incompleteReadTimeOut r := by
  intro heq
  have htimer := congrArg AppleACPIBatteryDevice.batteryReadAllTimer heq
  have hpoll := AppleACPIBatteryDevice.batteryReadAllTimer_pollExisting
    (s.expired.logReadError .overallTimeoutExpired) r
  have hexisting : s.expired.incompleteReadTimeOut r =
      (s.expired.logReadError .overallTimeoutExpired).pollExisting r := rfl
  rw [hexisting, hpoll] at htimer
  unfold Armed at h
  rw [htimer] at h
  split at h <;> exact Bool.false_ne_true h

/-- What holds after every trigger of a sound run: the timer is right, and no work loop
has it. -/
def Good (s : ReadRounds) : Prop :=
  s.Watched ∧ s.device.batteryReadAllTimer.inWorkLoop = false

theorem inWorkLoop_pollBatteryState (s : ReadRounds) (path : ℕ) (r : Reads) :
    (s.pollBatteryState path r).device.batteryReadAllTimer.inWorkLoop =
      s.device.batteryReadAllTimer.inWorkLoop := by
  have hpoll (d : AppleACPIBatteryDevice) :
      (d.pollExisting r).batteryReadAllTimer.inWorkLoop = d.batteryReadAllTimer.inWorkLoop := by
    rw [AppleACPIBatteryDevice.batteryReadAllTimer_pollExisting]
    split <;> rfl
  unfold pollBatteryState AppleACPIBatteryDevice.pollBatteryState
  dsimp only
  split
  · exact hpoll s.device.beginReadAll
  · exact hpoll s.device

theorem step_inWorkLoop {e : Trigger} {t : ReadRounds}
    (h : s.device.batteryReadAllTimer.inWorkLoop = false) (ht : s.step e = some t) :
    t.device.batteryReadAllTimer.inWorkLoop = false := by
  cases e with
  | poll r | alarm r | inserted r | wake r =>
    rw [step, Option.some.injEq] at ht
    rw [← ht, inWorkLoop_pollBatteryState]
    exact h
  | removed =>
    rw [step, Option.some.injEq] at ht
    exact ht ▸ h
  | readAllTimeOut r =>
    rw [step, h] at ht
    split at ht
    · rw [if_neg Bool.false_ne_true, Option.some.injEq] at ht
      exact ht ▸ h
    · cases ht

theorem Good.sound_iff (h : s.Good) (e : Trigger) : s.Sound e ↔ s.Harmless e := by
  have hstep {e : Trigger} {t : ReadRounds} (he : s.step e = some t)
      (hexpiry : ∀ r, e ≠ .readAllTimeOut r) : s.Sound e ↔ t.Watched := by
    constructor
    · intro hs
      exact hs.watched t he
    · intro ht
      refine ⟨fun u hu => ?_, fun r u heq => absurd heq (hexpiry r)⟩
      rw [he, Option.some.injEq] at hu
      exact hu ▸ ht
  cases e with
  | poll r | wake r =>
    rw [hstep rfl (by simp), h.1.pollBatteryState_iff]
    exact or_congr_right (not_congr (or_iff_left (by decide)))
  | alarm r =>
    rw [hstep rfl (by simp), h.1.pollBatteryState_iff]
    exact or_congr_right (not_congr (or_iff_left (by decide)))
  | inserted r =>
    rw [hstep rfl (by simp), h.1.pollBatteryState_iff]
    exact or_iff_left (not_not.mpr (.inr rfl))
  | removed =>
    rw [hstep rfl (by simp)]
    exact h.1.removed_iff
  | readAllTimeOut r =>
    constructor
    · intro hs harmed
      refine expired_ne r harmed (hs.expiry r s rfl ?_)
      unfold Armed at harmed
      rw [step, if_pos harmed, h.2, if_neg Bool.false_ne_true]
    · intro hnot
      have hnone : s.step (.readAllTimeOut r) = none := if_neg hnot
      constructor
      · intro t ht
        rw [hnone] at ht
        cases ht
      · intro r' t _ ht
        rw [hnone] at ht
        cases ht

/-- The read-all timer is right throughout a run exactly if every insertion finds its
battery, no battery goes while the timer is set, and the timer never runs out. -/
theorem triggers_sound_iff (debugPollingSetting : Option UInt32) (r : Reads)
    (triggers : List Trigger) :
    Transition.Guarded step Sound (fresh debugPollingSetting) (.inserted r :: triggers) ↔
      Transition.Guarded step Harmless (fresh debugPollingSetting) (.inserted r :: triggers) := by
  refine Transition.guarded_congr (fun s e (hs : s.Good) => hs.sound_iff e) ?_ ?_ _
  · intro s e t hs hsound ht
    exact ⟨hsound.watched t ht, step_inWorkLoop hs.2 ht⟩
  · exact ⟨⟨iff_of_false Bool.false_ne_true Bool.false_ne_true,
      fun harmed => absurd harmed Bool.false_ne_true⟩, rfl⟩

/-- A round that finds no battery, and one in which the status of the battery cannot
be read. -/
def absentReads : Reads := ⟨some 0x0F, none, none⟩
def failedReads : Reads := ⟨some 0x1F, none, none⟩

/-- Without a battery the timer is set all the same. With one that cannot be read it
runs out and nothing happens; and it stays set when the battery is removed. -/
theorem absent_unsound :
    ¬ Transition.Guarded step Sound (fresh none) [.inserted absentReads] ∧
      ¬ Transition.Guarded step Sound (fresh none)
        [.inserted failedReads, .readAllTimeOut failedReads] ∧
      ¬ Transition.Guarded step Sound (fresh none) [.inserted failedReads, .removed] := by
  refine ⟨fun h => ?_, fun h => ?_, fun h => ?_⟩
  · exact absurd ((h.1.watched _ rfl).present rfl) (by decide)
  · have hexpiry := (h.2 _ rfl).1.expiry failedReads _ rfl rfl
    exact absurd (congrArg AppleACPIBatteryDevice.batteryReadAllTimer hexpiry) (by decide)
  · exact absurd (((h.2 _ rfl).1.watched _ rfl).present rfl) (by decide)

end ReadRounds
end Battery
