import NetbookInstaller.Battery.History

/-! The battery manager: its own copy of the `_STA` value, and how it classifies the
notifications of the ACPI platform by it. -/
namespace Battery

def kMyOnPowerState : ℕ := 1

structure AppleACPIBatteryManager where
  batterySTA : UInt32
  battery : AppleACPIBatteryDevice
  deriving DecidableEq, Repr

/-- A round of reads in which the evaluation of `_STA` succeeds. -/
structure Round where
  batterySTA : UInt32
  batteryBIF : Option BIF
  batteryBST : Option BST
  deriving DecidableEq, Repr

def Round.reads (r : Round) : Reads := ⟨some r.batterySTA, r.batteryBIF, r.batteryBST⟩

/-- What a notification is taken for. -/
inductive Notice where
  | inserted | removed | alarm
  deriving DecidableEq, Repr

namespace AppleACPIBatteryManager

/-- A poll of the device, which reads `_STA` through `getBatterySTA`. -/
def pollBatteryState (m : AppleACPIBatteryManager) (path : ℕ) (r : Round) :
    AppleACPIBatteryManager :=
  ⟨r.batterySTA, m.battery.pollBatteryState path r.reads⟩

def classify (m : AppleACPIBatteryManager) (batterySTA : UInt32) : Notice :=
  if batterySTA ^^^ m.batterySTA ≠ 0 then
    if staPresent batterySTA then .inserted else .removed
  else .alarm

/-- A device notification, for which `_STA` reads as `batterySTA`; `r` is the round of
reads that follows, if any does. -/
def message (m : AppleACPIBatteryManager) (batterySTA : UInt32) (r : Round) :
    AppleACPIBatteryManager :=
  match m.classify batterySTA with
  | .inserted => m.pollBatteryState kNewBatteryPath r
  | .removed => { m with battery := m.battery.handleBatteryRemoved }
  | .alarm => m.pollBatteryState 0 r

def setPowerState (m : AppleACPIBatteryManager) (which : ℕ) (r : Round) :
    AppleACPIBatteryManager :=
  if which = kMyOnPowerState then m.pollBatteryState kExistingBatteryPath r else m

/-- The manager with a battery device, started on its first round of reads. -/
def start (debugPollingSetting : Option UInt32) (r : Round) : AppleACPIBatteryManager :=
  ⟨r.batterySTA, .start debugPollingSetting r.reads⟩

end AppleACPIBatteryManager

inductive Event where
  | notification (batterySTA : UInt32) (r : Round)
  | poll (r : Round)
  | wake (which : ℕ) (r : Round)
  deriving DecidableEq, Repr

/-- The manager, with the last `_STA` value that was read. -/
structure Observed where
  manager : AppleACPIBatteryManager
  lastSTA : UInt32
  deriving DecidableEq, Repr

namespace Observed

/-- The `_STA` values that an event reads, in order. -/
def staReads (s : Observed) : Event → List UInt32
  | .notification batterySTA r =>
    if s.manager.classify batterySTA = .removed then [batterySTA] else [batterySTA, r.batterySTA]
  | .poll r => [r.batterySTA]
  | .wake which r => if which = kMyOnPowerState then [r.batterySTA] else []

def apply (s : Observed) (e : Event) : Observed where
  manager :=
    match e with
    | .notification batterySTA r => s.manager.message batterySTA r
    | .poll r => s.manager.pollBatteryState kExistingBatteryPath r
    | .wake which r => s.manager.setPowerState which r
  lastSTA := (s.staReads e).getLast?.getD s.lastSTA

def step (s : Observed) (e : Event) : Option Observed := some (s.apply e)

def start (debugPollingSetting : Option UInt32) (r : Round) : Observed :=
  ⟨.start debugPollingSetting r, r.batterySTA⟩

/-- Both copies of the presence follow the last value that was read. -/
structure Cached (s : Observed) : Prop where
  batterySTA : s.manager.batterySTA = s.lastSTA
  present : staPresent s.manager.batterySTA = s.manager.battery.batteryPresent

/-- Nothing of a battery is published. -/
def Cleared (p : Properties) : Prop := p.clear.rebuildLegacyIOBatteryInfo = p

/-- An event is handled as the presence of the battery changes. -/
structure Sound (s : Observed) (e : Event) : Prop where
  cached : (s.apply e).Cached
  inserted : ∀ batterySTA r, e = .notification batterySTA r → staPresent s.lastSTA = false →
    staPresent batterySTA = true → s.manager.classify batterySTA = .inserted
  removed : ∀ x y, [x, y] <:+: s.lastSTA :: s.staReads e → staPresent x = true →
    staPresent y = false → Cleared (s.apply e).manager.battery.properties
  unchanged : ∀ batterySTA r, e = .notification batterySTA r → batterySTA = s.lastSTA →
    s.manager.classify batterySTA = .alarm

/-- The event is no notification for an absent battery that the manager does not know
to be absent. -/
def Known (s : Observed) : Event → Prop
  | .notification batterySTA _ =>
    batterySTA = s.manager.batterySTA ∨ staPresent batterySTA = true
  | .poll _ | .wake _ _ => True

instance (s : Observed) : ∀ e, Decidable (s.Known e)
  | .notification _ _ => inferInstanceAs (Decidable (_ ∨ _))
  | .poll _ => inferInstanceAs (Decidable True)
  | .wake _ _ => inferInstanceAs (Decidable True)

theorem batteryPresent_pollBatteryState (m : AppleACPIBatteryManager) (path : ℕ) (r : Round) :
    staPresent r.batterySTA = (m.pollBatteryState path r).battery.batteryPresent := by
  have hflags := AppleACPIBatteryDevice.powerSource_apply m.battery
    (.pollBatteryState path r.reads)
  have hpresent : (m.pollBatteryState path r).battery.batteryPresent =
      (m.battery.powerSource.poll r.reads).batteryPresent :=
    congrArg PowerSource.batteryPresent hflags
  rw [hpresent, PowerSource.poll_eq]
  by_cases h : staPresent r.batterySTA = true
  · rw [if_pos (show m.battery.powerSource.PresentAfter r.reads from h)]
    unfold Round.reads
    cases r.batteryBST <;> rfl
  · rw [if_neg (show ¬ m.battery.powerSource.PresentAfter r.reads from h)]
    exact Bool.eq_false_iff.mpr h

theorem cleared_pollBatteryState (m : AppleACPIBatteryManager) (path : ℕ) {r : Round}
    (h : staPresent r.batterySTA = false) :
    Cleared (m.pollBatteryState path r).battery.properties := by
  have habsent : ¬ m.battery.powerSource.PresentAfter r.reads := Bool.eq_false_iff.mp h
  obtain ⟨-, -, p, hp⟩ :=
    (AppleACPIBatteryDevice.Removed.pollBatteryState path r.reads habsent).cleared
  show Cleared (m.battery.pollBatteryState path r.reads).properties
  rw [hp]
  rfl

theorem classify_eq (m : AppleACPIBatteryManager) (batterySTA : UInt32) :
    m.classify batterySTA =
      if batterySTA = m.batterySTA then .alarm
      else if staPresent batterySTA then .inserted else .removed := by
  unfold AppleACPIBatteryManager.classify
  simp only [ne_eq, UInt32.xor_eq_zero_iff, ite_not]

theorem classify_eq_removed_iff (m : AppleACPIBatteryManager) (batterySTA : UInt32) :
    m.classify batterySTA = .removed ↔
      ¬ (batterySTA = m.batterySTA ∨ staPresent batterySTA = true) := by
  rw [classify_eq, not_or]
  by_cases h : batterySTA = m.batterySTA
  · rw [if_pos h]
    exact iff_of_false (by decide) fun hne => hne.1 h
  · rw [if_neg h]
    cases staPresent batterySTA with
    | true => exact iff_of_false (by decide) fun hne => hne.2 rfl
    | false => exact iff_of_true rfl ⟨h, by decide⟩

/-- A known event leaves both copies as the last value that it reads. -/
theorem Cached.apply {s : Observed} (h : s.Cached) {e : Event} (he : s.Known e) :
    (s.apply e).Cached := by
  cases e with
  | notification batterySTA r =>
    have hnot : s.manager.classify batterySTA ≠ .removed :=
      fun hremoved => (classify_eq_removed_iff _ _).mp hremoved he
    unfold Observed.apply staReads
    dsimp only
    rw [if_neg hnot]
    unfold AppleACPIBatteryManager.message
    cases hclass : s.manager.classify batterySTA with
    | inserted => exact ⟨rfl, batteryPresent_pollBatteryState s.manager kNewBatteryPath r⟩
    | removed => exact absurd hclass hnot
    | alarm => exact ⟨rfl, batteryPresent_pollBatteryState s.manager 0 r⟩
  | poll r => exact ⟨rfl, batteryPresent_pollBatteryState s.manager kExistingBatteryPath r⟩
  | wake which r =>
    unfold Observed.apply staReads AppleACPIBatteryManager.setPowerState
    dsimp only
    split
    · exact ⟨rfl, batteryPresent_pollBatteryState s.manager kExistingBatteryPath r⟩
    · exact h

/-- A removal that the manager notices by a notification stays out of its own copy. -/
theorem not_cached_of_not_known {s : Observed} {e : Event} (he : ¬ s.Known e) :
    ¬ (s.apply e).Cached := by
  cases e with
  | notification batterySTA r =>
    have hremoved := (classify_eq_removed_iff s.manager batterySTA).mpr he
    intro hcached
    have hsame := hcached.batterySTA
    unfold Observed.apply staReads AppleACPIBatteryManager.message at hsame
    dsimp only at hsame
    rw [hremoved, if_pos rfl] at hsame
    exact he (.inl hsame.symm)
  | poll r => exact absurd trivial he
  | wake which r => exact absurd trivial he

/-- The last of the values that a known event reads decides whether the device is cleared. -/
theorem cleared_of_absent {s : Observed} (h : s.Cached) {e : Event} (he : s.Known e)
    {x y : UInt32} (hxy : [x, y] <:+: s.lastSTA :: s.staReads e) (hx : staPresent x = true)
    (hy : staPresent y = false) : Cleared (s.apply e).manager.battery.properties := by
  have hpoll (path : ℕ) (r : Round) (a : UInt32) (hxy : [x, y] = [a, r.batterySTA]) :
      Cleared (s.manager.pollBatteryState path r).battery.properties := by
    simp only [List.cons.injEq, and_true] at hxy
    exact cleared_pollBatteryState s.manager path (hxy.2 ▸ hy)
  cases e with
  | notification batterySTA r =>
    have hnot : s.manager.classify batterySTA ≠ .removed :=
      fun hremoved => (classify_eq_removed_iff _ _).mp hremoved he
    unfold staReads at hxy
    dsimp only at hxy
    rw [if_neg hnot] at hxy
    rcases List.infix_cons_iff.mp hxy with hfirst | hsecond
    · -- a known notification does not read the battery as gone
      obtain ⟨hlast, hfirst⟩ := List.cons_prefix_cons.mp hfirst
      obtain ⟨rfl, -⟩ := List.cons_prefix_cons.mp hfirst
      rcases he with hsame | hpresent
      · rw [hsame, h.batterySTA, ← hlast, hx] at hy
        exact absurd hy (by decide)
      · exact absurd (hpresent.symm.trans hy) (by decide)
    · have hpair := hsecond.eq_of_length rfl
      unfold Observed.apply AppleACPIBatteryManager.message
      dsimp only
      cases hclass : s.manager.classify batterySTA with
      | inserted => exact hpoll kNewBatteryPath r batterySTA hpair
      | removed => exact absurd hclass hnot
      | alarm => exact hpoll 0 r batterySTA hpair
  | poll r => exact hpoll kExistingBatteryPath r s.lastSTA (hxy.eq_of_length rfl)
  | wake which r =>
    unfold staReads at hxy
    unfold Observed.apply AppleACPIBatteryManager.setPowerState
    dsimp only at hxy ⊢
    by_cases hwhich : which = kMyOnPowerState
    · rw [if_pos hwhich] at hxy ⊢
      exact hpoll kExistingBatteryPath r s.lastSTA (hxy.eq_of_length rfl)
    · rw [if_neg hwhich] at hxy
      exact absurd hxy.length_le (Nat.lt_irrefl 1)

theorem sound_iff {s : Observed} (h : s.Cached) (e : Event) : s.Sound e ↔ s.Known e := by
  constructor
  · intro hs
    by_contra he
    exact not_cached_of_not_known he hs.cached
  · intro he
    refine ⟨h.apply he, ?_, fun x y hxy hx hy => cleared_of_absent h he hxy hx hy, ?_⟩
    · intro batterySTA r _ hlast hpresent
      rw [classify_eq, h.batterySTA]
      have hne : batterySTA ≠ s.lastSTA := by
        intro heq
        rw [heq, hlast] at hpresent
        exact absurd hpresent (by decide)
      rw [if_neg hne, if_pos hpresent]
    · intro batterySTA r _ hlast
      rw [classify_eq, h.batterySTA, if_pos hlast]

theorem start_cached (debugPollingSetting : Option UInt32) (r : Round) :
    (start debugPollingSetting r).Cached :=
  ⟨rfl, batteryPresent_pollBatteryState ⟨0, .fresh debugPollingSetting⟩ kNewBatteryPath r⟩

/-- All events of a run are handled as the presence of the battery changes exactly if the
run has no notification for a battery that is gone without the manager knowing it. -/
theorem events_sound_iff (debugPollingSetting : Option UInt32) (r : Round) (events : List Event) :
    Transition.Guarded step Sound (start debugPollingSetting r) events ↔
      Transition.Guarded step Known (start debugPollingSetting r) events := by
  refine Transition.guarded_congr (fun s e (hs : s.Cached) => sound_iff hs e) ?_
    (start_cached debugPollingSetting r) events
  intro s e t _ hsound ht
  rw [step, Option.some.injEq] at ht
  exact ht ▸ hsound.cached

/-- A round of reads without a battery, and one with a battery that only shows itself. -/
def absentRound : Round := ⟨0x0F, none, none⟩
def presentRound : Round := ⟨0x1F, none, none⟩

/-- A battery is taken out and put in again: the removal leaves the old value, so that the
insertion counts as an alarm. A second notification of the same removal counts as another
removal. -/
theorem removedInserted_unsound :
    ¬ Transition.Guarded step Sound (start none presentRound) [.notification 0x0F absentRound] ∧
      (∃ s, Transition.run step (start none presentRound) [.notification 0x0F absentRound] =
          some s ∧
        s.manager.batterySTA ≠ s.lastSTA ∧ s.manager.classify 0x1F = .alarm ∧
        s.manager.classify 0x0F = .removed) := by
  refine ⟨fun h => ?_, _, rfl, by decide, by decide, by decide⟩
  exact absurd h.1.cached.batterySTA (by decide)

end Observed
end Battery
