import NetbookInstaller.PS2.Device
import Mathlib.Data.List.Chain
import Mathlib.Data.List.Induction
import Mathlib.Data.UInt

/-! The power states of the controller, and what it tells the drivers about them. -/
namespace PS2

def kCBEnableKeyboardIRQ : UInt8 := 0x01
def kCBEnableMouseIRQ : UInt8 := 0x02
def kCBDisableKeyboardClock : UInt8 := 0x10
def kCBDisableMouseClock : UInt8 := 0x20
def kPS2PowerStateSleep : UInt32 := 0
def kPS2PowerStateDoze : UInt32 := 1
def kPS2PowerStateNormal : UInt32 := 2

/-- What a driver's power-control handler is called with. -/
inductive WhatToDo where
  | disableDevice | enableDevice
  deriving DecidableEq, Repr

/-- What `setPowerStateGated` does, apart from the two fields that it sets. -/
inductive PowerEffect where
  | powerControl (deviceType : PS2DeviceType) (whatToDo : WhatToDo)
  | write (w : PortWrite)
  | readDataPort (deviceType : PS2DeviceType)
  | badPowerState (powerState : UInt32)
  | acknowledgeSetPowerState
  deriving DecidableEq, Repr

/-- What the effect tells the driver of a device. -/
@[simp] def PowerEffect.notification (d : PS2DeviceType) : PowerEffect → Option WhatToDo
  | .powerControl deviceType whatToDo => if deviceType = d then some whatToDo else none
  | _ => none

structure PowerController where
  powerControlInstalledMouse : Bool
  powerControlInstalledKeyboard : Bool
  currentPowerState : UInt32
  hardwareOffline : Bool
  effects : List PowerEffect
  deriving DecidableEq, Repr

/-- A call of `setPowerStateGated`, with the command byte that it reads on a wake-up. -/
structure PowerChange where
  powerState : UInt32
  commandByte : UInt8
  deriving DecidableEq, Repr

namespace PowerController

def initial (mouse keyboard : Bool) : PowerController :=
  ⟨mouse, keyboard, kPS2PowerStateNormal, false, []⟩

def installed (s : PowerController) : PS2DeviceType → Bool
  | .mouse => s.powerControlInstalledMouse
  | .keyboard => s.powerControlInstalledKeyboard

def emit (s : PowerController) (es : List PowerEffect) : PowerController :=
  { s with effects := s.effects ++ es }

def dispatchDriverPowerControl (s : PowerController) (whatToDo : WhatToDo) : PowerController :=
  let s := if s.powerControlInstalledMouse then s.emit [.powerControl .mouse whatToDo] else s
  if s.powerControlInstalledKeyboard then s.emit [.powerControl .keyboard whatToDo] else s

/-- The first stage of a wake-up. -/
def enablePort (s : PowerController) (commandByte : UInt8) : PowerController :=
  s.emit [.write (.command kCPGetCommandByte), .readDataPort .keyboard,
    .write (.command kCPSetCommandByte),
    .write (.data ((commandByte &&& ~~~(kCBDisableKeyboardClock ||| kCBDisableMouseClock)) |||
      (kCBEnableKeyboardIRQ ||| kCBEnableMouseIRQ)))]

/-- The `switch` on the new power state. -/
def changePowerState (s : PowerController) (c : PowerChange) : PowerController :=
  if c.powerState = kPS2PowerStateSleep then
    { s.dispatchDriverPowerControl .disableDevice with hardwareOffline := true }
  else if c.powerState = kPS2PowerStateDoze ∨ c.powerState = kPS2PowerStateNormal then
    if s.currentPowerState ≠ kPS2PowerStateSleep then s
    else { s.enablePort c.commandByte with hardwareOffline := false }.dispatchDriverPowerControl
      .enableDevice
  else s.emit [.badPowerState c.powerState]

def setPowerStateGated (s : PowerController) (c : PowerChange) : PowerController :=
  let s :=
    if s.currentPowerState ≠ c.powerState then
      { s.changePowerState c with currentPowerState := c.powerState }
    else s
  s.emit [.acknowledgeSetPowerState]

/-- What the driver of a device has been told, in order. -/
def notifications (s : PowerController) (d : PS2DeviceType) : List WhatToDo :=
  s.effects.filterMap (PowerEffect.notification d)

@[simp] theorem installed_emit (s : PowerController) (es : List PowerEffect) :
    (s.emit es).installed = s.installed := rfl

@[simp] theorem powerControlInstalledKeyboard_emit (s : PowerController)
    (es : List PowerEffect) :
    (s.emit es).powerControlInstalledKeyboard = s.powerControlInstalledKeyboard := rfl

@[simp] theorem notifications_emit (s : PowerController) (es : List PowerEffect)
    (d : PS2DeviceType) :
    (s.emit es).notifications d = s.notifications d ++ es.filterMap (PowerEffect.notification d) :=
  List.filterMap_append

theorem notifications_enablePort (s : PowerController) (commandByte : UInt8)
    (d : PS2DeviceType) : (s.enablePort commandByte).notifications d = s.notifications d := by
  rw [enablePort, notifications_emit]
  exact List.append_nil _

theorem installed_dispatch (s : PowerController) (w : WhatToDo) :
    (s.dispatchDriverPowerControl w).installed = s.installed := by
  unfold dispatchDriverPowerControl
  dsimp only
  split <;> split <;> rfl

theorem notifications_dispatch (s : PowerController) (w : WhatToDo) (d : PS2DeviceType) :
    (s.dispatchDriverPowerControl w).notifications d =
      s.notifications d ++ if s.installed d then [w] else [] := by
  unfold dispatchDriverPowerControl
  dsimp only
  cases hm : s.powerControlInstalledMouse <;> cases hk : s.powerControlInstalledKeyboard <;>
    cases d <;> simp [installed, hm, hk]

end PowerController

/-- The power states that `setPowerStateGated` knows. -/
def InRange (powerState : UInt32) : Prop :=
  powerState = kPS2PowerStateSleep ∨ powerState = kPS2PowerStateDoze ∨
    powerState = kPS2PowerStateNormal

instance (powerState : UInt32) : Decidable (InRange powerState) :=
  inferInstanceAs (Decidable (_ ∨ _ ∨ _))

/-- The last power state passed, in range or not. -/
def lastPassed (cs : List PowerChange) : UInt32 :=
  (cs.getLast?.map PowerChange.powerState).getD kPS2PowerStateNormal

/-- The last in-range power state passed. -/
def lastAccepted (cs : List PowerChange) : UInt32 :=
  cs.foldl (fun last c => if InRange c.powerState then c.powerState else last) kPS2PowerStateNormal

@[simp] theorem lastPassed_append_singleton (cs : List PowerChange) (c : PowerChange) :
    lastPassed (cs ++ [c]) = c.powerState := by
  simp [lastPassed]

@[simp] theorem lastAccepted_append_singleton (cs : List PowerChange) (c : PowerChange) :
    lastAccepted (cs ++ [c]) = if InRange c.powerState then c.powerState else lastAccepted cs := by
  simp [lastAccepted]

theorem lastAccepted_eq_lastPassed {cs : List PowerChange} (h : InRange (lastPassed cs)) :
    lastAccepted cs = lastPassed cs := by
  induction cs using List.reverseRecOn with
  | nil => rfl
  | append_singleton cs c ih =>
    rw [lastPassed_append_singleton] at h ⊢
    rw [lastAccepted_append_singleton, if_pos h]

/-- The notifications alternate, and the first one is to disable. -/
def Alternate (ws : List WhatToDo) : Prop :=
  (WhatToDo.enableDevice :: ws).IsChain (· ≠ ·)

instance (ws : List WhatToDo) : Decidable (Alternate ws) :=
  inferInstanceAs (Decidable (List.IsChain _ _))

/-- What a driver was told last; a started driver is enabled. -/
def lastTold (ws : List WhatToDo) : WhatToDo :=
  ws.getLast?.getD .enableDevice

@[simp] theorem lastTold_append_singleton (ws : List WhatToDo) (w : WhatToDo) :
    lastTold (ws ++ [w]) = w := by
  simp [lastTold]

theorem alternate_append_singleton {ws : List WhatToDo} {w : WhatToDo} :
    Alternate (ws ++ [w]) ↔ Alternate ws ∧ lastTold ws ≠ w := by
  unfold Alternate
  rw [← List.cons_append, List.isChain_append]
  simp [lastTold, List.getLast?_cons]

namespace PowerController

/-- The controller after a sequence of calls. -/
def after (mouse keyboard : Bool) (cs : List PowerChange) : PowerController :=
  cs.foldl setPowerStateGated (initial mouse keyboard)

@[simp] theorem after_append_singleton (mouse keyboard : Bool) (cs : List PowerChange)
    (c : PowerChange) :
    after mouse keyboard (cs ++ [c]) = (after mouse keyboard cs).setPowerStateGated c := by
  simp [after]

/-- What is wanted of the controller after the calls `cs`. -/
structure Consistent (s : PowerController) (cs : List PowerChange) : Prop where
  offline : s.hardwareOffline = true ↔ lastAccepted cs = kPS2PowerStateSleep
  alternate : ∀ d, Alternate (s.notifications d)

/-- What the controller does keep after any calls `cs`. -/
structure Follows (mouse keyboard : Bool) (s : PowerController) (cs : List PowerChange) :
    Prop where
  installed : s.installed = (initial mouse keyboard).installed
  current : s.currentPowerState = lastPassed cs
  told : ∀ d, s.installed d = true →
    lastTold (s.notifications d) = if s.hardwareOffline then .disableDevice else .enableDevice
  quiet : ∀ d, s.installed d = false → s.notifications d = []

/-- What a call tells the installed drivers. -/
def whatToDo (s : PowerController) (powerState : UInt32) : Option WhatToDo :=
  if s.currentPowerState = powerState then none
  else if powerState = kPS2PowerStateSleep then some .disableDevice
  else if InRange powerState ∧ s.currentPowerState = kPS2PowerStateSleep then some .enableDevice
  else none

theorem installed_setPowerStateGated (s : PowerController) (c : PowerChange) :
    (s.setPowerStateGated c).installed = s.installed := by
  unfold setPowerStateGated changePowerState
  dsimp only
  rw [installed_emit]
  split
  · split
    · exact installed_dispatch s .disableDevice
    · split
      · split
        · rfl
        · exact installed_dispatch _ .enableDevice
      · rfl
  · rfl

theorem currentPowerState_setPowerStateGated (s : PowerController) (c : PowerChange) :
    (s.setPowerStateGated c).currentPowerState = c.powerState := by
  unfold setPowerStateGated emit
  dsimp only
  split
  · rfl
  · next h => simpa using h

theorem hardwareOffline_dispatch (s : PowerController) (w : WhatToDo) :
    (s.dispatchDriverPowerControl w).hardwareOffline = s.hardwareOffline := by
  unfold dispatchDriverPowerControl
  dsimp only
  split <;> split <;> rfl

theorem hardwareOffline_setPowerStateGated (s : PowerController) (c : PowerChange) :
    (s.setPowerStateGated c).hardwareOffline =
      ((s.whatToDo c.powerState).map (· == .disableDevice)).getD s.hardwareOffline := by
  unfold setPowerStateGated changePowerState whatToDo
  dsimp only [emit]
  by_cases hsame : s.currentPowerState = c.powerState
  · simp [hsame]
  · simp only [ne_eq, hsame, not_false_eq_true, if_true, if_false]
    by_cases hsleep : c.powerState = kPS2PowerStateSleep
    · simp [hsleep]
    · by_cases hwake : c.powerState = kPS2PowerStateDoze ∨ c.powerState = kPS2PowerStateNormal
      · by_cases hasleep : s.currentPowerState = kPS2PowerStateSleep
        · simp [hsleep, hwake, hasleep, InRange, hardwareOffline_dispatch]
        · simp [hsleep, hwake, hasleep]
      · simp [hsleep, hwake, InRange]

theorem notifications_setPowerStateGated (s : PowerController) (c : PowerChange)
    (d : PS2DeviceType) :
    (s.setPowerStateGated c).notifications d = s.notifications d ++
      if s.installed d then (s.whatToDo c.powerState).toList else [] := by
  unfold setPowerStateGated whatToDo
  dsimp only
  rw [notifications_emit]
  simp only [List.filterMap_cons, PowerEffect.notification, List.filterMap_nil, List.append_nil]
  by_cases hsame : s.currentPowerState = c.powerState
  · simp [hsame]
  · simp only [ne_eq, hsame, not_false_eq_true, if_true, if_false]
    show (s.changePowerState c).notifications d = _
    unfold changePowerState
    by_cases hsleep : c.powerState = kPS2PowerStateSleep
    · simp only [hsleep, if_true]
      exact notifications_dispatch s .disableDevice d
    · by_cases hwake : c.powerState = kPS2PowerStateDoze ∨ c.powerState = kPS2PowerStateNormal
      · by_cases hasleep : s.currentPowerState = kPS2PowerStateSleep
        · simp only [hsleep, hwake, hasleep, InRange, or_true, if_true, if_false, ne_eq,
            not_true_eq_false, true_and]
          rw [notifications_dispatch]
          show (s.enablePort c.commandByte).notifications d ++
            (if s.installed d then [.enableDevice] else []) = _
          rw [notifications_enablePort]
          rfl
        · simp [hsleep, hwake, hasleep]
      · simp [hsleep, hwake, InRange]

theorem follows_initial (mouse keyboard : Bool) :
    Follows mouse keyboard (initial mouse keyboard) [] where
  installed := rfl
  current := rfl
  told := fun _ _ => rfl
  quiet := fun _ _ => rfl

theorem Follows.setPowerStateGated {mouse keyboard : Bool} {s : PowerController}
    {cs : List PowerChange} (h : Follows mouse keyboard s cs) (c : PowerChange) :
    Follows mouse keyboard (s.setPowerStateGated c) (cs ++ [c]) where
  installed := by rw [installed_setPowerStateGated, h.installed]
  current := by rw [currentPowerState_setPowerStateGated, lastPassed_append_singleton]
  told := by
    intro d hd
    rw [installed_setPowerStateGated] at hd
    rw [notifications_setPowerStateGated, hardwareOffline_setPowerStateGated, if_pos hd]
    cases s.whatToDo c.powerState with
    | none => simpa using h.told d hd
    | some w => cases w <;> simp
  quiet := by
    intro d hd
    rw [installed_setPowerStateGated] at hd
    rw [notifications_setPowerStateGated, hd, h.quiet d hd]
    rfl

theorem after_follows (mouse keyboard : Bool) (cs : List PowerChange) :
    Follows mouse keyboard (after mouse keyboard cs) cs := by
  induction cs using List.reverseRecOn with
  | nil => exact follows_initial mouse keyboard
  | append_singleton cs c ih =>
    rw [after_append_singleton]
    exact ih.setPowerStateGated c

/-- A state out of range was passed while asleep, and an in-range one follows; if this
is `kPS2PowerStateSleep`, it does harm only where a driver is told. -/
def ForgetsSleep (mouse keyboard : Bool) (cs : List PowerChange) (c : PowerChange) : Prop :=
  lastAccepted cs = kPS2PowerStateSleep ∧ ¬ InRange (lastPassed cs) ∧ InRange c.powerState ∧
    (c.powerState = kPS2PowerStateSleep → (mouse || keyboard) = true)

theorem Follows.exists_installed {mouse keyboard : Bool} {s : PowerController}
    {cs : List PowerChange} (h : Follows mouse keyboard s cs) :
    (∃ d, s.installed d = true) ↔ (mouse || keyboard) = true := by
  rw [h.installed]
  constructor
  · rintro ⟨d, hd⟩
    cases d with
    | keyboard => exact Bool.or_eq_true_iff.mpr (.inr hd)
    | mouse => exact Bool.or_eq_true_iff.mpr (.inl hd)
  · intro h
    rcases Bool.or_eq_true_iff.mp h with hm | hk
    · exact ⟨.mouse, hm⟩
    · exact ⟨.keyboard, hk⟩

/-- The notifications go on alternating exactly if no driver is told what it was told last. -/
theorem Follows.alternate_setPowerStateGated {mouse keyboard : Bool} {s : PowerController}
    {cs : List PowerChange} (hf : Follows mouse keyboard s cs)
    (hs : ∀ d, Alternate (s.notifications d)) (c : PowerChange) :
    (∀ d, Alternate ((s.setPowerStateGated c).notifications d)) ↔
      ((mouse || keyboard) = true → ∀ w, s.whatToDo c.powerState = some w →
        (if s.hardwareOffline then .disableDevice else .enableDevice) ≠ w) := by
  rw [← hf.exists_installed]
  constructor
  · rintro h ⟨d, hd⟩ w hw
    have ht := h d
    rw [notifications_setPowerStateGated, if_pos hd, hw, Option.toList_some,
      alternate_append_singleton, hf.told d hd] at ht
    exact ht.2
  · intro h d
    rw [notifications_setPowerStateGated]
    by_cases hd : s.installed d = true
    · cases hw : s.whatToDo c.powerState with
      | none => simpa using hs d
      | some w =>
        rw [if_pos hd, Option.toList_some, alternate_append_singleton, hf.told d hd]
        exact ⟨hs d, h ⟨d, hd⟩ w hw⟩
    · rw [if_neg hd, List.append_nil]
      exact hs d

/-- One call keeps the controller consistent exactly if it does not forget a sleep. -/
theorem Consistent.setPowerStateGated_iff {mouse keyboard : Bool} {s : PowerController}
    {cs : List PowerChange} (hf : Follows mouse keyboard s cs) (hs : s.Consistent cs)
    (c : PowerChange) :
    (s.setPowerStateGated c).Consistent (cs ++ [c]) ↔ ¬ ForgetsSleep mouse keyboard cs c := by
  have hlast : InRange s.currentPowerState → lastAccepted cs = s.currentPowerState := by
    rw [hf.current]
    exact lastAccepted_eq_lastPassed
  have hoffline : s.hardwareOffline = decide (lastAccepted cs = kPS2PowerStateSleep) := by
    rw [Bool.eq_iff_iff, decide_eq_true_iff]
    exact hs.offline
  have hconsistent : (s.setPowerStateGated c).Consistent (cs ++ [c]) ↔
      ((s.setPowerStateGated c).hardwareOffline = true ↔
        lastAccepted (cs ++ [c]) = kPS2PowerStateSleep) ∧
      ∀ d, Alternate ((s.setPowerStateGated c).notifications d) :=
    ⟨fun h => ⟨h.1, h.2⟩, fun h => ⟨h.1, h.2⟩⟩
  rw [hconsistent, hf.alternate_setPowerStateGated hs.alternate, lastAccepted_append_singleton,
    hardwareOffline_setPowerStateGated, ForgetsSleep, ← hf.current]
  unfold whatToDo
  have hsleepInRange : InRange kPS2PowerStateSleep := .inl rfl
  by_cases hsame : s.currentPowerState = c.powerState
  · -- nothing is done, and the state passed is the one the controller is in
    by_cases hrange : InRange c.powerState
    · have hlast := hlast (hsame ▸ hrange)
      simp [hsame, hrange, hoffline, hlast]
    · simp [hsame, hrange, hoffline]
  · by_cases hsleep : c.powerState = kPS2PowerStateSleep
    · -- the drivers are told to disable, again if the hardware is offline
      have hasleep : lastAccepted cs = kPS2PowerStateSleep → ¬ InRange s.currentPowerState := by
        intro h hr
        exact hsame (by rw [← hlast hr, h, hsleep])
      simp only [hsleep] at hsame ⊢
      by_cases hla : lastAccepted cs = kPS2PowerStateSleep
      · simp [hsame, hsleepInRange, hla, hasleep hla, hoffline]
      · simp [hsame, hsleepInRange, hla, hoffline]
    · by_cases hrange : InRange c.powerState
      · by_cases hasleep : s.currentPowerState = kPS2PowerStateSleep
        · -- a wake-up
          have hlast := hlast (hasleep ▸ hsleepInRange)
          rw [hasleep] at hsame hlast
          simp [hsame, hsleep, hrange, hasleep, hlast, hoffline, hsleepInRange]
        · -- a working state, whether the controller was in one or is taken for awake
          have hawake : InRange s.currentPowerState → lastAccepted cs ≠ kPS2PowerStateSleep := by
            intro h
            rw [hlast h]
            exact hasleep
          by_cases hla : lastAccepted cs = kPS2PowerStateSleep
          · have hout : ¬ InRange s.currentPowerState := fun h => hawake h hla
            simp [hsame, hsleep, hrange, hasleep, hoffline, hla, hout]
          · simp [hsame, hsleep, hrange, hasleep, hoffline, hla]
      · simp [hsame, hsleep, hrange, hoffline]

/-- The controller is consistent throughout a sequence of calls exactly if none of them
forgets a sleep: an in-range state that follows, during a sleep, one that is out of range. -/
theorem after_consistent_iff (mouse keyboard : Bool) (cs : List PowerChange) :
    (∀ bs, bs <+: cs → (after mouse keyboard bs).Consistent bs) ↔
      ∀ bs b, bs ++ [b] <+: cs → ¬ ForgetsSleep mouse keyboard bs b := by
  constructor
  · intro h bs b hb
    have hbs : bs <+: cs := (List.prefix_append bs [b]).trans hb
    have hnext := h _ hb
    rw [after_append_singleton] at hnext
    exact ((h bs hbs).setPowerStateGated_iff (after_follows mouse keyboard bs) b).mp hnext
  · intro h bs
    induction bs using List.reverseRecOn with
    | nil =>
      intro _
      exact ⟨by simp [after, initial, lastAccepted, kPS2PowerStateNormal, kPS2PowerStateSleep],
        fun d => List.isChain_singleton _⟩
    | append_singleton bs b ih =>
      intro hb
      have hbs := ih ((List.prefix_append bs [b]).trans hb)
      rw [after_append_singleton]
      exact (hbs.setPowerStateGated_iff (after_follows mouse keyboard bs) b).mpr (h bs b hb)

/-- State 5 during a sleep: the wake-up after it leaves the hardware offline, and the sleep
after it disables the devices again. -/
theorem badStateDuringSleep_inconsistent :
    ¬ (after true true [⟨0, 0⟩, ⟨5, 0⟩, ⟨2, 0x47⟩]).Consistent [⟨0, 0⟩, ⟨5, 0⟩, ⟨2, 0x47⟩] ∧
    ¬ (after true true [⟨0, 0⟩, ⟨5, 0⟩, ⟨0, 0⟩]).Consistent [⟨0, 0⟩, ⟨5, 0⟩, ⟨0, 0⟩] := by
  constructor
  · intro h
    have hlast := h.offline.mp (by decide)
    revert hlast
    decide
  · intro h
    have halternate := h.alternate .keyboard
    revert halternate
    decide

end PowerController
end PS2
