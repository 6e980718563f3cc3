import NetbookInstaller.TouchPad.State

/-! The preferences of the touchpad: the pane that stores them and shows them again, the program
that hands them to the driver at login, and the driver. -/
namespace PS2PrefrencePane

def APP_ID : String := "com.meklort.ps2.prefrences"
def kTPEdgeScrolling : String := "kTPEdgeScrolling"
def kTPScrollArea : String := "kTPScrollArea"
def kTPHorizScroll : String := "kTPHorizScroll"
def kTPScrollSpeed : String := "kTPScrollSpeed"
def kTPTrackSpeed : String := "kTPTrackSpeed"
def kTPSensitivity : String := "kTPSensitivity"
def kTPAccelRate : String := "kTPAccelRate"
def kTPTapToClick : String := "kTPTapToClick"
def kTPDraggin : String := "kTPDraggin"
def kTPDragLock : String := "kTPDragLock"

/-- The numbers that the pane makes; a `double` is a rational. -/
inductive NSNumber where
  | bool (value : Bool)
  | double (value : ℚ)
  deriving DecidableEq

abbrev Dictionary := String → Option NSNumber

/-- The preferences of the user, by application id. -/
abbrev CFPreferences := String → Dictionary

def CFPreferences.setMultiple (prefs : CFPreferences) (keysToSet : List (String × NSNumber))
    (applicationID : String) : CFPreferences :=
  fun app => if app = applicationID then fun key => (keysToSet.lookup key).or (prefs app key)
    else prefs app

/-- The check boxes and the sliders of the pane. -/
@[ext]
structure Controls where
  edgescroll : Bool
  horizontalScrolling : Bool
  tapToClick : Bool
  dragging : Bool
  dragLock : Bool
  trackpadSensitivity : ℚ
  scrollArea : ℚ
  scrollSpeed : ℚ
  trackingSpeed : ℚ
  accelerationRate : ℚ
  deriving DecidableEq

/-- The dictionary that `setPrefrences` makes. The acceleration rate is taken from the slider of the
scroll area. -/
def settings (c : Controls) : List (String × NSNumber) :=
  [(kTPEdgeScrolling, .bool c.edgescroll),
    (kTPHorizScroll, .bool c.horizontalScrolling),
    (kTPTapToClick, .bool c.tapToClick),
    (kTPDraggin, .bool c.dragging),
    (kTPDragLock, .bool c.dragLock),
    (kTPSensitivity, .double c.trackpadSensitivity),
    (kTPScrollArea, .double c.scrollArea),
    (kTPScrollSpeed, .double c.scrollSpeed),
    (kTPTrackSpeed, .double c.trackingSpeed),
    (kTPAccelRate, .double c.scrollArea)]

def setPrefrences (c : Controls) (prefs : CFPreferences) : CFPreferences :=
  prefs.setMultiple (settings c) APP_ID

section AwakeFromNib
-- the rounding of a `double` to a `float`
variable (toFloat : ℚ → ℚ)

def NSNumber.floatValue : NSNumber → ℚ
  | .bool value => if value then 1 else 0
  | .double value => toFloat value

def NSNumber.boolValue : NSNumber → Bool
  | .bool value => value
  | .double value => value ≠ 0

def checkbox (dict : Dictionary) (key : String) : Bool :=
  ((dict key).map NSNumber.boolValue).getD false

def slider (dict : Dictionary) (key : String) : ℚ :=
  ((dict key).map (NSNumber.floatValue toFloat)).getD 3

def awakeFromNib (prefs : CFPreferences) : Controls where
  edgescroll := checkbox (prefs APP_ID) kTPEdgeScrolling
  horizontalScrolling := checkbox (prefs APP_ID) kTPHorizScroll
  tapToClick := checkbox (prefs APP_ID) kTPTapToClick
  dragging := checkbox (prefs APP_ID) kTPDraggin
  dragLock := checkbox (prefs APP_ID) kTPDragLock
  scrollArea := slider toFloat (prefs APP_ID) kTPScrollArea
  scrollSpeed := slider toFloat (prefs APP_ID) kTPScrollSpeed
  trackingSpeed := slider toFloat (prefs APP_ID) kTPTrackSpeed
  trackpadSensitivity := slider toFloat (prefs APP_ID) kTPSensitivity
  accelerationRate := slider toFloat (prefs APP_ID) kTPAccelRate

end AwakeFromNib

end PS2PrefrencePane

namespace PS2PreferenceSetter

def APP_ID : String := "com.meklort.ps2.preferences"

/-- What the setter hands to the driver. -/
def properties (prefs : PS2PrefrencePane.CFPreferences) : PS2PrefrencePane.Dictionary := prefs APP_ID

end PS2PreferenceSetter

namespace TouchPad

open PS2PrefrencePane (Dictionary NSNumber)

def kTPScrollMode : String := "kTPScrollMode"
def kTPScrollArea : String := "kTPScrollArea"
def kTPGestureMode : String := "kTPGestureMode"
def kTPHorizScroll : String := "kTPHorizScroll"
def kTPScrollSpeed : String := "kTPScrollSpeed"
def kTPOneFingerThreshold : String := "kTPOneFingerThreshold"
def kTPTwoFingerThreshold : String := "kTPTwoFingerThreshold"
def kTPThreeFingerThreshold : String := "kTPThreeFingerThreshold"
def kTPTrackSpeed : String := "kTPTrackSpeed"
def kTPTapToClick : String := "kTPTapToClick"
def kTPDraggin : String := "kTPDraggin"
def kTPDragLock : String := "kTPDragLock"
def kTPSecondaryClick : String := "kTPSecondaryClick"
def kTPSwapButtons : String := "kTPSwapButtons"
def kTPClickDelay : String := "kTPClickDelay"
def kTPReleaseDelay : String := "kTPReleaseDelay"

-- the kernel's number for a number of the dictionary
variable (unsigned32BitValue : ℚ → UInt32)

/-- `OSDynamicCast` of an entry to `OSBoolean`. -/
def osBoolean (dict : Dictionary) (key : String) : Option Bool :=
  (dict key).bind fun
    | .bool value => some value
    | .double _ => none

/-- `OSDynamicCast` of an entry to `OSNumber`. -/
def osNumber (dict : Dictionary) (key : String) : Option UInt32 :=
  (dict key).bind fun
    | .bool _ => none
    | .double value => some (unsigned32BitValue value)

/-- What `setParamProperties` takes from the dictionary. -/
def paramProperties (dict : Dictionary) : ParamProperties where
  scrollMode := (osNumber unsigned32BitValue dict kTPScrollMode).map UInt32.toUInt8
  horizScroll := osBoolean dict kTPHorizScroll
  scrollArea := osNumber unsigned32BitValue dict kTPScrollArea
  gestureMode := (osNumber unsigned32BitValue dict kTPGestureMode).map UInt32.toUInt8
  tapToClick := osBoolean dict kTPTapToClick
  draggin := osBoolean dict kTPDraggin
  dragLock := osBoolean dict kTPDragLock
  secondaryClick := osBoolean dict kTPSecondaryClick
  swapButtons := osBoolean dict kTPSwapButtons
  oneFingerThreshold := osNumber unsigned32BitValue dict kTPOneFingerThreshold
  twoFingerThreshold := osNumber unsigned32BitValue dict kTPTwoFingerThreshold
  threeFingerThreshold := osNumber unsigned32BitValue dict kTPThreeFingerThreshold
  scrollSpeed := osNumber unsigned32BitValue dict kTPScrollSpeed
  trackSpeed := osNumber unsigned32BitValue dict kTPTrackSpeed
  clickDelay := osNumber unsigned32BitValue dict kTPClickDelay
  releaseDelay := osNumber unsigned32BitValue dict kTPReleaseDelay

/-- The entry under the key makes a difference to the driver. -/
def Reads (key : String) : Prop :=
  ∃ dict dict' : Dictionary, (∀ other, other ≠ key → dict other = dict' other) ∧
    paramProperties unsigned32BitValue dict ≠ paramProperties unsigned32BitValue dict'

def readKeys : List String :=
  [kTPScrollMode, kTPHorizScroll, kTPScrollArea, kTPGestureMode, kTPTapToClick, kTPDraggin,
    kTPDragLock, kTPSecondaryClick, kTPSwapButtons, kTPOneFingerThreshold, kTPTwoFingerThreshold,
    kTPThreeFingerThreshold, kTPScrollSpeed, kTPTrackSpeed, kTPClickDelay, kTPReleaseDelay]

section Reads
variable {unsigned32BitValue : ℚ → UInt32} {key : String}

theorem paramProperties_congr {dict dict' : Dictionary} (h : ∀ k ∈ readKeys, dict k = dict' k) :
    paramProperties unsigned32BitValue dict = paramProperties unsigned32BitValue dict' := by
  simp only [readKeys, List.forall_mem_cons] at h
  obtain ⟨h1, h2, h3, h4, h5, h6, h7, h8, h9, h10, h11, h12, h13, h14, h15, h16, -⟩ := h
  simp only [paramProperties, osBoolean, osNumber, h1, h2, h3, h4, h5, h6, h7, h8, h9, h10, h11,
    h12, h13, h14, h15, h16]

/-- An entry makes a difference if its absence does. -/
theorem reads_of_isSome (number : NSNumber) (field : ParamProperties → Bool)
    (hnone : field (paramProperties unsigned32BitValue fun _ => none) = false)
    (hsome : field (paramProperties unsigned32BitValue
      fun other => if other = key then some number else none) = true) :
    Reads unsigned32BitValue key := by
  refine ⟨fun _ => none, fun other => if other = key then some number else none,
    fun other hother => (if_neg hother).symm, fun hsame => ?_⟩
  rw [hsame, hsome] at hnone
  cases hnone

/-- The driver reads these keys and no others. -/
theorem reads_iff : Reads unsigned32BitValue key ↔ key ∈ readKeys := by
  constructor
  · rintro ⟨dict, dict', hagree, hdiffer⟩
    by_contra hkey
    refine hdiffer (paramProperties_congr fun k hk => hagree k ?_)
    rintro rfl
    exact hkey hk
  · intro hkey
    simp only [readKeys, List.mem_cons, List.not_mem_nil, or_false] at hkey
    rcases hkey with rfl | rfl | rfl | rfl | rfl | rfl | rfl | rfl | rfl | rfl | rfl | rfl | rfl |
      rfl | rfl | rfl
    · exact reads_of_isSome (.double 0) (·.scrollMode.isSome) rfl rfl
    · exact reads_of_isSome (.bool true) (·.horizScroll.isSome) rfl rfl
    · exact reads_of_isSome (.double 0) (·.scrollArea.isSome) rfl rfl
    · exact reads_of_isSome (.double 0) (·.gestureMode.isSome) rfl rfl
    · exact reads_of_isSome (.bool true) (·.tapToClick.isSome) rfl rfl
    · exact reads_of_isSome (.bool true) (·.draggin.isSome) rfl rfl
    · exact reads_of_isSome (.bool true) (·.dragLock.isSome) rfl rfl
    · exact reads_of_isSome (.bool true) (·.secondaryClick.isSome) rfl rfl
    · exact reads_of_isSome (.bool true) (·.swapButtons.isSome) rfl rfl
    · exact reads_of_isSome (.double 0) (·.oneFingerThreshold.isSome) rfl rfl
    · exact reads_of_isSome (.double 0) (·.twoFingerThreshold.isSome) rfl rfl
    · exact reads_of_isSome (.double 0) (·.threeFingerThreshold.isSome) rfl rfl
    · exact reads_of_isSome (.double 0) (·.scrollSpeed.isSome) rfl rfl
    · exact reads_of_isSome (.double 0) (·.trackSpeed.isSome) rfl rfl
    · exact reads_of_isSome (.double 0) (·.clickDelay.isSome) rfl rfl
    · exact reads_of_isSome (.double 0) (·.releaseDelay.isSome) rfl rfl

end Reads

end TouchPad

namespace PS2PrefrencePane

section RoundTrip
variable (toFloat : ℚ → ℚ) (unsigned32BitValue : ℚ → UInt32) (prefs : CFPreferences) (c : Controls)

/-- What the pane stores comes back to its controls and to the driver, which reads all of it. -/
structure RoundTrip : Prop where
  restored : awakeFromNib toFloat (setPrefrences c prefs) = c
  handed : PS2PreferenceSetter.properties (setPrefrences c prefs) = setPrefrences c prefs APP_ID
  read : ∀ key ∈ (settings c).map Prod.fst, TouchPad.Reads unsigned32BitValue key

theorem setPrefrences_pane (key : String) :
    setPrefrences c prefs APP_ID key = ((settings c).lookup key).or (prefs APP_ID key) := by
  rw [setPrefrences, CFPreferences.setMultiple, if_pos rfl]

/-- The application ids of the pane and of the setter are spelled differently. -/
theorem properties_setPrefrences :
    PS2PreferenceSetter.properties (setPrefrences c prefs) = PS2PreferenceSetter.properties prefs := by
  have hother : PS2PreferenceSetter.APP_ID ≠ APP_ID := by decide
  rw [PS2PreferenceSetter.properties, setPrefrences, CFPreferences.setMultiple, if_neg hother]
  rfl

/-- The pane shows what it has stored, and the scroll area for the acceleration rate. -/
theorem awakeFromNib_setPrefrences :
    awakeFromNib toFloat (setPrefrences c prefs) =
      { c with
        trackpadSensitivity := toFloat c.trackpadSensitivity
        scrollArea := toFloat c.scrollArea
        scrollSpeed := toFloat c.scrollSpeed
        trackingSpeed := toFloat c.trackingSpeed
        accelerationRate := toFloat c.scrollArea } := by
  simp only [awakeFromNib, checkbox, slider, setPrefrences_pane]
  rfl

theorem restored_iff :
    awakeFromNib toFloat (setPrefrences c prefs) = c ↔
      (∀ value ∈ [c.trackpadSensitivity, c.scrollArea, c.scrollSpeed, c.trackingSpeed],
        toFloat value = value) ∧ c.accelerationRate = c.scrollArea := by
  simp only [awakeFromNib_setPrefrences, Controls.ext_iff, List.forall_mem_cons, true_and]
  constructor
  · rintro ⟨hsensitivity, harea, hspeed, htrack, hrate⟩
    exact ⟨⟨hsensitivity, harea, hspeed, htrack, fun _ h => absurd h List.not_mem_nil⟩,
      hrate.symm.trans harea⟩
  · rintro ⟨⟨hsensitivity, harea, hspeed, htrack, -⟩, hrate⟩
    exact ⟨hsensitivity, harea, hspeed, htrack, harea.trans hrate.symm⟩

/-- Of what the pane stores the driver reads all but these three. -/
theorem read_iff {key : String} (hkey : key ∈ (settings c).map Prod.fst) :
    TouchPad.Reads unsigned32BitValue key ↔ key ∉ [kTPEdgeScrolling, kTPSensitivity, kTPAccelRate] := by
  rw [TouchPad.reads_iff]
  simp only [settings, List.map_cons, List.map_nil, List.mem_cons, List.not_mem_nil, or_false] at hkey
  rcases hkey with rfl | rfl | rfl | rfl | rfl | rfl | rfl | rfl | rfl | rfl <;> decide

/-- No state of the controls comes back whole: the setter hands over what is stored under its own id,
and three of the keys are not read. The pane itself shows the state again if the acceleration rate is
where the scroll area is and no slider is between two `float`s. -/
theorem setPrefrences_never_roundTrip :
    ¬ RoundTrip toFloat unsigned32BitValue prefs c ∧
      (awakeFromNib toFloat (setPrefrences c prefs) = c ↔
        (∀ value ∈ [c.trackpadSensitivity, c.scrollArea, c.scrollSpeed, c.trackingSpeed],
          toFloat value = value) ∧ c.accelerationRate = c.scrollArea) ∧
      PS2PreferenceSetter.properties (setPrefrences c prefs) =
        PS2PreferenceSetter.properties prefs ∧
      ∀ key ∈ (settings c).map Prod.fst, TouchPad.Reads unsigned32BitValue key ↔
        key ∉ [kTPEdgeScrolling, kTPSensitivity, kTPAccelRate] := by
  refine ⟨fun h => ?_, restored_iff toFloat prefs c, properties_setPrefrences prefs c,
    fun key hkey => read_iff unsigned32BitValue c hkey⟩
  have hmem : kTPEdgeScrolling ∈ (settings c).map Prod.fst := List.mem_cons_self
  exact (read_iff unsigned32BitValue c hmem).mp (h.read _ hmem) List.mem_cons_self

end RoundTrip

/-- All boxes checked, a narrow scroll area and fast acceleration. -/
def fastAcceleration : Controls where
  edgescroll := true
  horizontalScrolling := true
  tapToClick := true
  dragging := true
  dragLock := true
  trackpadSensitivity := 5
  scrollArea := 2
  scrollSpeed := 5
  trackingSpeed := 5
  accelerationRate := 9

/-- The pane shows the slider of the scroll area for the acceleration, and the driver is handed
nothing of what has been stored. -/
theorem fastAcceleration_lost :
    (awakeFromNib id (setPrefrences fastAcceleration fun _ _ => none)).accelerationRate = 2 ∧
      PS2PreferenceSetter.properties (setPrefrences fastAcceleration fun _ _ => none)
        kTPTapToClick = none ∧
      setPrefrences fastAcceleration (fun _ _ => none) APP_ID kTPTapToClick = some (.bool true) ∧
      ¬ RoundTrip id (fun value => UInt32.ofNat value.floor.toNat) (fun _ _ => none)
        fastAcceleration := by
  refine ⟨rfl, rfl, rfl, fun h => ?_⟩
  have hrate := congrArg Controls.accelerationRate h.restored
  rw [awakeFromNib_setPrefrences] at hrate
  exact absurd hrate (by decide)

end PS2PrefrencePane
