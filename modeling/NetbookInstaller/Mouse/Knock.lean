import NetbookInstaller.Mouse.Packet
import NetbookInstaller.PS2.Answers

/-! The knock by which the mouse driver and the mouse come to an understanding about the
format of the packets, and what becomes of it when requests fail. -/
namespace Mouse

open PS2

def kDPSetMouseSampleRate : UInt8 := 0xF3
def kDPGetId : UInt8 := 0xF2
def kDPSetDefaults : UInt8 := 0xF6

/-! The requests. -/

def setDefaultsRequest : PS2Request := .ofCommands [⟨.sendMouseCommandAndCompareAck, kDPSetDefaults⟩]

/-- A command with an argument: `setMouseSampleRate` and `setMouseResolution`. -/
def setMouseValue (command value : UInt8) : PS2Request := .ofCommands
  [⟨.writeCommandPort, kCPTransmitToMouse⟩, ⟨.writeDataPort, command⟩,
    ⟨.readDataPortAndCompare, kSCAcknowledge⟩, ⟨.writeCommandPort, kCPTransmitToMouse⟩,
    ⟨.writeDataPort, value⟩, ⟨.readDataPortAndCompare, kSCAcknowledge⟩]

def setMouseSampleRate (sampleRate : UInt8) : PS2Request :=
  setMouseValue kDPSetMouseSampleRate sampleRate

def setMouseResolution (resolution : UInt8) : PS2Request :=
  setMouseValue kDPSetMouseResolution resolution

def getMouseInformationRequest : PS2Request := .ofCommands
  [⟨.writeCommandPort, kCPTransmitToMouse⟩, ⟨.writeDataPort, kDPGetMouseInformation⟩,
    ⟨.readDataPortAndCompare, kSCAcknowledge⟩, ⟨.readDataPort, 0⟩, ⟨.readDataPort, 0⟩,
    ⟨.readDataPort, 0⟩]

def getMouseIDRequest : PS2Request := .ofCommands
  [⟨.writeCommandPort, kCPTransmitToMouse⟩, ⟨.writeDataPort, kDPGetId⟩,
    ⟨.readDataPortAndCompare, kSCAcknowledge⟩, ⟨.readDataPort, 0⟩]

/-! The mouse. -/

def PS2MouseId.byte : PS2MouseId → UInt8
  | .standard => 0x00
  | .intellimouse => 0x03
  | .intellimouseExplorer => 0x04

/-- What a kind of mouse makes of the knocks 200, 100, 80 and 200, 200, 80: the mode that
they lead to. Only the defaults lead back to packets of 3 bytes. -/
structure Knocks where
  first : PS2MouseId → PS2MouseId
  second : PS2MouseId → PS2MouseId
  first_ne : ∀ mode, mode ≠ .standard → first mode ≠ .standard
  second_ne : ∀ mode, mode ≠ .standard → second mode ≠ .standard

/-- A mouse: the mode that it sends its packets in, the rates that it has accepted since it
was set to its defaults, the last one first, and what it answers about itself. -/
structure Device where
  mode : PS2MouseId
  accepted : List UInt8
  status : UInt8
  resolution : UInt8
  sampleRate : UInt8
  deriving DecidableEq, Repr

namespace Device

def setDefaults (d : Device) : Device :=
  { d with mode := .standard, accepted := [], resolution := 2, sampleRate := 100 }

def accept (K : Knocks) (d : Device) (rate : UInt8) : Device :=
  { d with
    mode :=
      if rate = 80 ∧ d.accepted.take 2 = [100, 200] then K.first d.mode
      else if rate = 80 ∧ d.accepted.take 2 = [200, 200] then K.second d.mode
      else d.mode
    accepted := rate :: d.accepted
    sampleRate := rate }

end Device

/-- What becomes of a command with an argument. -/
inductive Fate where
  /-- The command is not acknowledged, so that the argument is not sent. -/
  | refused
  /-- The mouse does not take the argument. -/
  | lost
  /-- The mouse takes the argument, but its acknowledgement does not come in time. -/
  | unacknowledged
  | taken
  deriving DecidableEq, Repr

/-- What the reads of the request get. -/
def Fate.answers : Fate → ℕ → UInt8
  | .refused, _ => 0
  | .lost, i | .unacknowledged, i => if i = 2 then kSCAcknowledge else 0
  | .taken, i => if i = 2 ∨ i = 5 then kSCAcknowledge else 0

def Fate.Taken (f : Fate) : Prop := f = .unacknowledged ∨ f = .taken

instance (f : Fate) : Decidable f.Taken := inferInstanceAs (Decidable (_ ∨ _))

/-- The argument is written by the fifth command. -/
theorem sent_iff (f : Fate) (command value : UInt8) :
    4 < (completed f.answers (setMouseValue command value)).commandsCount ↔ f ≠ .refused := by
  cases f <;> simp [completed, setMouseValue, PS2Request.ofCommands, ProcessFrame.enter,
    ProcessFrame.answered, ProcessFrame.current, ProcessFrame.next, ProcessFrame.start,
    ProcessFrame.finish, ProcessFrame.complete, Fate.answers, kSCAcknowledge]

/-- What becomes of the requests of a reset. A query that is not acknowledged has no reply;
of the bytes of a reply each comes in time or does not. -/
structure Fates where
  defaults : Bool
  information : Option (Bool × Bool × Bool)
  resolution : Fate
  first : Fate × Fate × Fate
  mouseID : Option Bool
  second : Fate × Fate × Fate
  explorerID : Option Bool
  restore : Fate
  deriving DecidableEq, Repr

/-- A read that times out returns the fake value 0. -/
def inTime (came : Bool) (byte : UInt8) : UInt8 := if came then byte else 0

def Device.informationAnswers (d : Device) : Option (Bool × Bool × Bool) → ℕ → UInt8
  | none, _ => 0
  | some (a, b, c), i =>
    [0, 0, kSCAcknowledge, inTime a d.status, inTime b d.resolution, inTime c d.sampleRate][i]?.getD 0

def Device.idAnswers (d : Device) : Option Bool → ℕ → UInt8
  | none, _ => 0
  | some came, i => [0, 0, kSCAcknowledge, inTime came d.mode.byte][i]?.getD 0

/-- The driver and the mouse, the sample rate that the mouse has reported, and the last one
that the driver has sent. -/
structure System where
  driver : ApplePS2Mouse
  mouse : Device
  reported : Option UInt8
  lastSent : Option UInt8
  deriving DecidableEq, Repr

namespace System

def setMouseSampleRate (K : Knocks) (sampleRate : UInt8) (f : Fate) (x : System) : System :=
  if 4 < (completed f.answers (Mouse.setMouseSampleRate sampleRate)).commandsCount then
    { x with
      mouse := if f.Taken then x.mouse.accept K sampleRate else x.mouse
      lastSent := some sampleRate }
  else x

def setMouseResolution (resolution : UInt8) (f : Fate) (x : System) : System :=
  if f.Taken then { x with mouse := { x.mouse with resolution } } else x

/-- The reset up to the knock: the defaults, and the information about the mouse if the
driver does not have it yet. -/
def inform (f : Fates) (x : System) : System :=
  let x := if f.defaults then { x with mouse := x.mouse.setDefaults } else x
  match (x.driver.resetMouse .defaults setDefaultsRequest).2 with
  | some .information =>
    { x with
      driver := (x.driver.resetMouse .information
        (completed (x.mouse.informationAnswers f.information) getMouseInformationRequest)).1
      reported := f.information.bind fun came => if came.2.2 then some x.mouse.sampleRate else none }
  | _ => x.setMouseResolution (x.driver.mouseInfoBytes >>> 8).toUInt8 f.resolution

def knock (K : Knocks) (sampleRate : UInt8) (f : Fate × Fate × Fate) (x : System) : System :=
  ((x.setMouseSampleRate K 200 f.1).setMouseSampleRate K sampleRate f.2.1).setMouseSampleRate K 80
    f.2.2

/-- The knock, with what the driver makes of the identification that follows it. -/
def setIntellimouseMode (K : Knocks) (f : Fates) (x : System) : System :=
  let x := x.knock K 100 f.first
  let (driver, next) := x.driver.resetMouse .mouseID
    (completed (x.mouse.idAnswers f.mouseID) getMouseIDRequest)
  let x := { x with driver }
  let x :=
    if next = some .explorerID then
      let x := x.knock K 200 f.second
      { x with
        driver := (x.driver.resetMouse .explorerID
          (completed (x.mouse.idAnswers f.explorerID) getMouseIDRequest)).1 }
    else x
  x.setMouseSampleRate K (x.driver.mouseInfoBytes &&& 0x0000FF).toUInt8 f.restore

/-- `resetMouse` up to the requests that enable the mouse, which do not bear on the format.
The requests that it only queues are run before the next one that it blocks for. -/
def resetMouse (K : Knocks) (f : Fates) (x : System) : System :=
  (x.inform f).setIntellimouseMode K f

/-- Driver and mouse agree. -/
structure Agrees (x : System) : Prop where
  packetLength : x.driver.packetLength = 4 ↔ x.mouse.mode ≠ .standard
  buttonCount : x.driver.buttonCount = 5 ↔ x.mouse.mode = .intellimouseExplorer
  sampleRate : ∃ rate ∈ x.reported, x.lastSent = some rate

end System

/-! What the mouse makes of the requests, whatever the driver makes of it. -/

namespace Device

def take (K : Knocks) (rate : UInt8) (f : Fate) (d : Device) : Device :=
  if f.Taken then d.accept K rate else d

def knock (K : Knocks) (rate : UInt8) (f : Fate × Fate × Fate) (d : Device) : Device :=
  ((d.take K 200 f.1).take K rate f.2.1).take K 80 f.2.2

theorem accept_ne_standard {K : Knocks} {d : Device} {rate : UInt8} (h : d.mode ≠ .standard) :
    (d.accept K rate).mode ≠ .standard := by
  unfold accept
  dsimp only
  split
  · exact K.first_ne _ h
  · split
    · exact K.second_ne _ h
    · exact h

theorem take_ne_standard {K : Knocks} {d : Device} {rate : UInt8} {f : Fate}
    (h : d.mode ≠ .standard) : (d.take K rate f).mode ≠ .standard := by
  unfold take
  split
  · exact accept_ne_standard h
  · exact h

theorem knock_ne_standard {K : Knocks} {d : Device} {rate : UInt8} {f : Fate × Fate × Fate}
    (h : d.mode ≠ .standard) : (d.knock K rate f).mode ≠ .standard :=
  take_ne_standard (take_ne_standard (take_ne_standard h))

/-- Only an accepted 80 changes the mode. -/
theorem accept_mode_of_ne {K : Knocks} {d : Device} {rate : UInt8} (h : rate ≠ 80) :
    (d.accept K rate).mode = d.mode := by
  unfold accept
  dsimp only
  rw [if_neg (fun hrate => h hrate.1), if_neg (fun hrate => h hrate.1)]

/-- Behind an accepted 80 no rate completes a knock. -/
theorem accept_mode_of_accepted {K : Knocks} {d : Device} {rest : List UInt8} {rate : UInt8}
    (h : d.accepted = 80 :: rest) : (d.accept K rate).mode = d.mode := by
  unfold accept
  dsimp only
  rw [h, if_neg (by simp), if_neg (by simp)]

/-- A knock that has changed the mode has ended with an accepted 80. -/
theorem knock_mode_or_accepted (K : Knocks) (d : Device) {rate : UInt8} (h : rate ≠ 80)
    (f : Fate × Fate × Fate) :
    (d.knock K rate f).mode = d.mode ∨ ∃ rest, (d.knock K rate f).accepted = 80 :: rest := by
  have hkeeps (r : UInt8) (hr : r ≠ 80) (g : Fate) (e : Device) : (e.take K r g).mode = e.mode := by
    unfold take
    split
    · exact accept_mode_of_ne hr
    · rfl
  by_cases hlast : f.2.2.Taken
  · refine .inr ⟨((d.take K 200 f.1).take K rate f.2.1).accepted, ?_⟩
    rw [knock, take, if_pos hlast]
    rfl
  · left
    rw [knock, take, if_neg hlast, hkeeps rate h, hkeeps 200 (by decide)]

end Device

/-- The last rate that has been sent once this one has been or has not. -/
def Fate.sent (f : Fate) (rate : UInt8) (last : Option UInt8) : Option UInt8 :=
  if f = .refused then last else some rate

def knockSent (rate : UInt8) (f : Fate × Fate × Fate) (last : Option UInt8) : Option UInt8 :=
  f.2.2.sent 80 (f.2.1.sent rate (f.1.sent 200 last))

/-- The first knock has been answered with the identification of an Intellimouse. -/
def Fates.Tried (f : Fates) (K : Knocks) (d : Device) : Prop :=
  f.mouseID = some true ∧ (d.knock K 100 f.first).mode = .intellimouse

instance (f : Fates) (K : Knocks) (d : Device) : Decidable (f.Tried K d) :=
  inferInstanceAs (Decidable (_ ∧ _))

/-- The mouse when the driver restores the rate. -/
def Fates.knocked (f : Fates) (K : Knocks) (d : Device) : Device :=
  if f.Tried K d then (d.knock K 100 f.first).knock K 200 f.second else d.knock K 100 f.first

/-- What the driver takes the mouse for. -/
def Fates.believed (f : Fates) (K : Knocks) (d : Device) : PS2MouseId :=
  if f.Tried K d then
    if f.explorerID = some true ∧ (f.knocked K d).mode = .intellimouseExplorer then
      .intellimouseExplorer
    else .intellimouse
  else if f.mouseID = some true then (d.knock K 100 f.first).mode
  else .standard

def Fates.knocksSent (f : Fates) (K : Knocks) (x : System) : Option UInt8 :=
  if f.Tried K x.mouse then knockSent 200 f.second (knockSent 100 f.first x.lastSent)
  else knockSent 100 f.first x.lastSent

namespace System

theorem setMouseSampleRate_eq (K : Knocks) (rate : UInt8) (f : Fate) (x : System) :
    x.setMouseSampleRate K rate f =
      { x with mouse := x.mouse.take K rate f, lastSent := f.sent rate x.lastSent } := by
  unfold setMouseSampleRate Mouse.setMouseSampleRate Device.take Fate.sent
  simp only [sent_iff]
  cases f <;> rfl

theorem knock_eq (K : Knocks) (rate : UInt8) (f : Fate × Fate × Fate) (x : System) :
    x.knock K rate f =
      { x with mouse := x.mouse.knock K rate f, lastSent := knockSent rate f x.lastSent } := by
  unfold knock
  rw [setMouseSampleRate_eq, setMouseSampleRate_eq, setMouseSampleRate_eq]
  rfl

/-- The identification byte, or one that stands for a standard mouse. -/
theorem getMouseID_eq (d : Device) (f : Option Bool) :
    getMouseID (completed (d.idAnswers f) getMouseIDRequest) =
      match f with
      | none => 0xFF
      | some came => inTime came d.mode.byte := by
  rcases f with - | came
  · rfl
  · rfl

theorem resetMouse_mouseID (s : ApplePS2Mouse) (d : Device) (f : Option Bool) :
    s.resetMouse .mouseID (completed (d.idAnswers f) getMouseIDRequest) =
      if f = some true ∧ d.mode = .intellimouse then (s, some .explorerID)
      else (s.setType (if f = some true then d.mode else .standard), some (.commandByte .read)) := by
  unfold ApplePS2Mouse.resetMouse
  dsimp only
  rw [getMouseID_eq]
  rcases f with - | came
  · rfl
  · cases came with
    | false => rfl
    | true => cases hmode : d.mode <;> simp [inTime, PS2MouseId.byte]

theorem resetMouse_explorerID (s : ApplePS2Mouse) (d : Device) (f : Option Bool) :
    (s.resetMouse .explorerID (completed (d.idAnswers f) getMouseIDRequest)).1 =
      s.setType (if f = some true ∧ d.mode = .intellimouseExplorer then .intellimouseExplorer
        else .intellimouse) := by
  unfold ApplePS2Mouse.resetMouse
  dsimp only
  rw [getMouseID_eq]
  rcases f with - | came
  · rfl
  · cases came with
    | false => rfl
    | true => cases hmode : d.mode <;> simp [inTime, PS2MouseId.byte]

/-- The knock and the restored rate, by what the driver takes the mouse for. -/
theorem setIntellimouseMode_eq (K : Knocks) (f : Fates) (x : System) :
    x.setIntellimouseMode K f =
      { driver := x.driver.setType (f.believed K x.mouse)
        mouse := (f.knocked K x.mouse).take K (x.driver.mouseInfoBytes &&& 0x0000FF).toUInt8 f.restore
        reported := x.reported
        lastSent := f.restore.sent (x.driver.mouseInfoBytes &&& 0x0000FF).toUInt8
          (f.knocksSent K x) } := by
  unfold setIntellimouseMode
  simp only [knock_eq, setMouseSampleRate_eq, resetMouse_mouseID]
  by_cases htried : f.Tried K x.mouse
  · rw [Fates.believed, Fates.knocked, Fates.knocksSent, if_pos htried, if_pos htried,
      if_pos htried]
    simp only [if_pos (show f.mouseID = some true ∧ _ from htried), if_true, resetMouse_explorerID]
    rfl
  · rw [Fates.believed, Fates.knocked, Fates.knocksSent, if_neg htried, if_neg htried,
      if_neg htried]
    simp only [if_neg (show ¬ (f.mouseID = some true ∧ _) from htried), Option.some.injEq,
      reduceCtorEq, if_false]
    rfl

/-- The type that the driver takes the mouse for is the mode that the mouse is in. -/
theorem setType_agrees_iff (s : ApplePS2Mouse) (type mode : PS2MouseId) :
    ((s.setType type).packetLength = 4 ↔ mode ≠ .standard) ∧
      ((s.setType type).buttonCount = 5 ↔ mode = .intellimouseExplorer) ↔ type = mode := by
  cases type <;> cases mode <;>
    simp [ApplePS2Mouse.setType, kPacketLengthStandard, kPacketLengthIntellimouse]

/-- What must come back from the mouse, which is `x` when the driver starts to knock. -/
structure Answered (K : Knocks) (f : Fates) (x : System) : Prop where
  /-- The identification is answered, or there is nothing to identify. -/
  mouseID : f.mouseID = some true ∨ (x.mouse.knock K 100 f.first).mode = .standard
  explorerID : f.Tried K x.mouse →
    f.explorerID = some true ∨ (f.knocked K x.mouse).mode ≠ .intellimouseExplorer
  /-- The restored rate does not complete a knock. -/
  restore : ((f.knocked K x.mouse).take K (x.driver.mouseInfoBytes &&& 0x0000FF).toUInt8
    f.restore).mode = (f.knocked K x.mouse).mode
  /-- The mouse has reported its rate, and this is the one that is sent last. -/
  sampleRate : ∃ rate ∈ x.reported,
    if f.restore = .refused then f.knocksSent K x = some rate
    else (x.driver.mouseInfoBytes &&& 0x0000FF).toUInt8 = rate

/-- The second identification: an unanswered one is right only about a mouse that has not
gone on to five buttons, and such a mouse does not come back when the rate is restored. -/
theorem believed_eq_iff_of_tried {K : Knocks} {f : Fates} {d : Device} (rate : UInt8)
    (h : f.Tried K d) :
    f.believed K d = ((f.knocked K d).take K rate f.restore).mode ↔
      (f.explorerID = some true ∨ (f.knocked K d).mode ≠ .intellimouseExplorer) ∧
        ((f.knocked K d).take K rate f.restore).mode = (f.knocked K d).mode := by
  have hknocked : f.knocked K d = (d.knock K 100 f.first).knock K 200 f.second := if_pos h
  have hstandard : (f.knocked K d).mode ≠ .standard := by
    rw [hknocked]
    apply Device.knock_ne_standard
    rw [h.2]
    decide
  rw [Fates.believed, if_pos h]
  by_cases hexplorer : (f.knocked K d).mode = .intellimouseExplorer
  · have hkept : ((f.knocked K d).take K rate f.restore).mode = (f.knocked K d).mode := by
      unfold Device.take
      split
      · rw [hknocked] at hexplorer ⊢
        have hrate : (200 : UInt8) ≠ 80 := by decide
        rcases Device.knock_mode_or_accepted K (d.knock K 100 f.first) hrate f.second with
          hmode | ⟨rest, hrest⟩
        · rw [hmode, h.2] at hexplorer
          cases hexplorer
        · exact Device.accept_mode_of_accepted hrest
      · rfl
    rw [hkept, hexplorer]
    by_cases hid : f.explorerID = some true <;> simp [hid]
  · have hintellimouse : (f.knocked K d).mode = .intellimouse := by
      cases hmode : (f.knocked K d).mode with
      | standard => exact absurd hmode hstandard
      | intellimouse => rfl
      | intellimouseExplorer => exact absurd hmode hexplorer
    rw [if_neg (fun hid => hexplorer hid.2), hintellimouse]
    simp [eq_comm]

theorem believed_eq_iff (K : Knocks) (f : Fates) (d : Device) (rate : UInt8) :
    f.believed K d = ((f.knocked K d).take K rate f.restore).mode ↔
      (f.mouseID = some true ∨ (d.knock K 100 f.first).mode = .standard) ∧
        (f.Tried K d → f.explorerID = some true ∨ (f.knocked K d).mode ≠ .intellimouseExplorer) ∧
        ((f.knocked K d).take K rate f.restore).mode = (f.knocked K d).mode := by
  by_cases htried : f.Tried K d
  · rw [believed_eq_iff_of_tried rate htried]
    simp [htried, htried.1]
  · have hknocked : f.knocked K d = d.knock K 100 f.first := if_neg htried
    rw [Fates.believed, if_neg htried, hknocked]
    by_cases hid : f.mouseID = some true
    · simp [hid, htried, eq_comm]
    · rw [if_neg hid]
      simp only [hid, htried, false_or, false_imp_iff, true_and]
      constructor
      · intro hstandard
        -- a mouse that has left its defaults does not come back to them
        have hbefore : (d.knock K 100 f.first).mode = .standard := by
          by_contra hne
          exact Device.take_ne_standard hne hstandard.symm
        exact ⟨hbefore, hstandard.symm.trans hbefore.symm⟩
      · rintro ⟨hbefore, hkept⟩
        rw [hkept, hbefore]

theorem low_byte (a b c : UInt8) :
    ((a.toUInt32 <<< 16 ||| b.toUInt32 <<< 8 ||| c.toUInt32) &&& (0x0000FF : UInt32)).toUInt8 = c := by
  apply UInt8.eq_of_toBitVec_eq
  apply BitVec.eq_of_getLsbD_eq
  intro i hi
  interval_cases i <;> simp

/-- The rate that the driver has asked the mouse for is the one that it restores. -/
theorem inform_restored {f : Fates} {x : System} {rate : UInt8}
    (hunknown : x.driver.mouseInfoBytes = 0xFFFFFFFF) (h : rate ∈ (x.inform f).reported) :
    ((x.inform f).driver.mouseInfoBytes &&& 0x0000FF).toUInt8 = rate := by
  unfold inform at h ⊢
  generalize hy : (if f.defaults then { x with mouse := x.mouse.setDefaults } else x) = y at h ⊢
  have hdriver : y.driver = x.driver := by
    rw [← hy]
    split <;> rfl
  have hstage : (y.driver.resetMouse .defaults setDefaultsRequest).2 = some .information := by
    rw [hdriver]
    exact congrArg some (if_pos hunknown)
  simp only [hstage] at h ⊢
  obtain ⟨⟨a, b, c⟩, hcame, hrate⟩ := Option.bind_eq_some_iff.mp h
  rw [hcame]
  cases c with
  | false => cases hrate
  | true =>
    rw [if_pos rfl, Option.some.injEq] at hrate
    rw [← hrate]
    exact low_byte (inTime a y.mouse.status) (inTime b y.mouse.resolution) y.mouse.sampleRate

/-- Driver and mouse agree after a reset exactly if the mouse answers what it has to. -/
theorem resetMouse_agrees_iff (K : Knocks) (f : Fates) (x : System) :
    Agrees (x.resetMouse K f) ↔ Answered K f (x.inform f) := by
  unfold resetMouse
  rw [setIntellimouseMode_eq]
  generalize x.inform f = y
  have hformat := setType_agrees_iff y.driver (f.believed K y.mouse)
    ((f.knocked K y.mouse).take K (y.driver.mouseInfoBytes &&& 0x0000FF).toUInt8 f.restore).mode
  rw [believed_eq_iff] at hformat
  have hsent (rate : UInt8) :
      f.restore.sent (y.driver.mouseInfoBytes &&& 0x0000FF).toUInt8 (f.knocksSent K y) =
        some rate ↔
      if f.restore = .refused then f.knocksSent K y = some rate
      else (y.driver.mouseInfoBytes &&& 0x0000FF).toUInt8 = rate := by
    unfold Fate.sent
    split <;> simp
  constructor
  · intro h
    obtain ⟨hmouse, hexplorer, hrestore⟩ := hformat.mp ⟨h.packetLength, h.buttonCount⟩
    obtain ⟨rate, hrate, hlast⟩ := h.sampleRate
    exact ⟨hmouse, hexplorer, hrestore, rate, hrate, (hsent rate).mp hlast⟩
  · intro h
    obtain ⟨hlength, hcount⟩ := hformat.mpr ⟨h.mouseID, h.explorerID, h.restore⟩
    obtain ⟨rate, hrate, hlast⟩ := h.sampleRate
    exact ⟨hlength, hcount, rate, hrate, (hsent rate).mpr hlast⟩

end System

/-- A mouse with five buttons that knows both knocks. -/
def explorerKnocks : Knocks where
  first mode := if mode = .standard then .intellimouse else mode
  second _ := .intellimouseExplorer
  first_ne mode h := by
    rw [if_neg h]
    exact h
  second_ne _ _ := by decide

def explorerMouse : Device := ⟨.standard, [], 0, 2, 100⟩

/-- Nothing is known of the mouse yet. -/
def unknown : System := ⟨{ ApplePS2Mouse.start 0 .standard with mouseInfoBytes := 0xFFFFFFFF },
  explorerMouse, none, none⟩

def allTaken : Fates :=
  ⟨true, some (true, true, true), .taken, (.taken, .taken, .taken), some true,
    (.taken, .taken, .taken), some true, .taken⟩

/-- A mouse that does not answer the first identification goes on with packets of 4 bytes;
one that does not answer what it is asked about itself is sent the rate 255. -/
theorem resetMouse_not_agrees :
    ¬ (unknown.resetMouse explorerKnocks { allTaken with mouseID := none }).Agrees ∧
      ¬ (unknown.resetMouse explorerKnocks { allTaken with information := none }).Agrees := by
  constructor
  · intro h
    exact absurd (h.packetLength.mpr (by decide)) (by decide)
  · intro h
    obtain ⟨rate, hrate, -⟩ := h.sampleRate
    cases hrate

/-- With a mouse that answers everything the driver agrees. -/
example : (unknown.resetMouse explorerKnocks allTaken).driver.packetLength = 4 ∧
    (unknown.resetMouse explorerKnocks allTaken).mouse.mode = .intellimouseExplorer ∧
    (unknown.resetMouse explorerKnocks allTaken).lastSent = some 100 := by decide

end Mouse
