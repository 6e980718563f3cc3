import NetbookInstaller.PS2.Answers
import NetbookInstaller.TouchPad.State
import Mathlib.Tactic.IntervalCases

/-! What the touchpad driver asks the device for when it starts, and what it switches on. -/
namespace TouchPad

open PS2

def kSTGetCapabilities : UInt8 := 0x02
def kSTGetModelID : UInt8 := 0x03
def kSTGetExtendedModelID : UInt8 := 0x09

/-- The request of `getTouchPadData`: the selector goes out two bits at a time. -/
def touchPadDataRequest (dataSelector : UInt8) : PS2Request := .ofCommands
  [⟨.sendMouseCommandAndCompareAck, kDPSetDefaultsAndDisable⟩,
    ⟨.sendMouseCommandAndCompareAck, kDPSetMouseResolution⟩,
    ⟨.sendMouseCommandAndCompareAck, (dataSelector >>> 6) &&& 0x3⟩,
    ⟨.sendMouseCommandAndCompareAck, kDPSetMouseResolution⟩,
    ⟨.sendMouseCommandAndCompareAck, (dataSelector >>> 4) &&& 0x3⟩,
    ⟨.sendMouseCommandAndCompareAck, kDPSetMouseResolution⟩,
    ⟨.sendMouseCommandAndCompareAck, (dataSelector >>> 2) &&& 0x3⟩,
    ⟨.sendMouseCommandAndCompareAck, kDPSetMouseResolution⟩,
    ⟨.sendMouseCommandAndCompareAck, (dataSelector >>> 0) &&& 0x3⟩,
    ⟨.sendMouseCommandAndCompareAck, kDPGetMouseInformation⟩,
    ⟨.readDataPort, 0⟩, ⟨.readDataPort, 0⟩, ⟨.readDataPort, 0⟩]

/-- What `getTouchPadData` makes of the completed request; `none` if none was allocated. -/
def getTouchPadData : Option PS2Request → UInt32
  | none => 0xFFFFFFFF
  | some request =>
    if request.commandsCount = 13 then
      ((request.readAt 10).toUInt32 <<< 16) ||| ((request.readAt 11).toUInt32 <<< 8) |||
        (request.readAt 12).toUInt32
    else 0xFFFFFFFF

/-- How the device takes the query with a selector: `none` if no request can be allocated,
else the byte that each command of the request reads, `none` if the read times out. -/
abbrev Device := UInt8 → Option (ℕ → Option UInt8)

/-- A read that times out returns the fake value 0. -/
def query (device : Device) (dataSelector : UInt8) : UInt32 :=
  getTouchPadData ((device dataSelector).map fun answers =>
    completed (fun i => (answers i).getD 0) (touchPadDataRequest dataSelector))

def getCapabilities (device : Device) : Bool × UInt16 :=
  let capabilities := query device kSTGetCapabilities
  -- `==` binds tighter than `&`
  let success := capabilities &&& (if (0x00FF00 : UInt32) = 0x004700 then 1 else 0) != 0
  (success, (((capabilities &&& 0xFF0000) >>> 8) ||| (capabilities &&& 0x0000FF)).toUInt16)

/-- `CAP_N_EXTENDED_QUERY`. -/
def capNExtendedQuery (capabilities : UInt16) : UInt16 := (capabilities &&& 0x7000) >>> 12

def getExtendedCapabilities (device : Device) (capabilities : UInt16) : Bool × UInt32 :=
  if capNExtendedQuery capabilities ≠ 0 then (true, query device kSTGetExtendedModelID)
  else (false, 0)

def getModelID (device : Device) : Bool × UInt32 :=
  (query device kSTGetModelID != 0, query device kSTGetModelID)

/-- What the driver holds of the three queries. -/
structure Information where
  capabilities : UInt16
  extendedCapabilities : UInt32
  modelId : UInt32
  deriving DecidableEq, Repr

def getInformation (device : Device) : Information :=
  let capabilities := (getCapabilities device).2
  ⟨capabilities, (getExtendedCapabilities device capabilities).2, (getModelID device).2⟩

section
variable {D : Type} [Double D]

/-- `start`, with the geometry of the models as a table. -/
def startWith (device : Device) (scaleFactor : UInt32 → D) : SynapticsTouchPad D :=
  let information := getInformation device
  .start information.capabilities information.extendedCapabilities
    (scaleFactor information.modelId)

/-- More than one finger is told from the width. -/
def SynapticsTouchPad.multiFinger (s : SynapticsTouchPad D) : Bool := s.wMode && s.capMultifinger

/-- Palm detection is announced. -/
def SynapticsTouchPad.palmDetect (s : SynapticsTouchPad D) : Bool :=
  s.wMode && s.capabilities &&& 0x0001 != 0

end

/-! What the device reports. -/

/-- The bytes that come back for a query. -/
structure Response where
  first : Option UInt8
  middle : Option UInt8
  last : Option UInt8
  deriving DecidableEq, Repr

def Response.value (r : Response) : UInt32 :=
  ((r.first.getD 0).toUInt32 <<< 16) ||| ((r.middle.getD 0).toUInt32 <<< 8) |||
    (r.last.getD 0).toUInt32

/-- The first byte and the last one. -/
def Response.capabilities (r : Response) : UInt16 :=
  ((r.first.getD 0).toUInt16 <<< 8) ||| (r.last.getD 0).toUInt16

/-- The response to a query whose commands are all acknowledged. -/
def reported (device : Device) (dataSelector : UInt8) : Option Response :=
  (device dataSelector).bind fun answers : ℕ → Option UInt8 =>
    if ∀ i : ℕ, i < 10 → answers i = some kSCAcknowledge then
      some ⟨answers 10, answers 11, answers 12⟩
    else none

/-- The device reports the bit in the byte of its response. -/
def Reports (device : Device) (dataSelector : UInt8) (byte : Response → Option UInt8)
    (bit : UInt8) : Prop :=
  ∃ r ∈ reported device dataSelector, ∃ b ∈ byte r, b &&& bit ≠ 0

theorem accepts_touchPadData {answers : ℕ → Option UInt8} {dataSelector : UInt8} :
    Accepts (fun i => (answers i).getD 0) 0 (touchPadDataRequest dataSelector).commands ↔
      ∀ i < 10, answers i = some kSCAcknowledge := by
  have hsome (i : ℕ) : (answers i).getD 0 = kSCAcknowledge ↔ answers i = some kSCAcknowledge := by
    cases answers i with
    | none => exact iff_of_false (by decide) (by simp)
    | some byte => simp
  simp only [touchPadDataRequest, PS2Request.ofCommands, Accepts, PS2Command.expected,
    Option.mem_def, Option.some.injEq, forall_eq', hsome, reduceCtorEq, false_imp_iff,
    implies_true, and_true]
  constructor
  · intro h i hi
    interval_cases i <;> simp [h]
  · intro h
    simp [h]

theorem query_eq (device : Device) (dataSelector : UInt8) :
    query device dataSelector =
      ((reported device dataSelector).map Response.value).getD 0xFFFFFFFF := by
  unfold query reported
  cases device dataSelector with
  | none => rfl
  | some answers =>
    rw [Option.map_some, Option.bind_some]
    split
    next h =>
      have hdone : completed (fun i => (answers i).getD 0) (touchPadDataRequest dataSelector) =
          .ofCommands (filledFrom _ 0 (touchPadDataRequest dataSelector).commands) :=
        completed_of_accepts (accepts_touchPadData.mpr h)
      rw [hdone]
      rfl
    next h =>
      have hcount : (completed (fun i => (answers i).getD 0)
          (touchPadDataRequest dataSelector)).commandsCount < 13 :=
        completed_of_not_accepts (accepts_touchPadData.not.mpr h)
      exact if_neg hcount.ne

/-! Where the bits of a response go. -/

theorem capabilities_of_value (a b c : UInt8) :
    ((((a.toUInt32 <<< 16 ||| b.toUInt32 <<< 8 ||| c.toUInt32) &&& 0xFF0000) >>> 8) |||
      ((a.toUInt32 <<< 16 ||| b.toUInt32 <<< 8 ||| c.toUInt32) &&& 0x0000FF)).toUInt16 =
      (a.toUInt16 <<< 8) ||| c.toUInt16 := by
  apply UInt16.eq_of_toBitVec_eq
  apply BitVec.eq_of_getLsbD_eq
  intro i hi
  interval_cases i <;> simp

theorem word_and (a b m n : UInt8) :
    (a.toUInt16 <<< 8 ||| b.toUInt16) &&& (m.toUInt16 <<< 8 ||| n.toUInt16) =
      (a &&& m).toUInt16 <<< 8 ||| (b &&& n).toUInt16 := by
  apply UInt16.eq_of_toBitVec_eq
  apply BitVec.eq_of_getLsbD_eq
  intro i hi
  interval_cases i <;> simp

theorem triple_and (a b c m n k : UInt8) :
    (a.toUInt32 <<< 16 ||| b.toUInt32 <<< 8 ||| c.toUInt32) &&&
        (m.toUInt32 <<< 16 ||| n.toUInt32 <<< 8 ||| k.toUInt32) =
      (a &&& m).toUInt32 <<< 16 ||| (b &&& n).toUInt32 <<< 8 ||| (c &&& k).toUInt32 := by
  apply UInt32.eq_of_toBitVec_eq
  apply BitVec.eq_of_getLsbD_eq
  intro i hi
  interval_cases i <;> simp

namespace Response

variable {r : Response}

theorem first_of_capabilities (bit : UInt8)
    (h : r.capabilities &&& bit.toUInt16 <<< 8 ≠ 0) : r.first.getD 0 &&& bit ≠ 0 := by
  intro hbit
  apply h
  have hand := word_and (r.first.getD 0) (r.last.getD 0) bit 0
  rw [hbit, UInt8.and_zero, show (0 : UInt8).toUInt16 = 0 from rfl, UInt16.or_zero] at hand
  exact hand

theorem last_of_capabilities (bit : UInt8) (h : r.capabilities &&& bit.toUInt16 ≠ 0) :
    r.last.getD 0 &&& bit ≠ 0 := by
  intro hbit
  apply h
  have hand := word_and (r.first.getD 0) (r.last.getD 0) 0 bit
  rw [hbit, UInt8.and_zero, show (0 : UInt8).toUInt16 = 0 from rfl, UInt16.zero_shiftLeft, UInt16.zero_or] at hand
  exact hand

theorem first_of_value (bit : UInt8) (h : r.value &&& bit.toUInt32 <<< 16 ≠ 0) :
    r.first.getD 0 &&& bit ≠ 0 := by
  intro hbit
  apply h
  have hand := triple_and (r.first.getD 0) (r.middle.getD 0) (r.last.getD 0) bit 0 0
  rw [hbit, UInt8.and_zero, UInt8.and_zero, show (0 : UInt8).toUInt32 = 0 from rfl, UInt32.zero_shiftLeft,
    UInt32.or_zero, UInt32.or_zero] at hand
  exact hand

end Response

/-- A bit that is set in a byte of which it is not known whether it has come. -/
theorem exists_mem_of_getD {byte : Option UInt8} {bit : UInt8}
    (h : byte.getD 0 &&& bit ≠ 0) : ∃ b ∈ byte, b &&& bit ≠ 0 := by
  cases byte with
  | none => exact absurd (UInt8.zero_and) h
  | some b => exact ⟨b, rfl, h⟩

theorem getCapabilities_snd {device : Device} {r : Response}
    (h : reported device kSTGetCapabilities = some r) :
    (getCapabilities device).2 = r.capabilities := by
  unfold getCapabilities
  rw [query_eq, h]
  exact capabilities_of_value _ _ _

/-- A query that fails reads as ones throughout. -/
theorem getCapabilities_snd_of_failed {device : Device}
    (h : reported device kSTGetCapabilities = none) : (getCapabilities device).2 = 0xFFFF := by
  unfold getCapabilities
  rw [query_eq, h]
  rfl

theorem getCapabilities_fst (device : Device) : (getCapabilities device).1 = false := by
  unfold getCapabilities
  dsimp only
  rw [if_neg (by decide), UInt32.and_zero]
  rfl

/-- What the driver holds and has switched on, against what the device has reported. -/
structure Reflects {D : Type} [Double D] (device : Device) (information : Information)
    (s : SynapticsTouchPad D) : Prop where
  capabilities : information.capabilities = 0 ∨
    ∃ r ∈ reported device kSTGetCapabilities, information.capabilities = r.capabilities
  extendedCapabilities : information.extendedCapabilities = 0 ∨
    ∃ r ∈ reported device kSTGetExtendedModelID, information.extendedCapabilities = r.value
  modelId : information.modelId = 0 ∨
    ∃ r ∈ reported device kSTGetModelID, information.modelId = r.value
  success : (getCapabilities device).1 = true ↔
    ∃ r ∈ reported device kSTGetCapabilities, r.middle = some 0x47
  wMode : s.wMode = true → Reports device kSTGetCapabilities Response.first 0x80 ∨
    Reports device kSTGetExtendedModelID Response.first 0x04
  multiFinger : s.multiFinger = true → Reports device kSTGetCapabilities Response.last 0x02
  palmDetect : s.palmDetect = true → Reports device kSTGetCapabilities Response.last 0x01

/-- The queries that the driver makes are answered, the one for the capabilities without
its 0x47. -/
def Answered (device : Device) : Prop :=
  (∃ r ∈ reported device kSTGetCapabilities, r.middle ≠ some 0x47 ∧
    (capNExtendedQuery r.capabilities ≠ 0 →
      (reported device kSTGetExtendedModelID).isSome = true)) ∧
    (reported device kSTGetModelID).isSome = true

section
variable {D : Type} [Double D]

theorem startWith_wMode {device : Device} {scaleFactor : UInt32 → D}
    (h : (startWith device scaleFactor).wMode = true) :
    (getInformation device).capabilities &&& 0x8000 ≠ 0 ∨
      (getInformation device).extendedCapabilities &&& 0x040000 ≠ 0 := by
  unfold startWith SynapticsTouchPad.start SynapticsTouchPad.wMode at h
  dsimp only at h
  split at h
  next hmode => simpa using hmode
  next => exact absurd h (by decide)

theorem query_reported_iff (device : Device) (dataSelector : UInt8) :
    (query device dataSelector = 0 ∨
      ∃ r ∈ reported device dataSelector, query device dataSelector = r.value) ↔
      (reported device dataSelector).isSome = true := by
  rw [query_eq]
  cases reported device dataSelector with
  | none => simp
  | some r => exact iff_of_true (.inr ⟨r, rfl, rfl⟩) rfl

theorem extended_reported_iff (device : Device) (capabilities : UInt16) :
    ((getExtendedCapabilities device capabilities).2 = 0 ∨
      ∃ r ∈ reported device kSTGetExtendedModelID,
        (getExtendedCapabilities device capabilities).2 = r.value) ↔
      (capNExtendedQuery capabilities ≠ 0 →
        (reported device kSTGetExtendedModelID).isSome = true) := by
  unfold getExtendedCapabilities
  split
  next hasked => simpa [hasked] using query_reported_iff device kSTGetExtendedModelID
  next hnot => exact iff_of_true (.inl rfl) fun hasked => absurd hasked hnot

/-- If the capabilities are those of the device, the rest of what it must answer is answered. -/
theorem Reflects.answered {device : Device} {s : SynapticsTouchPad D} {r : Response}
    (h : Reflects device (getInformation device) s)
    (hr : reported device kSTGetCapabilities = some r) :
    r.middle ≠ some 0x47 ∧ (capNExtendedQuery r.capabilities ≠ 0 →
      (reported device kSTGetExtendedModelID).isSome = true) := by
  constructor
  · intro hmagic
    have hsuccess := h.success.mpr ⟨r, hr, hmagic⟩
    rw [getCapabilities_fst] at hsuccess
    exact absurd hsuccess (by decide)
  · apply (extended_reported_iff device r.capabilities).mp
    rw [← getCapabilities_snd hr]
    exact h.extendedCapabilities

/-- What the driver holds, and so what it switches on, comes from the device exactly if the
queries are answered; the driver takes an answer to the first one for a failure. -/
theorem startWith_reflects_iff (device : Device) (scaleFactor : UInt32 → D) :
    Reflects device (getInformation device) (startWith device scaleFactor) ↔ Answered device := by
  constructor
  · intro h
    refine ⟨?_, (query_reported_iff device kSTGetModelID).mp h.modelId⟩
    rcases h.capabilities with hzero | ⟨r, hr, -⟩
    · cases hr : reported device kSTGetCapabilities with
      | none =>
        have hones : (getInformation device).capabilities = 0xFFFF :=
          getCapabilities_snd_of_failed hr
        rw [hones] at hzero
        exact absurd hzero (by decide)
      | some r => exact ⟨r, rfl, h.answered hr⟩
    · exact ⟨r, hr, h.answered hr⟩
  · rintro ⟨⟨r, hr, hmiddle, hextended⟩, hmodel⟩
    have hcap : (getInformation device).capabilities = r.capabilities := getCapabilities_snd hr
    have hpad : (startWith device scaleFactor).capabilities = r.capabilities := hcap
    have hheld := (extended_reported_iff device r.capabilities).mpr hextended
    rw [← getCapabilities_snd hr] at hheld
    refine ⟨.inr ⟨r, hr, hcap⟩, hheld, (query_reported_iff device kSTGetModelID).mpr hmodel,
      ?_, ?_, ?_, ?_⟩
    · rw [getCapabilities_fst]
      refine iff_of_false (by decide) ?_
      rintro ⟨r', hr', hmagic⟩
      rw [hr, Option.mem_some_iff] at hr'
      exact hmiddle (hr' ▸ hmagic)
    · intro hmode
      rcases startWith_wMode hmode with hbit | hbit
      · rw [hcap] at hbit
        exact .inl ⟨r, hr, exists_mem_of_getD (Response.first_of_capabilities 0x80 hbit)⟩
      · rcases hheld with hzero | ⟨e, he, hvalue⟩
        · rw [show (getInformation device).extendedCapabilities = 0 from hzero] at hbit
          exact absurd rfl hbit
        · rw [show (getInformation device).extendedCapabilities = e.value from hvalue] at hbit
          exact .inr ⟨e, he, exists_mem_of_getD (Response.first_of_value 0x04 hbit)⟩
    · intro hfinger
      have hbit : (startWith device scaleFactor).capabilities &&& 0x0002 ≠ 0 := by
        simpa [SynapticsTouchPad.capMultifinger] using (Bool.and_eq_true_iff.mp hfinger).2
      rw [hpad] at hbit
      exact ⟨r, hr, exists_mem_of_getD (Response.last_of_capabilities 0x02 hbit)⟩
    · intro hpalm
      have hbit : (startWith device scaleFactor).capabilities &&& 0x0001 ≠ 0 := by
        simpa using (Bool.and_eq_true_iff.mp hpalm).2
      rw [hpad] at hbit
      exact ⟨r, hr, exists_mem_of_getD (Response.last_of_capabilities 0x01 hbit)⟩

end

/-- A pad that acknowledges every command. -/
def answering (first middle last : UInt8) (i : ℕ) : Option UInt8 :=
  if i < 10 then some kSCAcknowledge else [first, middle, last][i - 10]?

/-- A pad with W mode, more than one finger and no extended queries. -/
def wPad : Device := fun dataSelector =>
  if dataSelector = kSTGetCapabilities then some (answering 0x80 0x47 0x02)
  else some (answering 0x01 0xA0 0xB1)

/-- A device that answers nothing. -/
def silentDevice : Device := fun _ => some fun _ => none

/-- The identification of the one pad is not taken for one, and the other device gets
everything switched on. -/
theorem startWith_not_reflects :
    ¬ Reflects wPad (getInformation wPad) (startWith wPad fun _ => (1 : ℚ)) ∧
      ¬ Reflects silentDevice (getInformation silentDevice)
        (startWith silentDevice fun _ => (1 : ℚ)) := by
  constructor
  · intro h
    have hwPad : reported wPad kSTGetCapabilities = some ⟨some 0x80, some 0x47, some 0x02⟩ := by
      decide
    exact (h.answered hwPad).1 rfl
  · intro h
    have hsilent : reported silentDevice kSTGetCapabilities = none := by decide
    obtain ⟨r, hr, -⟩ := h.multiFinger (by decide)
    rw [hsilent] at hr
    cases hr

end TouchPad
