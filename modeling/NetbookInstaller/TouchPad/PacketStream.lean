import NetbookInstaller.PS2.Device
import NetbookInstaller.TouchPad.Buttons
import Mathlib.Tactic.IntervalCases

/-! The bytes of the touchpad: how the interrupt handler frames them, and that the
packets which it decodes are the reports that the touchpad has encoded. -/
namespace TouchPad

def RELATIVE_PACKET_SIZE : UInt8 := 3
def ABSOLUTE_PACKET_SIZE : UInt8 := 6

/-- The clocks and the keyboard driver's repeat state when a byte comes in. `now` and
`lastEventTime` are the low words of the uptimes. -/
structure Moment where
  now : UInt32
  second : UInt32
  currentTime : UInt32
  codeToRepeat : UInt32
  lastEventTime : UInt32
  deriving DecidableEq, Repr

/-- A key is held, and the keyboard's last event was a short time ago. -/
def Moment.accidental (m : Moment) : Bool :=
  m.codeToRepeat != 0xFFFFFFFF && (m.now - m.lastEventTime).toUInt64 < 16700000 * 30

/-- What the interrupt handler does with a byte. -/
inductive Interrupt where
  | skipped
  | deviceReset
  | stored
  | ignored (p : Packet)
  | relativePacket (p : Packet)
  | absolutePacket (p : Packet)
  deriving DecidableEq, Repr

/-- The driver with its packet buffer and what it keeps for relative packets. -/
structure PacketStream (D : Type) extends SynapticsTouchPad D where
  prefIgnoreAccidental : Bool
  prevButtons : UInt8
  packetBuffer : Vector UInt8 6
  packetByteCount : UInt8

namespace PacketStream

variable {D : Type}

/-- The driver after the first `k` bytes of a packet. -/
def filled (s : PacketStream D) (v : Vector UInt8 6) (k : ℕ) : PacketStream D :=
  { s with
    packetBuffer := Vector.ofFn fun i => if i.val < k then v[i] else s.packetBuffer[i]
    packetByteCount := UInt8.ofNat k }

theorem filled_zero {s : PacketStream D} (h : s.packetByteCount = 0) (v : Vector UInt8 6) :
    s.filled v 0 = s := by
  have hbuffer : (Vector.ofFn fun i : Fin 6 => if i.val < 0 then v[i] else s.packetBuffer[i]) =
      s.packetBuffer := by
    ext i hi
    simp
  rw [filled, hbuffer]
  cases s
  subst h
  rfl

theorem filled_setIfInBounds (s : PacketStream D) (v : Vector UInt8 6) {k : ℕ} (hk : k < 6) :
    (s.filled v k).packetBuffer.setIfInBounds k v[k] = (s.filled v (k + 1)).packetBuffer := by
  ext i hi
  simp only [filled, Vector.getElem_setIfInBounds, Vector.getElem_ofFn, Fin.getElem_fin]
  by_cases hik : k = i
  · subst hik
    simp
  · rw [if_neg hik]
    split
    · rw [if_pos (by omega)]
    · rw [if_neg (by omega)]

theorem filled_six (s : PacketStream D) (v : Vector UInt8 6) : (s.filled v 6).packetBuffer = v := by
  ext i hi
  simp [filled]

end PacketStream

variable {D : Type} [Double D]

/-- `ABSOLUTE_MODE`. -/
def SynapticsTouchPad.absoluteMode (s : SynapticsTouchPad D) : Bool :=
  (s.touchPadModeByte &&& 0x80) >>> 7 != 0

namespace PacketStream

/-- The driver after `init` and `start`. -/
def start (capabilities : UInt16) (extendedCapabilities : UInt32) (scaleFactor : D) :
    PacketStream D where
  toSynapticsTouchPad := .start capabilities extendedCapabilities scaleFactor
  prefIgnoreAccidental := true
  prevButtons := 0
  packetBuffer := .replicate 6 0
  packetByteCount := 0

def setDevicePowerState (s : PacketStream D) : WhatToDo → PacketStream D
  | .disableDevice => s
  | .enableDevice =>
    { s with
      toSynapticsTouchPad := s.toSynapticsTouchPad.setDevicePowerState .enableDevice
      packetByteCount := 0 }

/-- The emulation of a middle button: while both buttons are down, and until they are up. -/
def relativeButtons (s : PacketStream D) (buttons : UInt8) : PacketStream D × UInt8 :=
  if buttons &&& 0x3 = 0x03 then ({ s with event := .movement, prevButtons := 0x4 }, 0)
  else if s.prevButtons &&& 0x4 = 0x4 then
    ({ s with prevButtons := if buttons = 0 then 0 else s.prevButtons }, 0)
  else ({ s with prevButtons := buttons }, buttons)

def dispatchRelativePointerEventWithRelativePacket (s : PacketStream D) (p : Packet) :
    PacketStream D :=
  let (header, x, y) := p.relative
  let (s, buttons) := s.relativeButtons (header &&& 0x7)
  let extended (sign : UInt8) (byte : UInt8) : UInt32 :=
    (if header &&& sign != 0 then 0xffffff00 else 0) ||| byte.toUInt32
  let dx := (extended 0x10 x).toBitVec.toInt
  let dy := (-extended 0x20 y).toBitVec.toInt
  let scaled (d : ℤ) : ℤ := Double.toSInt32 (IntCast.intCast (-d) * 0.2 : D)
  let dispatched : Dispatched :=
    match s.event with
    | .scrolling => .scrollWheelEvent (scaled dy) (scaled dx)
    | _ => .relativePointerEvent dx dy buttons
  { s with
    toSynapticsTouchPad :=
      { s.toSynapticsTouchPad.dispatch dispatched with
        prevPacketSecond := p.second
        prevPacketTime := p.currentTime } }

/-- A byte that is not skipped. -/
def storeByte (s : PacketStream D) (data : UInt8) (m : Moment) : PacketStream D × Interrupt :=
  let s := { s with
    packetBuffer := s.packetBuffer.setIfInBounds s.packetByteCount.toNat data
    packetByteCount := s.packetByteCount + 1 }
  let p : Packet := ⟨s.packetBuffer, m.second, m.currentTime⟩
  if !s.absoluteMode && s.packetByteCount == RELATIVE_PACKET_SIZE then
    if s.prefIgnoreAccidental && m.accidental then ({ s with packetByteCount := 0 }, .ignored p)
    else
      ({ s.dispatchRelativePointerEventWithRelativePacket p with packetByteCount := 0 },
        .relativePacket p)
  else if s.absoluteMode && s.packetByteCount == ABSOLUTE_PACKET_SIZE then
    if s.prefIgnoreAccidental && m.accidental then ({ s with packetByteCount := 0 }, .ignored p)
    else
      ({ s with
          toSynapticsTouchPad :=
            s.toSynapticsTouchPad.dispatchRelativePointerEventWithAbsolutePacket p
          packetByteCount := 0 },
        .absolutePacket p)
  else (s, .stored)

def interruptOccurred (s : PacketStream D) (data : UInt8) (m : Moment) :
    PacketStream D × Interrupt :=
  if s.packetByteCount = 0 then
    if data = PS2.kSCAcknowledge then (s, .skipped)
    else if !s.absoluteMode && data &&& 0x08 == 0 then (s, .skipped)
    else if s.absoluteMode && data &&& 0x08 != 0 then
      -- the device had a brown out
      (s.setDevicePowerState .enableDevice, .deviceReset)
    else s.storeByte data m
  else s.storeByte data m

/-- The bytes of a list, one after another. -/
def interrupts : PacketStream D → List (UInt8 × Moment) → PacketStream D × List Interrupt
  | s, [] => (s, [])
  | s, (data, m) :: bytes =>
    let (t, i) := s.interruptOccurred data m
    let (u, is) := t.interrupts bytes
    (u, i :: is)

theorem interrupts_append (s : PacketStream D) (bs cs : List (UInt8 × Moment)) :
    s.interrupts (bs ++ cs) =
      (((s.interrupts bs).1.interrupts cs).1,
        (s.interrupts bs).2 ++ ((s.interrupts bs).1.interrupts cs).2) := by
  induction bs generalizing s with
  | nil => rfl
  | cons b bs ih => simp only [List.cons_append, interrupts, ih]

end PacketStream

/-- The byte with these bits. -/
def byte (b7 b6 b5 b4 b3 b2 b1 b0 : Bool) : UInt8 :=
  ⟨BitVec.ofBoolListBE [b7, b6, b5, b4, b3, b2, b1, b0]⟩

@[simp] theorem getElem_byte (b7 b6 b5 b4 b3 b2 b1 b0 : Bool) {i : ℕ} (hi : i < 8) :
    (byte b7 b6 b5 b4 b3 b2 b1 b0).toBitVec[i] = [b0, b1, b2, b3, b4, b5, b6, b7][i] := by
  rw [byte, BitVec.getElem_ofBoolListBE]
  interval_cases i <;> rfl

/-- What the touchpad reports. The documented layout has two further button bits, `R/D`
and `R/L`, that the driver does not look at. -/
structure FingerReport where
  x : BitVec 13
  y : BitVec 13
  z : UInt8
  w : BitVec 4
  left : Bool
  right : Bool
  rightDown : Bool
  rightLeft : Bool
  deriving DecidableEq, Repr

/-- What the driver decodes from a packet. -/
structure Decoded where
  absX : UInt32
  absY : UInt32
  pressureZ : UInt8
  wValue : UInt8
  buttons : UInt8
  deriving DecidableEq, Repr

namespace FingerReport

/-- The layout of a packet with W mode enabled. -/
def encode (r : FingerReport) : Vector UInt8 6 :=
  #v[byte true false r.w[3] r.w[2] false r.w[1] r.right r.left,
    byte r.y[11] r.y[10] r.y[9] r.y[8] r.x[11] r.x[10] r.x[9] r.x[8],
    r.z,
    byte true true r.y[12] r.x[12] false r.w[0] r.rightDown r.rightLeft,
    byte r.x[7] r.x[6] r.x[5] r.x[4] r.x[3] r.x[2] r.x[1] r.x[0],
    byte r.y[7] r.y[6] r.y[5] r.y[4] r.y[3] r.y[2] r.y[1] r.y[0]]

/-- The values of a report, the buttons exchanged if the user wants that. -/
def values (r : FingerReport) (swapButtons : Bool) : Decoded where
  absX := ⟨r.x.setWidth 32⟩
  absY := ⟨r.y.setWidth 32⟩
  pressureZ := r.z
  wValue := ⟨r.w.setWidth 8⟩
  buttons :=
    if swapButtons then byte false false false false false false r.left r.right
    else byte false false false false false false r.right r.left

end FingerReport

/-- What `dispatchRelativePointerEventWithAbsolutePacket` takes out of the packet. -/
def Packet.decode (p : Packet) (wMode swapButtons : Bool) : Decoded :=
  ⟨p.absX, p.absY, p.pressureZ, p.wValue wMode, p.buttons swapButtons⟩

/-- What is decoded when the interrupt handler has seen a byte. -/
def Interrupt.decoded (wMode swapButtons : Bool) : Interrupt → Option Decoded
  | .absolutePacket p => some (p.decode wMode swapButtons)
  | _ => none

section Codec
variable (r : FingerReport) (second currentTime : UInt32)

theorem absX_encode : (⟨r.encode, second, currentTime⟩ : Packet).absX = ⟨r.x.setWidth 32⟩ := by
  apply UInt32.toBitVec_inj.mp
  apply BitVec.eq_of_getLsbD_eq
  intro i hi
  simp only [Packet.absX, FingerReport.encode]
  interval_cases i <;> simp

theorem absY_encode : (⟨r.encode, second, currentTime⟩ : Packet).absY = ⟨r.y.setWidth 32⟩ := by
  apply UInt32.toBitVec_inj.mp
  apply BitVec.eq_of_getLsbD_eq
  intro i hi
  simp only [Packet.absY, FingerReport.encode]
  interval_cases i <;> simp

theorem wValue_encode :
    (⟨r.encode, second, currentTime⟩ : Packet).wValue true = ⟨r.w.setWidth 8⟩ := by
  apply UInt8.toBitVec_inj.mp
  apply BitVec.eq_of_getLsbD_eq
  intro i hi
  simp only [Packet.wValue, FingerReport.encode, if_true]
  interval_cases i <;> simp

theorem buttons_encode (swapButtons : Bool) :
    (⟨r.encode, second, currentTime⟩ : Packet).buttons swapButtons =
      (r.values swapButtons).buttons := by
  apply UInt8.toBitVec_inj.mp
  apply BitVec.eq_of_getLsbD_eq
  intro i hi
  cases swapButtons <;> simp only [Packet.buttons, FingerReport.encode, FingerReport.values] <;>
    interval_cases i <;> simp

/-- The decoder undoes the encoder. -/
theorem decode_encode (swapButtons : Bool) :
    (⟨r.encode, second, currentTime⟩ : Packet).decode true swapButtons = r.values swapButtons := by
  rw [Packet.decode, absX_encode, absY_encode, wValue_encode, buttons_encode]
  rfl

end Codec

/-- A report with the moments at which its bytes come in. -/
structure Reading where
  report : FingerReport
  moments : Fin 6 → Moment

namespace Reading

def bytes (r : Reading) : List (UInt8 × Moment) :=
  List.ofFn fun i => (r.report.encode[i], r.moments i)

/-- The packet that the report makes. -/
def packet (r : Reading) : Packet :=
  ⟨r.report.encode, (r.moments 5).second, (r.moments 5).currentTime⟩

end Reading

namespace PacketStream

/-- The packet of the reading is dropped as accidental input. -/
def drops (s : PacketStream D) (r : Reading) : Bool :=
  s.prefIgnoreAccidental && (r.moments 5).accidental

/-- The driver after a reading. -/
def afterReading (s : PacketStream D) (r : Reading) : PacketStream D :=
  { s with
    toSynapticsTouchPad :=
      if s.drops r then s.toSynapticsTouchPad
      else s.toSynapticsTouchPad.dispatchRelativePointerEventWithAbsolutePacket r.packet
    packetBuffer := r.report.encode
    packetByteCount := 0 }

theorem storeByte_filled (s : PacketStream D) (v : Vector UInt8 6) {k : ℕ} (hk : k < 5) (m : Moment)
    (habsolute : s.absoluteMode = true) :
    (s.filled v k).storeByte v[k] m = (s.filled v (k + 1), .stored) := by
  have hindex : (s.filled v k).packetByteCount.toNat = k := by
    show (UInt8.ofNat k).toNat = k
    rw [UInt8.toNat_ofNat']
    omega
  have hcount : (s.filled v k).packetByteCount + 1 = (s.filled v (k + 1)).packetByteCount :=
    (UInt8.ofNat_add k 1).symm
  have hnext : (s.filled v (k + 1)).packetByteCount ≠ ABSOLUTE_PACKET_SIZE := by
    show UInt8.ofNat (k + 1) ≠ 6
    interval_cases k <;> decide
  unfold storeByte
  rw [hindex, hcount, filled_setIfInBounds s v (by omega)]
  simp only
  rw [if_neg, if_neg]
  · rfl
  · rw [Bool.and_eq_true, beq_iff_eq]
    exact fun h => hnext h.2
  · show ¬ (!s.absoluteMode && _) = true
    simp [habsolute]

theorem storeByte_last (s : PacketStream D) (r : Reading) {k : ℕ} (hk : k < 6) (hlast : k = 5)
    (habsolute : s.absoluteMode = true) :
    (s.filled r.report.encode k).storeByte r.report.encode[k] (r.moments ⟨k, hk⟩) =
      (s.afterReading r,
        if s.drops r then .ignored r.packet else .absolutePacket r.packet) := by
  subst hlast
  have hbuffer := filled_setIfInBounds s r.report.encode (k := 5) (by omega)
  rw [filled_six] at hbuffer
  unfold storeByte
  have hindex : (s.filled r.report.encode 5).packetByteCount.toNat = 5 := rfl
  rw [hindex, hbuffer]
  simp only
  rw [if_neg, if_pos]
  · show (if s.drops r = true then _ else _) = _
    unfold afterReading
    split
    · rfl
    · rfl
  · show (s.absoluteMode && _) = true
    rw [habsolute]
    rfl
  · show ¬ (!s.absoluteMode && _) = true
    simp [habsolute]

/-- The first byte of a report is the start of a packet. -/
theorem header_encode (r : FingerReport) {k : ℕ} (hk : k < 6) (hzero : k = 0) :
    r.encode[k] ≠ PS2.kSCAcknowledge ∧ r.encode[k] &&& 0x08 = 0 := by
  subst hzero
  have h : ∀ w3 w2 w1 right left : Bool,
      byte true false w3 w2 false w1 right left ≠ PS2.kSCAcknowledge ∧
        byte true false w3 w2 false w1 right left &&& 0x08 = 0 := by
    decide
  exact h _ _ _ _ _

theorem interruptOccurred_filled (s : PacketStream D) (r : Reading) {k : ℕ} (hk : k < 6)
    (habsolute : s.absoluteMode = true) :
    (s.filled r.report.encode k).interruptOccurred r.report.encode[k] (r.moments ⟨k, hk⟩) =
      (s.filled r.report.encode k).storeByte r.report.encode[k] (r.moments ⟨k, hk⟩) := by
  have hmode : (s.filled r.report.encode k).absoluteMode = true := habsolute
  unfold interruptOccurred
  split
  next hcount =>
    have hzero : k = 0 := by
      have h : UInt8.ofNat k = 0 := hcount
      interval_cases k <;> first | rfl | cases h
    obtain ⟨hacknowledge, hheader⟩ := header_encode r.report hk hzero
    simp [hacknowledge, hheader, hmode]
  next => rfl

/-- A report is framed, and its packet is handled unless it is dropped. -/
theorem interrupts_reading {s : PacketStream D} (r : Reading) (hcount : s.packetByteCount = 0)
    (habsolute : s.absoluteMode = true) :
    s.interrupts r.bytes =
      (s.afterReading r, .replicate 5 .stored ++
        [if s.drops r then .ignored r.packet else .absolutePacket r.packet]) := by
  have hstep (k : ℕ) (hk : k < 5) :
      (s.filled r.report.encode k).interruptOccurred r.report.encode[k]
        (r.moments ⟨k, hk.trans (by decide)⟩) =
      (s.filled r.report.encode (k + 1), .stored) := by
    rw [interruptOccurred_filled s r _ habsolute, storeByte_filled s _ hk _ habsolute]
  have hlast := (interruptOccurred_filled s r (by decide : 5 < 6) habsolute).trans
    (storeByte_last s r (by decide) rfl habsolute)
  have h0 := hstep 0 (by decide)
  have h1 := hstep 1 (by decide)
  have h2 := hstep 2 (by decide)
  have h3 := hstep 3 (by decide)
  have h4 := hstep 4 (by decide)
  have hbytes : r.bytes = [(r.report.encode[0], r.moments ⟨0, by decide⟩),
      (r.report.encode[1], r.moments ⟨1, by decide⟩),
      (r.report.encode[2], r.moments ⟨2, by decide⟩),
      (r.report.encode[3], r.moments ⟨3, by decide⟩),
      (r.report.encode[4], r.moments ⟨4, by decide⟩),
      (r.report.encode[5], r.moments ⟨5, by decide⟩)] := rfl
  calc s.interrupts r.bytes
      = (s.filled r.report.encode 0).interrupts r.bytes := by rw [filled_zero hcount]
    _ = _ := by
      rw [hbytes]
      simp only [interrupts, h0, h1, h2, h3, h4, hlast]
      rfl

/-- What a reading leaves alone, and the empty packet buffer after it. -/
theorem afterReading_kept (s : PacketStream D) (r : Reading) :
    (s.afterReading r).touchPadModeByte = s.touchPadModeByte ∧
      (s.afterReading r).pref = s.pref ∧
      (s.afterReading r).prefIgnoreAccidental = s.prefIgnoreAccidental ∧
      (s.afterReading r).packetByteCount = 0 := by
  have hcarries := SynapticsTouchPad.packet_carries s.toSynapticsTouchPad r.packet
  unfold afterReading
  by_cases hdrop : s.drops r = true
  · rw [if_pos hdrop]
    exact ⟨rfl, rfl, rfl, rfl⟩
  · rw [if_neg hdrop]
    exact ⟨hcarries.touchPadModeByte, hcarries.pref, rfl, rfl⟩

/-- What the driver decodes while it handles the bytes. -/
def decoded (s : PacketStream D) (bs : List (UInt8 × Moment)) : List Decoded :=
  (s.interrupts bs).2.filterMap (Interrupt.decoded s.wMode s.pref.swapButtons)

/-- No byte is skipped and the device is not reset. -/
def Framed (s : PacketStream D) (bs : List (UInt8 × Moment)) : Prop :=
  ∀ i ∈ (s.interrupts bs).2, i ≠ .skipped ∧ i ≠ .deviceReset

instance (s : PacketStream D) (bs : List (UInt8 × Moment)) : Decidable (s.Framed bs) :=
  inferInstanceAs (Decidable (∀ _ ∈ _, _ ∧ _))

/-- The driver follows the reports, whatever state it was in when the first one came. -/
theorem interrupts_readings {s : PacketStream D} (rs : List Reading)
    (hcount : s.packetByteCount = 0) (habsolute : s.absoluteMode = true) :
    s.interrupts (rs.flatMap Reading.bytes) =
      (rs.foldl afterReading s, rs.flatMap fun r => .replicate 5 .stored ++
        [if s.drops r then .ignored r.packet else .absolutePacket r.packet]) := by
  induction rs generalizing s with
  | nil => rfl
  | cons r rs ih =>
    obtain ⟨hmode, -, hignore, hcount'⟩ := s.afterReading_kept r
    have habsolute' : (s.afterReading r).absoluteMode = true := by
      rw [SynapticsTouchPad.absoluteMode, hmode]
      exact habsolute
    have hdrops : (s.afterReading r).drops = s.drops := by
      funext q
      rw [drops, hignore, drops]
    rw [List.flatMap_cons, interrupts_append, interrupts_reading r hcount habsolute,
      ih hcount' habsolute', hdrops]
    rfl

theorem decoded_readings {s : PacketStream D} (rs : List Reading)
    (hcount : s.packetByteCount = 0) (habsolute : s.absoluteMode = true)
    (hw : s.wMode = true) :
    s.decoded (rs.flatMap Reading.bytes) =
      (rs.filter fun r => !s.drops r).map fun r => r.report.values s.pref.swapButtons := by
  have hpacket (r : Reading) : r.packet.decode s.wMode s.pref.swapButtons =
      r.report.values s.pref.swapButtons := by
    rw [hw]
    exact decode_encode _ _ _ _
  rw [decoded, interrupts_readings rs hcount habsolute]
  show (rs.flatMap _).filterMap _ = _
  induction rs with
  | nil => rfl
  | cons r rs ih =>
    rw [List.flatMap_cons, List.filterMap_append, ih]
    cases hdrop : s.drops r with
    | true => simp [hdrop, Interrupt.decoded, List.replicate]
    | false => simp [hdrop, Interrupt.decoded, List.replicate, List.filterMap_cons, hpacket]

/-- The driver decodes all the reports as they are, with no byte skipped, no reset of the
device and an empty packet buffer after each of them. -/
structure DecodesAll (s : PacketStream D) (rs : List Reading) : Prop where
  decoded : s.decoded (rs.flatMap Reading.bytes) = rs.map fun r => r.report.values false
  framed : s.Framed (rs.flatMap Reading.bytes)
  empty : ∀ qs, qs <+: rs → (s.interrupts (qs.flatMap Reading.bytes)).1.packetByteCount = 0

/-- The reports are framed and decoded one after another, with the buttons as the user wants
them, except those that are dropped because a key is held. -/
theorem readings_decoded {s : PacketStream D} (rs : List Reading)
    (hcount : s.packetByteCount = 0) (habsolute : s.absoluteMode = true)
    (hw : s.wMode = true) :
    s.decoded (rs.flatMap Reading.bytes) =
        ((rs.filter fun r => !s.drops r).map fun r => r.report.values s.pref.swapButtons) ∧
      s.Framed (rs.flatMap Reading.bytes) ∧
      ∀ qs, qs <+: rs → (s.interrupts (qs.flatMap Reading.bytes)).1.packetByteCount = 0 := by
  refine ⟨decoded_readings rs hcount habsolute hw, ?_, ?_⟩
  · intro i hi
    rw [interrupts_readings rs hcount habsolute, List.mem_flatMap] at hi
    obtain ⟨r, -, hi⟩ := hi
    rw [List.mem_append, List.mem_singleton] at hi
    rcases hi with hstored | hlast
    · rw [List.eq_of_mem_replicate hstored]
      decide
    · rw [hlast]
      split <;> exact ⟨by simp, by simp⟩
  · intro qs _
    rw [interrupts_readings qs hcount habsolute]
    induction qs using List.reverseRecOn with
    | nil => exact hcount
    | append_singleton qs q _ =>
      rw [List.foldl_append]
      exact (afterReading_kept _ q).2.2.2

/-- A left click in W mode, with a key held or not. -/
def leftClick (codeToRepeat : UInt32) : Reading :=
  ⟨⟨3000, 2000, 60, 5, true, false, false, false⟩, fun _ => ⟨100, 0, 100, codeToRepeat, 50⟩⟩

def capableStream (swapButtons : Bool) : PacketStream ℚ :=
  let s := PacketStream.start 0x8000 0 1
  { s with pref := { s.pref with swapButtons } }

/-- The second of two clicks comes while a key is held. -/
theorem leftClicks_decoded :
    (capableStream false).decoded ([leftClick 0xFFFFFFFF, leftClick 0].flatMap Reading.bytes) =
      [⟨3000, 2000, 60, 5, 1⟩] :=
  (readings_decoded [leftClick 0xFFFFFFFF, leftClick 0] rfl (by decide) (by decide)).1

/-- A report that comes while a key is held is not decoded, and with the buttons exchanged
a left click is decoded as a right one. -/
theorem leftClick_not_decodesAll :
    ¬ (capableStream false).DecodesAll [leftClick 0] ∧
      ¬ (capableStream true).DecodesAll [leftClick 0xFFFFFFFF] := by
  constructor
  · intro h
    have hdecoded := h.decoded
    rw [decoded_readings _ rfl (by decide) (by decide)] at hdecoded
    revert hdecoded
    decide
  · intro h
    have hdecoded := h.decoded
    rw [decoded_readings _ rfl (by decide) (by decide)] at hdecoded
    revert hdecoded
    decide

end PacketStream

end TouchPad
