import NetbookInstaller.PS2.CommandByte
import NetbookInstaller.Transition.Reentry
import Mathlib.Data.Int.Notation
import Mathlib.Tactic.IntervalCases

/-! The PS/2 mouse driver: how it frames and decodes the packets, and the reset that it
starts when it loses track of them. -/
namespace Mouse

open Transition

def kPacketLengthMax : ℕ := 4
def kPacketLengthStandard : ℕ := 3
def kPacketLengthIntellimouse : ℕ := 4
def kCBEnableMouseIRQ : UInt8 := 0x02
def kCBDisableMouseClock : UInt8 := 0x20

inductive PS2MouseId where
  | standard | intellimouse | intellimouseExplorer
  deriving DecidableEq, Repr

/-- What the driver does that shows: the events that it delivers, and its resets. -/
inductive Output where
  | relativePointerEvent (dx dy : ℤ) (buttons : UInt32)
  | scrollWheelEvent (deltaAxis1 : ℤ)
  | mouseReset
  deriving DecidableEq, Repr

structure ApplePS2Mouse where
  packetBuffer : Vector UInt8 4
  packetByteCount : ℕ
  packetLength : ℕ
  resolution : UInt32
  type : PS2MouseId
  buttonCount : ℕ
  mouseInfoBytes : UInt32
  mouseResetCount : ℕ
  outputs : List Output
  deriving DecidableEq, Repr

/-- The requests of a reset, for which it blocks in turn. Bytes can be dispatched to the
driver while it waits for one. -/
inductive Stage where
  | disable
  | defaults
  | information
  | mouseID
  | explorerID
  | commandByte (pc : TestAndSet.Pc UInt8)
  | enable
  deriving DecidableEq, Repr

/-- What a completed request has read at `index`. -/
def readAt (request : PS2.PS2Request) (index : ℕ) : UInt8 :=
  (request.commands[index]?.map PS2.PS2Command.inOrOut).getD 0

def getMouseInformation (request : PS2.PS2Request) : UInt32 :=
  if request.commandsCount = 6 then
    ((readAt request 3).toUInt32 <<< 16) ||| ((readAt request 4).toUInt32 <<< 8) |||
      (readAt request 5).toUInt32
  else 0xFFFFFFFF

def getMouseID (request : PS2.PS2Request) : UInt8 :=
  if request.commandsCount = 4 then readAt request 3 else 0xFF

/-- A coordinate, with the sign bit in the header. -/
def extended (header sign byte : UInt8) : UInt32 :=
  (if header &&& sign ≠ 0 then 0xffffff00 else 0) ||| byte.toUInt32

/-- The left, the right and the middle button. -/
def headerButtons (header : UInt8) : UInt32 :=
  (if header &&& 0x1 ≠ 0 then 0x1 else 0) ||| (if header &&& 0x2 ≠ 0 then 0x2 else 0) |||
    (if header &&& 0x4 ≠ 0 then 0x4 else 0)

namespace ApplePS2Mouse

def setInformation (s : ApplePS2Mouse) (information : UInt32) : ApplePS2Mouse :=
  { s with
    mouseInfoBytes := information
    resolution :=
      (if information &&& 0x00FF00 = 0x0000 then 25
      else if information &&& 0x00FF00 = 0x0100 then 50
      else if information &&& 0x00FF00 = 0x0200 then 100
      else if information &&& 0x00FF00 = 0x0300 then 200
      else 150 : UInt32) <<< 16 }

/-- The packets that the mouse is to send from now on. -/
def setType (s : ApplePS2Mouse) (type : PS2MouseId) : ApplePS2Mouse :=
  { s with
    packetLength :=
      if type = .standard then kPacketLengthStandard else kPacketLengthIntellimouse
    type
    buttonCount := if type = .intellimouseExplorer then 5 else 3
    packetByteCount := 0 }

/-- `scheduleMouseReset` up to its first request. -/
def scheduleMouseReset (s : ApplePS2Mouse) : ApplePS2Mouse × Option Stage :=
  ({ s with outputs := s.outputs ++ [.mouseReset] }, some .disable)

/-- A reset goes on when a request completes. The requests that it does not wait for are
left out. -/
def resetMouse (s : ApplePS2Mouse) : Stage → PS2.PS2Request → ApplePS2Mouse × Option Stage
  | .disable, _ => (s, some .defaults)
  | .defaults, _ => (s, some (if s.mouseInfoBytes = 0xFFFFFFFF then .information else .mouseID))
  | .information, request => (s.setInformation (getMouseInformation request), some .mouseID)
  | .mouseID, request =>
    if getMouseID request = 0x04 then
      (s.setType .intellimouseExplorer, some (.commandByte .read))
    else if getMouseID request = 0x03 then (s, some .explorerID)
    else (s.setType .standard, some (.commandByte .read))
  | .explorerID, request =>
    (s.setType (if getMouseID request = 0x04 then .intellimouseExplorer else .intellimouse),
      some (.commandByte .read))
  | .commandByte pc, request =>
    match (PS2.ApplePS2Mouse.setCommandByte kCBEnableMouseIRQ kCBDisableMouseClock).resume
      pc request with
    | .returned => (s, some .enable)
    | pc => (s, some (.commandByte pc))
  | .enable, _ => (s, none)

def dispatchRelativePointerEventWithPacket (s : ApplePS2Mouse) : ApplePS2Mouse :=
  let packet := s.packetBuffer
  let buttons := headerButtons (packet.get 0)
  let dx := (extended (packet.get 0) 0x10 (packet.get 1)).toBitVec.toInt
  let dy := (-extended (packet.get 0) 0x20 (packet.get 2)).toBitVec.toInt
  if s.packetLength > 3 then
    let buttons :=
      if s.type = .intellimouseExplorer then
        buttons ||| (if packet.get 3 &&& 0x10 ≠ 0 then 0x8 else 0) |||
          (if packet.get 3 &&& 0x20 ≠ 0 then 0x10 else 0)
      else buttons
    let dz := ((packet.get 3 <<< 4).toInt8 >>> 4).toInt
    { s with
      outputs := s.outputs ++ .relativePointerEvent dx dy buttons ::
        if dz ≠ 0 then [.scrollWheelEvent (-dz)] else [] }
  else { s with outputs := s.outputs ++ [.relativePointerEvent dx dy buttons] }

/-- A byte is added to the packet buffer. -/
def addByte (s : ApplePS2Mouse) (data : UInt8) : ApplePS2Mouse :=
  { s with
    packetBuffer := s.packetBuffer.setIfInBounds s.packetByteCount data
    packetByteCount := s.packetByteCount + 1 }

/-- The rest of the handler, when a byte has been added. -/
def checkPacket (s : ApplePS2Mouse) : ApplePS2Mouse × Option Stage :=
  if s.packetByteCount = s.packetLength then
    ({ s.dispatchRelativePointerEventWithPacket with
        packetByteCount := 0
        mouseResetCount := 0 }, none)
  else if s.packetByteCount = 2 ∧ s.packetBuffer.get 0 = 0xAA then
    -- this reset is not counted, and the second byte is not looked at
    s.scheduleMouseReset
  else (s, none)

def interruptOccurred (s : ApplePS2Mouse) (data : UInt8) : ApplePS2Mouse × Option Stage :=
  if s.packetByteCount = 0 ∧ (data = PS2.kSCAcknowledge ∨ data &&& 0x08 = 0) then
    if s.mouseResetCount < 5 then
      { s with mouseResetCount := s.mouseResetCount + 1 }.scheduleMouseReset
    else (s, none)
  else (s.addByte data).checkPacket

/-- The driver after `start`, for which nothing is dispatched to it before its first
reset has come to an end. -/
def start (information : UInt32) (type : PS2MouseId) : ApplePS2Mouse :=
  setType (setInformation
    { packetBuffer := .replicate 4 0
      packetByteCount := 0
      packetLength := kPacketLengthStandard
      resolution := (150 : UInt32) <<< 16
      type := .standard
      buttonCount := 3
      mouseInfoBytes := 0xFFFFFFFF
      mouseResetCount := 0
      outputs := [] } information) type

end ApplePS2Mouse

/-- The driver on the work loop: a reset runs inside the call of the handler that started
it, and the handler is called again while it runs. -/
def driver : Reentrant ApplePS2Mouse UInt8 Stage PS2.PS2Request where
  handle := ApplePS2Mouse.interruptOccurred
  resume := ApplePS2Mouse.resetMouse

/-! What the packets mean. -/

/-- A packet, whose fourth byte only the 4-byte format has. -/
structure MousePacket where
  header : UInt8
  x : UInt8
  y : UInt8
  wheel : UInt8
  deriving DecidableEq, Repr

/-- The byte can be the first of a packet. -/
def StartsPacket (data : UInt8) : Prop := data ≠ PS2.kSCAcknowledge ∧ data &&& 0x08 ≠ 0

instance (data : UInt8) : Decidable (StartsPacket data) := inferInstanceAs (Decidable (_ ∧ _))

namespace MousePacket

def buffer (p : MousePacket) : Vector UInt8 4 := #v[p.header, p.x, p.y, p.wheel]

def bytes (p : MousePacket) (packetLength : ℕ) : List UInt8 :=
  [p.header, p.x, p.y, p.wheel].take packetLength

/-- The movements, in 9 bits with the sign in the header. -/
def dx (p : MousePacket) : ℤ := (BitVec.cons (p.header.toBitVec.getLsbD 4) p.x.toBitVec).toInt
def dy (p : MousePacket) : ℤ := (BitVec.cons (p.header.toBitVec.getLsbD 5) p.y.toBitVec).toInt

/-- The movement of the wheel, in the low 4 bits. -/
def dz (p : MousePacket) : ℤ := (p.wheel.toBitVec.setWidth 4).toInt

/-- The buttons: left, right and middle, and the two more of an explorer. -/
def buttons (p : MousePacket) (explorer : Bool) : UInt32 :=
  ⟨(BitVec.ofBoolListLE [p.header.toBitVec.getLsbD 0, p.header.toBitVec.getLsbD 1,
    p.header.toBitVec.getLsbD 2, explorer && p.wheel.toBitVec.getLsbD 4,
    explorer && p.wheel.toBitVec.getLsbD 5]).setWidth 32⟩

/-- The events of a packet. Upwards is positive for the mouse and negative on the screen,
for the movement as for the wheel. -/
def decode (p : MousePacket) (packetLength : ℕ) (type : PS2MouseId) : List Output :=
  if packetLength = kPacketLengthStandard then
    [.relativePointerEvent p.dx (-p.dy) (p.buttons false)]
  else
    .relativePointerEvent p.dx (-p.dy) (p.buttons (type = .intellimouseExplorer)) ::
      if p.dz ≠ 0 then [.scrollWheelEvent (-p.dz)] else []

end MousePacket

theorem and_mask_ne_zero (h mask : UInt8) (k : ℕ)
    (hmask : mask.toBitVec = BitVec.twoPow 8 k) (hk : k < 8) :
    h &&& mask ≠ 0 ↔ h.toBitVec.getLsbD k = true := by
  rw [ne_eq, ← UInt8.toBitVec_inj, UInt8.toBitVec_and, hmask, BitVec.and_twoPow]
  cases h.toBitVec.getLsbD k with
  | true =>
    refine iff_of_true (fun hzero => ?_) rfl
    have hbit := congrArg (fun x => x.getLsbD k) hzero
    simp [hk] at hbit
  | false => exact iff_of_false (not_not.mpr rfl) (by decide)

/-- The coordinate as 9-bit two's complement. -/
theorem extended_toBitVec (header sign byte : UInt8) (k : ℕ)
    (hsign : sign.toBitVec = BitVec.twoPow 8 k) (hk : k < 8) :
    (extended header sign byte).toBitVec =
      (BitVec.cons (header.toBitVec.getLsbD k) byte.toBitVec).signExtend 32 := by
  unfold extended
  simp only [and_mask_ne_zero header sign k hsign hk]
  apply BitVec.eq_of_getLsbD_eq
  intro i hi
  cases header.toBitVec.getLsbD k <;> interval_cases i <;>
    simp [BitVec.getElem_signExtend, BitVec.getElem_cons, BitVec.msb_cons]

theorem extended_dx (p : MousePacket) :
    (extended p.header 0x10 p.x).toBitVec.toInt = p.dx := by
  rw [extended_toBitVec p.header 0x10 p.x 4 rfl (by decide),
    BitVec.toInt_signExtend_of_le (by decide)]
  rfl

theorem neg_extended_dy (p : MousePacket) :
    (-extended p.header 0x20 p.y).toBitVec.toInt = -p.dy := by
  have hy : (extended p.header 0x20 p.y).toBitVec.toInt = p.dy := by
    rw [extended_toBitVec p.header 0x20 p.y 5 rfl (by decide),
      BitVec.toInt_signExtend_of_le (by decide)]
    rfl
  have hlow := BitVec.le_toInt (BitVec.cons (p.header.toBitVec.getLsbD 5) p.y.toBitVec)
  have hhigh := BitVec.toInt_lt (x := BitVec.cons (p.header.toBitVec.getLsbD 5) p.y.toBitVec)
  rw [UInt32.toBitVec_neg, BitVec.toInt_neg, hy]
  unfold MousePacket.dy
  rw [Int.bmod_eq_of_le] <;> omega

theorem shifted_dz (p : MousePacket) : ((p.wheel <<< 4).toInt8 >>> 4).toInt = p.dz := by
  have hsign : (p.wheel.toBitVec.setWidth 4).msb = p.wheel.toBitVec.getMsbD 4 := by
    rw [BitVec.msb_eq_getLsbD_last, BitVec.getMsbD_eq_getLsbD, BitVec.getLsbD_setWidth]
    rfl
  have hbits : ((p.wheel <<< 4).toInt8 >>> 4).toBitVec =
      (p.wheel.toBitVec.setWidth 4).signExtend 8 := by
    apply BitVec.eq_of_getLsbD_eq
    intro i hi
    interval_cases i <;>
      simp [BitVec.getElem_signExtend, BitVec.getElem_sshiftRight, hsign]
  show ((p.wheel <<< 4).toInt8 >>> 4).toBitVec.toInt = p.dz
  rw [hbits, BitVec.toInt_signExtend_of_le (by decide)]
  rfl

theorem headerButtons_eq (p : MousePacket) : headerButtons p.header = p.buttons false := by
  unfold headerButtons MousePacket.buttons
  simp only [and_mask_ne_zero p.header 0x1 0 rfl (by decide),
    and_mask_ne_zero p.header 0x2 1 rfl (by decide),
    and_mask_ne_zero p.header 0x4 2 rfl (by decide)]
  cases p.header.toBitVec.getLsbD 0 <;> cases p.header.toBitVec.getLsbD 1 <;>
    cases p.header.toBitVec.getLsbD 2 <;> cases p.wheel.toBitVec.getLsbD 4 <;>
    cases p.wheel.toBitVec.getLsbD 5 <;> rfl

theorem explorerButtons_eq (p : MousePacket) :
    headerButtons p.header ||| (if p.wheel &&& 0x10 ≠ 0 then 0x8 else 0) |||
      (if p.wheel &&& 0x20 ≠ 0 then 0x10 else 0) = p.buttons true := by
  rw [headerButtons_eq]
  unfold MousePacket.buttons
  simp only [and_mask_ne_zero p.wheel 0x10 4 rfl (by decide),
    and_mask_ne_zero p.wheel 0x20 5 rfl (by decide)]
  cases p.header.toBitVec.getLsbD 0 <;> cases p.header.toBitVec.getLsbD 1 <;>
    cases p.header.toBitVec.getLsbD 2 <;> cases p.wheel.toBitVec.getLsbD 4 <;>
    cases p.wheel.toBitVec.getLsbD 5 <;> rfl

namespace ApplePS2Mouse

/-- A complete packet is decoded as what the mouse means by it. -/
theorem dispatch_eq (s : ApplePS2Mouse) (p : MousePacket) (h0 : s.packetBuffer.get 0 = p.header)
    (h1 : s.packetBuffer.get 1 = p.x) (h2 : s.packetBuffer.get 2 = p.y)
    (h3 : s.packetLength = kPacketLengthStandard ∨
      s.packetLength = kPacketLengthIntellimouse ∧ s.packetBuffer.get 3 = p.wheel) :
    s.dispatchRelativePointerEventWithPacket =
      { s with outputs := s.outputs ++ p.decode s.packetLength s.type } := by
  unfold dispatchRelativePointerEventWithPacket MousePacket.decode
  dsimp only
  rw [h0, h1, h2, extended_dx, neg_extended_dy]
  rcases h3 with hlength | ⟨hlength, hwheel⟩
  · rw [hlength, if_neg (by decide), if_pos rfl, headerButtons_eq]
  · rw [hlength, if_pos (by decide),
      if_neg (show kPacketLengthIntellimouse ≠ kPacketLengthStandard by decide), hwheel, shifted_dz]
    by_cases htype : s.type = .intellimouseExplorer
    · rw [if_pos htype, decide_eq_true htype, explorerButtons_eq]
    · rw [if_neg htype, decide_eq_false htype, headerButtons_eq]

/-- The packets of the driver have one of the two lengths, and its buffer is not full. -/
structure Ready (s : ApplePS2Mouse) : Prop where
  packetLength : s.packetLength = kPacketLengthStandard ∨ s.packetLength = kPacketLengthIntellimouse
  packetByteCount : s.packetByteCount < s.packetLength

/-- The driver after the first `k` bytes of a packet. -/
def filled (s : ApplePS2Mouse) (p : MousePacket) (k : ℕ) : ApplePS2Mouse :=
  { s with
    packetBuffer := Vector.ofFn fun i => if i.val < k then p.buffer[i] else s.packetBuffer[i]
    packetByteCount := k }

/-- The driver after a packet. -/
def afterPacket (s : ApplePS2Mouse) (p : MousePacket) : ApplePS2Mouse :=
  { s.filled p s.packetLength with
    outputs := s.outputs ++ p.decode s.packetLength s.type
    packetByteCount := 0
    mouseResetCount := 0 }

theorem filled_zero {s : ApplePS2Mouse} (h : s.packetByteCount = 0) (p : MousePacket) :
    s.filled p 0 = s := by
  have hbuffer :
      (Vector.ofFn fun i : Fin 4 => if i.val < 0 then p.buffer[i] else s.packetBuffer[i]) =
      s.packetBuffer := by
    ext i hi
    simp
  rw [filled, hbuffer, ← h]

theorem getElem_filled (s : ApplePS2Mouse) (p : MousePacket) {i k : ℕ} (hi : i < 4) (hik : i < k) :
    (s.filled p k).packetBuffer[i] = p.buffer[i] := by
  simp [filled, hik]

theorem filled_addByte (s : ApplePS2Mouse) (p : MousePacket) {k : ℕ} (hk : k < 4) :
    (s.filled p k).addByte p.buffer[k] = s.filled p (k + 1) := by
  have hbuffer : (s.filled p k).packetBuffer.setIfInBounds k p.buffer[k] =
      (s.filled p (k + 1)).packetBuffer := by
    ext i hi
    simp only [filled, Vector.getElem_setIfInBounds, Vector.getElem_ofFn, Fin.getElem_fin]
    by_cases hik : k = i
    · subst hik
      simp
    · rw [if_neg hik]
      split
      · rw [if_pos (by omega)]
      · rw [if_neg (by omega)]
  have hcount : (s.filled p k).packetByteCount = k := rfl
  rw [addByte, hcount, hbuffer]
  rfl

/-- A byte of a packet is added to it. -/
theorem interruptOccurred_filled (s : ApplePS2Mouse) (p : MousePacket)
    (hstart : StartsPacket p.header) {k : ℕ} (hk : k < 4) :
    (s.filled p k).interruptOccurred p.buffer[k] = (s.filled p (k + 1)).checkPacket := by
  have hfirst : ¬ ((s.filled p k).packetByteCount = 0 ∧
      (p.buffer[k] = PS2.kSCAcknowledge ∨ p.buffer[k] &&& 0x08 = 0)) := by
    rintro ⟨hzero, hbyte⟩
    have hzero' : k = 0 := hzero
    subst hzero'
    exact hbyte.elim hstart.1 hstart.2
  unfold interruptOccurred
  rw [if_neg hfirst, filled_addByte s p hk]

theorem header_filled (s : ApplePS2Mouse) (p : MousePacket) (k : ℕ) :
    (s.filled p (k + 1)).packetBuffer.get 0 = p.header :=
  getElem_filled s p (by decide) (Nat.succ_pos k)

/-- The second byte behind `0xAA` starts a reset. -/
theorem checkPacket_reset {s : ApplePS2Mouse} (hs : s.Ready) {p : MousePacket}
    (h : p.header = 0xAA) :
    (s.filled p 2).checkPacket = (s.filled p 2).scheduleMouseReset := by
  have hlength : (s.filled p 2).packetByteCount ≠ (s.filled p 2).packetLength := by
    show 2 ≠ s.packetLength
    rcases hs.packetLength with hlength | hlength <;> rw [hlength] <;> decide
  unfold checkPacket
  rw [if_neg hlength, if_pos ⟨rfl, (header_filled s p 1).trans h⟩]

theorem checkPacket_stored {s : ApplePS2Mouse} {p : MousePacket} {k : ℕ}
    (h : k = 1 → p.header ≠ 0xAA) (hk : k + 1 ≠ s.packetLength) :
    (s.filled p (k + 1)).checkPacket = (s.filled p (k + 1), none) := by
  unfold checkPacket
  rw [if_neg (by exact hk), if_neg]
  rw [header_filled]
  exact fun hreset => h (Nat.succ.inj hreset.1) hreset.2

theorem checkPacket_last {s : ApplePS2Mouse} (hs : s.Ready) (p : MousePacket) :
    (s.filled p s.packetLength).checkPacket = (s.afterPacket p, none) := by
  have hlength : 3 ≤ s.packetLength := by
    rcases hs.packetLength with hlength | hlength <;> rw [hlength] <;> decide
  have hdispatch := dispatch_eq (s.filled p s.packetLength) p
    (getElem_filled s p (i := 0) (by decide) (by omega))
    (getElem_filled s p (i := 1) (by decide) (by omega))
    (getElem_filled s p (i := 2) (by decide) (by omega)) (by
      rcases hs.packetLength with hstandard | hintellimouse
      · exact .inl hstandard
      · exact .inr ⟨hintellimouse,
          getElem_filled s p (by decide) (by rw [hintellimouse]; decide)⟩)
  have hcount : (s.filled p s.packetLength).packetByteCount =
      (s.filled p s.packetLength).packetLength := rfl
  unfold checkPacket
  rw [if_pos hcount, hdispatch]
  rfl

/-- What the handler can do with a byte. -/
inductive Handled (s : ApplePS2Mouse) (data : UInt8) : ApplePS2Mouse × Option Stage → Prop
  | resetCounted (hfirst : s.packetByteCount = 0) (hdata : ¬ StartsPacket data)
      (hcount : s.mouseResetCount < 5) :
      Handled s data { s with mouseResetCount := s.mouseResetCount + 1 }.scheduleMouseReset
  | skipped (hfirst : s.packetByteCount = 0) (hdata : ¬ StartsPacket data)
      (hcount : ¬ s.mouseResetCount < 5) : Handled s data (s, none)
  | dispatched (hlength : s.packetByteCount + 1 = s.packetLength) :
      Handled s data ({ (s.addByte data).dispatchRelativePointerEventWithPacket with
        packetByteCount := 0
        mouseResetCount := 0 }, none)
  | resetUncounted (hsecond : s.packetByteCount = 1)
      (hlength : s.packetByteCount + 1 ≠ s.packetLength)
      (hheader : s.packetBuffer.get 0 = 0xAA) : Handled s data (s.addByte data).scheduleMouseReset
  | stored (hdata : s.packetByteCount = 0 → StartsPacket data)
      (hlength : s.packetByteCount + 1 ≠ s.packetLength)
      (hheader : ¬ (s.packetByteCount = 1 ∧ s.packetBuffer.get 0 = 0xAA)) :
      Handled s data (s.addByte data, none)

theorem handled (s : ApplePS2Mouse) (data : UInt8) : Handled s data (s.interruptOccurred data) := by
  have hstarts : ¬ StartsPacket data ↔ data = PS2.kSCAcknowledge ∨ data &&& 0x08 = 0 := by
    rw [StartsPacket, not_and_or, not_not, not_not]
  have hheader (hone : s.packetByteCount = 1) :
      (s.addByte data).packetBuffer.get 0 = s.packetBuffer.get 0 := by
    show (s.addByte data).packetBuffer[0] = s.packetBuffer[0]
    simp [addByte, hone]
  unfold interruptOccurred
  split
  next hfirst =>
    split
    next hcount => exact .resetCounted hfirst.1 (hstarts.mpr hfirst.2) hcount
    next hcount => exact .skipped hfirst.1 (hstarts.mpr hfirst.2) hcount
  next hfirst =>
    unfold checkPacket
    split
    next hlength => exact .dispatched hlength
    next hlength =>
      split
      next hreset =>
        have hone : s.packetByteCount = 1 := Nat.succ.inj hreset.1
        exact .resetUncounted hone hlength (hheader hone ▸ hreset.2)
      next hreset =>
        refine .stored (fun hzero => ?_) hlength fun h => hreset ?_
        · exact by_contra fun hdata => hfirst ⟨hzero, hstarts.mp hdata⟩
        · exact ⟨congrArg Nat.succ h.1, (hheader h.1).trans h.2⟩

/-- The events of a packet, and nothing else of the driver. -/
theorem dispatch_outputs (s : ApplePS2Mouse) :
    ∃ events, events ≠ [] ∧ Output.mouseReset ∉ events ∧
      s.dispatchRelativePointerEventWithPacket = { s with outputs := s.outputs ++ events } := by
  unfold dispatchRelativePointerEventWithPacket
  dsimp only
  split
  · refine ⟨_, List.cons_ne_nil _ _, ?_, rfl⟩
    split <;> simp
  · exact ⟨_, List.cons_ne_nil _ _, by simp, rfl⟩

/-- What is delivered and the resets are only ever added to. -/
theorem outputs_interruptOccurred (s : ApplePS2Mouse) (data : UInt8) :
    s.outputs <+: (s.interruptOccurred data).1.outputs := by
  have hhandled := handled s data
  generalize s.interruptOccurred data = r at hhandled
  cases hhandled with
  | resetCounted hfirst hdata hcount => exact List.prefix_append _ _
  | skipped hfirst hdata hcount => exact List.prefix_rfl
  | dispatched hlength =>
    obtain ⟨events, -, -, hevents⟩ := dispatch_outputs (s.addByte data)
    rw [hevents]
    exact List.prefix_append _ _
  | resetUncounted hsecond hlength hheader => exact List.prefix_append _ _
  | stored hdata hlength hheader => exact List.prefix_rfl

theorem outputs_feed (s : ApplePS2Mouse) (bs : List UInt8) :
    s.outputs <+: (driver.feed s bs).outputs := by
  induction bs generalizing s with
  | nil => exact List.prefix_rfl
  | cons b bs ih => exact (outputs_interruptOccurred s b).trans (ih _)

end ApplePS2Mouse

section Stream
variable {s : ApplePS2Mouse} (hs : s.Ready) (hcount : s.packetByteCount = 0)
include hs hcount

open ApplePS2Mouse

theorem feed_packet (p : MousePacket) (hstart : StartsPacket p.header) (h : p.header ≠ 0xAA) :
    driver.Quiet s (p.bytes s.packetLength) ∧
      driver.feed s (p.bytes s.packetLength) = s.afterPacket p := by
  have hbyte (k : ℕ) (hk : k < 4) := interruptOccurred_filled s p hstart hk
  have h0 := hbyte 0 (by decide)
  rw [filled_zero hcount] at h0
  have h1 := hbyte 1 (by decide)
  have h2 := hbyte 2 (by decide)
  have h3 := hbyte 3 (by decide)
  have hlast := checkPacket_last hs p
  rcases hs.packetLength with hlength | hlength
  · have hbytes : p.bytes s.packetLength = [p.buffer[0], p.buffer[1], p.buffer[2]] := by
      rw [hlength]
      rfl
    rw [checkPacket_stored (fun _ => h) (by rw [hlength]; decide)] at h0 h1
    rw [hlength] at hlast
    rw [show (2 + 1 : ℕ) = kPacketLengthStandard from rfl, hlast] at h2
    rw [hbytes]
    simp [Reentrant.Quiet, Reentrant.feed, driver, h0, h1, h2]
  · have hbytes : p.bytes s.packetLength =
        [p.buffer[0], p.buffer[1], p.buffer[2], p.buffer[3]] := by
      rw [hlength]
      rfl
    rw [checkPacket_stored (fun _ => h) (by rw [hlength]; decide)] at h0 h1 h2
    rw [hlength] at hlast
    rw [show (3 + 1 : ℕ) = kPacketLengthIntellimouse from rfl, hlast] at h3
    rw [hbytes]
    simp [Reentrant.Quiet, Reentrant.feed, driver, h0, h1, h2, h3]

/-- A packet that begins with `0xAA` starts a reset. -/
theorem feed_reset (p : MousePacket) (hstart : StartsPacket p.header) (h : p.header = 0xAA) :
    s.outputs ++ [.mouseReset] <+: (driver.feed s (p.bytes s.packetLength)).outputs := by
  have h0 := interruptOccurred_filled s p hstart (k := 0) (by decide)
  have h1 := interruptOccurred_filled s p hstart (k := 1) (by decide)
  have hfirst : (s.filled p 1).checkPacket = (s.filled p 1, none) :=
    checkPacket_stored (fun hk => absurd hk (by decide)) (by
      rcases hs.packetLength with hlength | hlength <;> rw [hlength] <;> decide)
  rw [filled_zero hcount, hfirst] at h0
  rw [checkPacket_reset hs h] at h1
  have hbytes : ∃ rest, p.bytes s.packetLength = p.buffer[0] :: p.buffer[1] :: rest := by
    rcases hs.packetLength with hlength | hlength <;> rw [hlength]
    · exact ⟨[p.y], rfl⟩
    · exact ⟨[p.y, p.wheel], rfl⟩
  obtain ⟨rest, hrest⟩ := hbytes
  have hfeed := outputs_feed (s.filled p 2).scheduleMouseReset.1 rest
  rw [hrest, Reentrant.feed_cons, Reentrant.feed_cons]
  show _ <+: (driver.feed ((s.interruptOccurred p.buffer[0]).1.interruptOccurred
    p.buffer[1]).1 rest).outputs
  rw [h0, h1]
  exact hfeed

end Stream

theorem mouseReset_notMem_decode (p : MousePacket) (packetLength : ℕ) (type : PS2MouseId) :
    Output.mouseReset ∉ p.decode packetLength type := by
  unfold MousePacket.decode
  split
  · simp
  · split <;> simp

/-- The bytes of some packets, and what the packets mean. -/
def stream (s : ApplePS2Mouse) (packets : List MousePacket) : List UInt8 :=
  packets.flatMap fun p => p.bytes s.packetLength

def decoded (s : ApplePS2Mouse) (packets : List MousePacket) : List Output :=
  packets.flatMap fun p => p.decode s.packetLength s.type

theorem stream_cons (s : ApplePS2Mouse) (p : MousePacket) (packets : List MousePacket) :
    stream s (p :: packets) = p.bytes s.packetLength ++ stream s packets := List.flatMap_cons

theorem decoded_cons (s : ApplePS2Mouse) (p : MousePacket) (packets : List MousePacket) :
    decoded s (p :: packets) = p.decode s.packetLength s.type ++ decoded s packets :=
  List.flatMap_cons

theorem ready_afterPacket {s : ApplePS2Mouse} (hs : s.Ready) (p : MousePacket) :
    (s.afterPacket p).Ready := by
  refine ⟨hs.packetLength, ?_⟩
  show 0 < s.packetLength
  exact Nat.zero_lt_of_lt hs.packetByteCount

theorem feed_stream {s : ApplePS2Mouse} (hs : s.Ready) (hcount : s.packetByteCount = 0)
    {packets : List MousePacket} (hstart : ∀ p ∈ packets, StartsPacket p.header)
    (h : ∀ p ∈ packets, p.header ≠ 0xAA) :
    driver.Quiet s (stream s packets) ∧
      (driver.feed s (stream s packets)).outputs = s.outputs ++ decoded s packets := by
  induction packets generalizing s with
  | nil => exact ⟨trivial, (List.append_nil _).symm⟩
  | cons p packets ih =>
    rw [List.forall_mem_cons] at hstart h
    obtain ⟨hquiet, hfeed⟩ := feed_packet hs hcount p hstart.1 h.1
    obtain ⟨hrest, houtputs⟩ :=
      ih (ready_afterPacket hs p) rfl hstart.2 h.2
    rw [stream_cons, decoded_cons, Reentrant.quiet_append, Reentrant.feed_append, hfeed,
      ← List.append_assoc]
    exact ⟨⟨hquiet, hrest⟩, houtputs⟩

theorem feed_stream_reset {s : ApplePS2Mouse} (hs : s.Ready) (hcount : s.packetByteCount = 0)
    {packets : List MousePacket} (hstart : ∀ p ∈ packets, StartsPacket p.header)
    (h : (driver.feed s (stream s packets)).outputs = s.outputs ++ decoded s packets) :
    ∀ p ∈ packets, p.header ≠ 0xAA := by
  induction packets generalizing s with
  | nil => exact fun p hp => absurd hp List.not_mem_nil
  | cons p packets ih =>
    rw [List.forall_mem_cons] at hstart ⊢
    have hheader : p.header ≠ 0xAA := by
      intro hreset
      have hfirst := feed_reset hs hcount p hstart.1 hreset
      have hrest := ApplePS2Mouse.outputs_feed (driver.feed s (p.bytes s.packetLength))
        (stream s packets)
      rw [← Reentrant.feed_append, ← stream_cons, h] at hrest
      obtain ⟨more, hmore⟩ := hfirst.trans hrest
      rw [List.append_assoc, List.append_cancel_left_eq] at hmore
      have hmem : Output.mouseReset ∈ decoded s (p :: packets) := by
        rw [← hmore]
        exact List.mem_append_left _ (List.mem_singleton_self _)
      obtain ⟨q, -, hq⟩ := List.mem_flatMap.mp hmem
      exact mouseReset_notMem_decode _ _ _ hq
    obtain ⟨-, hfeed⟩ := feed_packet hs hcount p hstart.1 hheader
    refine ⟨hheader, ih (ready_afterPacket hs p) rfl hstart.2 ?_⟩
    rw [stream_cons, decoded_cons, Reentrant.feed_append, hfeed, ← List.append_assoc] at h
    exact h

/-- The next byte comes second behind `0xAA`. -/
def ApplePS2Mouse.ResetDue (s : ApplePS2Mouse) : Prop :=
  s.packetByteCount = 1 ∧ s.packetBuffer.get 0 = 0xAA

instance (s : ApplePS2Mouse) : Decidable s.ResetDue :=
  inferInstanceAs (Decidable (_ ∧ _))

/-- A reset that the handler starts is for a byte that cannot start a packet, or for the
two bytes that the mouse sends after a hardware reset. -/
def Caused (s : Reentrant.State ApplePS2Mouse Stage) (e : Reentrant.Event UInt8 PS2.PS2Request) :
    Prop :=
  ∀ data, e = .input data → (s.core.interruptOccurred data).2 ≠ none →
    s.core.packetByteCount = 0 ∧ ¬ StartsPacket data ∨
      s.core.packetByteCount = 1 ∧ s.core.packetBuffer.get 0 = 0xAA ∧ data = 0

/-- No byte but 0 comes second behind `0xAA`. -/
def Genuine (s : Reentrant.State ApplePS2Mouse Stage) (e : Reentrant.Event UInt8 PS2.PS2Request) :
    Prop :=
  ∀ data, e = .input data → s.core.packetByteCount = 1 → s.core.packetBuffer.get 0 = 0xAA → data = 0

/-- What the end of a request can do to the driver. -/
theorem resetMouse_cases (s : ApplePS2Mouse) (stage : Stage) (request : PS2.PS2Request) :
    (s.resetMouse stage request).1 = s ∨
      (∃ information, (s.resetMouse stage request).1 = s.setInformation information) ∨
      ∃ type, (s.resetMouse stage request).1 = s.setType type := by
  unfold ApplePS2Mouse.resetMouse
  cases stage with
  | disable | defaults | enable => exact .inl rfl
  | information => exact .inr (.inl ⟨_, rfl⟩)
  | mouseID =>
    dsimp only
    split
    · exact .inr (.inr ⟨_, rfl⟩)
    · split
      · exact .inl rfl
      · exact .inr (.inr ⟨_, rfl⟩)
  | explorerID => exact .inr (.inr ⟨_, rfl⟩)
  | commandByte pc =>
    dsimp only
    split <;> exact .inl rfl

/-- What the driver learns about the resolution does not touch its packets. -/
theorem setInformation_eq (s : ApplePS2Mouse) (information : UInt32) :
    ∃ resolution, s.setInformation information =
      { s with mouseInfoBytes := information, resolution } :=
  ⟨_, by rw [ApplePS2Mouse.setInformation]⟩

theorem ready_resetMouse {s : ApplePS2Mouse} (hs : s.Ready) (stage : Stage)
    (request : PS2.PS2Request) : (s.resetMouse stage request).1.Ready := by
  rcases resetMouse_cases s stage request with h | ⟨information, h⟩ | ⟨type, h⟩ <;> rw [h]
  · exact hs
  · obtain ⟨resolution, hinformation⟩ := setInformation_eq s information
    rw [hinformation]
    exact ⟨hs.packetLength, hs.packetByteCount⟩
  · cases type with
    | standard => exact ⟨.inl rfl, Nat.zero_lt_succ _⟩
    | intellimouse | intellimouseExplorer => exact ⟨.inr rfl, Nat.zero_lt_succ _⟩

theorem ready_interruptOccurred {s : ApplePS2Mouse} (hs : s.Ready) (data : UInt8) :
    (s.interruptOccurred data).1.Ready := by
  have hhandled := s.handled data
  generalize s.interruptOccurred data = r at hhandled
  cases hhandled with
  | resetCounted hfirst hdata hcount => exact ⟨hs.packetLength, hs.packetByteCount⟩
  | skipped hfirst hdata hcount => exact hs
  | dispatched hlength =>
    obtain ⟨events, -, -, hevents⟩ := (s.addByte data).dispatch_outputs
    rw [hevents]
    exact ⟨hs.packetLength, Nat.zero_lt_of_lt hs.packetByteCount⟩
  | resetUncounted hsecond hlength hheader =>
    exact ⟨hs.packetLength, lt_of_le_of_ne hs.packetByteCount hlength⟩
  | stored hdata hlength hheader =>
    exact ⟨hs.packetLength, lt_of_le_of_ne hs.packetByteCount hlength⟩

theorem ready_run {s t : Reentrant.State ApplePS2Mouse Stage}
    {es : List (Reentrant.Event UInt8 PS2.PS2Request)} (hs : s.core.Ready)
    (ht : run driver.step s es = some t) : t.core.Ready :=
  Reentrant.run_core ApplePS2Mouse.Ready (fun _ data h => ready_interruptOccurred h data)
    (fun _ stage request h => ready_resetMouse h stage request) hs ht

theorem ready_start (information : UInt32) (type : PS2MouseId) :
    (ApplePS2Mouse.start information type).Ready := by
  cases type with
  | standard => exact ⟨.inl rfl, Nat.zero_lt_succ _⟩
  | intellimouse | intellimouseExplorer => exact ⟨.inr rfl, Nat.zero_lt_succ _⟩

/-- When the handler starts a reset. -/
theorem reset_iff {s : ApplePS2Mouse} (hs : s.Ready) (data : UInt8) :
    (s.interruptOccurred data).2 ≠ none ↔
      s.packetByteCount = 0 ∧ ¬ StartsPacket data ∧ s.mouseResetCount < 5 ∨
        s.packetByteCount = 1 ∧ s.packetBuffer.get 0 = 0xAA := by
  have hlong : 3 ≤ s.packetLength := by
    rcases hs.packetLength with hlength | hlength <;> rw [hlength] <;> decide
  have hhandled := s.handled data
  generalize s.interruptOccurred data = r at hhandled
  cases hhandled with
  | resetCounted hfirst hdata hcount =>
    exact iff_of_true (Option.some_ne_none _) (.inl ⟨hfirst, hdata, hcount⟩)
  | skipped hfirst hdata hcount =>
    refine iff_of_false (not_not.mpr rfl) ?_
    rintro (hreset | hreset)
    · exact hcount hreset.2.2
    · omega
  | dispatched hlength =>
    refine iff_of_false (not_not.mpr rfl) ?_
    rintro (hreset | hreset) <;> omega
  | resetUncounted hsecond hlength hheader =>
    exact iff_of_true (Option.some_ne_none _) (.inr ⟨hsecond, hheader⟩)
  | stored hdata hlength hheader =>
    refine iff_of_false (not_not.mpr rfl) ?_
    rintro (hreset | hreset)
    · exact hreset.2.1 (hdata hreset.1)
    · exact hheader hreset

theorem caused_iff {s : Reentrant.State ApplePS2Mouse Stage} (hs : s.core.Ready)
    (e : Reentrant.Event UInt8 PS2.PS2Request) : Caused s e ↔ Genuine s e := by
  constructor
  · intro hcaused data he hone hheader
    rcases hcaused data he ((reset_iff hs data).mpr (.inr ⟨hone, hheader⟩)) with hfirst | hsecond
    · rw [hone] at hfirst
      exact absurd hfirst.1 (by decide)
    · exact hsecond.2.2
  · intro hgenuine data he hreset
    rcases (reset_iff hs data).mp hreset with hfirst | ⟨hone, hheader⟩
    · exact .inl ⟨hfirst.1, hfirst.2.1⟩
    · exact .inr ⟨hone, hheader, hgenuine data he hone hheader⟩

/-- A stream of packets is delivered as what it means, without a reset, exactly if no
packet begins with `0xAA`; and all resets of a run have one of the two causes exactly if no
byte but 0 comes second behind `0xAA`. -/
theorem packets_iff (s : Reentrant.State ApplePS2Mouse Stage) (hs : s.core.Ready) :
    (s.running = [] → s.core.packetByteCount = 0 →
      ∀ packets : List MousePacket, (∀ p ∈ packets, StartsPacket p.header) →
        ((∀ es t, Reentrant.inputs es = stream s.core packets → run driver.step s es = some t →
          t.core.outputs = s.core.outputs ++ decoded s.core packets) ↔
            ∀ p ∈ packets, p.header ≠ 0xAA)) ∧
      ∀ es, Guarded driver.step Caused s es ↔ Guarded driver.step Genuine s es := by
  constructor
  · intro hrunning hcount packets hstart
    constructor
    · intro hdelivered
      obtain ⟨t, ht, hcore⟩ := Reentrant.run_map_input driver s (stream s.core packets)
      have houtputs := hdelivered _ t (Reentrant.inputs_map_input _) ht
      rw [hcore] at houtputs
      exact feed_stream_reset hs hcount hstart houtputs
    · intro h es t hinputs ht
      obtain ⟨hquiet, houtputs⟩ := feed_stream hs hcount hstart h
      rw [← hinputs] at hquiet houtputs
      rw [Reentrant.run_quiet hrunning hquiet ht, houtputs]
  · intro es
    have hok (u : Reentrant.State ApplePS2Mouse Stage) (e : Reentrant.Event UInt8 PS2.PS2Request)
        (hu : u.core.Ready) : Caused u e ↔ Genuine u e := caused_iff hu e
    have hkeep (u : Reentrant.State ApplePS2Mouse Stage) (e : Reentrant.Event UInt8 PS2.PS2Request)
        (v : Reentrant.State ApplePS2Mouse Stage) (hu : u.core.Ready) (_ : Caused u e)
        (hv : driver.step u e = some v) : v.core.Ready :=
      ready_run hu (run_cons.mpr ⟨v, hv, run_nil v⟩)
    exact guarded_congr hok hkeep hs es

/-- Two packets of a standard mouse: no movement with the left button, and a movement. -/
theorem clickedMoved_delivered :
    ∃ t, run driver.step ⟨.start 0 .standard, []⟩ ((stream (.start 0 .standard)
        [⟨0x09, 0, 0, 0⟩, ⟨0x28, 2, 255, 0⟩]).map .input) = some t ∧
      t.core.outputs = [.relativePointerEvent 0 0 1, .relativePointerEvent 2 1 0] := by
  have hdelivered := ((packets_iff ⟨.start 0 .standard, []⟩ (ready_start 0 .standard)).1 rfl rfl
    [⟨0x09, 0, 0, 0⟩, ⟨0x28, 2, 255, 0⟩] (by decide)).mpr (by decide)
  obtain ⟨t, ht, -⟩ := Reentrant.run_map_input driver ⟨.start 0 .standard, []⟩
    (stream (.start 0 .standard) [⟨0x09, 0, 0, 0⟩, ⟨0x28, 2, 255, 0⟩])
  exact ⟨t, ht, hdelivered _ t (Reentrant.inputs_map_input _) ht⟩

/-- A fast movement down and to the left with the right button is taken for a mouse that
has been reset. -/
theorem fastMove_reset :
    ∃ p : MousePacket, StartsPacket p.header ∧
      (∃ t, run driver.step ⟨.start 0 .standard, []⟩
        ((stream (.start 0 .standard) [p]).map .input) = some t ∧
          t.core.outputs ≠ decoded (.start 0 .standard) [p]) ∧
      ¬ Guarded driver.step Caused ⟨.start 0 .standard, []⟩
        ((stream (.start 0 .standard) [p]).map .input) := by
  refine ⟨⟨0xAA, 0x01, 0x00, 0x00⟩, by decide, ⟨_, rfl, by decide⟩, fun h => ?_⟩
  have hcause := (h.2 _ rfl).1 0x01 rfl (by decide)
  exact absurd hcause (by decide)

end Mouse
