import NetbookInstaller.TouchPad.PacketStream

/-! How the interrupt handler puts packets together while the mode of the pad is changed
and its power state is set, by others or by the handler itself after a brown out. -/
namespace TouchPad

open Transition

def ABSOLUTE_MODE_BIT : UInt8 := 0x80

variable {D : Type}

/-- Bytes are checked one by one. -/
theorem forall_byte {p : UInt8 → Prop} (h : ∀ n : Fin 256, p (UInt8.ofNat n)) (b : UInt8) : p b := by
  have hb := h ⟨b.toNat, b.toNat_lt⟩
  rwa [UInt8.ofNat_toNat] at hb

namespace SynapticsTouchPad

/-- The commands to the pad are left out. -/
def setRelativeMode (s : SynapticsTouchPad D) : SynapticsTouchPad D :=
  if s.touchPadModeByte &&& ABSOLUTE_MODE_BIT != 0 then
    { s with touchPadModeByte := s.touchPadModeByte &&& ~~~ABSOLUTE_MODE_BIT }
  else s

def setAbsoluteMode (s : SynapticsTouchPad D) : SynapticsTouchPad D :=
  if s.touchPadModeByte &&& ABSOLUTE_MODE_BIT == 0 then
    { s with touchPadModeByte := s.touchPadModeByte ||| ABSOLUTE_MODE_BIT }
  else s

/-- The size of a packet in the pad's mode. -/
def packetSize (s : SynapticsTouchPad D) : UInt8 :=
  if s.absoluteMode then ABSOLUTE_PACKET_SIZE else RELATIVE_PACKET_SIZE

theorem absoluteMode_eq (s : SynapticsTouchPad D) :
    s.absoluteMode = (s.touchPadModeByte &&& ABSOLUTE_MODE_BIT != 0) :=
  forall_byte (p := fun b => ((b &&& 0x80) >>> 7 != 0) = (b &&& ABSOLUTE_MODE_BIT != 0))
    (by decide +kernel) s.touchPadModeByte

@[simp] theorem setRelativeMode_absoluteMode (s : SynapticsTouchPad D) :
    s.setRelativeMode.absoluteMode = false := by
  unfold setRelativeMode
  split
  · exact forall_byte (p := fun b => (((b &&& ~~~ABSOLUTE_MODE_BIT) &&& 0x80) >>> 7 != 0) = false)
      (by decide +kernel) s.touchPadModeByte
  next hmode =>
    rw [absoluteMode_eq]
    simpa using hmode

@[simp] theorem setAbsoluteMode_absoluteMode (s : SynapticsTouchPad D) :
    s.setAbsoluteMode.absoluteMode = true := by
  unfold setAbsoluteMode
  split
  · exact forall_byte (p := fun b => (((b ||| ABSOLUTE_MODE_BIT) &&& 0x80) >>> 7 != 0) = true)
      (by decide +kernel) s.touchPadModeByte
  next hmode =>
    rw [absoluteMode_eq]
    simpa using hmode

theorem setAbsoluteMode_of_absoluteMode {s : SynapticsTouchPad D} (h : s.absoluteMode = true) :
    s.setAbsoluteMode = s := by
  rw [absoluteMode_eq, bne_iff_ne] at h
  rw [setAbsoluteMode, if_neg (by simpa using h)]

theorem packetSize_pos (s : SynapticsTouchPad D) : 0 < s.packetSize := by
  unfold packetSize
  split <;> decide

theorem packetSize_le (s : SynapticsTouchPad D) : s.packetSize ≤ ABSOLUTE_PACKET_SIZE := by
  unfold packetSize
  split <;> decide

end SynapticsTouchPad

/-- A byte that does not complete the packet leaves room for the next one. -/
theorem PacketStream.count_succ (s : PacketStream D) (hcount : s.packetByteCount < s.packetSize)
    (hlast : s.packetByteCount + 1 ≠ s.packetSize) :
    s.packetByteCount + 1 < s.packetSize ∧
      (s.packetByteCount + 1).toNat = s.packetByteCount.toNat + 1 := by
  have hle : s.packetSize.toNat ≤ 6 := UInt8.le_iff_toNat_le.mp s.packetSize_le
  have hne : (s.packetByteCount + 1).toNat ≠ s.packetSize.toNat := mt UInt8.toNat_inj.mp hlast
  rw [UInt8.lt_iff_toNat_lt] at hcount ⊢
  rw [UInt8.toNat_add] at hne ⊢
  have hone : (1 : UInt8).toNat = 1 := rfl
  omega

/-- The first and the fourth byte of a packet are what the documented layout requires. -/
def Packet.Aligned (p : Packet) : Prop := FirstForm p.bytes ∧ FourthForm p.bytes

/-- The driver with the calls of `setDevicePowerState(kPS2C_EnableDevice)` that have not yet
cleared the packet buffer, and the packets handed over to be interpreted. -/
structure Assembly (D : Type) where
  core : PacketStream D
  enabling : ℕ
  handed : List Packet

/-- `enabled` is the point of an enabling call behind which the packet buffer is clear. Its
commands to the pad, and the bytes that come in during them, are before it. -/
inductive AssemblyEvent where
  | interruptOccurred (data : UInt8) (m : Moment)
  | setRelativeMode
  | setAbsoluteMode
  | setDevicePowerState (whatToDo : WhatToDo)
  | enabled
  deriving DecidableEq, Repr

variable [Double D]

namespace Assembly

def start (capabilities : UInt16) (extendedCapabilities : UInt32) (scaleFactor : D) : Assembly D :=
  ⟨.start capabilities extendedCapabilities scaleFactor, 0, []⟩

def setMode (s : Assembly D) (pad : SynapticsTouchPad D) : Assembly D :=
  { s with core := { s.core with toSynapticsTouchPad := pad } }

def interruptOccurred (s : Assembly D) (data : UInt8) (m : Moment) : Assembly D :=
  match s.core.interruptOccurred data m with
  | (_, .deviceReset) => { s with enabling := s.enabling + 1 }
  | (core, .absolutePacket p) => { s with core, handed := s.handed ++ [p] }
  | (core, _) => { s with core }

def step (s : Assembly D) : AssemblyEvent → Option (Assembly D)
  | .interruptOccurred data m => some (s.interruptOccurred data m)
  | .setRelativeMode => some (s.setMode s.core.setRelativeMode)
  | .setAbsoluteMode => some (s.setMode s.core.setAbsoluteMode)
  | .setDevicePowerState .disableDevice => some s
  | .setDevicePowerState .enableDevice => some { s with enabling := s.enabling + 1 }
  | .enabled =>
    match s.enabling with
    | 0 => none
    | n + 1 => some { s with core := s.core.setDevicePowerState .enableDevice, enabling := n }

end Assembly

/-- A packet is complete. -/
def Interrupt.completes : Interrupt → Bool
  | .ignored _ | .relativePacket _ | .absolutePacket _ => true
  | .skipped | .deviceReset | .stored => false

namespace PacketStream

/-- The driver after a byte has gone into the packet buffer. -/
def stored (s : PacketStream D) (data : UInt8) : PacketStream D :=
  { s with
    packetBuffer := s.packetBuffer.setIfInBounds s.packetByteCount.toNat data
    packetByteCount := s.packetByteCount + 1 }

/-- What storing a byte does: the packet is complete and the count starts again, or one more
byte is in the buffer. -/
structure StoresByte (s : PacketStream D) (data : UInt8) (r : PacketStream D × Interrupt) : Prop where
  mode : r.1.touchPadModeByte = s.touchPadModeByte
  buffer : r.1.packetBuffer = (s.stored data).packetBuffer
  count : r.1.packetByteCount =
    if s.packetByteCount + 1 = s.packetSize then 0 else s.packetByteCount + 1
  completes : r.2.completes = decide (s.packetByteCount + 1 = s.packetSize)
  framed : r.2 ≠ .skipped ∧ r.2 ≠ .deviceReset
  packet : ∀ p, r.2 = .absolutePacket p → p.bytes = (s.stored data).packetBuffer

theorem relative_mode (s : PacketStream D) (p : Packet) :
    (s.dispatchRelativePointerEventWithRelativePacket p).touchPadModeByte = s.touchPadModeByte ∧
      (s.dispatchRelativePointerEventWithRelativePacket p).packetBuffer = s.packetBuffer := by
  unfold dispatchRelativePointerEventWithRelativePacket relativeButtons
  dsimp only
  split_ifs <;> exact ⟨rfl, rfl⟩

theorem storeByte_spec (s : PacketStream D) (data : UInt8) (m : Moment) :
    s.StoresByte data (s.storeByte data m) := by
  have hsize : (s.stored data).packetSize = s.packetSize := rfl
  have hcarries := SynapticsTouchPad.packet_carries (s.stored data).toSynapticsTouchPad
    ⟨(s.stored data).packetBuffer, m.second, m.currentTime⟩
  have hrelative := (s.stored data).relative_mode
    ⟨(s.stored data).packetBuffer, m.second, m.currentTime⟩
  have hlast : (!s.absoluteMode && s.packetByteCount + 1 == RELATIVE_PACKET_SIZE) = true ∨
      (s.absoluteMode && s.packetByteCount + 1 == ABSOLUTE_PACKET_SIZE) = true ↔
        s.packetByteCount + 1 = s.packetSize := by
    unfold SynapticsTouchPad.packetSize
    cases s.absoluteMode <;> simp
  unfold storeByte
  change StoresByte s data (if (!s.absoluteMode && s.packetByteCount + 1 == RELATIVE_PACKET_SIZE) = true
    then _ else if (s.absoluteMode && s.packetByteCount + 1 == ABSOLUTE_PACKET_SIZE) = true then _
    else (s.stored data, .stored))
  split
  next hrel =>
    have hcount := hlast.mp (.inl hrel)
    have hdone : decide (s.packetByteCount + 1 = s.packetSize) = true := decide_eq_true hcount
    split
    · exact ⟨rfl, rfl, (if_pos hcount).symm, hdone.symm, ⟨nofun, nofun⟩, nofun⟩
    · exact ⟨hrelative.1, hrelative.2, (if_pos hcount).symm, hdone.symm, ⟨nofun, nofun⟩, nofun⟩
  next hrel =>
    split
    next habs =>
      have hcount := hlast.mp (.inr habs)
      have hdone : decide (s.packetByteCount + 1 = s.packetSize) = true := decide_eq_true hcount
      split
      · exact ⟨rfl, rfl, (if_pos hcount).symm, hdone.symm, ⟨nofun, nofun⟩, nofun⟩
      · refine ⟨hcarries.touchPadModeByte, rfl, (if_pos hcount).symm, hdone.symm, ⟨nofun, nofun⟩, ?_⟩
        intro p hp
        exact congrArg Packet.bytes (Interrupt.absolutePacket.inj hp).symm
    next habs =>
      have hcount := mt hlast.mpr (not_or.mpr ⟨hrel, habs⟩)
      exact ⟨rfl, rfl, (if_neg hcount).symm, (decide_eq_false hcount).symm, ⟨nofun, nofun⟩, nofun⟩

/-- The handler stores a byte that is not the first one of a packet. -/
theorem interruptOccurred_of_count {s : PacketStream D} (hcount : s.packetByteCount ≠ 0)
    (data : UInt8) (m : Moment) : s.interruptOccurred data m = s.storeByte data m :=
  if_neg hcount

/-- The test of the first byte of a packet. -/
def Accepts (s : PacketStream D) (data : UInt8) : Prop :=
  s.packetByteCount = 0 →
    data ≠ PS2.kSCAcknowledge ∧ (data &&& 0x08 = 0 ↔ s.absoluteMode = true)

/-- The handler skips or stores a byte, or starts to enable the device. -/
theorem interruptOccurred_cases (s : PacketStream D) (data : UInt8) (m : Moment) :
    s.interruptOccurred data m = (s, .skipped) ∨
      (s.interruptOccurred data m).2 = .deviceReset ∨
      s.Accepts data ∧ s.StoresByte data (s.interruptOccurred data m) := by
  have hstores := s.storeByte_spec data m
  unfold interruptOccurred
  split_ifs with hcount hacknowledge hrelative habsolute
  · exact .inl rfl
  · exact .inl rfl
  · exact .inr (.inl rfl)
  · refine .inr (.inr ⟨fun _ => ⟨hacknowledge, ?_⟩, hstores⟩)
    cases hmode : s.absoluteMode <;> simp_all
  · exact .inr (.inr ⟨fun h => absurd h hcount, hstores⟩)

/-- The buffer has room for the next byte, and as many bytes as a packet has, if none of
them is skipped, complete a packet. -/
structure Assembles (s : PacketStream D) : Prop where
  inBounds : s.packetByteCount < ABSOLUTE_PACKET_SIZE
  completes : ∀ bs, bs.length = s.packetSize.toNat → s.Framed bs →
    ∃ i ∈ (s.interrupts bs).2, i.completes = true

theorem Framed.head {s : PacketStream D} {b : UInt8 × Moment} {bs : List (UInt8 × Moment)}
    (h : s.Framed (b :: bs)) : s.StoresByte b.1 (s.interruptOccurred b.1 b.2) := by
  obtain ⟨hskipped, hreset⟩ := h (s.interruptOccurred b.1 b.2).2 List.mem_cons_self
  rcases s.interruptOccurred_cases b.1 b.2 with hcase | hcase | hcase
  · exact absurd (congrArg Prod.snd hcase) hskipped
  · exact absurd hcase hreset
  · exact hcase.2

theorem Framed.tail {s : PacketStream D} {b : UInt8 × Moment} {bs : List (UInt8 × Moment)}
    (h : s.Framed (b :: bs)) : (s.interruptOccurred b.1 b.2).1.Framed bs :=
  fun i hi => h i (List.mem_cons_of_mem _ hi)

theorem completes_of_framed {s : PacketStream D} {bs : List (UInt8 × Moment)} (hs : s.Framed bs)
    (hcount : s.packetByteCount < s.packetSize)
    (hlength : s.packetSize.toNat ≤ s.packetByteCount.toNat + bs.length) :
    ∃ i ∈ (s.interrupts bs).2, i.completes = true := by
  induction bs generalizing s with
  | nil =>
    rw [UInt8.lt_iff_toNat_lt] at hcount
    rw [List.length_nil] at hlength
    omega
  | cons b bs ih =>
    have hb := hs.head
    by_cases hlast : s.packetByteCount + 1 = s.packetSize
    · refine ⟨(s.interruptOccurred b.1 b.2).2, List.mem_cons_self, ?_⟩
      rw [hb.completes, decide_eq_true hlast]
    · have hsize : (s.interruptOccurred b.1 b.2).1.packetSize = s.packetSize := by
        rw [SynapticsTouchPad.packetSize, SynapticsTouchPad.absoluteMode, hb.mode]
        rfl
      have hnext : (s.interruptOccurred b.1 b.2).1.packetByteCount = s.packetByteCount + 1 := by
        rw [hb.count, if_neg hlast]
      obtain ⟨hlt, hsucc⟩ := s.count_succ hcount hlast
      have hlength' : s.packetSize.toNat ≤ (s.packetByteCount + 1).toNat + bs.length := by
        rw [List.length_cons] at hlength
        omega
      obtain ⟨i, hi, hcompletes⟩ := ih hs.tail (by rw [hsize, hnext]; exact hlt)
        (by rw [hsize, hnext]; exact hlength')
      exact ⟨i, List.mem_cons_of_mem _ hi, hcompletes⟩

/-- In relative mode the count is compared with a size that it has passed. -/
theorem not_completes {s : PacketStream D} {bs : List (UInt8 × Moment)}
    (hmode : s.absoluteMode = false) (hcount : 3 ≤ s.packetByteCount.toNat)
    (hlength : s.packetByteCount.toNat + bs.length < 256) :
    s.Framed bs ∧ ∀ i ∈ (s.interrupts bs).2, i.completes = false := by
  induction bs generalizing s with
  | nil => exact ⟨nofun, nofun⟩
  | cons b bs ih =>
    have hsize : s.packetSize = 3 := by
      rw [SynapticsTouchPad.packetSize, if_neg (by simp [hmode])]
      rfl
    have hne : s.packetByteCount ≠ 0 := by
      intro hzero
      rw [hzero] at hcount
      exact absurd hcount (by decide)
    rw [List.length_cons] at hlength
    have hsucc : (s.packetByteCount + 1).toNat = s.packetByteCount.toNat + 1 := by
      rw [UInt8.toNat_add]
      have hone : (1 : UInt8).toNat = 1 := rfl
      omega
    have hnot : s.packetByteCount + 1 ≠ s.packetSize := by
      rw [hsize]
      intro heq
      rw [heq] at hsucc
      have hthree : (3 : UInt8).toNat = 3 := rfl
      omega
    have hb := s.storeByte_spec b.1 b.2
    rw [← interruptOccurred_of_count hne] at hb
    have hnext : (s.interruptOccurred b.1 b.2).1.packetByteCount.toNat =
        s.packetByteCount.toNat + 1 := by
      rw [hb.count, if_neg hnot, hsucc]
    have hmode' : (s.interruptOccurred b.1 b.2).1.absoluteMode = false := by
      rw [SynapticsTouchPad.absoluteMode, hb.mode]
      exact hmode
    obtain ⟨hframed, hnone⟩ := ih hmode' (by omega) (by omega)
    refine ⟨?_, ?_⟩
    · intro i hi
      rcases List.mem_cons.mp hi with rfl | hi
      · exact hb.framed
      · exact hframed i hi
    · intro i hi
      rcases List.mem_cons.mp hi with rfl | hi
      · exact hb.completes.trans (decide_eq_false hnot)
      · exact hnone i hi

/-- A packet can be completed as long as the count is below the size in the pad's mode. -/
theorem assembles_iff (s : PacketStream D) : s.Assembles ↔ s.packetByteCount < s.packetSize := by
  constructor
  · rintro ⟨hbounds, hcompletes⟩
    by_contra hcount
    cases hmode : s.absoluteMode with
    | true =>
      apply hcount
      rw [SynapticsTouchPad.packetSize, if_pos hmode]
      exact hbounds
    | false =>
      rw [SynapticsTouchPad.packetSize, if_neg (by simp [hmode])] at hcount hcompletes
      rw [UInt8.lt_iff_toNat_lt] at hcount hbounds
      obtain ⟨hframed, hnone⟩ := @not_completes _ _ s (.replicate 3 (0x08, ⟨0, 0, 0, 0, 0⟩)) hmode
        (Nat.not_lt.mp hcount) (Nat.lt_of_lt_of_le (Nat.add_lt_add_right hbounds 3) (by decide))
      obtain ⟨i, hi, hcompletes⟩ := hcompletes _ rfl hframed
      rw [hnone i hi] at hcompletes
      cases hcompletes
  · intro hcount
    refine ⟨UInt8.lt_of_lt_of_le hcount s.packetSize_le, fun bs hlength hframed => ?_⟩
    exact completes_of_framed hframed hcount (by omega)

end PacketStream
namespace Assembly

/-- The pad is not put into relative mode with three bytes of an absolute packet, or more,
in the buffer. -/
def RelativeInTime (s : Assembly D) : AssemblyEvent → Prop
  | .setRelativeMode =>
    s.core.absoluteMode = true → s.core.packetByteCount < RELATIVE_PACKET_SIZE
  | _ => True

theorem start_assembles (capabilities : UInt16) (extendedCapabilities : UInt32) (scaleFactor : D) :
    (start capabilities extendedCapabilities scaleFactor).core.Assembles := by
  rw [PacketStream.assembles_iff]
  exact SynapticsTouchPad.packetSize_pos _

theorem setMode_assembles_iff (s : Assembly D) (pad : SynapticsTouchPad D) :
    (s.setMode pad).core.Assembles ↔ s.core.packetByteCount < pad.packetSize :=
  PacketStream.assembles_iff _

theorem storesByte_assembles {s t : PacketStream D} {data : UInt8} {i : Interrupt}
    (h : s.StoresByte data (t, i)) (hs : s.Assembles) : t.Assembles := by
  rw [PacketStream.assembles_iff] at hs ⊢
  have hsize : t.packetSize = s.packetSize := by
    rw [SynapticsTouchPad.packetSize, SynapticsTouchPad.absoluteMode, h.mode]
    rfl
  have hcount : t.packetByteCount = _ := h.count
  rw [hsize, hcount]
  split
  · exact s.packetSize_pos
  next hlast => exact (s.count_succ hs hlast).1

theorem interruptOccurred_assembles {s : Assembly D} (hs : s.core.Assembles) (data : UInt8)
    (m : Moment) : (s.interruptOccurred data m).core.Assembles := by
  have hcases := s.core.interruptOccurred_cases data m
  unfold interruptOccurred
  generalize s.core.interruptOccurred data m = r at hcases
  obtain ⟨t, i⟩ := r
  rcases hcases with hskipped | hreset | ⟨-, hstores⟩
  · cases hskipped
    exact hs
  · cases hreset
    exact hs
  · have ht := storesByte_assembles hstores hs
    cases i <;> first | exact hs | exact ht

/-- Only a change to relative mode can put the count past the size of a packet. -/
theorem relativeInTime_iff (s : Assembly D) (a : AssemblyEvent) (hs : s.core.Assembles) :
    s.RelativeInTime a ↔ ∀ t, s.step a = some t → t.core.Assembles := by
  cases a with
  | interruptOccurred data m =>
    refine iff_of_true trivial fun t ht => ?_
    rw [← Option.some.inj ht]
    exact interruptOccurred_assembles hs data m
  | setRelativeMode =>
    have hstep : (∀ t, s.step .setRelativeMode = some t → t.core.Assembles) ↔
        (s.setMode s.core.setRelativeMode).core.Assembles := by
      simp [step]
    rw [hstep, setMode_assembles_iff, SynapticsTouchPad.packetSize,
      SynapticsTouchPad.setRelativeMode_absoluteMode, if_neg (by simp), RelativeInTime]
    cases hmode : s.core.absoluteMode with
    | true => simp
    | false =>
      rw [PacketStream.assembles_iff, SynapticsTouchPad.packetSize, if_neg (by simp [hmode])] at hs
      simp [hs]
  | setAbsoluteMode =>
    refine iff_of_true trivial fun t ht => ?_
    rw [← Option.some.inj ht, setMode_assembles_iff, SynapticsTouchPad.packetSize,
      SynapticsTouchPad.setAbsoluteMode_absoluteMode, if_pos rfl]
    exact hs.inBounds
  | setDevicePowerState whatToDo =>
    refine iff_of_true trivial fun t ht => ?_
    cases whatToDo with
    | disableDevice => exact Option.some.inj ht ▸ hs
    | enableDevice => exact Option.some.inj ht ▸ hs
  | enabled =>
    refine iff_of_true trivial fun t ht => ?_
    rw [step] at ht
    split at ht
    · cases ht
    · rw [← Option.some.inj ht, PacketStream.assembles_iff]
      exact SynapticsTouchPad.packetSize_pos _

/-- In every run from the driver's start, and in exactly the runs that change to relative
mode in time, the buffer is never overrun and packets go on being completed. -/
theorem assembles_throughout_iff (capabilities : UInt16) (extendedCapabilities : UInt32)
    (scaleFactor : D) (as : List AssemblyEvent) :
    Throughout step (fun s => s.core.Assembles)
        (start capabilities extendedCapabilities scaleFactor) as ↔
      Guarded step RelativeInTime (start capabilities extendedCapabilities scaleFactor) as :=
  throughout_iff_guarded relativeInTime_iff (start_assembles _ _ _) as

/-- A byte that comes in while no key is held. -/
def quiet (data : UInt8) : AssemblyEvent := .interruptOccurred data ⟨0, 0, 0, 0xFFFFFFFF, 0⟩

/-- Relative mode is set behind the third byte of an absolute packet: three bytes later the
buffer is full and the next byte is stored behind it. -/
theorem relativeMode_overrun : ∃ t : Assembly ℚ,
    run step (start 0 0 1) [quiet 0x80, quiet 0x00, quiet 0x00, .setRelativeMode, quiet 0x08,
      quiet 0x00, quiet 0x00] = some t ∧ ¬ t.core.packetByteCount < ABSOLUTE_PACKET_SIZE :=
  ⟨_, rfl, by decide⟩

/-- A byte that begins a packet has the two high bits of a first byte, and a byte that comes
as the fourth one of a packet has the form of a fourth byte. The mode is left as it is. -/
def WellShaped (s : Assembly D) : AssemblyEvent → Prop
  | .interruptOccurred data _ =>
    (s.core.packetByteCount = 0 → data ≠ PS2.kSCAcknowledge → data &&& 0x08 = 0 →
        data &&& 0xC0 = 0x80) ∧
      (s.core.packetByteCount = 3 → data &&& 0xC8 = 0xC0)
  | .setRelativeMode => False
  | _ => True

instance (s : Assembly D) (a : AssemblyEvent) : Decidable (s.WellShaped a) := by
  cases a <;> unfold WellShaped <;> infer_instance

end Assembly

namespace PacketStream

omit [Double D] in
theorem stored_getElem (s : PacketStream D) (data : UInt8) (i : ℕ) (hi : i < 6) :
    (s.stored data).packetBuffer[i] =
      if s.packetByteCount.toNat = i then data else s.packetBuffer[i] :=
  Vector.getElem_setIfInBounds hi

/-- What is in the buffer of a packet under way has the form of a packet. -/
structure Aligning (s : PacketStream D) : Prop where
  mode : s.absoluteMode = true
  first : s.packetByteCount ≠ 0 → Packet.FirstForm s.packetBuffer
  fourth : 3 < s.packetByteCount → Packet.FourthForm s.packetBuffer

omit [Double D] in
theorem Aligning.storesByte {s t : PacketStream D} {data : UInt8} {i : Interrupt} (hs : s.Aligning)
    (hfirst : s.packetByteCount = 0 → data &&& 0xC8 = 0x80)
    (hfourth : s.packetByteCount = 3 → data &&& 0xC8 = 0xC0) (h : s.StoresByte data (t, i)) :
    t.Aligning ∧ ∀ p, i = .absolutePacket p → p.Aligned := by
  have hzeroth : Packet.FirstForm (s.stored data).packetBuffer := by
    rw [Packet.FirstForm, stored_getElem]
    split
    next hcount => exact hfirst (UInt8.toNat_inj.mp hcount)
    next hcount => exact hs.first fun hzero => hcount (congrArg UInt8.toNat hzero)
  have hthird (hcount : 3 ≤ s.packetByteCount) :
      Packet.FourthForm (s.stored data).packetBuffer := by
    rw [Packet.FourthForm, stored_getElem]
    split
    next heq => exact hfourth (UInt8.toNat_inj.mp heq)
    next hne =>
      apply hs.fourth
      have hle := UInt8.le_iff_toNat_le.mp hcount
      exact UInt8.lt_iff_toNat_lt.mpr (Nat.lt_of_le_of_ne hle (Ne.symm hne))
  have hsucc (n : UInt8) (hn : 3 < n) (hcount : n = s.packetByteCount + 1) :
      3 ≤ s.packetByteCount := by
    rw [UInt8.lt_iff_toNat_lt, hcount, UInt8.toNat_add] at hn
    rw [UInt8.le_iff_toNat_le]
    have hone : (1 : UInt8).toNat = 1 := rfl
    omega
  have hbuffer : t.packetBuffer = (s.stored data).packetBuffer := h.buffer
  refine ⟨⟨?_, ?_, ?_⟩, ?_⟩
  · rw [SynapticsTouchPad.absoluteMode, h.mode]
    exact hs.mode
  · intro _
    rw [hbuffer]
    exact hzeroth
  · intro hlt
    have hcount : t.packetByteCount = _ := h.count
    rw [hbuffer]
    split at hcount
    · rw [hcount] at hlt
      exact absurd hlt (by decide)
    · exact hthird (hsucc _ hlt hcount)
  · intro p hp
    have hlast : decide (s.packetByteCount + 1 = s.packetSize) = true := by
      rw [← h.completes, hp]
      rfl
    have hsix : s.packetByteCount + 1 = 6 := by
      rw [of_decide_eq_true hlast, SynapticsTouchPad.packetSize, if_pos hs.mode]
      rfl
    rw [Packet.Aligned, h.packet p hp]
    exact ⟨hzeroth, hthird (hsucc 6 (by decide) hsix.symm)⟩

end PacketStream

namespace Assembly

/-- The packet under way has the form of a packet, and so had all that were handed over. -/
structure Aligning (s : Assembly D) : Prop where
  core : s.core.Aligning
  handed : ∀ p ∈ s.handed, p.Aligned

theorem Aligning.interruptOccurred {s : Assembly D} (hs : s.Aligning) {data : UInt8} {m : Moment}
    (hdata : s.WellShaped (.interruptOccurred data m)) : (s.interruptOccurred data m).Aligning := by
  have hcases := s.core.interruptOccurred_cases data m
  unfold Assembly.interruptOccurred
  generalize s.core.interruptOccurred data m = r at hcases
  obtain ⟨t, i⟩ := r
  rcases hcases with hskipped | hreset | ⟨haccepts, hstores⟩
  · cases hskipped
    exact hs
  · cases hreset
    exact ⟨hs.core, hs.handed⟩
  · have hfirst (hcount : s.core.packetByteCount = 0) : data &&& 0xC8 = 0x80 := by
      obtain ⟨hacknowledge, hbit⟩ := haccepts hcount
      have hlow := hbit.mpr hs.core.mode
      exact forall_byte (p := fun b => b &&& 0x08 = 0 → b &&& 0xC0 = 0x80 → b &&& 0xC8 = 0x80)
        (by decide +kernel) data hlow (hdata.1 hcount hacknowledge hlow)
    obtain ⟨ht, hpacket⟩ := hs.core.storesByte hfirst hdata.2 hstores
    cases i with
    | skipped => exact absurd rfl hstores.framed.1
    | deviceReset => exact absurd rfl hstores.framed.2
    | stored => exact ⟨ht, hs.handed⟩
    | ignored p => exact ⟨ht, hs.handed⟩
    | relativePacket p => exact ⟨ht, hs.handed⟩
    | absolutePacket p =>
      refine ⟨ht, fun q hq => ?_⟩
      rcases List.mem_append.mp hq with hq | hq
      · exact hs.handed q hq
      · rw [List.mem_singleton.mp hq]
        exact hpacket p rfl

theorem Aligning.step (s : Assembly D) (a : AssemblyEvent) (t : Assembly D) (hs : s.Aligning)
    (ha : s.WellShaped a) (ht : s.step a = some t) : t.Aligning := by
  cases a with
  | interruptOccurred data m => exact Option.some.inj ht ▸ hs.interruptOccurred ha
  | setRelativeMode => exact ha.elim
  | setAbsoluteMode =>
    have hset : s.setMode s.core.setAbsoluteMode = s := by
      rw [SynapticsTouchPad.setAbsoluteMode_of_absoluteMode hs.core.mode]
      rfl
    rw [← Option.some.inj ht, hset]
    exact hs
  | setDevicePowerState whatToDo =>
    cases whatToDo with
    | disableDevice => exact Option.some.inj ht ▸ hs
    | enableDevice => exact Option.some.inj ht ▸ ⟨hs.core, hs.handed⟩
  | enabled =>
    rw [Assembly.step] at ht
    split at ht
    · cases ht
    · rw [← Option.some.inj ht]
      exact ⟨⟨hs.core.mode, fun h => absurd rfl h, fun h => absurd (show (3 : UInt8) < 0 from h)
        (by decide)⟩, hs.handed⟩

theorem start_aligning (capabilities : UInt16) (extendedCapabilities : UInt32) (scaleFactor : D) :
    (start capabilities extendedCapabilities scaleFactor).Aligning := by
  refine ⟨⟨?_, fun h => absurd rfl h, fun h => ?_⟩, nofun⟩
  · unfold start PacketStream.start SynapticsTouchPad.start SynapticsTouchPad.absoluteMode
    dsimp only
    split <;> rfl
  · exact absurd (show (3 : UInt8) < 0 from h) (by decide)

/-- In every run in which the bytes have the form that their places in a packet require, so
have the packets that are handed over to be interpreted. -/
theorem handed_aligned {capabilities : UInt16} {extendedCapabilities : UInt32} {scaleFactor : D}
    {as : List AssemblyEvent}
    (hshaped : Guarded Assembly.step WellShaped
      (start capabilities extendedCapabilities scaleFactor) as) :
    Throughout Assembly.step (fun s => ∀ p ∈ s.handed, p.Aligned)
      (start capabilities extendedCapabilities scaleFactor) as :=
  (hshaped.throughout Aligning.step (start_aligning _ _ _)).imp fun _ hs => hs.handed

/-- An acknowledge is skipped before a report. -/
theorem report_aligned : Throughout Assembly.step (fun s => ∀ p ∈ s.handed, p.Aligned)
    (start 0x8000 0 (1 : ℚ)) ([0xFA, 0x80, 0x10, 0x3C, 0xC0, 0x10, 0x20].map quiet) :=
  handed_aligned (by decide)

/-- The first byte of a report is lost, and the first byte of the next one is taken for its
last: what is handed over begins with the second byte. -/
theorem lostByte_not_aligned : ∃ t, run Assembly.step (start 0x8000 0 (1 : ℚ))
    ([0x10, 0x3C, 0xC0, 0x10, 0x20, 0x80].map quiet) = some t ∧ ∃ p ∈ t.handed, ¬ p.Aligned := by
  refine ⟨_, rfl, ⟨#v[0x10, 0x3C, 0xC0, 0x10, 0x20, 0x80], 0, 0⟩, ?_, ?_⟩
  · exact List.mem_singleton.mpr rfl
  · rintro ⟨hfirst, -⟩
    rw [Packet.FirstForm] at hfirst
    revert hfirst
    decide

end Assembly
end TouchPad
