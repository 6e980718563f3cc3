import NetbookInstaller.Ata.TimingRegisters
import NetbookInstaller.Transition.Runs

/-! The ports of the serial ATA controllers: how the channels share them, and how the drivers of
both channels turn them off and on in the registers that they have in common. -/
namespace Ata

open Registers

inductive ChannelMode
  | Disabled
  | PATA
  | SATAPort0
  | SATAPort1
  | SATAPort01
  | SATAPort10
  | SATAPort02
  | SATAPort13
  deriving DecidableEq

def gICH5ChannelModeMap : BitVec 3 → Channel → ChannelMode
  | 0#3, .primary => .SATAPort0
  | 0#3, .secondary => .SATAPort1
  | 1#3, .primary => .SATAPort1
  | 1#3, .secondary => .SATAPort0
  | 2#3, _ => .Disabled
  | 3#3, _ => .Disabled
  | 4#3, .primary => .SATAPort01
  | 4#3, .secondary => .PATA
  | 5#3, .primary => .SATAPort10
  | 5#3, .secondary => .PATA
  | 6#3, .primary => .PATA
  | 6#3, .secondary => .SATAPort01
  | 7#3, .primary => .PATA
  | 7#3, .secondary => .SATAPort10

def gICH6ChannelModeMap : BitVec 2 → Channel → ChannelMode
  | 0#2, .primary => .SATAPort02
  | 0#2, .secondary => .SATAPort13
  | 1#2, .primary => .PATA
  | 1#2, .secondary => .SATAPort13
  | 2#2, .primary => .SATAPort02
  | 2#2, .secondary => .PATA
  | 3#2, _ => .Disabled

/-- Without the ports 1 and 3. -/
def gICH6MChannelModeMap : BitVec 2 → Channel → ChannelMode
  | 0#2, .primary => .SATAPort02
  | 0#2, .secondary => .Disabled
  | 1#2, .primary => .PATA
  | 1#2, .secondary => .Disabled
  | 2#2, .primary => .SATAPort02
  | 2#2, .secondary => .PATA
  | 3#2, _ => .Disabled

/-- `ESB2` counts as `ICH6` and an unknown name as `ICH7`. The tables of `ICH7` and `ICH7-M` have
the rows of those of `ICH6` and `ICH6-M`. -/
inductive ControllerName
  | ICH5
  | ICH6
  | ICH6M
  | ICH7
  | ICH7M
  deriving DecidableEq

/-- The modes of the channels by the port mapping register of the controller. -/
def channelMode (hwName : ControllerName) (mapValue : BitVec 8) : Channel → ChannelMode :=
  match hwName with
  | .ICH5 => gICH5ChannelModeMap (mapValue.setWidth 3)
  | .ICH6 | .ICH7 => gICH6ChannelModeMap (mapValue.setWidth 2)
  | .ICH6M | .ICH7M => gICH6MChannelModeMap (mapValue.setWidth 2)

inductive SerialATAPort
  | Port0
  | Port1
  | Port2
  | Port3
  deriving DecidableEq

instance : Fintype SerialATAPort :=
  ⟨{.Port0, .Port1, .Port2, .Port3}, by rintro (_ | _ | _ | _) <;> decide⟩

/-- The port of a drive; drives beyond the greatest number of a mode have none. -/
def getSerialATAPortForDrive : ChannelMode → ATAUnitID → Option SerialATAPort
  | .SATAPort0, .device0 => some .Port0
  | .SATAPort1, .device0 => some .Port1
  | .SATAPort01, .device0 => some .Port0
  | .SATAPort01, .device1 => some .Port1
  | .SATAPort10, .device0 => some .Port1
  | .SATAPort10, .device1 => some .Port0
  | .SATAPort02, .device0 => some .Port0
  | .SATAPort02, .device1 => some .Port2
  | .SATAPort13, .device0 => some .Port1
  | .SATAPort13, .device1 => some .Port3
  | _, _ => none

def maxDriveCount : ChannelMode → ℕ
  | .Disabled => 0
  | .SATAPort0 | .SATAPort1 => 1
  | _ => 2

structure PCSPortMap where
  enableOffset : UInt8
  enableMask : BitVec 8
  presenceOffset : UInt8
  presenceMask : BitVec 8
  deriving DecidableEq

def kPIIX_PCI_PCS : UInt8 := 0x92

def gDefaultPortMap : SerialATAPort → PCSPortMap
  | .Port0 => ⟨kPIIX_PCI_PCS, 0x01, kPIIX_PCI_PCS, 0x10⟩
  | .Port1 => ⟨kPIIX_PCI_PCS, 0x02, kPIIX_PCI_PCS, 0x20⟩
  | .Port2 => ⟨kPIIX_PCI_PCS, 0x04, kPIIX_PCI_PCS, 0x40⟩
  | .Port3 => ⟨kPIIX_PCI_PCS, 0x08, kPIIX_PCI_PCS, 0x80⟩

/-- The bytes of the configuration space. -/
abbrev PciBytes := File fun _ : UInt8 => 8

def setSerialATAPortEnable (portMap : SerialATAPort → PCSPortMap) (regs : PciBytes)
    (port : SerialATAPort) (enable : Bool) : PciBytes :=
  let map := portMap port
  regs.write map.enableOffset (if enable then map.enableMask else 0) map.enableMask

def getSerialATAPortPresentStatus (portMap : SerialATAPort → PCSPortMap) (regs : PciBytes)
    (port : SerialATAPort) : Bool :=
  regs (portMap port).presenceOffset &&& (portMap port).presenceMask ≠ 0

inductive ScanPhase
  | unscanned
  | scanning
  | scanned
  deriving DecidableEq

/-- The driver of a channel: the drives that it has found, and the ports that it has still to turn
off or on. -/
structure SerialDriver where
  phase : ScanPhase
  found : ATAUnitID → Bool
  pending : List (ATAUnitID × Bool)
  initPortEnable : Bool

structure SerialSystem where
  regs : PciBytes
  driver : Channel → SerialDriver

inductive SerialAction
  | resetPorts (c : Channel)
  | scanForDrives (c : Channel) (found : ATAUnitID → Bool)
  | pciConfigWrite (c : Channel)
  | setPowerState (c : Channel) (on : Bool)
  | detect (regs : PciBytes)
  | powerLoss (regs : PciBytes)

def units (mode : ChannelMode) : List ATAUnitID := [.device0, .device1].take (maxDriveCount mode)

/-- A drive that the scan of the bus has found is kept if its port says that one is there. -/
def fixup (portMap : SerialATAPort → PCSPortMap) (mode : ChannelMode) (regs : PciBytes)
    (found : ATAUnitID → Bool) (unit : ATAUnitID) : Bool :=
  found unit && decide (unit ∈ units mode) &&
    (getSerialATAPortForDrive mode unit).any (getSerialATAPortPresentStatus portMap regs)

namespace SerialSystem

variable (portMap : SerialATAPort → PCSPortMap) (mode : Channel → ChannelMode)

def initial (regs : PciBytes) : SerialSystem where
  regs
  driver _ :=
    { phase := .unscanned
      found := fun _ => false
      pending := []
      initPortEnable := false }

def setDriver (s : SerialSystem) (c : Channel) (d : SerialDriver) : SerialSystem :=
  { s with driver := Function.update s.driver c d }

def setSerialATAPortEnableForDrive (regs : PciBytes) (mode : ChannelMode) (unit : ATAUnitID)
    (enable : Bool) : PciBytes :=
  match getSerialATAPortForDrive mode unit with
  | none => regs
  | some port => setSerialATAPortEnable portMap regs port enable

/-- Parallel channels are left to another driver. -/
def step (s : SerialSystem) : SerialAction → Option SerialSystem
  | .resetPorts c =>
    let d := s.driver c
    if mode c ≠ .PATA ∧ d.phase ≠ .scanned ∧ d.pending = [] then
      some (s.setDriver c { d with
        phase := .scanning
        pending := (units (mode c)).map (·, false) ++ (units (mode c)).map (·, true) })
    else none
  | .scanForDrives c found =>
    let d := s.driver c
    if d.phase = .scanning ∧ d.pending = [] then
      let found := fixup portMap (mode c) s.regs found
      some (s.setDriver c { d with
        phase := .scanned
        found
        pending := ((units (mode c)).filter fun unit => !found unit).map (·, false) })
    else none
  | .pciConfigWrite c =>
    let d := s.driver c
    match d.pending with
    | [] => none
    | (unit, enable) :: pending =>
      some { s.setDriver c { d with pending } with
        regs := setSerialATAPortEnableForDrive portMap s.regs (mode c) unit enable }
  | .setPowerState c on =>
    let d := s.driver c
    if d.phase = .scanned ∧ d.pending = [] then
      if on then
        if d.initPortEnable then
          some (s.setDriver c { d with
            pending := (units (mode c)).map fun unit => (unit, d.found unit)
            initPortEnable := false })
        else some s
      else some (s.setDriver c { d with initPortEnable := true })
    else none
  | .detect regs =>
    if ∀ port, regs (portMap port).enableOffset &&& (portMap port).enableMask =
        s.regs (portMap port).enableOffset &&& (portMap port).enableMask then
      some { s with regs }
    else none
  | .powerLoss regs =>
    if ∀ c, (s.driver c).phase = .unscanned ∨
        (s.driver c).pending = [] ∧ (s.driver c).initPortEnable = true then
      some { s with regs }
    else none

end SerialSystem

/-- No two drives share a port. -/
def PortsApart (mode : Channel → ChannelMode) : Prop :=
  ∀ c c' unit unit', getSerialATAPortForDrive (mode c) unit ≠ none →
    getSerialATAPortForDrive (mode c') unit' = getSerialATAPortForDrive (mode c) unit →
      c' = c ∧ unit' = unit

instance (mode : Channel → ChannelMode) : Decidable (PortsApart mode) :=
  inferInstanceAs (Decidable (∀ _ _ _ _, _ → _ → _))

theorem channelMode_apart (hwName : ControllerName) (mapValue : BitVec 8) :
    PortsApart (channelMode hwName mapValue) := by
  have hICH5 : ∀ i, PortsApart (gICH5ChannelModeMap i) := by decide
  have hICH6 : ∀ i, PortsApart (gICH6ChannelModeMap i) := by decide
  have hICH6M : ∀ i, PortsApart (gICH6MChannelModeMap i) := by decide
  cases hwName with
  | ICH5 => exact hICH5 _
  | ICH6 | ICH7 => exact hICH6 _
  | ICH6M | ICH7M => exact hICH6M _

theorem mem_units {mode : ChannelMode} {unit : ATAUnitID} {port : SerialATAPort}
    (h : getSerialATAPortForDrive mode unit = some port) : unit ∈ units mode := by
  have hunit : getSerialATAPortForDrive mode unit ≠ none := by simp [h]
  revert hunit
  cases mode <;> cases unit <;> decide

/-- The bits that enable the ports are not shared either. -/
def EnablesApart (portMap : SerialATAPort → PCSPortMap) : Prop :=
  ∀ port port', port' ≠ port → (portMap port').enableOffset = (portMap port).enableOffset →
    (portMap port).enableMask &&& (portMap port').enableMask = 0

instance (portMap : SerialATAPort → PCSPortMap) : Decidable (EnablesApart portMap) :=
  inferInstanceAs (Decidable (∀ _ _, _ → _ → _))

theorem gDefaultPortMap_apart : EnablesApart gDefaultPortMap := by decide

section Ports

variable {portMap : SerialATAPort → PCSPortMap} {regs : PciBytes} {port port' : SerialATAPort}
  {enable : Bool}

/-- The port is on, or off. -/
def Enabled (portMap : SerialATAPort → PCSPortMap) (regs : PciBytes) (port : SerialATAPort)
    (enable : Bool) : Prop :=
  regs (portMap port).enableOffset &&& (portMap port).enableMask =
    if enable then (portMap port).enableMask else 0

theorem setSerialATAPortEnable_self :
    Enabled portMap (setSerialATAPortEnable portMap regs port enable) port enable := by
  rw [Enabled, setSerialATAPortEnable, File.write_self,
    setBits_and_of_subset (BitVec.and_self ..)]
  split
  · exact BitVec.and_self ..
  · exact BitVec.zero_and

theorem setSerialATAPortEnable_other (hmap : EnablesApart portMap) (h : port' ≠ port) :
    setSerialATAPortEnable portMap regs port' enable (portMap port).enableOffset &&&
        (portMap port).enableMask =
      regs (portMap port).enableOffset &&& (portMap port).enableMask := by
  rw [setSerialATAPortEnable]
  by_cases hoffset : (portMap port').enableOffset = (portMap port).enableOffset
  · rw [← hoffset, File.write_self, setBits_and_of_disjoint (hmap port port' h hoffset)]
  · rw [File.write_of_ne (Ne.symm hoffset)]

end Ports

/-- What was asked last of the port of a drive, and is still to be done. -/
def lastRequest (unit : ATAUnitID) : List (ATAUnitID × Bool) → Option Bool
  | [] => none
  | (unit', enable) :: pending =>
    (lastRequest unit pending).or (if unit' = unit then some enable else none)

theorem lastRequest_append (unit : ATAUnitID) (pending pending' : List (ATAUnitID × Bool)) :
    lastRequest unit (pending ++ pending') =
      (lastRequest unit pending').or (lastRequest unit pending) := by
  induction pending with
  | nil => simp [lastRequest]
  | cons request pending ih =>
    rw [List.cons_append, lastRequest, ih, lastRequest, Option.or_assoc]

theorem lastRequest_map (unit : ATAUnitID) (enable : ATAUnitID → Bool) (us : List ATAUnitID) :
    lastRequest unit (us.map fun u => (u, enable u)) =
      if unit ∈ us then some (enable unit) else none := by
  induction us with
  | nil => rfl
  | cons u us ih =>
    rw [List.map_cons, lastRequest, ih]
    by_cases hunit : unit = u
    · subst hunit
      by_cases hin : unit ∈ us <;> simp [hin]
    · simp [hunit, Ne.symm hunit]

/-- Before the drives are known, all ports are to be on. -/
def SerialDriver.target (d : SerialDriver) (unit : ATAUnitID) : Bool :=
  if d.phase = .scanned then d.found unit else true

/-- Each port is in the state that is wanted of it, or will be when the requests are done. -/
def SoundPorts (portMap : SerialATAPort → PCSPortMap) (mode : ChannelMode) (regs : PciBytes)
    (d : SerialDriver) : Prop :=
  d.phase ≠ .unscanned → d.initPortEnable = false →
    ∀ unit, ∀ port ∈ getSerialATAPortForDrive mode unit,
      match lastRequest unit d.pending with
      | some enable => enable = d.target unit
      | none => Enabled portMap regs port (d.target unit)

namespace SoundPorts

variable {portMap : SerialATAPort → PCSPortMap} {mode : ChannelMode} {regs regs' : PciBytes}
  {d : SerialDriver}

/-- All that a driver has to see of the registers are the bits of its ports. -/
theorem congr (h : SoundPorts portMap mode regs d)
    (hregs : ∀ unit, ∀ port ∈ getSerialATAPortForDrive mode unit,
      regs' (portMap port).enableOffset &&& (portMap port).enableMask =
        regs (portMap port).enableOffset &&& (portMap port).enableMask) :
    SoundPorts portMap mode regs' d := by
  intro hphase hinit unit port hport
  have hsound := h hphase hinit unit port hport
  split at hsound
  · assumption
  · rw [Enabled, hregs unit port hport]
    exact hsound

theorem resetPorts (found : ATAUnitID → Bool) (initPortEnable : Bool) :
    SoundPorts portMap mode regs ⟨.scanning, found,
      (units mode).map (·, false) ++ (units mode).map (·, true), initPortEnable⟩ := by
  intro _ _ unit port hport
  have hlast : lastRequest unit ((units mode).map (·, false) ++ (units mode).map (·, true)) =
      some true := by
    rw [lastRequest_append, lastRequest_map unit (fun _ => true), if_pos (mem_units hport)]
    rfl
  simp only [hlast]
  rfl

theorem scanForDrives (h : SoundPorts portMap mode regs d) (hphase : d.phase = .scanning)
    (hpending : d.pending = []) (found : ATAUnitID → Bool) :
    SoundPorts portMap mode regs { d with
      phase := .scanned
      found
      pending := ((units mode).filter fun unit => !found unit).map (·, false) } := by
  intro _ hinit unit port hport
  have hbefore := h (by rw [hphase]; decide) hinit unit port hport
  have hon : Enabled portMap regs port true := by
    simpa only [hpending, lastRequest, SerialDriver.target, hphase, reduceCtorEq, if_false]
      using hbefore
  have hlast : lastRequest unit (((units mode).filter fun unit => !found unit).map (·, false)) =
      if found unit then none else some false := by
    rw [lastRequest_map unit fun _ => false]
    cases hfound : found unit <;> simp [hfound, mem_units hport]
  cases hfound : found unit with
  | true =>
    rw [hfound, if_pos rfl] at hlast
    simpa only [hlast, SerialDriver.target, if_true, hfound] using hon
  | false =>
    rw [hfound, if_neg Bool.false_ne_true] at hlast
    simp only [hlast, SerialDriver.target, if_true, hfound]

theorem wake (h : d.phase = .scanned) :
    SoundPorts portMap mode regs { d with
      pending := (units mode).map fun unit => (unit, d.found unit)
      initPortEnable := false } := by
  intro _ _ unit port hport
  have hlast := lastRequest_map unit d.found (units mode)
  rw [if_pos (mem_units hport)] at hlast
  simp only [hlast, SerialDriver.target, h, if_true]

theorem of_initPortEnable (h : d.initPortEnable = true) : SoundPorts portMap mode regs d := by
  intro _ hinit
  rw [h] at hinit
  contradiction

theorem of_unscanned (h : d.phase = .unscanned) : SoundPorts portMap mode regs d :=
  fun hphase => absurd h hphase

end SoundPorts

namespace SerialSystem

variable {portMap : SerialATAPort → PCSPortMap} {mode : Channel → ChannelMode} {regs : PciBytes}
  {s t : SerialSystem}

/-- Turning a port on or off is nothing to the port of another drive. -/
theorem setSerialATAPortEnableForDrive_other (hmap : EnablesApart portMap)
    (hmode : PortsApart mode) {c c' : Channel} {unit unit' : ATAUnitID} {port : SerialATAPort}
    (hport : getSerialATAPortForDrive (mode c) unit = some port)
    (hne : ¬(c' = c ∧ unit' = unit)) (enable : Bool) :
    setSerialATAPortEnableForDrive portMap regs (mode c') unit' enable
        (portMap port).enableOffset &&& (portMap port).enableMask =
      regs (portMap port).enableOffset &&& (portMap port).enableMask := by
  cases hport' : getSerialATAPortForDrive (mode c') unit' with
  | none => rw [setSerialATAPortEnableForDrive, hport']
  | some port' =>
    have hports : port' ≠ port := by
      rintro rfl
      exact hne (hmode c c' unit unit' (by simp [hport]) (hport'.trans hport.symm))
    rw [setSerialATAPortEnableForDrive, hport']
    exact setSerialATAPortEnable_other hmap hports

theorem pciConfigWrite_sound (hmap : EnablesApart portMap) (hmode : PortsApart mode) {c : Channel}
    {d : SerialDriver} (h : SoundPorts portMap (mode c) regs d) {unit' : ATAUnitID} {enable : Bool}
    {pending : List (ATAUnitID × Bool)} (hpending : d.pending = (unit', enable) :: pending) :
    SoundPorts portMap (mode c)
      (setSerialATAPortEnableForDrive portMap regs (mode c) unit' enable) { d with pending } := by
  intro hphase hinit unit port hport
  have hbefore := h hphase hinit unit port hport
  rw [hpending, lastRequest] at hbefore
  cases hlast : lastRequest unit pending with
  | some last =>
    simp only [hlast, Option.some_or] at hbefore ⊢
    exact hbefore
  | none =>
    simp only [hlast, Option.none_or] at hbefore ⊢
    by_cases hunit : unit' = unit
    · subst hunit
      rw [if_pos rfl] at hbefore
      have hself : setSerialATAPortEnableForDrive portMap regs (mode c) unit' enable =
          setSerialATAPortEnable portMap regs port enable := by
        rw [setSerialATAPortEnableForDrive, Option.mem_def.mp hport]
      rw [hself]
      exact hbefore ▸ setSerialATAPortEnable_self
    · rw [if_neg hunit] at hbefore
      rw [Enabled, setSerialATAPortEnableForDrive_other hmap hmode hport (fun hsame =>
        hunit hsame.2)]
      exact hbefore

variable (portMap mode) in
def Sound (s : SerialSystem) : Prop := ∀ c, SoundPorts portMap (mode c) s.regs (s.driver c)

theorem sound_of_driver {c : Channel} {d : SerialDriver} {regs : PciBytes}
    (hself : SoundPorts portMap (mode c) regs d)
    (hother : ∀ c', c' ≠ c → SoundPorts portMap (mode c') regs (s.driver c')) :
    ({ s.setDriver c d with regs }).Sound portMap mode :=
  (Function.forall_update_iff s.driver fun c' d' => SoundPorts portMap (mode c') regs d').mpr
    ⟨hself, hother⟩

theorem Sound.setDriver (h : s.Sound portMap mode) {c : Channel} {d : SerialDriver}
    (hd : SoundPorts portMap (mode c) s.regs d) : (s.setDriver c d).Sound portMap mode :=
  sound_of_driver hd fun c' _ => h c'

theorem Sound.step (hmap : EnablesApart portMap) (hmode : PortsApart mode)
    (h : s.Sound portMap mode) {a : SerialAction}
    (hstep : s.step portMap mode a = some t) : t.Sound portMap mode := by
  cases a with
  | resetPorts c =>
    obtain ⟨-, hsome⟩ := Option.ite_none_right_eq_some.mp hstep
    cases hsome
    exact h.setDriver (.resetPorts _ _)
  | scanForDrives c found =>
    obtain ⟨⟨hphase, hpending⟩, hsome⟩ := Option.ite_none_right_eq_some.mp hstep
    cases hsome
    exact h.setDriver ((h c).scanForDrives hphase hpending _)
  | pciConfigWrite c =>
    simp only [SerialSystem.step] at hstep
    split at hstep
    · contradiction
    · rename_i unit enable pending hpending
      cases hstep
      refine sound_of_driver (pciConfigWrite_sound hmap hmode (h c) hpending) fun c' hc => ?_
      refine (h c').congr fun unit' port hport => ?_
      exact setSerialATAPortEnableForDrive_other hmap hmode hport (fun hsame => hc hsame.1.symm) _
  | setPowerState c on =>
    obtain ⟨⟨hphase, -⟩, hsome⟩ := Option.ite_none_right_eq_some.mp hstep
    split_ifs at hsome
    · cases hsome
      exact h.setDriver (.wake hphase)
    · cases hsome
      exact h
    · cases hsome
      exact h.setDriver (.of_initPortEnable rfl)
  | detect regs =>
    obtain ⟨hregs, hsome⟩ := Option.ite_none_right_eq_some.mp hstep
    cases hsome
    exact fun c => (h c).congr fun _ port _ => hregs port
  | powerLoss regs =>
    obtain ⟨hlost, hsome⟩ := Option.ite_none_right_eq_some.mp hstep
    cases hsome
    exact fun c => (hlost c).elim .of_unscanned fun hd => .of_initPortEnable hd.2

theorem initial_sound (regs : PciBytes) : (initial regs).Sound portMap mode :=
  fun _ => .of_unscanned rfl

/-- Whatever the drivers of both channels do at the same time, once one has found its drives and
has nothing left to write, a port of it is on exactly when it has a drive there. -/
theorem port_enabled_iff_found (hmap : EnablesApart portMap) {hwName : ControllerName}
    {mapValue : BitVec 8} {regs : PciBytes} {as : List SerialAction}
    (hrun : Transition.run (SerialSystem.step portMap (channelMode hwName mapValue))
      (initial regs) as = some s)
    {c : Channel} (hphase : (s.driver c).phase = .scanned) (hpending : (s.driver c).pending = [])
    (hinit : (s.driver c).initPortEnable = false) {unit : ATAUnitID} {port : SerialATAPort}
    (hport : getSerialATAPortForDrive (channelMode hwName mapValue c) unit = some port) :
    Enabled portMap s.regs port ((s.driver c).found unit) := by
  have hmode := channelMode_apart hwName mapValue
  have hsound := Transition.run_invariant (fun _ _ _ h hstep => h.step hmap hmode hstep)
    (initial_sound regs) hrun
  have hport := hsound c (by rw [hphase]; decide) hinit unit port hport
  simpa only [hpending, lastRequest, SerialDriver.target, hphase, if_true] using hport

/-- Both channels scan at the same time; the first finds one drive, and sleeps. -/
def scanAndSleep : List SerialAction :=
  .flatten
    [[.resetPorts .primary, .resetPorts .secondary],
      .replicate 4 (.pciConfigWrite .primary), [.pciConfigWrite .secondary],
      [.scanForDrives .primary fun unit => unit = .device0, .pciConfigWrite .primary],
      .replicate 3 (.pciConfigWrite .secondary),
      [.setPowerState .primary false, .setPowerState .primary true],
      .replicate 2 (.pciConfigWrite .primary)]

/-- There are drives at the ports 0 and 2. -/
def presentRegisters : PciBytes := fun _ => 0x50

theorem scanAndSleep_isSome :
    (Transition.run (SerialSystem.step gDefaultPortMap (channelMode .ICH6 0))
      (initial presentRegisters) scanAndSleep).isSome := by
  decide +kernel

def afterScanAndSleep : SerialSystem := Option.get _ scanAndSleep_isSome

theorem scanAndSleep_ports :
    Enabled gDefaultPortMap afterScanAndSleep.regs .Port0 true ∧
      Enabled gDefaultPortMap afterScanAndSleep.regs .Port2 false := by
  have hrun : Transition.run (SerialSystem.step gDefaultPortMap (channelMode .ICH6 0))
      (initial presentRegisters) scanAndSleep = some afterScanAndSleep :=
    (Option.some_get scanAndSleep_isSome).symm
  have hport := fun unit port =>
    @port_enabled_iff_found gDefaultPortMap _ gDefaultPortMap_apart .ICH6 0 _ _ hrun .primary
      (by decide +kernel) (by decide +kernel) (by decide +kernel) unit port
  exact ⟨hport .device0 .Port0 rfl, hport .device1 .Port2 rfl⟩

end SerialSystem

end Ata
