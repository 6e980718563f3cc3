import Mathlib.Data.Fintype.Defs
import NetbookInstaller.Registers.Masked

/-! The timing registers of the disk controller: the values that the driver of a channel computes
for them, and the timings that the chip takes from them for each drive. -/
namespace Ata

open Registers

inductive Channel
  | primary
  | secondary
  deriving DecidableEq

instance : Fintype Channel := ⟨{.primary, .secondary}, by rintro (_ | _) <;> decide⟩

inductive ATAUnitID
  | device0
  | device1
  deriving DecidableEq

instance : Fintype ATAUnitID := ⟨{.device0, .device1}, by rintro (_ | _) <;> decide⟩

/-- The registers in the configuration space of the chip. -/
inductive Register
  | IDETIM (channel : Channel)
  | SIDETIM
  | UDMACTL
  | UDMATIM
  | IDECONFIG
  deriving DecidableEq

/-- `IDECONFIG` stands here with the half word behind it, as it is read for the drive power. -/
@[reducible] def Register.bits : Register → ℕ
  | .IDETIM _ => 16
  | .SIDETIM => 8
  | .UDMACTL => 8
  | .UDMATIM => 16
  | .IDECONFIG => 32

abbrev PciConfig := File Register.bits

structure PIIXTiming where
  mode : ℕ
  registerIndex : Fin 5
  cycleTime : ℕ
  deriving DecidableEq

structure PIIXUDMATiming where
  mode : ℕ
  udmatim : BitVec 16
  udmaClock : BitVec 16

def kPIIX_PCI_IDECONFIG_PCB0 : BitVec 16 := 0x0001
def kPIIX_PCI_IDECONFIG_PCR0 : BitVec 16 := 0x0010
def kPIIX_PCI_IDECONFIG_WR_PP_EN : BitVec 16 := 0x0400
def kPIIX_PCI_IDECONFIG_FAST_PCB0 : BitVec 16 := 0x1000
def kPIIX_PCI_UDMATIM_PCT0_MASK : BitVec 16 := 0x0003
def kPIIX_PCI_UDMACTL_PSDE0 : BitVec 8 := 0x01
def kPIIX_PCI_IDETIM_SITRE : BitVec 16 := 0x4000
def kPIIX_PCI_IDETIM_ISP_MASK : BitVec 16 := 0x3000
def kPIIX_PCI_IDETIM_RTC_MASK : BitVec 16 := 0x0300

def kPIIX_PCI_IDETIM_TIME : ATAUnitID → BitVec 16
  | .device0 => 0x0001
  | .device1 => 0x0010

def kPIIX_PCI_IDETIM_DTE : ATAUnitID → BitVec 16
  | .device0 => 0x0008
  | .device1 => 0x0080

def piix3IDETIM : Fin 5 → ATAUnitID → BitVec 16
  | 0, .device0 => 0xb30f
  | 0, .device1 => 0xc0f0
  | 1, .device0 => 0x8000
  | 1, .device1 => 0xc000
  | 2, .device0 => 0x9007
  | 2, .device1 => 0xc070
  | 3, .device0 => 0xa107
  | 3, .device1 => 0xc070
  | 4, .device0 => 0xa307
  | 4, .device1 => 0xc070

def piix3SIDETIM : Fin 5 → Channel → BitVec 8
  | 0, .primary => 0x0f
  | 0, .secondary => 0xf0
  | 1, _ => 0x00
  | 2, .primary => 0x04
  | 2, .secondary => 0x40
  | 3, .primary => 0x09
  | 3, .secondary => 0x90
  | 4, .primary => 0x0b
  | 4, .secondary => 0xb0

/-- No mode above the last passes the mask of the modes. -/
def piixDMATiming : ℕ → PIIXTiming
  | 0 => ⟨0, 1, 480⟩
  | 1 => ⟨1, 3, 180⟩
  | _ => ⟨2, 4, 120⟩

def piixPIOTiming : ℕ → PIIXTiming
  | 0 => ⟨0, 1, 600⟩
  | 1 => ⟨1, 1, 383⟩
  | 2 => ⟨2, 2, 240⟩
  | 3 => ⟨3, 3, 180⟩
  | _ => ⟨4, 4, 120⟩

def piixUDMATiming : List PIIXUDMATiming :=
  [⟨0, 0, 0⟩, ⟨1, 1, 0⟩, ⟨2, 2, 0⟩, ⟨3, 1, kPIIX_PCI_IDECONFIG_PCB0⟩,
    ⟨4, 2, kPIIX_PCI_IDECONFIG_PCB0⟩, ⟨5, 1, kPIIX_PCI_IDECONFIG_FAST_PCB0⟩]

/-- What the driver of a channel asks its provider. -/
structure AppleIntelPIIXATAChannel where
  pioModeMask : BitVec 8
  dmaModeMask : BitVec 8
  udmaModeMask : BitVec 8
  isPATA : Bool

namespace AppleIntelPIIXATAChannel

def PIOModes (provider : AppleIntelPIIXATAChannel) : BitVec 8 := provider.pioModeMask &&& 0x1f
def DMAModes (provider : AppleIntelPIIXATAChannel) : BitVec 8 := provider.dmaModeMask &&& 0x07
def UDMAModes (provider : AppleIntelPIIXATAChannel) : BitVec 8 := provider.udmaModeMask &&& 0x3f

end AppleIntelPIIXATAChannel

/-- What a drive can do. -/
structure IOATADevConfig where
  pioMode : BitVec 8
  pioCycleTime : ℕ
  dmaMode : BitVec 8
  dmaCycleTime : ℕ
  ultraMode : BitVec 8

/-- The driver of a channel: the selected timings of its drives and the values of the registers
that it keeps. -/
structure AppleIntelPIIXPATA where
  pioTiming : ATAUnitID → PIIXTiming
  dmaTiming : ATAUnitID → Option PIIXTiming
  udmaTiming : ATAUnitID → Option PIIXUDMATiming
  idetim : ATAUnitID → BitVec 16
  sidetim : BitVec 8
  udmactl : BitVec 8
  udmatim : BitVec 16
  ideConfig : BitVec 16

/-- Where the bits of a drive are, from those of the first drive of the primary channel on. -/
def udmaEnableBit (c : Channel) (unit : ATAUnitID) : BitVec 8 :=
  kPIIX_PCI_UDMACTL_PSDE0 <<< ((if c = .secondary then 2 else 0) + if unit = .device1 then 1 else 0)

def udmatimShifts (c : Channel) (unit : ATAUnitID) : ℕ :=
  (if c = .secondary then 8 else 0) + if unit = .device1 then 4 else 0

def udmaClockShifts (c : Channel) (unit : ATAUnitID) : ℕ :=
  (if c = .secondary then 2 else 0) + if unit = .device1 then 1 else 0

def udmatimMask (c : Channel) (unit : ATAUnitID) : BitVec 16 :=
  kPIIX_PCI_UDMATIM_PCT0_MASK <<< udmatimShifts c unit

def udmaClockMask (c : Channel) (unit : ATAUnitID) : BitVec 16 :=
  (kPIIX_PCI_IDECONFIG_PCB0 ||| kPIIX_PCI_IDECONFIG_FAST_PCB0) <<< udmaClockShifts c unit

/-- The loop that goes down from a mode until the controller supports it and the drive keeps up
with it. -/
def downgrade (modes : BitVec 8) (timing : ℕ → PIIXTiming) (cycleTime : ℕ) : ℕ → ℕ
  | 0 => 0
  | n + 1 =>
    if modes.getLsbD (n + 1) = true ∧ cycleTime ≤ (timing (n + 1)).cycleTime then n + 1
    else downgrade modes timing cycleTime n

/-- What `selectConfig` comes to: no timing when a mode is not supported, and nothing at all when
it reads behind the table of the Ultra DMA modes. -/
structure Selection where
  pioTiming : PIIXTiming
  dmaTiming : Option PIIXTiming
  udmaTiming : Option PIIXUDMATiming

namespace AppleIntelPIIXPATA

variable (bitSigToNumeric : BitVec 8 → ℕ) (provider : AppleIntelPIIXATAChannel) (c : Channel)
  (p : AppleIntelPIIXPATA) (unit : ATAUnitID) (config : IOATADevConfig)

def selectPIOTiming : PIIXTiming :=
  if config.pioMode &&& provider.PIOModes = 0 then piixPIOTiming 0
  else
    piixPIOTiming (downgrade provider.PIOModes piixPIOTiming config.pioCycleTime
      (bitSigToNumeric config.pioMode))

def selectDMATiming : Option PIIXTiming :=
  let dmaModeNumber := downgrade provider.DMAModes piixDMATiming config.dmaCycleTime
    (bitSigToNumeric config.dmaMode)
  if config.dmaMode ≠ 0 ∧ provider.DMAModes.getLsbD dmaModeNumber = true then
    some (piixDMATiming dmaModeNumber)
  else none

/-- For the faster modes the cable has to be one of 80 conductors. -/
def udmaModeNumber : ℕ :=
  let cableMask := kPIIX_PCI_IDECONFIG_PCR0 <<<
    ((if unit = .device1 then 1 else 0) + if c = .secondary then 2 else 0)
  if 2 < bitSigToNumeric config.ultraMode ∧ provider.isPATA = true ∧
      cableMask &&& p.ideConfig = 0 then 2
  else bitSigToNumeric config.ultraMode

/-- Whether `kATAModeNotSupported` is returned. -/
def modeNotSupported : Bool :=
  (config.dmaMode ≠ 0 ∧ config.dmaMode &&& provider.DMAModes = 0) ∨
    (config.ultraMode ≠ 0 ∧ config.ultraMode &&& provider.UDMAModes = 0)

/-- PIO falls back to the compatible timing where DMA has another one. -/
def compatiblePIOTiming : PIIXTiming :=
  let pioTiming := selectPIOTiming bitSigToNumeric provider config
  if (selectDMATiming bitSigToNumeric provider config).all (·.cycleTime = pioTiming.cycleTime) then
    pioTiming
  else piixPIOTiming 0

/-- The timings for a config whose modes are supported. -/
def selection : Option Selection :=
  let pioTiming := compatiblePIOTiming bitSigToNumeric provider config
  let dmaTiming := selectDMATiming bitSigToNumeric provider config
  if config.ultraMode = 0 then some ⟨pioTiming, dmaTiming, none⟩
  else
    (piixUDMATiming[p.udmaModeNumber bitSigToNumeric provider c unit config]?).map fun udmaTiming =>
      ⟨pioTiming, dmaTiming, some udmaTiming⟩

def timing : PIIXTiming := (p.dmaTiming unit).getD (p.pioTiming unit)

/-- Controllers before PIIX3, which have one timing for both drives, are left out. -/
def computeTimingRegisters : AppleIntelPIIXPATA :=
  let index := (p.timing unit).registerIndex
  let slowPIO := (p.timing unit).cycleTime ≠ (p.pioTiming unit).cycleTime
  let idetim := piix3IDETIM index unit
  { p with
    idetim := Function.update p.idetim unit
      (if slowPIO then idetim &&& ~~~kPIIX_PCI_IDETIM_DTE unit else idetim)
    sidetim :=
      if unit = .device1 then p.sidetim &&& ~~~piix3SIDETIM 0 c ||| piix3SIDETIM index c
      else p.sidetim
    ideConfig := p.ideConfig ||| kPIIX_PCI_IDECONFIG_WR_PP_EN }

def computeUDMATimingRegisters : AppleIntelPIIXPATA :=
  let udmactl := p.udmactl &&& ~~~udmaEnableBit c unit
  match p.udmaTiming unit with
  | none => { p with udmactl }
  | some timing =>
    { p with
      udmatim :=
        p.udmatim &&& ~~~udmatimMask c unit |||
          timing.udmatim <<< udmatimShifts c unit &&& udmatimMask c unit
      ideConfig :=
        p.ideConfig &&& ~~~udmaClockMask c unit ||| timing.udmaClock <<< udmaClockShifts c unit
      udmactl := udmactl ||| udmaEnableBit c unit }

def cacheTimings (s : Selection) : AppleIntelPIIXPATA :=
  { p with
    pioTiming := Function.update p.pioTiming unit s.pioTiming
    dmaTiming := Function.update p.dmaTiming unit s.dmaTiming
    udmaTiming := Function.update p.udmaTiming unit s.udmaTiming }

/-- The timings are cached and the values of the registers computed from them. -/
def setTimings (s : Selection) : AppleIntelPIIXPATA :=
  computeUDMATimingRegisters c
    (computeTimingRegisters c (p.cacheTimings unit s) unit) unit

def resetTimingsForDevice : AppleIntelPIIXPATA :=
  p.setTimings c unit ⟨piixPIOTiming 0, none, none⟩

/-- The values that `writeTimingRegisters` writes, and the bits of each register that it writes. -/
def values : PciConfig
  | .IDETIM _ => p.idetim .device0 ||| p.idetim .device1
  | .SIDETIM => p.sidetim
  | .UDMACTL => p.udmactl
  | .UDMATIM => p.udmatim
  | .IDECONFIG => p.ideConfig.setWidth 32

end AppleIntelPIIXPATA

def writeMask (c : Channel) : PciConfig
  | .IDETIM c' => if c' = c then 0xffff else 0
  | .SIDETIM => if c = .primary then 0x0f else 0xf0
  | .UDMACTL => if c = .primary then 0x03 else 0x0c
  | .UDMATIM => if c = .primary then 0x0033 else 0x3300
  | .IDECONFIG => if c = .primary then 0x3403 else 0xc40c

/-- The registers that `writeTimingRegisters` writes, in its order. -/
def writeTimingRegisters (c : Channel) : List Register :=
  [.IDETIM c, .SIDETIM, .UDMACTL, .UDMATIM, .IDECONFIG]

/-- The clocks of a cycle from the sample point and the recovery time that the chip is set to. -/
def fastClocks (isp rtc : ℕ) : ℕ := (5 - isp) + (4 - rtc)

def compatibleClocks : ℕ := 6 + 14

/-- The clocks that a cycle of a drive takes. With its own timing enabled, the second drive has the
fields of `SIDETIM`. -/
def driveClocks (idetim : BitVec 16) (sidetim : BitVec 8) (c : Channel) : ATAUnitID → ℕ
  | .device0 =>
    if idetim &&& kPIIX_PCI_IDETIM_TIME .device0 = 0 then compatibleClocks
    else fastClocks ((idetim &&& kPIIX_PCI_IDETIM_ISP_MASK) >>> 12).toNat
      ((idetim &&& kPIIX_PCI_IDETIM_RTC_MASK) >>> 8).toNat
  | .device1 =>
    if idetim &&& kPIIX_PCI_IDETIM_TIME .device1 = 0 then compatibleClocks
    else if idetim &&& kPIIX_PCI_IDETIM_SITRE = 0 then
      fastClocks ((idetim &&& kPIIX_PCI_IDETIM_ISP_MASK) >>> 12).toNat
        ((idetim &&& kPIIX_PCI_IDETIM_RTC_MASK) >>> 8).toNat
    else
      match c with
      | .primary => fastClocks ((sidetim &&& 0x0c) >>> 2).toNat (sidetim &&& 0x03).toNat
      | .secondary => fastClocks ((sidetim &&& 0xc0) >>> 6).toNat ((sidetim &&& 0x30) >>> 4).toNat

/-- The fast timing is for DMA alone where that is enabled. -/
def dataClocks (idetim : BitVec 16) (sidetim : BitVec 8) (c : Channel) (unit : ATAUnitID) : ℕ :=
  if idetim &&& kPIIX_PCI_IDETIM_DTE unit = 0 then driveClocks idetim sidetim c unit
  else compatibleClocks

/-- The cycle time and clock of a drive with Ultra DMA enabled. -/
def ultraFields (udmactl : BitVec 8) (udmatim : BitVec 16) (ideConfig : BitVec 32) (c : Channel)
    (unit : ATAUnitID) : Option (BitVec 16 × BitVec 16) :=
  if udmactl &&& udmaEnableBit c unit = 0 then none
  else some
    ((udmatim &&& udmatimMask c unit) >>> udmatimShifts c unit,
      (ideConfig.setWidth 16 &&& udmaClockMask c unit) >>> udmaClockShifts c unit)

def dmaClocks (regs : PciConfig) (c : Channel) (unit : ATAUnitID) : ℕ :=
  driveClocks (regs (.IDETIM c)) (regs .SIDETIM) c unit

def pioClocks (regs : PciConfig) (c : Channel) (unit : ATAUnitID) : ℕ :=
  dataClocks (regs (.IDETIM c)) (regs .SIDETIM) c unit

def ultraTiming (regs : PciConfig) (c : Channel) (unit : ATAUnitID) :
    Option (BitVec 16 × BitVec 16) :=
  ultraFields (regs .UDMACTL) (regs .UDMATIM) (regs .IDECONFIG) c unit

/-- The clocks of a row of the tables; the first row is a mask. -/
def indexClocks : Fin 5 → ℕ
  | 0 => 0
  | 1 => 20
  | 2 => 8
  | 3 => 6
  | 4 => 4

def PIIXTiming.clocks (timing : PIIXTiming) : ℕ := indexClocks timing.registerIndex

/-- In nanoseconds. -/
def pciClock : ℕ := 30

/-- The bits of the registers that only the driver of a channel writes. -/
def shares (c : Channel) : PciConfig
  | .IDECONFIG => if c = .primary then 0x3003 else 0xc00c
  | r => writeMask c r

theorem shares_and_writeMask (c : Channel) : ∀ r, shares c r &&& writeMask c r = shares c r := by
  rintro (⟨c'⟩ | _ | _ | _ | _) <;> cases c <;> try decide
  all_goals cases c' <;> decide

theorem shares_and_other {c c' : Channel} (h : c ≠ c') :
    ∀ r, shares c r &&& writeMask c' r = 0 := by
  rintro (⟨c''⟩ | _ | _ | _ | _) <;> cases c <;> cases c' <;> try exact absurd rfl h
  all_goals first | decide | (cases c'' <;> decide)

/-- Both drives of a channel get the clocks of their rows, and no timing is for DMA alone. -/
theorem clocks_of_rows (c : Channel) (unit : ATAUnitID) : ∀ i j : Fin 5, i ≠ 0 → j ≠ 0 →
    driveClocks (piix3IDETIM i .device0 ||| piix3IDETIM j .device1) (piix3SIDETIM j c) c unit =
        indexClocks (if unit = .device0 then i else j) ∧
      dataClocks (piix3IDETIM i .device0 ||| piix3IDETIM j .device1) (piix3SIDETIM j c) c unit =
        indexClocks (if unit = .device0 then i else j) := by
  cases c <;> cases unit <;> decide

theorem driveClocks_share (idetim : BitVec 16) (sidetim : BitVec 8) (c : Channel)
    (unit : ATAUnitID) :
    driveClocks idetim (sidetim &&& piix3SIDETIM 0 c) c unit =
      driveClocks idetim sidetim c unit := by
  cases unit with
  | device0 => rfl
  | device1 =>
    cases c <;> simp only [driveClocks, piix3SIDETIM, BitVec.and_assoc] <;> rfl

theorem dataClocks_share (idetim : BitVec 16) (sidetim : BitVec 8) (c : Channel)
    (unit : ATAUnitID) :
    dataClocks idetim (sidetim &&& piix3SIDETIM 0 c) c unit = dataClocks idetim sidetim c unit := by
  rw [dataClocks, dataClocks, driveClocks_share]

/-- No row enables a timing for DMA alone, so that there is nothing to clear for a slow PIO. -/
theorem dte_clear (unit : ATAUnitID) : ∀ i : Fin 5, i ≠ 0 →
    piix3IDETIM i unit &&& ~~~kPIIX_PCI_IDETIM_DTE unit = piix3IDETIM i unit := by
  cases unit <;> decide

theorem row_subset (c : Channel) :
    ∀ i : Fin 5, piix3SIDETIM i c &&& piix3SIDETIM 0 c = piix3SIDETIM i c := by
  cases c <;> decide

theorem udmaEnableBit_ne_zero (c : Channel) (unit : ATAUnitID) : udmaEnableBit c unit ≠ 0 := by
  cases c <;> cases unit <;> decide

theorem ultraFields_congr {udmactl udmactl' : BitVec 8} {udmatim udmatim' : BitVec 16}
    {ideConfig ideConfig' : BitVec 32} {c : Channel} {unit : ATAUnitID}
    (hctl : udmactl &&& udmaEnableBit c unit = udmactl' &&& udmaEnableBit c unit)
    (htim : udmatim &&& udmatimMask c unit = udmatim' &&& udmatimMask c unit)
    (hconfig : ideConfig.setWidth 16 &&& udmaClockMask c unit =
      ideConfig'.setWidth 16 &&& udmaClockMask c unit) :
    ultraFields udmactl udmatim ideConfig c unit =
      ultraFields udmactl' udmatim' ideConfig' c unit := by
  rw [ultraFields, ultraFields, hctl, htim, hconfig]

/-- The timing of a drive is read from the bits that its driver alone writes. -/
theorem ultraTiming_congr {regs regs' : PciConfig} {c : Channel}
    (h : ∀ r, regs r &&& shares c r = regs' r &&& shares c r) (unit : ATAUnitID) :
    ultraTiming regs c unit = ultraTiming regs' c unit := by
  have hconfig : (regs .IDECONFIG).setWidth 16 &&& (shares c .IDECONFIG).setWidth 16 =
      (regs' .IDECONFIG).setWidth 16 &&& (shares c .IDECONFIG).setWidth 16 := by
    rw [← BitVec.setWidth_and, h, BitVec.setWidth_and]
  refine ultraFields_congr (and_congr_of_subset (h .UDMACTL) ?_)
    (and_congr_of_subset (h .UDMATIM) ?_) (and_congr_of_subset hconfig ?_)
  all_goals cases c <;> cases unit <;> decide

theorem clocks_congr {regs regs' : PciConfig} {c : Channel}
    (hidetim : regs (.IDETIM c) &&& shares c (.IDETIM c) =
      regs' (.IDETIM c) &&& shares c (.IDETIM c))
    (hsidetim : regs .SIDETIM &&& shares c .SIDETIM = regs' .SIDETIM &&& shares c .SIDETIM)
    (unit : ATAUnitID) :
    dmaClocks regs c unit = dmaClocks regs' c unit ∧
      pioClocks regs c unit = pioClocks regs' c unit := by
  have hall : shares c (.IDETIM c) = BitVec.allOnes 16 := if_pos rfl
  have hrow : shares c .SIDETIM = piix3SIDETIM 0 c := by cases c <;> rfl
  rw [hall, BitVec.and_allOnes, BitVec.and_allOnes] at hidetim
  rw [hrow] at hsidetim
  constructor
  · rw [dmaClocks, ← driveClocks_share, hidetim, hsidetim, driveClocks_share, dmaClocks]
  · rw [pioClocks, ← dataClocks_share, hidetim, hsidetim, dataClocks_share, pioClocks]

/-- The values that a driver keeps for a drive are those of the timings that it has selected. -/
structure AppleIntelPIIXPATA.Cached (c : Channel) (p : AppleIntelPIIXPATA) (unit : ATAUnitID) :
    Prop where
  index : (p.timing unit).registerIndex ≠ 0
  idetim : p.idetim unit = piix3IDETIM (p.timing unit).registerIndex unit
  sidetim : unit = .device1 →
    p.sidetim &&& piix3SIDETIM 0 c = piix3SIDETIM (p.timing unit).registerIndex c
  ultra : ultraTiming p.values c unit =
    (p.udmaTiming unit).map fun timing => (timing.udmatim, timing.udmaClock)

/-- What is selected for a drive is a row of the tables that is no mask. -/
structure Selection.InTables (s : Selection) : Prop where
  index : (s.dmaTiming.getD s.pioTiming).registerIndex ≠ 0
  udma : ∀ timing ∈ s.udmaTiming, timing ∈ piixUDMATiming

namespace AppleIntelPIIXPATA

variable {c : Channel} {p : AppleIntelPIIXPATA} {unit : ATAUnitID} {s : Selection}

theorem computeTimingRegisters_idetim (h : (p.timing unit).registerIndex ≠ 0) :
    (p.computeTimingRegisters c unit).idetim unit =
      piix3IDETIM (p.timing unit).registerIndex unit := by
  rw [computeTimingRegisters]
  simp only [Function.update_self]
  split
  · exact dte_clear unit _ h
  · rfl

theorem computeTimingRegisters_sidetim :
    (p.computeTimingRegisters c .device1).sidetim &&& piix3SIDETIM 0 c =
      piix3SIDETIM (p.timing .device1).registerIndex c := by
  have hrow := row_subset c (p.timing .device1).registerIndex
  rw [computeTimingRegisters, if_pos rfl, clear_or_eq_setBits hrow,
    setBits_and_of_subset (BitVec.and_self ..), hrow]

theorem values_ideConfig (p : AppleIntelPIIXPATA) :
    (p.values .IDECONFIG).setWidth 16 = p.ideConfig := by
  rw [values, BitVec.setWidth_setWidth_of_le _ (by decide), BitVec.setWidth_eq]

theorem values_ultra_congr {p' : AppleIntelPIIXPATA}
    (hctl : p.udmactl &&& udmaEnableBit c unit = p'.udmactl &&& udmaEnableBit c unit)
    (htim : p.udmatim &&& udmatimMask c unit = p'.udmatim &&& udmatimMask c unit)
    (hconfig : p.ideConfig &&& udmaClockMask c unit = p'.ideConfig &&& udmaClockMask c unit) :
    ultraTiming p.values c unit = ultraTiming p'.values c unit :=
  ultraFields_congr hctl htim (by rw [values_ideConfig, values_ideConfig, hconfig])

/-- The performance of the PIO is enabled besides the clocks. -/
theorem computeTimingRegisters_ultra (unit' : ATAUnitID) :
    ultraTiming (p.computeTimingRegisters c unit).values c unit' =
      ultraTiming p.values c unit' := by
  have hapart : kPIIX_PCI_IDECONFIG_WR_PP_EN &&& udmaClockMask c unit' = 0 := by
    cases c <;> cases unit' <;> decide
  refine values_ultra_congr rfl rfl ?_
  rw [computeTimingRegisters, BitVec.and_or_distrib_right, hapart]
  exact BitVec.or_zero

/-- Within its masks, what a row of the table holds is kept whole. -/
theorem udmaTiming_fields (c : Channel) (unit : ATAUnitID) {timing : PIIXUDMATiming}
    (h : timing ∈ piixUDMATiming) :
    timing.udmaClock <<< udmaClockShifts c unit &&& udmaClockMask c unit =
        timing.udmaClock <<< udmaClockShifts c unit ∧
      (timing.udmaClock <<< udmaClockShifts c unit) >>> udmaClockShifts c unit =
        timing.udmaClock ∧
      (timing.udmatim <<< udmatimShifts c unit &&& udmatimMask c unit) >>> udmatimShifts c unit =
        timing.udmatim := by
  revert timing
  cases c <;> cases unit <;> decide

theorem computeUDMATimingRegisters_ultra
    (h : ∀ timing ∈ p.udmaTiming unit, timing ∈ piixUDMATiming) :
    ultraTiming (p.computeUDMATimingRegisters c unit).values c unit =
      (p.udmaTiming unit).map fun timing => (timing.udmatim, timing.udmaClock) := by
  cases htiming : p.udmaTiming unit with
  | none =>
    rw [computeUDMATimingRegisters, htiming, ultraTiming, ultraFields]
    exact if_pos clear_and_self
  | some timing =>
    obtain ⟨hclock, hclockShift, htim⟩ := udmaTiming_fields c unit (h timing htiming)
    have hon : (p.udmactl &&& ~~~udmaEnableBit c unit ||| udmaEnableBit c unit) &&&
        udmaEnableBit c unit ≠ 0 := by
      rw [clear_or_and_self (BitVec.and_self ..)]
      exact udmaEnableBit_ne_zero c unit
    have htimBits : (timing.udmatim <<< udmatimShifts c unit &&& udmatimMask c unit) &&&
        udmatimMask c unit = timing.udmatim <<< udmatimShifts c unit &&& udmatimMask c unit := by
      rw [BitVec.and_assoc, BitVec.and_self]
    rw [ultraTiming, ultraFields, values_ideConfig]
    simp only [values, computeUDMATimingRegisters, htiming]
    rw [if_neg hon, clear_or_and_self htimBits, clear_or_and_self hclock, htim, hclockShift]
    rfl

/-- The bits of a drive are not those of the other one. -/
theorem masks_disjoint (c : Channel) {unit unit' : ATAUnitID} (h : unit' ≠ unit) :
    udmaEnableBit c unit' &&& udmaEnableBit c unit = 0 ∧
      udmatimMask c unit' &&& udmatimMask c unit = 0 ∧
      udmaClockMask c unit' &&& udmaClockMask c unit = 0 := by
  cases unit <;> cases unit' <;> first | exact absurd rfl h | (cases c <;> decide)

theorem computeUDMATimingRegisters_ultra_of_ne {unit' : ATAUnitID} (hunit : unit' ≠ unit)
    (h : ∀ timing ∈ p.udmaTiming unit, timing ∈ piixUDMATiming) :
    ultraTiming (p.computeUDMATimingRegisters c unit).values c unit' =
      ultraTiming p.values c unit' := by
  obtain ⟨hctl, htim, hclock⟩ := masks_disjoint c hunit
  cases htiming : p.udmaTiming unit with
  | none =>
    rw [computeUDMATimingRegisters, htiming]
    exact values_ultra_congr (clear_and_of_disjoint hctl) rfl rfl
  | some timing =>
    have hfields := udmaTiming_fields c unit (h timing htiming)
    have htimBits : (timing.udmatim <<< udmatimShifts c unit &&& udmatimMask c unit) &&&
        udmatimMask c unit = timing.udmatim <<< udmatimShifts c unit &&& udmatimMask c unit := by
      rw [BitVec.and_assoc, BitVec.and_self]
    rw [computeUDMATimingRegisters, htiming]
    exact values_ultra_congr (clear_or_and_of_disjoint (BitVec.and_self ..) hctl)
      (clear_or_and_of_disjoint htimBits htim) (clear_or_and_of_disjoint hfields.1 hclock)

@[simp] theorem computeUDMATimingRegisters_idetim :
    (p.computeUDMATimingRegisters c unit).idetim = p.idetim := by
  rw [computeUDMATimingRegisters]
  split <;> rfl

@[simp] theorem computeUDMATimingRegisters_sidetim :
    (p.computeUDMATimingRegisters c unit).sidetim = p.sidetim := by
  rw [computeUDMATimingRegisters]
  split <;> rfl

@[simp] theorem computeUDMATimingRegisters_timings :
    (p.computeUDMATimingRegisters c unit).pioTiming = p.pioTiming ∧
      (p.computeUDMATimingRegisters c unit).dmaTiming = p.dmaTiming ∧
      (p.computeUDMATimingRegisters c unit).udmaTiming = p.udmaTiming := by
  rw [computeUDMATimingRegisters]
  split <;> exact ⟨rfl, rfl, rfl⟩

theorem cacheTimings_timing_self :
    (p.cacheTimings unit s).timing unit = s.dmaTiming.getD s.pioTiming := by
  simp [timing, cacheTimings]

theorem cacheTimings_timing_of_ne {unit' : ATAUnitID} (hunit : unit' ≠ unit) :
    (p.cacheTimings unit s).timing unit' = p.timing unit' := by
  simp [timing, cacheTimings, hunit]

/-- The values are computed from the timings, which they leave as they are. -/
theorem setTimings_timings :
    (p.setTimings c unit s).pioTiming = Function.update p.pioTiming unit s.pioTiming ∧
      (p.setTimings c unit s).dmaTiming = Function.update p.dmaTiming unit s.dmaTiming ∧
      (p.setTimings c unit s).udmaTiming = Function.update p.udmaTiming unit s.udmaTiming :=
  computeUDMATimingRegisters_timings

theorem setTimings_timing (unit' : ATAUnitID) :
    (p.setTimings c unit s).timing unit' = (p.cacheTimings unit s).timing unit' := by
  obtain ⟨hpio, hdma, -⟩ := @setTimings_timings c p unit s
  rw [timing, hpio, hdma]
  rfl

theorem setTimings_cached (h : s.InTables) : (p.setTimings c unit s).Cached c unit := by
  have htiming := @setTimings_timing c p unit s unit
  have hudma := (@setTimings_timings c p unit s).2.2
  have hindex : ((p.cacheTimings unit s).timing unit).registerIndex ≠ 0 := by
    rw [cacheTimings_timing_self]
    exact h.index
  have hrow : (p.cacheTimings unit s).udmaTiming unit = s.udmaTiming := Function.update_self ..
  constructor
  · rw [htiming]
    exact hindex
  · rw [htiming, setTimings, computeUDMATimingRegisters_idetim]
    exact computeTimingRegisters_idetim hindex
  · rintro rfl
    rw [htiming, setTimings, computeUDMATimingRegisters_sidetim]
    exact computeTimingRegisters_sidetim
  · rw [hudma]
    exact computeUDMATimingRegisters_ultra (hrow ▸ h.udma)

theorem setTimings_cached_of_ne {unit' : ATAUnitID} (hunit : unit' ≠ unit) (h : s.InTables)
    (hcached : p.Cached c unit') : (p.setTimings c unit s).Cached c unit' := by
  have htiming := @setTimings_timing c p unit s unit'
  have hudma := (@setTimings_timings c p unit s).2.2
  rw [cacheTimings_timing_of_ne hunit] at htiming
  have hrow : (p.cacheTimings unit s).udmaTiming unit = s.udmaTiming := Function.update_self ..
  constructor
  · rw [htiming]
    exact hcached.index
  · rw [htiming, setTimings, computeUDMATimingRegisters_idetim, computeTimingRegisters,
      ← hcached.idetim]
    exact Function.update_of_ne hunit ..
  · rintro rfl
    have hsidetim : (p.setTimings c unit s).sidetim = p.sidetim := by
      rw [setTimings, computeUDMATimingRegisters_sidetim]
      exact if_neg hunit.symm
    rw [htiming, hsidetim, hcached.sidetim rfl]
  · rw [hudma, Function.update_of_ne hunit, setTimings,
      computeUDMATimingRegisters_ultra_of_ne hunit (hrow ▸ h.udma),
      computeTimingRegisters_ultra, ← hcached.ultra]
    rfl

theorem Cached.setTimings {unit' : ATAUnitID} (hcached : p.Cached c unit') (h : s.InTables) :
    (p.setTimings c unit s).Cached c unit' := by
  by_cases hunit : unit' = unit
  · subst hunit
    exact setTimings_cached h
  · exact setTimings_cached_of_ne hunit h hcached

theorem piixPIOTiming_index (n : ℕ) : (piixPIOTiming n).registerIndex ≠ 0 := by
  unfold piixPIOTiming
  split <;> decide

theorem piixDMATiming_index (n : ℕ) : (piixDMATiming n).registerIndex ≠ 0 := by
  unfold piixDMATiming
  split <;> decide

theorem compatible_inTables : (Selection.mk (piixPIOTiming 0) none none).InTables :=
  ⟨piixPIOTiming_index 0, fun _ h => nomatch h⟩

theorem resetTimingsForDevice_cached : (p.resetTimingsForDevice c unit).Cached c unit :=
  setTimings_cached compatible_inTables

theorem resetTimingsForDevice_cached_of_ne {unit' : ATAUnitID} (hunit : unit' ≠ unit)
    (hcached : p.Cached c unit') : (p.resetTimingsForDevice c unit).Cached c unit' :=
  setTimings_cached_of_ne hunit compatible_inTables hcached

variable {bitSigToNumeric : BitVec 8 → ℕ} {provider : AppleIntelPIIXATAChannel}
  {config : IOATADevConfig}

theorem selection_spec
    (h : p.selection bitSigToNumeric provider c unit config = some s) :
    s.pioTiming = compatiblePIOTiming bitSigToNumeric provider config ∧
      s.dmaTiming = selectDMATiming bitSigToNumeric provider config ∧
      ∀ timing ∈ s.udmaTiming, timing ∈ piixUDMATiming := by
  rw [selection] at h
  split at h
  · cases h
    exact ⟨rfl, rfl, fun _ hmem => nomatch hmem⟩
  · obtain ⟨timing, htiming, rfl⟩ := Option.map_eq_some_iff.mp h
    refine ⟨rfl, rfl, ?_⟩
    rintro _ ⟨⟩
    exact List.mem_of_getElem? htiming

theorem compatiblePIOTiming_index :
    (compatiblePIOTiming bitSigToNumeric provider config).registerIndex ≠ 0 := by
  rw [compatiblePIOTiming, selectPIOTiming]
  split_ifs <;> exact piixPIOTiming_index _

theorem selectDMATiming_index {timing : PIIXTiming}
    (h : selectDMATiming bitSigToNumeric provider config = some timing) :
    timing.registerIndex ≠ 0 := by
  obtain ⟨-, hsome⟩ := Option.ite_none_right_eq_some.mp h
  cases hsome
  exact piixDMATiming_index _

theorem selection_inTables
    (h : p.selection bitSigToNumeric provider c unit config = some s) : s.InTables := by
  obtain ⟨hpio, hdma, hudma⟩ := selection_spec h
  refine ⟨?_, hudma⟩
  rw [hpio, hdma]
  cases hdmaTiming : selectDMATiming bitSigToNumeric provider config with
  | none => exact compatiblePIOTiming_index
  | some timing => exact selectDMATiming_index hdmaTiming

theorem Cached.clocks (h0 : p.Cached c .device0) (h1 : p.Cached c .device1) (unit : ATAUnitID) :
    dmaClocks p.values c unit = (p.timing unit).clocks ∧
      pioClocks p.values c unit = (p.timing unit).clocks := by
  have hrows := clocks_of_rows c unit _ _ h0.index h1.index
  have hindex : indexClocks (if unit = .device0 then (p.timing .device0).registerIndex
      else (p.timing .device1).registerIndex) = (p.timing unit).clocks := by
    cases unit <;> rfl
  have hidetim : p.values (.IDETIM c) = p.idetim .device0 ||| p.idetim .device1 := rfl
  rw [hindex, ← h1.sidetim rfl, driveClocks_share, dataClocks_share, ← h0.idetim, ← h1.idetim]
    at hrows
  rw [dmaClocks, pioClocks, hidetim]
  exact hrows

/-- The clocks of a row last at least as long as its cycle, and those of the first mode 600 ns. -/
theorem piixPIOTiming_cycleTime {cycleTime n : ℕ}
    (h : cycleTime ≤ (piixPIOTiming n).cycleTime) :
    cycleTime ≤ pciClock * (piixPIOTiming n).clocks := by
  refine h.trans ?_
  unfold piixPIOTiming
  split <;> decide

theorem piixDMATiming_cycleTime {cycleTime n : ℕ}
    (h : cycleTime ≤ (piixDMATiming n).cycleTime) :
    cycleTime ≤ pciClock * (piixDMATiming n).clocks := by
  refine h.trans ?_
  unfold piixDMATiming
  split <;> decide

theorem downgrade_cycleTime (modes : BitVec 8) (timing : ℕ → PIIXTiming) (cycleTime n : ℕ) :
    downgrade modes timing cycleTime n = 0 ∨
      cycleTime ≤ (timing (downgrade modes timing cycleTime n)).cycleTime := by
  induction n with
  | zero => exact .inl rfl
  | succ n ih =>
    rw [downgrade]
    split_ifs with h
    · exact .inr h.2
    · exact ih

theorem selectPIOTiming_cycleTime (h : config.pioCycleTime ≤ 600) :
    config.pioCycleTime ≤ pciClock * (selectPIOTiming bitSigToNumeric provider config).clocks := by
  rw [selectPIOTiming]
  split_ifs
  · exact h
  · rcases downgrade_cycleTime provider.PIOModes piixPIOTiming config.pioCycleTime
      (bitSigToNumeric config.pioMode) with hzero | hcycle
    · rw [hzero]
      exact h
    · exact piixPIOTiming_cycleTime hcycle

theorem selectDMATiming_cycleTime (h : config.dmaCycleTime ≤ 600) {timing : PIIXTiming}
    (htiming : selectDMATiming bitSigToNumeric provider config = some timing) :
    config.dmaCycleTime ≤ pciClock * timing.clocks := by
  obtain ⟨-, hsome⟩ := Option.ite_none_right_eq_some.mp htiming
  cases hsome
  rcases downgrade_cycleTime provider.DMAModes piixDMATiming config.dmaCycleTime
    (bitSigToNumeric config.dmaMode) with hzero | hcycle
  · rw [hzero]
    exact h
  · exact piixDMATiming_cycleTime hcycle

end AppleIntelPIIXPATA

end Ata
