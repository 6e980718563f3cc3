import Mathlib.Data.List.Basic

/-! The command primitives and requests that the PS/2 drivers hand to the
controller, and the requests of the drivers that later modules run. -/
namespace PS2

inductive PS2DeviceType where
  | keyboard | mouse
  deriving DecidableEq, Repr

def PS2DeviceType.other : PS2DeviceType → PS2DeviceType
  | .keyboard => .mouse
  | .mouse => .keyboard

/-! Bytes of the data port and of the command port. -/

def kDPSetKeyboardLEDs : UInt8 := 0xED
def kDPEnable : UInt8 := 0xF4
def kDPSetDefaultsAndDisable : UInt8 := 0xF5
def kDPSetMouseResolution : UInt8 := 0xE8
def kDPGetMouseInformation : UInt8 := 0xE9
def kCPGetCommandByte : UInt8 := 0x20
def kCPSetCommandByte : UInt8 := 0x60
def kCPTransmitToMouse : UInt8 := 0xD4
def kSCAcknowledge : UInt8 := 0xFA

inductive PS2CommandEnum where
  | readDataPort | readDataPortAndCompare | writeDataPort | writeCommandPort
  | sendMouseCommandAndCompareAck
  deriving DecidableEq, Repr

structure PS2Command where
  command : PS2CommandEnum
  inOrOut : UInt8
  deriving DecidableEq, Repr

/-- The request structure without its completion routine. On completion
`commandsCount` is the number of commands, or the index of the one that failed. -/
structure PS2Request where
  commandsCount : ℕ
  commands : List PS2Command
  deriving DecidableEq, Repr

def PS2Request.ofCommands (commands : List PS2Command) : PS2Request :=
  ⟨commands.length, commands⟩

/-- `ApplePS2Keyboard::setLEDs`. -/
def setLEDs (ledState : UInt8) : PS2Request := .ofCommands
  [⟨.writeDataPort, kDPSetKeyboardLEDs⟩, ⟨.readDataPortAndCompare, kSCAcknowledge⟩,
    ⟨.writeDataPort, ledState⟩, ⟨.readDataPortAndCompare, kSCAcknowledge⟩]

/-- `ApplePS2Mouse::setMouseEnable`. -/
def setMouseEnable (enable : Bool) : PS2Request := .ofCommands
  [⟨.writeCommandPort, kCPTransmitToMouse⟩,
    ⟨.writeDataPort, if enable then kDPEnable else kDPSetDefaultsAndDisable⟩,
    ⟨.readDataPortAndCompare, kSCAcknowledge⟩]

/-- What `processRequest` writes to the two ports. -/
inductive PortWrite where
  | data (byte : UInt8)
  | command (byte : UInt8)
  deriving DecidableEq, Repr

/-- A byte read off the data port. `seq` numbers the reads and is not part of
the driver's data: it tells two equal bytes apart. -/
structure PortByte where
  stream : PS2DeviceType
  data : UInt8
  seq : ℕ
  deriving DecidableEq, Repr

end PS2
