import NetbookInstaller.PS2.ReadDataPort

/-! `processRequest`: its locals, the effect of one command, and a whole request
run against a controller. -/
namespace PS2

structure ProcessFrame where
  request : PS2Request
  index : ℕ
  deviceMode : PS2DeviceType
  transmitToMouse : Bool
  failed : Bool
  deriving DecidableEq, Repr

/-- While the hardware is offline a request fails before its first command. -/
def ProcessFrame.enter (request : PS2Request) (hardwareOffline : Bool) : ProcessFrame :=
  ⟨request, 0, .keyboard, false, hardwareOffline⟩

/-- The command at `index`, while the loop of `processRequest` goes on. -/
def ProcessFrame.current (f : ProcessFrame) : Option PS2Command :=
  if f.failed = false ∧ f.index < f.request.commandsCount then f.request.commands[f.index]?
  else none

/-- A command up to the read it makes, if any. -/
structure CommandStart where
  writes : List PortWrite
  deviceMode : PS2DeviceType
  transmitToMouse : Bool
  read : Option ReadFrame
  deriving DecidableEq, Repr

def ProcessFrame.start (f : ProcessFrame) (c : PS2Command) : CommandStart :=
  match c.command with
  | .readDataPort =>
    ⟨[], f.deviceMode, f.transmitToMouse, some (.enter f.deviceMode none)⟩
  | .readDataPortAndCompare =>
    ⟨[], f.deviceMode, f.transmitToMouse, some (.enter f.deviceMode (some c.inOrOut))⟩
  | .writeDataPort =>
    -- only the data byte right behind `kCP_TransmitToMouse` turns the reads to the mouse
    ⟨[.data c.inOrOut], if f.transmitToMouse then .mouse else .keyboard, false, none⟩
  | .writeCommandPort =>
    ⟨[.command c.inOrOut], f.deviceMode,
      f.transmitToMouse || c.inOrOut == kCPTransmitToMouse, none⟩
  | .sendMouseCommandAndCompareAck =>
    ⟨[.command kCPTransmitToMouse, .data c.inOrOut], .mouse, f.transmitToMouse,
      some (.enter .mouse (some kSCAcknowledge))⟩

/-- The rest of a command once its read has returned `byte`. -/
def ProcessFrame.finish (f : ProcessFrame) (c : PS2Command) (byte : UInt8) : ProcessFrame :=
  match c.command with
  | .readDataPort =>
    { f with
      request := { f.request with commands := f.request.commands.set f.index ⟨c.command, byte⟩ }
      index := f.index + 1 }
  | .readDataPortAndCompare =>
    if byte = c.inOrOut then { f with index := f.index + 1 } else { f with failed := true }
  | .sendMouseCommandAndCompareAck =>
    if byte = kSCAcknowledge then { f with index := f.index + 1 } else { f with failed := true }
  | _ => { f with index := f.index + 1 }

/-- The request as its completion routine sees it. -/
def ProcessFrame.complete (f : ProcessFrame) : PS2Request :=
  if f.failed then { f.request with commandsCount := f.index } else f.request

/-- A port that also takes the writes of `writeDataPort` and `writeCommandPort`. -/
structure Controller (σ : Type*) extends Port σ where
  write : PortWrite → σ → σ

structure RequestRun (σ : Type*) where
  frame : ProcessFrame
  port : σ
  queue : List PortByte
  dispatched : List (PS2DeviceType × PortByte)

variable {σ : Type*}

/-- One command; `none` if its read has not returned after `n` passes. -/
def RequestRun.command (H : Controller σ) (n : ℕ) (r : RequestRun σ) (c : PS2Command) :
    Option (RequestRun σ) :=
  let start := r.frame.start c
  let port := start.writes.foldl (fun s w => H.write w s) r.port
  let frame := { r.frame with
    deviceMode := start.deviceMode, transmitToMouse := start.transmitToMouse }
  match start.read with
  | none => some { r with frame := { frame with index := frame.index + 1 }, port := port }
  | some f =>
    let read := ReadRun.passes H.toPort n ⟨.again f, port, r.queue, [], []⟩
    read.result.value.map fun byte =>
      ⟨frame.finish c byte, read.port, read.queue, r.dispatched ++ read.dispatched⟩

def RequestRun.commands (H : Controller σ) (n : ℕ) : ℕ → RequestRun σ → Option (RequestRun σ)
  | 0, r => some r
  | k + 1, r =>
    match r.frame.current with
    | none => some r
    | some c => (r.command H n c).bind (RequestRun.commands H n k)

/-- A request run to its completion, its reads limited to `n` passes each. -/
def processRequest (H : Controller σ) (n : ℕ) (request : PS2Request) (hardwareOffline : Bool)
    (port : σ) (queue : List PortByte) : Option (RequestRun σ) :=
  RequestRun.commands H n request.commandsCount ⟨.enter request hardwareOffline, port, queue, []⟩

end PS2
