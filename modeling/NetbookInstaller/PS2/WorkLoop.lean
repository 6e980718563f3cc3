import NetbookInstaller.Transition.Runs
import NetbookInstaller.PS2.ProcessRequest

/-! The controller's work loop: the request queue, the keyboard queue and the
stack of controller methods and driver handlers that run under the gate, stepped
by device bytes, by other threads and by what the drivers' handlers do. -/
namespace PS2

/-- A submitted request. `id` numbers the submissions. -/
structure QueuedRequest where
  id : ℕ
  request : PS2Request
  deriving DecidableEq, Repr

/-- An activation on the work loop's stack. `handler` is a driver's interrupt
handler; `gated` is other driver or power-management code under the gate. -/
inductive Frame where
  | interruptOccurred
  | handler (deviceType : PS2DeviceType)
  | gated
  | submitRequestAndBlock (r : QueuedRequest)
  | processRequestQueue (localQueue : List QueuedRequest)
  | processRequest (id : ℕ) (f : ProcessFrame)
  | readDataPort (r : ReadResult)
  deriving DecidableEq, Repr

/-- What `processRequest` did: it began a request, started one of its commands,
or completed it with this `commandsCount`. -/
inductive LogEvent where
  | begin (id : ℕ)
  | command (id index : ℕ)
  | complete (id commandsCount : ℕ)
  deriving DecidableEq, Repr

/-- `signalsOwed` counts the submitters between the enqueue and the signal of
`submitRequest`. The last four fields only record what has happened. -/
structure WorkLoop where
  requestQueue : List QueuedRequest
  queueSignalled : Bool
  signalsOwed : ℕ
  keyboardQueue : List PortByte
  hardwareOffline : Bool
  interruptInstalledKeyboard : Bool
  interruptInstalledMouse : Bool
  stack : List Frame
  submitted : ℕ
  portReads : ℕ
  log : List LogEvent
  dispatched : List (PS2DeviceType × PortByte)
  deriving DecidableEq, Repr

/-- The controller behind `start`, with both drivers' handlers installed. -/
def WorkLoop.initial : WorkLoop :=
  ⟨[], false, 0, [], false, true, true, [], 0, 0, [], []⟩

inductive Action where
  /-- `submitRequest`, also the first half of `submitRequestAndBlock` outside the gate -/
  | submitRequest (request : PS2Request)
  | signalQueue
  | keyboardInterrupt (data : UInt8)
  -- the work loop picks up an event source, or runs other code under the gate
  | runRequestQueue
  | runInterrupt
  | runGated
  -- driver code under the gate
  | submitRequestAndBlock (request : PS2Request)
  | setHardwareOffline (offline : Bool)
  | handlerReturn
  -- `interruptOccurred`
  | dispatchQueued
  | dispatchMouse (data : UInt8)
  | interruptDone
  -- `readDataPort`
  | readQueue
  | readPort (polls : ℕ) (stream : PS2DeviceType) (data : UInt8)
  | readTimeout
  /-- the next step of `submitRequestAndBlock`, `processRequestQueue` or `processRequest` -/
  | advance
  deriving DecidableEq, Repr

namespace WorkLoop

def interruptInstalled (s : WorkLoop) : PS2DeviceType → Bool
  | .keyboard => s.interruptInstalledKeyboard
  | .mouse => s.interruptInstalledMouse

def dispatchDriverInterrupt (s : WorkLoop) (deviceType : PS2DeviceType) (byte : PortByte) :
    WorkLoop :=
  if s.interruptInstalled deviceType then
    { s with
      dispatched := s.dispatched ++ [(deviceType, byte)]
      stack := .handler deviceType :: s.stack }
  else s

/-- `processRequestQueue` up to its loop: the queue moves to a local one. -/
def transferQueue (s : WorkLoop) : WorkLoop :=
  { s with requestQueue := [], stack := .processRequestQueue s.requestQueue :: s.stack }

/-- A pass of `readDataPort` that obtained `byte`, the rest of the stack being `rest`. -/
def readByte (s : WorkLoop) (f : ReadFrame) (rest : List Frame) (byte : PortByte) : WorkLoop :=
  let s := { s with stack := .readDataPort (f.onByte byte).result :: rest }
  match (f.onByte byte).dispatched with
  | none => s
  | some (deviceType, x) => s.dispatchDriverInterrupt deviceType x

def beginRequest (s : WorkLoop) (r : QueuedRequest) (rest : List Frame) : WorkLoop :=
  { s with
    stack := .processRequest r.id (.enter r.request s.hardwareOffline) :: rest
    log := s.log ++ [.begin r.id] }

/-- The top activation of `processRequest` runs its next command or completes. -/
def advanceRequest (s : WorkLoop) (id : ℕ) (f : ProcessFrame) (rest : List Frame) : WorkLoop :=
  match f.current with
  | none =>
    { s with stack := rest, log := s.log ++ [.complete id f.complete.commandsCount] }
  | some c =>
    let start := f.start c
    let f' := { f with deviceMode := start.deviceMode, transmitToMouse := start.transmitToMouse }
    let s := { s with log := s.log ++ [LogEvent.command id f.index] }
    match start.read with
    | none => { s with stack := .processRequest id { f' with index := f.index + 1 } :: rest }
    | some read => { s with stack := .readDataPort (.again read) :: .processRequest id f' :: rest }

def advance (s : WorkLoop) : Option WorkLoop :=
  match s.stack with
  | .submitRequestAndBlock r :: rest => some (s.beginRequest r rest)
  | .processRequestQueue [] :: rest => some { s with stack := rest }
  | .processRequestQueue (r :: localQueue) :: rest =>
    some (s.beginRequest r (.processRequestQueue localQueue :: rest))
  | .processRequest id f :: rest => some (s.advanceRequest id f rest)
  | .readDataPort r :: .processRequest id f :: rest =>
    match r.value, f.current with
    | some byte, some c => some { s with stack := .processRequest id (f.finish c byte) :: rest }
    | _, _ => none
  | _ => none

/-- A keyboard byte is read off the port at interrupt time and put on the queue. -/
def keyboardInterrupt (s : WorkLoop) (data : UInt8) : WorkLoop :=
  { s with
    keyboardQueue := enqueueKeyboardData s.keyboardQueue ⟨.keyboard, data, s.portReads⟩
    portReads := s.portReads + 1 }

/-- The keyboard queue comes before the port only for the keyboard stream. -/
def readsQueue (s : WorkLoop) (f : ReadFrame) : Bool :=
  f.deviceType == .keyboard && !s.keyboardQueue.isEmpty

def step (s : WorkLoop) : Action → Option WorkLoop
  | .submitRequest request =>
    some { s with
      requestQueue := s.requestQueue ++ [⟨s.submitted, request⟩]
      submitted := s.submitted + 1
      signalsOwed := s.signalsOwed + 1 }
  | .signalQueue =>
    if 0 < s.signalsOwed then
      some { s with signalsOwed := s.signalsOwed - 1, queueSignalled := true }
    else none
  | .keyboardInterrupt data => some (s.keyboardInterrupt data)
  | .runRequestQueue =>
    if s.stack = [] ∧ s.queueSignalled then
      some { s with queueSignalled := false }.transferQueue
    else none
  | .runInterrupt =>
    if s.stack = [] ∧ s.hardwareOffline = false then some { s with stack := [.interruptOccurred] }
    else none
  | .runGated => if s.stack = [] then some { s with stack := [.gated] } else none
  | .submitRequestAndBlock request =>
    match s.stack with
    | .handler _ :: _ | .gated :: _ =>
      some { s with
        submitted := s.submitted + 1
        stack := .submitRequestAndBlock ⟨s.submitted, request⟩ :: s.stack }.transferQueue
    | _ => none
  | .setHardwareOffline offline =>
    match s.stack with
    | .gated :: _ => some { s with hardwareOffline := offline }
    | _ => none
  | .handlerReturn =>
    match s.stack with
    | .handler _ :: rest | .gated :: rest => some { s with stack := rest }
    | _ => none
  | .dispatchQueued =>
    match s.stack, s.keyboardQueue with
    | .interruptOccurred :: _, byte :: queue =>
      some ({ s with keyboardQueue := queue }.dispatchDriverInterrupt .keyboard byte)
    | _, _ => none
  | .dispatchMouse data =>
    match s.stack, s.keyboardQueue with
    | .interruptOccurred :: _, [] =>
      some ({ s with portReads := s.portReads + 1 }.dispatchDriverInterrupt .mouse
        ⟨.mouse, data, s.portReads⟩)
    | _, _ => none
  | .interruptDone =>
    match s.stack, s.keyboardQueue with
    | .interruptOccurred :: rest, [] => some { s with stack := rest }
    | _, _ => none
  | .readQueue =>
    match s.stack, s.keyboardQueue with
    | .readDataPort (.again f) :: rest, byte :: queue =>
      if f.deviceType = .keyboard then some ({ s with keyboardQueue := queue }.readByte f rest byte)
      else none
    | _, _ => none
  | .readPort polls stream data =>
    match s.stack with
    | .readDataPort (.again f) :: rest =>
      if s.readsQueue f = false ∧ polls < f.timeoutCounter then
        some ({ s with portReads := s.portReads + 1 }.readByte
          { f with timeoutCounter := f.timeoutCounter - polls } rest ⟨stream, data, s.portReads⟩)
      else none
    | _ => none
  | .readTimeout =>
    match s.stack with
    | .readDataPort (.again f) :: rest =>
      if s.readsQueue f = false then
        some { s with stack := .readDataPort (.timedOut f.firstByte) :: rest }
      else none
    | _ => none
  | .advance => s.advance

/-- What a step can do, with the guard under which it does it. -/
inductive Stepped (s : WorkLoop) : Action → WorkLoop → Prop
  | submitRequest (request : PS2Request) : Stepped s (.submitRequest request)
      { s with
        requestQueue := s.requestQueue ++ [⟨s.submitted, request⟩]
        submitted := s.submitted + 1
        signalsOwed := s.signalsOwed + 1 }
  | signalQueue (howed : 0 < s.signalsOwed) : Stepped s .signalQueue
      { s with signalsOwed := s.signalsOwed - 1, queueSignalled := true }
  | keyboardInterrupt (data : UInt8) : Stepped s (.keyboardInterrupt data) (s.keyboardInterrupt data)
  | runRequestQueue (hs : s.stack = []) (hsignal : s.queueSignalled = true) :
      Stepped s .runRequestQueue { s with queueSignalled := false }.transferQueue
  | runInterrupt (hs : s.stack = []) (honline : s.hardwareOffline = false) :
      Stepped s .runInterrupt { s with stack := [.interruptOccurred] }
  | runGated (hs : s.stack = []) : Stepped s .runGated { s with stack := [.gated] }
  | submitRequestAndBlock (request : PS2Request) {frame : Frame} {rest : List Frame}
      (hs : s.stack = frame :: rest)
      (hframe : (∃ deviceType, frame = .handler deviceType) ∨ frame = .gated) :
      Stepped s (.submitRequestAndBlock request)
        { s with
          submitted := s.submitted + 1
          stack := .submitRequestAndBlock ⟨s.submitted, request⟩ :: s.stack }.transferQueue
  | setHardwareOffline (offline : Bool) {rest : List Frame} (hs : s.stack = .gated :: rest) :
      Stepped s (.setHardwareOffline offline) { s with hardwareOffline := offline }
  | handlerReturn {frame : Frame} {rest : List Frame} (hs : s.stack = frame :: rest)
      (hframe : (∃ deviceType, frame = .handler deviceType) ∨ frame = .gated) :
      Stepped s .handlerReturn { s with stack := rest }
  | dispatchQueued {rest : List Frame} {byte : PortByte} {queue : List PortByte}
      (hs : s.stack = .interruptOccurred :: rest) (hq : s.keyboardQueue = byte :: queue) :
      Stepped s .dispatchQueued
        ({ s with keyboardQueue := queue }.dispatchDriverInterrupt .keyboard byte)
  | dispatchMouse (data : UInt8) {rest : List Frame} (hs : s.stack = .interruptOccurred :: rest)
      (hq : s.keyboardQueue = []) : Stepped s (.dispatchMouse data)
        ({ s with portReads := s.portReads + 1 }.dispatchDriverInterrupt .mouse
          ⟨.mouse, data, s.portReads⟩)
  | interruptDone {rest : List Frame} (hs : s.stack = .interruptOccurred :: rest)
      (hq : s.keyboardQueue = []) : Stepped s .interruptDone { s with stack := rest }
  | readQueue {f : ReadFrame} {rest : List Frame} {byte : PortByte} {queue : List PortByte}
      (hs : s.stack = .readDataPort (.again f) :: rest) (hq : s.keyboardQueue = byte :: queue)
      (hkeyboard : f.deviceType = .keyboard) :
      Stepped s .readQueue ({ s with keyboardQueue := queue }.readByte f rest byte)
  | readPort (polls : ℕ) (stream : PS2DeviceType) (data : UInt8) {f : ReadFrame}
      {rest : List Frame} (hs : s.stack = .readDataPort (.again f) :: rest)
      (hread : s.readsQueue f = false ∧ polls < f.timeoutCounter) :
      Stepped s (.readPort polls stream data)
        ({ s with portReads := s.portReads + 1 }.readByte
          { f with timeoutCounter := f.timeoutCounter - polls } rest ⟨stream, data, s.portReads⟩)
  | readTimeout {f : ReadFrame} {rest : List Frame}
      (hs : s.stack = .readDataPort (.again f) :: rest) (hread : s.readsQueue f = false) :
      Stepped s .readTimeout { s with stack := .readDataPort (.timedOut f.firstByte) :: rest }
  | advance {t : WorkLoop} (ht : s.advance = some t) : Stepped s .advance t

theorem stepped_of_step {s t : WorkLoop} {a : Action} (ht : s.step a = some t) : Stepped s a t := by
  unfold step at ht
  cases a with
  | submitRequest request =>
    cases ht
    exact .submitRequest request
  | signalQueue =>
    simp only [Option.ite_none_right_eq_some, Option.some.injEq] at ht
    exact ht.2 ▸ .signalQueue ht.1
  | keyboardInterrupt data =>
    cases ht
    exact .keyboardInterrupt data
  | runRequestQueue =>
    simp only [Option.ite_none_right_eq_some, Option.some.injEq] at ht
    exact ht.2 ▸ .runRequestQueue ht.1.1 ht.1.2
  | runInterrupt =>
    simp only [Option.ite_none_right_eq_some, Option.some.injEq] at ht
    exact ht.2 ▸ .runInterrupt ht.1.1 ht.1.2
  | runGated =>
    simp only [Option.ite_none_right_eq_some, Option.some.injEq] at ht
    exact ht.2 ▸ .runGated ht.1
  | submitRequestAndBlock request =>
    dsimp only at ht
    split at ht <;> cases ht
    next d rest hs => exact .submitRequestAndBlock request hs (.inl ⟨d, rfl⟩)
    next rest hs => exact .submitRequestAndBlock request hs (.inr rfl)
  | setHardwareOffline offline =>
    dsimp only at ht
    split at ht <;> cases ht
    next hs => exact .setHardwareOffline offline hs
  | handlerReturn =>
    dsimp only at ht
    split at ht <;> cases ht
    next d rest hs => exact .handlerReturn hs (.inl ⟨d, rfl⟩)
    next rest hs => exact .handlerReturn hs (.inr rfl)
  | dispatchQueued =>
    dsimp only at ht
    split at ht <;> cases ht
    next hs hq => exact .dispatchQueued hs hq
  | dispatchMouse data =>
    dsimp only at ht
    split at ht <;> cases ht
    next hs hq => exact .dispatchMouse data hs hq
  | interruptDone =>
    dsimp only at ht
    split at ht <;> cases ht
    next hs hq => exact .interruptDone hs hq
  | readQueue =>
    dsimp only at ht
    split at ht
    next hs hq =>
      simp only [Option.ite_none_right_eq_some, Option.some.injEq] at ht
      exact ht.2 ▸ .readQueue hs hq ht.1
    next => cases ht
  | readPort polls stream data =>
    dsimp only at ht
    split at ht
    next hs =>
      simp only [Option.ite_none_right_eq_some, Option.some.injEq] at ht
      exact ht.2 ▸ .readPort polls stream data hs ht.1
    next => cases ht
  | readTimeout =>
    dsimp only at ht
    split at ht
    next hs =>
      simp only [Option.ite_none_right_eq_some, Option.some.injEq] at ht
      exact ht.2 ▸ .readTimeout hs ht.1
    next => cases ht
  | advance => exact .advance ht

end WorkLoop
end PS2
