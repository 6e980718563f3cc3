import NetbookInstaller.PS2.ProcessRequest
import NetbookInstaller.Transition.Runs
import NetbookInstaller.Transition.TestAndSet

/-! The drivers' `setCommandByte` and the controller whose command byte they
change, each request being executed as a whole. -/
namespace PS2

/-! The two requests of an iteration. -/

def readCommandByte : PS2Request := .ofCommands
  [⟨.writeCommandPort, kCPGetCommandByte⟩, ⟨.readDataPort, 0⟩]

def testAndSetCommandByte (commandByte commandByteNew : UInt8) : PS2Request := .ofCommands
  [⟨.writeCommandPort, kCPGetCommandByte⟩, ⟨.readDataPortAndCompare, commandByte⟩,
    ⟨.writeCommandPort, kCPSetCommandByte⟩, ⟨.writeDataPort, commandByteNew⟩]

/-- The update that a caller asks for. -/
def updateBits (setBits clearBits commandByte : UInt8) : UInt8 :=
  (commandByte ||| setBits) &&& ~~~clearBits

/-- A call as the requests that it submits and what it does when one completes. -/
structure SetCommandByte where
  request : TestAndSet.Pc UInt8 → Option PS2Request
  resume : TestAndSet.Pc UInt8 → PS2Request → TestAndSet.Pc UInt8

def SetCommandByte.tryLoop (setBits clearBits : UInt8) : SetCommandByte where
  request
    | .read => some readCommandByte
    | .testAndSet commandByte =>
      some (testAndSetCommandByte commandByte (updateBits setBits clearBits commandByte))
    | .returned => none
  resume
    | .read, request => .testAndSet ((request.commands[1]?.map PS2Command.inOrOut).getD 0)
    | .testAndSet _, request => if request.commandsCount ≠ 4 then .read else .returned
    | .returned, _ => .returned

def ApplePS2Keyboard.setCommandByte (setBits clearBits : UInt8) : SetCommandByte :=
  .tryLoop setBits clearBits

def ApplePS2Mouse.setCommandByte (setBits clearBits : UInt8) : SetCommandByte :=
  .tryLoop setBits clearBits

def ApplePS2SynapticsTouchPad.setCommandByte (setBits clearBits : UInt8) : SetCommandByte :=
  .tryLoop setBits clearBits

inductive Driver where
  | keyboard | mouse | synapticsTouchPad
  deriving DecidableEq, Repr

def Driver.setCommandByte : Driver → UInt8 → UInt8 → SetCommandByte
  | .keyboard => ApplePS2Keyboard.setCommandByte
  | .mouse => ApplePS2Mouse.setCommandByte
  | .synapticsTouchPad => ApplePS2SynapticsTouchPad.setCommandByte

@[simp] theorem Driver.setCommandByte_eq (d : Driver) (setBits clearBits : UInt8) :
    d.setCommandByte setBits clearBits = .tryLoop setBits clearBits := by
  cases d <;> rfl

/-- The controller chip. `output` is a command byte that has been asked for and
not been read; `early` and `late` are what the status polls find before it is
ready and after it has been read, a mouse byte or nothing; `interrupts` tells
before which passes of a read the keyboard interrupt picks it up. -/
structure Hardware where
  commandByte : UInt8
  lastCommand : UInt8
  output : Option UInt8
  early : List (Option UInt8)
  late : List (Option UInt8)
  interrupts : List Bool
  deriving DecidableEq, Repr

namespace Hardware

def keyboardByte (data : UInt8) : PortByte := ⟨.keyboard, data, 0⟩

def mouseByte (data : UInt8) : PortByte := ⟨.mouse, data, 0⟩

def interrupt (h : Hardware) : List PortByte × Hardware :=
  match h.interrupts, h.output with
  | true :: interrupts, some data =>
    ([keyboardByte data], { h with output := none, interrupts := interrupts })
  | _ :: interrupts, _ => ([], { h with interrupts := interrupts })
  | [], _ => ([], h)

def poll (h : Hardware) : Option PortByte × Hardware :=
  match h.output with
  | some data =>
    match h.early with
    | found :: early => (found.map mouseByte, { h with early := early })
    | [] => (some (keyboardByte data), { h with output := none })
  | none =>
    match h.late with
    | found :: late => (found.map mouseByte, { h with late := late })
    | [] => (none, h)

def write (w : PortWrite) (h : Hardware) : Hardware :=
  match w with
  | .command byte =>
    { h with
      lastCommand := byte
      output := if byte = kCPGetCommandByte then some h.commandByte else h.output }
  | .data byte =>
    { h with
      lastCommand := 0
      commandByte := if h.lastCommand = kCPSetCommandByte then byte else h.commandByte }

def controller : Controller Hardware where
  interrupts := interrupt
  poll := poll
  write := write

/-- The answer to a command-byte read is ready before the read times out. -/
def InTime (h : Hardware) : Prop :=
  (h.early.filter Option.isNone).length < 10000

instance (h : Hardware) : Decidable h.InTime := by unfold InTime; infer_instance

/-- The bytes that a read can still be given. -/
def size (h : Hardware) : ℕ := h.early.length + h.late.length + h.output.toList.length

/-- The status polls of a pass while the answer is on its way. -/
theorem wait_asked {b : UInt8} {t : ℕ} {h : Hardware} (hout : h.output = some b)
    (ht : (h.early.filter Option.isNone).length < t) :
    ∃ t' h', h'.commandByte = h.commandByte ∧ h'.size < h.size ∧
      ((controller.wait t h = (some (t', keyboardByte b), h') ∧ h'.output = none) ∨
        ∃ data, controller.wait t h = (some (t', mouseByte data), h') ∧ h'.output = some b ∧
          (h'.early.filter Option.isNone).length < t') := by
  induction t generalizing h with
  | zero => omega
  | succ t ih =>
    obtain ⟨commandByte, lastCommand, output, early, late, interrupts⟩ := h
    simp only at hout ht
    subst hout
    rcases early with - | ⟨- | data, early⟩
    · exact ⟨t + 1, ⟨commandByte, lastCommand, none, [], late, interrupts⟩, rfl,
        by simp [size], .inl ⟨rfl, rfl⟩⟩
    · obtain ⟨t', h', hc, hsize, hwait⟩ :=
        ih (h := ⟨commandByte, lastCommand, some b, early, late, interrupts⟩) rfl (by simpa using ht)
      exact ⟨t', h', hc, Nat.lt_trans hsize (by simp [size]), hwait⟩
    · exact ⟨t + 1, ⟨commandByte, lastCommand, some b, early, late, interrupts⟩, rfl,
        by simp [size], .inr ⟨data, rfl, rfl, by simpa using ht⟩⟩

/-- The status polls of a pass after the answer has been read. -/
theorem wait_answered {t : ℕ} {h : Hardware} (hout : h.output = none) :
    ∃ h', h'.commandByte = h.commandByte ∧ h'.output = none ∧
      (controller.wait t h = (none, h') ∨
        ∃ t' data, controller.wait t h = (some (t', mouseByte data), h') ∧ h'.size < h.size) := by
  induction t generalizing h with
  | zero => exact ⟨h, rfl, hout, .inl rfl⟩
  | succ t ih =>
    obtain ⟨commandByte, lastCommand, output, early, late, interrupts⟩ := h
    simp only at hout
    subst hout
    rcases late with - | ⟨- | data, late⟩
    · exact ih (h := ⟨commandByte, lastCommand, none, early, [], interrupts⟩) rfl
    · obtain ⟨h', hc, hout', hwait⟩ :=
        ih (h := ⟨commandByte, lastCommand, none, early, late, interrupts⟩) rfl
      refine ⟨h', hc, hout', hwait.imp id ?_⟩
      rintro ⟨t', data, hwait, hsize⟩
      exact ⟨t', data, hwait, Nat.lt_trans hsize (by simp [size])⟩
    · exact ⟨⟨commandByte, lastCommand, none, early, late, interrupts⟩, rfl, rfl,
        .inr ⟨t + 1, data, rfl, by simp [size]⟩⟩

theorem interrupt_cases (h : Hardware) : ∃ h', h'.commandByte = h.commandByte ∧
    h'.early = h.early ∧ h'.late = h.late ∧
      ((h.interrupt = ([], h') ∧ h'.output = h.output) ∨
        ∃ data, h.output = some data ∧ h.interrupt = ([keyboardByte data], h') ∧
          h'.output = none) := by
  obtain ⟨commandByte, lastCommand, output, early, late, interrupts⟩ := h
  rcases interrupts with - | ⟨- | -, interrupts⟩
  · exact ⟨⟨commandByte, lastCommand, output, early, late, []⟩, rfl, rfl, rfl, .inl ⟨rfl, rfl⟩⟩
  · exact ⟨⟨commandByte, lastCommand, output, early, late, interrupts⟩, rfl, rfl, rfl,
      .inl ⟨rfl, rfl⟩⟩
  · refine ⟨⟨commandByte, lastCommand, none, early, late, interrupts⟩, rfl, rfl, rfl, ?_⟩
    cases output with
    | none => exact .inl ⟨rfl, rfl⟩
    | some data => exact .inr ⟨data, rfl, rfl, rfl⟩

end Hardware

open Hardware

/-- How a read of the keyboard stream stands whose answer is `b`. -/
inductive Reading (b : UInt8) (e : Option UInt8) : ReadResult → Hardware → Prop
  | waiting {t : ℕ} {h : Hardware} (hout : h.output = some b)
      (ht : (h.early.filter Option.isNone).length < t) :
      Reading b e (.again ⟨.keyboard, e, none, t⟩) h
  | held {t : ℕ} {h : Hardware} {x : UInt8} (hout : h.output = none) (he : e = some x)
      (hx : b ≠ x) : Reading b e (.again ⟨.keyboard, e, some (keyboardByte b), t⟩) h
  | done {result : ReadResult} {h : Hardware} (hout : h.output = none)
      (hvalue : result.value = some b) : Reading b e result h

/-- A read of the command byte under way. -/
structure ReadRun.Asks (b : UInt8) (e : Option UInt8) (r : ReadRun Hardware) : Prop where
  queue : r.queue = []
  commandByte : r.port.commandByte = b
  reading : Reading b e r.result r.port

/-- The answer itself is returned, or held if it is not the expected byte. -/
theorem reading_answer {b : UInt8} {e : Option UInt8} {t : ℕ} {h : Hardware}
    (hout : h.output = none) :
    Reading b e ((⟨.keyboard, e, none, t⟩ : ReadFrame).onByte (keyboardByte b)).result h := by
  cases e with
  | none => exact .done hout rfl
  | some x =>
    by_cases hx : b = x
    · exact .done hout (by simp [ReadFrame.onByte, keyboardByte, hx, ReadResult.value])
    · have hheld : Reading b (some x) (.again ⟨.keyboard, some x, some (keyboardByte b), t⟩) h :=
        .held hout rfl hx
      simpa [ReadFrame.onByte, keyboardByte, hx] using hheld

theorem onByte_mouseByte (e : Option UInt8) (held : Option PortByte) (t : ℕ) (data : UInt8) :
    ((⟨.keyboard, e, held, t⟩ : ReadFrame).onByte (mouseByte data)).result =
      .again ⟨.keyboard, e, held, t⟩ := by
  simp [ReadFrame.onByte, mouseByte]

section Pass
variable {r : ReadRun Hardware} {f : ReadFrame} {port port' : Hardware} {byte : PortByte}

/-- A pass before which the interrupt has put the answer on the empty queue. -/
theorem ReadRun.pass_of_interrupt (hf : f.deviceType = .keyboard) (hqueue : r.queue = [])
    (hint : r.port.interrupt = ([byte], port)) :
    r.pass controller.toPort f = { r with port := port, queue := [] }.onByte f byte := by
  have hint' : controller.interrupts r.port = ([byte], port) := hint
  simp [ReadRun.pass, hint', hqueue, hf, enqueueKeyboardData, kKeyboardQueueSize]

theorem ReadRun.pass_of_timeout (hqueue : r.queue = []) (hint : r.port.interrupt = ([], port))
    (hwait : controller.wait f.timeoutCounter port = (none, port')) :
    r.pass controller.toPort f =
      { r with port := port', queue := [], result := .timedOut f.firstByte } := by
  have hint' : controller.interrupts r.port = ([], port) := hint
  simp only [ReadRun.pass, hint', hqueue, List.foldl_nil, hwait]
  cases f.deviceType <;> rfl

theorem ReadRun.pass_of_poll {t : ℕ} (hqueue : r.queue = [])
    (hint : r.port.interrupt = ([], port))
    (hwait : controller.wait f.timeoutCounter port = (some (t, byte), port')) :
    r.pass controller.toPort f =
      { r with port := port', queue := [] }.onByte { f with timeoutCounter := t } byte := by
  have hint' : controller.interrupts r.port = ([], port) := hint
  simp only [ReadRun.pass, hint', hqueue, List.foldl_nil, hwait]
  cases f.deviceType <;> rfl

end Pass

/-- The step lemma of the read: it keeps its state, and ends or uses up a byte. -/
theorem ReadRun.Asks.pass {b : UInt8} {e : Option UInt8} {r : ReadRun Hardware} {f : ReadFrame}
    (h : r.Asks b e) (hf : r.result = .again f) :
    (r.pass controller.toPort f).Asks b e ∧
      ((r.pass controller.toPort f).result.value.isSome ∨
        (r.pass controller.toPort f).port.size < r.port.size) := by
  obtain ⟨hqueue, hcommand, hreading⟩ := h
  rw [hf] at hreading
  obtain ⟨port, hc, hearly, hlate, hint⟩ := interrupt_cases r.port
  generalize hport : r.port = port₀ at hreading
  cases hreading with
  | @waiting t _ hout ht =>
    subst hport
    rcases hint with ⟨hint, hout'⟩ | ⟨data, hdata, hint, hout'⟩
    · obtain ⟨t', port', hc', hsize, hwait⟩ := wait_asked (hout'.trans hout) (hearly ▸ ht)
      have hless : port'.size < r.port.size := by
        simpa only [size, hearly, hlate, hout'] using hsize
      have hcommand' : port'.commandByte = b := hc'.trans (hc.trans hcommand)
      rcases hwait with ⟨hwait, hout''⟩ | ⟨data, hwait, hout'', ht'⟩
      · rw [ReadRun.pass_of_poll hqueue hint hwait]
        exact ⟨⟨rfl, hcommand', reading_answer hout''⟩, .inr hless⟩
      · rw [ReadRun.pass_of_poll hqueue hint hwait]
        refine ⟨⟨rfl, hcommand', ?_⟩, .inr hless⟩
        simp only [ReadRun.onByte, onByte_mouseByte]
        exact .waiting hout'' ht'
    · rw [ReadRun.pass_of_interrupt rfl hqueue hint]
      rw [hdata, Option.some.injEq] at hout
      subst hout
      exact ⟨⟨rfl, hc.trans hcommand, reading_answer hout'⟩,
        .inr (by simp [ReadRun.onByte, size, hearly, hlate, hdata, hout'])⟩
  | @held t _ x hout he hx =>
    subst hport
    rcases hint with ⟨hint, hout'⟩ | ⟨data, hdata, hint, hout'⟩
    · obtain ⟨port', hc', hout'', hwait⟩ := wait_answered (t := t) (hout'.trans hout)
      have hcommand' : port'.commandByte = b := hc'.trans (hc.trans hcommand)
      rcases hwait with hwait | ⟨t', data, hwait, hsize⟩
      · rw [ReadRun.pass_of_timeout hqueue hint hwait]
        exact ⟨⟨rfl, hcommand', .done hout'' rfl⟩, .inl rfl⟩
      · rw [ReadRun.pass_of_poll hqueue hint hwait]
        refine ⟨⟨rfl, hcommand', ?_⟩, .inr ?_⟩
        · simp only [ReadRun.onByte, onByte_mouseByte]
          exact .held hout'' he hx
        · simpa only [ReadRun.onByte, size, hearly, hlate, hout'] using hsize
    · rw [hout] at hdata
      cases hdata
  | done hout hvalue => simp [ReadResult.value] at hvalue

theorem ReadRun.passes_of_value (P : Port Hardware) (n : ℕ) {r : ReadRun Hardware}
    (h : r.result.value.isSome) : ReadRun.passes P n r = r := by
  cases n with
  | zero => rfl
  | succ n =>
    unfold ReadRun.passes
    split
    next f hf => simp [hf, ReadResult.value] at h
    next => rfl

/-- A read that has not returned goes on, with a byte less to come at each pass. -/
theorem ReadRun.Asks.passes {b : UInt8} {e : Option UInt8} (n : ℕ) {r : ReadRun Hardware}
    (h : r.Asks b e) :
    (ReadRun.passes controller.toPort n r).Asks b e ∧
      (r.port.size < n → (ReadRun.passes controller.toPort n r).result.value.isSome) := by
  induction n generalizing r with
  | zero => exact ⟨h, by omega⟩
  | succ n ih =>
    unfold ReadRun.passes
    split
    next f hf =>
      obtain ⟨hpass, hsome | hless⟩ := h.pass hf
      · rw [ReadRun.passes_of_value _ n hsome]
        exact ⟨hpass, fun _ => hsome⟩
      · obtain ⟨hend, hreturn⟩ := ih hpass
        exact ⟨hend, fun hn => hreturn (by omega)⟩
    next hf =>
      refine ⟨h, fun _ => ?_⟩
      cases hr : r.result with
      | again f => exact absurd hr (hf f)
      | returned byte => rfl
      | timedOut held => rfl

/-- The command byte is asked for and read: the read returns it in time and
leaves nothing behind. -/
theorem passes_commandByte {n : ℕ} {h : Hardware} (e : Option UInt8) (hin : h.InTime)
    (hn : h.size < n) :
    ∃ r, ReadRun.passes controller.toPort (n + 1)
        ⟨.again (.enter .keyboard e), controller.write (.command kCPGetCommandByte) h,
          [], [], []⟩ = r ∧
      r.result.value = some h.commandByte ∧ r.queue = [] ∧
      r.port.commandByte = h.commandByte ∧ r.port.output = none := by
  have hasks : ReadRun.Asks h.commandByte e ⟨.again (.enter .keyboard e),
      controller.write (.command kCPGetCommandByte) h, [], [], []⟩ := ⟨rfl, rfl, .waiting rfl hin⟩
  have hsize : (controller.write (.command kCPGetCommandByte) h).size < n + 1 := by
    have hanswer : (controller.write (.command kCPGetCommandByte) h).size ≤ h.size + 1 := by
      simp only [controller, size, Hardware.write, if_true, Option.toList, List.length_cons,
        List.length_nil]
      omega
    omega
  obtain ⟨hend, hreturn⟩ := hasks.passes (n + 1)
  refine ⟨_, rfl, ?_⟩
  generalize ReadRun.passes controller.toPort (n + 1) _ = r at hend hreturn
  obtain ⟨result, port, queue, taken, dispatched⟩ := r
  obtain ⟨hqueue, hcommand, hreading⟩ := hend
  have hsome := hreturn hsize
  cases hreading with
  | waiting hout ht => simp [ReadResult.value] at hsome
  | held hout he hx => simp [ReadResult.value] at hsome
  | done hout hvalue => exact ⟨hvalue, hqueue, hcommand, hout⟩

theorem kCPGetCommandByte_ne : (kCPGetCommandByte == kCPTransmitToMouse) = false := by decide

theorem kCPSetCommandByte_ne : (kCPSetCommandByte == kCPTransmitToMouse) = false := by decide

theorem processRequest_readCommandByte {n : ℕ} {h : Hardware} (hin : h.InTime)
    (hn : h.size < n) :
    ∃ r, processRequest controller (n + 1) readCommandByte false h [] = some r ∧
      r.queue = [] ∧ r.port.output = none ∧ r.port.commandByte = h.commandByte ∧
      r.frame.complete.commands[1]? = some ⟨.readDataPort, h.commandByte⟩ := by
  obtain ⟨read, hread, hvalue, hqueue, hcommand, hout⟩ := passes_commandByte none hin hn
  let commands : List PS2Command :=
    [⟨.writeCommandPort, kCPGetCommandByte⟩, ⟨.readDataPort, h.commandByte⟩]
  have hrun : processRequest controller (n + 1) readCommandByte false h [] =
      some ⟨⟨⟨2, commands⟩, 2, .keyboard, false, false⟩, read.port, read.queue,
        read.dispatched⟩ := by
    simp [processRequest, RequestRun.commands, readCommandByte, PS2Request.ofCommands,
      ProcessFrame.enter, ProcessFrame.current, RequestRun.command, ProcessFrame.start, hread,
      hvalue, ProcessFrame.finish, kCPGetCommandByte_ne, commands]
  exact ⟨_, hrun, hqueue, hout, hcommand, rfl⟩

/-- The byte is replaced if it is the expected one, and the request fails if not. -/
theorem processRequest_testAndSetCommandByte {n : ℕ} {h : Hardware} (hin : h.InTime)
    (hn : h.size < n) (old new : UInt8) :
    ∃ r, processRequest controller (n + 1) (testAndSetCommandByte old new) false h [] = some r ∧
      r.queue = [] ∧ r.port.output = none ∧
      r.port.commandByte = (if h.commandByte = old then new else h.commandByte) ∧
      r.frame.complete.commandsCount = (if h.commandByte = old then 4 else 1) := by
  obtain ⟨read, hread, hvalue, hqueue, hcommand, hout⟩ := passes_commandByte (some old) hin hn
  by_cases hold : h.commandByte = old
  · have hrun : processRequest controller (n + 1) (testAndSetCommandByte old new) false h [] =
        some ⟨⟨testAndSetCommandByte old new, 4, .keyboard, false, false⟩,
          controller.write (.data new) (controller.write (.command kCPSetCommandByte) read.port),
          read.queue, read.dispatched⟩ := by
      simp [processRequest, RequestRun.commands, testAndSetCommandByte, PS2Request.ofCommands,
        ProcessFrame.enter, ProcessFrame.current, RequestRun.command, ProcessFrame.start, hread,
        hvalue, ProcessFrame.finish, hold, kCPGetCommandByte_ne, kCPSetCommandByte_ne]
    refine ⟨_, hrun, hqueue, hout, ?_, ?_⟩
    · rw [if_pos hold]
      rfl
    · rw [if_pos hold]
      rfl
  · have hrun : processRequest controller (n + 1) (testAndSetCommandByte old new) false h [] =
        some ⟨⟨testAndSetCommandByte old new, 1, .keyboard, false, true⟩, read.port,
          read.queue, read.dispatched⟩ := by
      simp [processRequest, RequestRun.commands, testAndSetCommandByte, PS2Request.ofCommands,
        ProcessFrame.enter, ProcessFrame.current, RequestRun.command, ProcessFrame.start, hread,
        hvalue, ProcessFrame.finish, hold, kCPGetCommandByte_ne]
    refine ⟨_, hrun, hqueue, hout, ?_, ?_⟩
    · rw [if_neg hold]
      exact hcommand
    · rw [if_neg hold]
      rfl

/-- While the hardware is offline a request fails at its first command. -/
theorem processRequest_offline (n : ℕ) (request : PS2Request) (h : Hardware)
    (queue : List PortByte) :
    processRequest controller n request true h queue = some ⟨.enter request true, h, queue, []⟩ := by
  unfold processRequest
  cases request.commandsCount with
  | zero => rfl
  | succ k => simp [RequestRun.commands, ProcessFrame.enter, ProcessFrame.current]

/-- The drivers' calls and the controller that executes their requests. -/
structure CommandByteSystem (ι : Type*) where
  hardware : Hardware
  keyboardQueue : List PortByte
  pc : ι → TestAndSet.Pc UInt8

/-- The next request of `caller` is executed. The rest is what the controller and
the mouse do meanwhile. -/
structure Execute (ι : Type*) where
  caller : ι
  hardwareOffline : Bool
  early : List (Option UInt8)
  late : List (Option UInt8)
  interrupts : List Bool
  deriving DecidableEq, Repr

def Execute.hardware {ι : Type*} (a : Execute ι) (h : Hardware) : Hardware :=
  { h with early := a.early, late := a.late, interrupts := a.interrupts }

namespace CommandByteSystem

variable {ι : Type*} [DecidableEq ι]

def initial (commandByte : UInt8) : CommandByteSystem ι :=
  ⟨⟨commandByte, 0, none, [], [], []⟩, [], fun _ => .read⟩

/-- The read of a request is given enough passes to end. -/
def step (call : ι → SetCommandByte) (s : CommandByteSystem ι) (a : Execute ι) :
    Option (CommandByteSystem ι) :=
  let h := a.hardware s.hardware
  match (call a.caller).request (s.pc a.caller) with
  | none => none
  | some request =>
    (processRequest controller (h.size + 2) request a.hardwareOffline h s.keyboardQueue).map
      fun r => ⟨r.port, r.queue,
        Function.update s.pc a.caller ((call a.caller).resume (s.pc a.caller) r.frame.complete)⟩

def AnsweredInTime (s : CommandByteSystem ι) (a : Execute ι) : Prop :=
  (a.hardware s.hardware).InTime

instance (s : CommandByteSystem ι) (a : Execute ι) : Decidable (s.AnsweredInTime a) := by
  unfold AnsweredInTime; infer_instance

/-- The abstract machine behind the system. -/
def toTestAndSet (s : CommandByteSystem ι) : TestAndSet.State ι UInt8 :=
  ⟨s.hardware.commandByte, s.pc⟩

/-- Between two requests no byte is left over. -/
structure Idle (s : CommandByteSystem ι) : Prop where
  queue : s.keyboardQueue = []
  output : s.hardware.output = none

section Step
variable (setBits clearBits : ι → UInt8) {s : CommandByteSystem ι} {a : Execute ι} {r : RequestRun Hardware}

theorem step_read (hpc : s.pc a.caller = .read)
    (hrun : processRequest controller ((a.hardware s.hardware).size + 2) readCommandByte
      a.hardwareOffline (a.hardware s.hardware) s.keyboardQueue = some r) :
    step (fun i => .tryLoop (setBits i) (clearBits i)) s a = some ⟨r.port, r.queue,
      Function.update s.pc a.caller
        (.testAndSet ((r.frame.complete.commands[1]?.map PS2Command.inOrOut).getD 0))⟩ := by
  simp only [step, SetCommandByte.tryLoop, hpc, hrun, Option.map_some]

theorem step_testAndSet {old : UInt8} (hpc : s.pc a.caller = .testAndSet old)
    (hrun : processRequest controller ((a.hardware s.hardware).size + 2)
      (testAndSetCommandByte old (updateBits (setBits a.caller) (clearBits a.caller) old))
      a.hardwareOffline (a.hardware s.hardware) s.keyboardQueue = some r) :
    step (fun i => .tryLoop (setBits i) (clearBits i)) s a = some ⟨r.port, r.queue,
      Function.update s.pc a.caller
        (if r.frame.complete.commandsCount ≠ 4 then .read else .returned)⟩ := by
  simp only [step, SetCommandByte.tryLoop, hpc, hrun, Option.map_some]

/-- A request that is executed is a step of the test-and-set machine. -/
theorem step_toTestAndSet (hidle : s.Idle) (hin : s.AnsweredInTime a)
    (hpc : s.pc a.caller ≠ .returned) :
    ∃ t, step (fun i => .tryLoop (setBits i) (clearBits i)) s a = some t ∧ t.Idle ∧
      TestAndSet.Step (fun i => updateBits (setBits i) (clearBits i)) s.toTestAndSet
        t.toTestAndSet := by
  obtain ⟨hqueue, hout⟩ := hidle
  have hn : (a.hardware s.hardware).size < (a.hardware s.hardware).size + 1 := Nat.lt_succ_self _
  have hsame : (a.hardware s.hardware).commandByte = s.hardware.commandByte := rfl
  cases hcaller : s.pc a.caller with
  | returned => exact absurd hcaller hpc
  | read =>
    have hnext := fun r => step_read setBits clearBits (r := r) hcaller
    rw [hqueue] at hnext
    cases hoff : a.hardwareOffline with
    | true =>
      rw [hoff] at hnext
      exact ⟨_, hnext _ (processRequest_offline _ _ _ _), ⟨rfl, hout⟩, .read _ hcaller⟩
    | false =>
      rw [hoff] at hnext
      obtain ⟨r, hr, hq, ho, hc, hbyte⟩ := processRequest_readCommandByte hin hn
      refine ⟨_, hnext r hr, ⟨hq, ho⟩, ?_⟩
      have hread : TestAndSet.Step (fun i => updateBits (setBits i) (clearBits i)) s.toTestAndSet _ :=
        .read s.hardware.commandByte hcaller
      rw [hsame] at hc hbyte
      simpa only [toTestAndSet, hc, hbyte, Option.map_some, Option.getD_some] using hread
  | testAndSet old =>
    have hnext := fun r => step_testAndSet setBits clearBits (r := r) hcaller
    rw [hqueue] at hnext
    cases hoff : a.hardwareOffline with
    | true =>
      rw [hoff] at hnext
      exact ⟨_, hnext _ (processRequest_offline _ _ _ _), ⟨rfl, hout⟩, .retry hcaller⟩
    | false =>
      rw [hoff] at hnext
      obtain ⟨r, hr, hq, ho, hc, hcount⟩ := processRequest_testAndSetCommandByte hin hn old
        (updateBits (setBits a.caller) (clearBits a.caller) old)
      refine ⟨_, hnext r hr, ⟨hq, ho⟩, ?_⟩
      rw [hsame] at hc hcount
      by_cases hold : s.hardware.commandByte = old
      · subst hold
        simp only [toTestAndSet, hc, hcount, if_true]
        exact .set hcaller
      · simp only [toTestAndSet, hc, hcount, hold, if_false]
        exact .retry hcaller

end Step

/-- The invariant: nothing is left over, and the returned calls took effect one by one. -/
theorem step_serialized {setBits clearBits : ι → UInt8} {commandByte : UInt8} (s : CommandByteSystem ι) (a : Execute ι)
    (t : CommandByteSystem ι)
    (h : s.Idle ∧ TestAndSet.Serialized (fun i => updateBits (setBits i) (clearBits i))
      commandByte s.toTestAndSet) (hin : s.AnsweredInTime a)
    (ht : step (fun i => .tryLoop (setBits i) (clearBits i)) s a = some t) :
    t.Idle ∧ TestAndSet.Serialized (fun i => updateBits (setBits i) (clearBits i))
      commandByte t.toTestAndSet := by
  have hpc : s.pc a.caller ≠ .returned := by
    intro hpc
    simp [step, SetCommandByte.tryLoop, hpc] at ht
  obtain ⟨t', ht', hidle, hstep⟩ :=
    step_toTestAndSet setBits clearBits h.1 hin hpc
  rw [ht, Option.some.injEq] at ht'
  subst ht'
  exact ⟨hidle, hstep.serialized h.2⟩

/-- Once every caller has returned, the command byte is the result of all their
updates, each applied once, in some order. -/
theorem setCommandByte_loses_no_update (driver : ι → Driver) (setBits clearBits : ι → UInt8)
    (commandByte : UInt8) {as : List (Execute ι)} {s : CommandByteSystem ι}
    (hin : Transition.Guarded (step fun i => (driver i).setCommandByte (setBits i) (clearBits i))
      AnsweredInTime (initial commandByte) as)
    (hrun : Transition.run (step fun i => (driver i).setCommandByte (setBits i) (clearBits i))
      (initial commandByte) as = some s)
    (hreturned : ∀ i, s.pc i = .returned) :
    ∃ order : List ι, order.Nodup ∧ (∀ i, i ∈ order) ∧
      s.hardware.commandByte =
        order.foldl (fun b i => (b ||| setBits i) &&& ~~~clearBits i) commandByte := by
  simp only [Driver.setCommandByte_eq] at hin hrun
  have hstart : (initial (ι := ι) commandByte).Idle ∧ TestAndSet.Serialized
      (fun i => updateBits (setBits i) (clearBits i)) commandByte (initial commandByte).toTestAndSet :=
    ⟨⟨rfl, rfl⟩, TestAndSet.serialized_start commandByte⟩
  obtain ⟨-, order, hnodup, hmem, hvalue⟩ :=
    Transition.guarded_run_invariant step_serialized hstart hin hrun
  exact ⟨order, hnodup, fun i => (hmem i).mpr (hreturned i), hvalue⟩

/-- The keyboard driver and the touchpad driver; the latter reads the byte, finds
the hardware offline at its test, and starts again after the former's update. -/
def retryAfterOffline : List (Execute Bool) :=
  [⟨false, false, [none, some 0x08], [], []⟩, ⟨true, false, [none], [], [true]⟩,
    ⟨true, true, [], [], []⟩, ⟨false, false, [], [none], []⟩, ⟨true, false, [], [], []⟩,
    ⟨true, false, [none], [], []⟩]

theorem retryAfterOffline_loses_no_update :
    ∃ s : CommandByteSystem Bool, s.hardware.commandByte = 0x47 ∧
      ∃ order : List Bool, order.Nodup ∧ (∀ i, i ∈ order) ∧ s.hardware.commandByte =
        order.foldl (fun b i => (b ||| cond i 0x02 0x01) &&& ~~~(cond i 0x20 0x10)) 0x74 :=
  ⟨_, rfl, setCommandByte_loses_no_update (fun i => cond i .synapticsTouchPad .keyboard)
    (fun i => cond i 0x02 0x01) (fun i => cond i 0x20 0x10) 0x74
    (show Transition.Guarded _ AnsweredInTime (initial 0x74) retryAfterOffline by decide) rfl
    (by decide)⟩

end CommandByteSystem
end PS2
