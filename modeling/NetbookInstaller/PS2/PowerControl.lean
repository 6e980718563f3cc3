import NetbookInstaller.PS2.CommandByte
import NetbookInstaller.PS2.PowerState
import NetbookInstaller.PS2.RequestOrder

/-! The way into sleep on the work loop: the requests that the drivers' power-control
handlers submit before the controller takes the hardware offline. -/
namespace PS2

open Transition

/-- `ApplePS2Keyboard::setKeyboardEnable`. -/
def setKeyboardEnable (enable : Bool) : PS2Request := .ofCommands
  [⟨.writeDataPort, if enable then kDPEnable else kDPSetDefaultsAndDisable⟩,
    ⟨.readDataPortAndCompare, kSCAcknowledge⟩]

def ApplePS2SynapticsTouchPad.setTouchPadEnable (enable : Bool) : PS2Request := .ofCommands
  [⟨.sendMouseCommandAndCompareAck, if enable then kDPEnable else kDPSetDefaultsAndDisable⟩]

/-- The request of the drivers that disable the pad four times first. -/
def enableAfterDisables (enable : Bool) : PS2Request := .ofCommands
  (List.replicate 4 ⟨.sendMouseCommandAndCompareAck, kDPSetDefaultsAndDisable⟩ ++
    [⟨.sendMouseCommandAndCompareAck, if enable then kDPEnable else kDPSetDefaultsAndDisable⟩])

def ApplePS2ALPSGlidePoint.setTouchPadEnable (enable : Bool) : PS2Request :=
  enableAfterDisables enable

def ApplePS2ElantechTouchpad.setTouchPadEnable (enable : Bool) : PS2Request :=
  enableAfterDisables enable

/-- A call that driver or power-management code makes under the gate. `setCommandByte` is one
call that submits a request at each of its `pc`; `resumeCommandByte` waits for that request. -/
inductive GatedCall where
  | submitRequest (request : PS2Request)
  | submitRequestAndBlock (request : PS2Request)
  | setCommandByte (call : SetCommandByte) (pc : TestAndSet.Pc UInt8)
  | resumeCommandByte (call : SetCommandByte) (pc : TestAndSet.Pc UInt8)
  | uninstallInterruptAction (deviceType : PS2DeviceType)
  | setHardwareOffline (offline : Bool)

/-- The drivers of the mouse port. -/
inductive PointerDriver where
  | mouse | synapticsTouchPad | alpsGlidePoint | elantechTouchpad
  deriving DecidableEq, Repr

/-! `setDevicePowerState(kPS2C_DisableDevice)` of each driver. -/

def ApplePS2Keyboard.disableDevice : List GatedCall :=
  [.submitRequest (setKeyboardEnable false),
    .setCommandByte (ApplePS2Keyboard.setCommandByte kCBDisableKeyboardClock kCBEnableKeyboardIRQ)
      .read,
    .uninstallInterruptAction .keyboard]

def PointerDriver.disableDevice : PointerDriver → List GatedCall
  | .mouse => [.submitRequestAndBlock (setMouseEnable false)]
  | .synapticsTouchPad =>
    [.submitRequestAndBlock (ApplePS2SynapticsTouchPad.setTouchPadEnable false)]
  | .alpsGlidePoint => [.submitRequest (ApplePS2ALPSGlidePoint.setTouchPadEnable false)]
  | .elantechTouchpad => [.submitRequest (ApplePS2ElantechTouchpad.setTouchPadEnable false)]

/-- The power-control handlers that are installed. -/
structure PowerControlActions where
  mouse : Option PointerDriver
  keyboard : Bool
  deriving DecidableEq, Repr

/-- `dispatchDriverPowerControl(kPS2C_DisableDevice)`. -/
def PowerControlActions.disableDevices (c : PowerControlActions) : List GatedCall :=
  (c.mouse.map PointerDriver.disableDevice).getD [] ++
    if c.keyboard then ApplePS2Keyboard.disableDevice else []

/-- The work loop in `setPowerStateGated`, with the calls that are still to come and the
requests that the handlers have submitted. -/
structure SleepEntry where
  loop : WorkLoop
  calls : List GatedCall
  requests : List ℕ

inductive SleepAction where
  | loop (a : Action)
  | call
  /-- `setCommandByte` goes on with its completed request -/
  | resume (request : PS2Request)
  deriving DecidableEq, Repr

namespace SleepEntry

/-- The transition from working state to sleep state. -/
def enter (loop : WorkLoop) (c : PowerControlActions) : SleepEntry :=
  ⟨loop, c.disableDevices ++ [.setHardwareOffline true], []⟩

/-- While calls are to come no other code runs under the gate below them, and no other code
sets `_hardwareOffline`. -/
def Free (s : SleepEntry) : Action → Prop
  | .setHardwareOffline _ => s.calls = []
  | .submitRequestAndBlock _ | .handlerReturn => s.calls = [] ∨ s.loop.stack ≠ [.gated]
  | _ => True

instance (s : SleepEntry) : (a : Action) → Decidable (s.Free a)
  | .setHardwareOffline _ => decidable_of_iff (s.calls.isEmpty = true) List.isEmpty_iff
  | .submitRequestAndBlock _ | .handlerReturn =>
    decidable_of_iff (s.calls.isEmpty = true ∨ s.loop.stack ≠ [.gated])
      (or_congr_left List.isEmpty_iff)
  | .submitRequest _ | .signalQueue | .keyboardInterrupt _ | .runRequestQueue | .runInterrupt
  | .runGated | .dispatchQueued | .dispatchMouse _ | .interruptDone | .readQueue | .readPort _ _ _
  | .readTimeout | .advance => .isTrue trivial

/-- A request of a handler; `calls` are those behind it. -/
def submit (s : SleepEntry) (a : Action) (calls : List GatedCall) : Option SleepEntry :=
  (s.loop.step a).map fun loop => ⟨loop, calls, s.requests ++ [s.loop.submitted]⟩

def call (s : SleepEntry) : Option SleepEntry :=
  match s.calls with
  | [] => none
  | .submitRequest request :: calls => s.submit (.submitRequest request) calls
  | .submitRequestAndBlock request :: calls => s.submit (.submitRequestAndBlock request) calls
  | .setCommandByte call pc :: calls =>
    match call.request pc with
    | none => some { s with calls }
    | some request =>
      s.submit (.submitRequestAndBlock request) (.resumeCommandByte call pc :: calls)
  | .resumeCommandByte _ _ :: _ => none
  | .uninstallInterruptAction .keyboard :: calls =>
    some { s with loop := { s.loop with interruptInstalledKeyboard := false }, calls }
  | .uninstallInterruptAction .mouse :: calls =>
    some { s with loop := { s.loop with interruptInstalledMouse := false }, calls }
  | .setHardwareOffline offline :: calls =>
    (s.loop.step (.setHardwareOffline offline)).map fun loop => { s with loop, calls }

def step (s : SleepEntry) : SleepAction → Option SleepEntry
  | .loop a => if s.Free a then (s.loop.step a).map fun loop => { s with loop } else none
  | .call => if s.loop.stack = [.gated] then s.call else none
  | .resume request =>
    match s.calls with
    | .resumeCommandByte call pc :: calls =>
      if s.loop.stack = [.gated] then
        some { s with calls := .setCommandByte call (call.resume pc request) :: calls }
      else none
    | _ => none

end SleepEntry

/-- The first command of the request has been started, and the request has completed. -/
def Executed (log : List LogEvent) (id : ℕ) : Prop :=
  .command id 0 ∈ log ∧ ∃ commandsCount, .complete id commandsCount ∈ log

def PS2Request.HasCommand (r : PS2Request) : Prop := 0 < r.commandsCount ∧ r.commands ≠ []

/-- A method on the stack is still to execute the request. -/
def Holds (stack : List Frame) (q : QueuedRequest) : Prop :=
  .submitRequestAndBlock q ∈ stack ∨
    ∃ localQueue, .processRequestQueue localQueue ∈ stack ∧ q ∈ localQueue

/-- How far a request that is executed while the hardware is online has come. -/
inductive Tracked (s : WorkLoop) (id : ℕ) : Prop
  | queued {r : PS2Request} (hr : r.HasCommand) (hq : ⟨id, r⟩ ∈ s.requestQueue) : Tracked s id
  | held {r : PS2Request} (hr : r.HasCommand) (hheld : Holds s.stack ⟨id, r⟩) : Tracked s id
  | begun {r : PS2Request} {rest : List Frame} (hr : r.HasCommand)
      (hs : s.stack = .processRequest id (.enter r false) :: rest) : Tracked s id
  | running {f : ProcessFrame} (hf : .processRequest id f ∈ s.stack)
      (hlog : .command id 0 ∈ s.log) : Tracked s id
  | executed (h : Executed s.log id) : Tracked s id

/-- The frames that execute requests. -/
def Frame.Works : Frame → Prop
  | .submitRequestAndBlock _ | .processRequestQueue _ | .processRequest _ _ => True
  | _ => False

/-- What keeps every request where it is, or moves the queue to a local one. -/
structure Keeps (s t : WorkLoop) : Prop where
  stack : ∀ frame ∈ s.stack, frame.Works → frame ∈ t.stack
  queue : ∀ q ∈ s.requestQueue, q ∈ t.requestQueue ∨ Holds t.stack q
  top : ∀ id f rest, s.stack = .processRequest id f :: rest → t.stack = s.stack
  log : t.log = s.log

theorem Holds.mono {stack stack' : List Frame} {q : QueuedRequest} (h : Holds stack q)
    (hstack : ∀ frame ∈ stack, frame.Works → frame ∈ stack') : Holds stack' q := by
  rcases h with hblock | ⟨localQueue, hlocal, hq⟩
  · exact .inl (hstack _ hblock trivial)
  · exact .inr ⟨localQueue, hstack _ hlocal trivial, hq⟩

theorem Tracked.keeps {s t : WorkLoop} {id : ℕ} (h : Tracked s id) (hk : Keeps s t) :
    Tracked t id := by
  cases h with
  | queued hr hq =>
    rcases hk.queue _ hq with hq' | hheld
    · exact .queued hr hq'
    · exact .held hr hheld
  | held hr hheld => exact .held hr (hheld.mono hk.stack)
  | begun hr hs => exact .begun hr ((hk.top _ _ _ hs).trans hs)
  | running hf hlog => exact .running (hk.stack _ hf trivial) (hk.log ▸ hlog)
  | executed h => exact .executed (hk.log ▸ h)

/-- Only what lies on top of the stack changes, and it executes no request. -/
theorem keeps_top {s t : WorkLoop} {frame : Frame} {rest : List Frame}
    (hs : s.stack = frame :: rest) (hframe : ¬ frame.Works) (hrest : ∀ f ∈ rest, f ∈ t.stack)
    (hqueue : t.requestQueue = s.requestQueue) (hlog : t.log = s.log) : Keeps s t := by
  constructor
  · intro f hf hworks
    rw [hs] at hf
    rcases List.mem_cons.mp hf with rfl | hf
    · exact absurd hworks hframe
    · exact hrest f hf
  · intro q hq
    rw [hqueue]
    exact .inl hq
  · intro id f rest' htop
    rw [hs, List.cons.injEq] at htop
    rw [htop.1] at hframe
    exact absurd trivial hframe
  · exact hlog

theorem keeps_stack {s t : WorkLoop} (hs : t.stack = s.stack)
    (hqueue : ∀ q ∈ s.requestQueue, q ∈ t.requestQueue) (hlog : t.log = s.log) : Keeps s t where
  stack _ hf _ := hs ▸ hf
  queue q hq := .inl (hqueue q hq)
  top _ _ _ _ := hs
  log := hlog

theorem keeps_idle {s t : WorkLoop} (hs : s.stack = []) (hqueue : t.requestQueue = s.requestQueue)
    (hlog : t.log = s.log) : Keeps s t where
  stack _ hf := by simp [hs] at hf
  queue _ hq := .inl (hqueue ▸ hq)
  top _ _ _ h := by simp [hs] at h
  log := hlog

/-- The queue moves to a local one, below which the stack has grown. -/
theorem keeps_transferQueue {s t : WorkLoop} (hstack : ∀ f ∈ s.stack, f ∈ t.stack)
    (htop : ∀ id f rest, s.stack ≠ .processRequest id f :: rest)
    (hqueue : t.requestQueue = s.requestQueue) (hlog : t.log = s.log) :
    Keeps s t.transferQueue where
  stack f hf _ := List.mem_cons_of_mem _ (hstack f hf)
  queue _ hq := .inr (.inr ⟨t.requestQueue, List.mem_cons_self, hqueue ▸ hq⟩)
  top id f rest h := absurd h (htop id f rest)
  log := hlog

theorem keeps_dispatch {s : WorkLoop} (d : PS2DeviceType) (b : PortByte) {rest : List Frame}
    (hs : s.stack = .interruptOccurred :: rest) : Keeps s (s.dispatchDriverInterrupt d b) := by
  obtain ⟨stack, dispatched, heq, hstack⟩ := WorkLoop.dispatchDriverInterrupt_eq s d b
  rw [heq]
  refine keeps_top hs (fun h => h) ?_ rfl rfl
  intro f hf
  rcases hstack with rfl | rfl <;> simp [hs, hf]

theorem keeps_readByte {s : WorkLoop} {f g : ReadFrame} {rest : List Frame} (b : PortByte)
    (hs : s.stack = .readDataPort (.again g) :: rest) : Keeps s (s.readByte f rest b) := by
  obtain ⟨stack, dispatched, heq, hstack⟩ := WorkLoop.readByte_eq s b f rest
  rw [heq]
  refine keeps_top hs (fun h => h) ?_ rfl rfl
  intro f hf
  rcases hstack with ⟨r, rfl⟩ | ⟨d, r, rfl⟩ <;> simp [hf]

/-- The top activation of `processRequest` begins with the request. -/
theorem tracked_advanceRequest {s : WorkLoop} {id : ℕ} {r : PS2Request} {rest : List Frame}
    (hr : r.HasCommand) : Tracked (s.advanceRequest id (.enter r false) rest) id := by
  obtain ⟨c, hc⟩ : ∃ c, ProcessFrame.current (.enter r false) = some c := by
    obtain ⟨hcount, hne⟩ := hr
    obtain ⟨c, cs, hcs⟩ := List.exists_cons_of_ne_nil hne
    exact ⟨c, by simp [ProcessFrame.current, ProcessFrame.enter, hcount, hcs]⟩
  unfold WorkLoop.advanceRequest
  rw [hc]
  dsimp only
  split
  · exact .running List.mem_cons_self (List.mem_append_right _ List.mem_cons_self)
  · exact .running (List.mem_cons_of_mem _ List.mem_cons_self)
      (List.mem_append_right _ List.mem_cons_self)

/-- The top activation of `processRequest` does not lose the frames below it, and goes on
itself until it has completed. -/
theorem advanceRequest_stack (s : WorkLoop) (id : ℕ) (f : ProcessFrame) (rest : List Frame) :
    (∀ frame ∈ rest, frame ∈ (s.advanceRequest id f rest).stack) ∧
      (∀ e ∈ s.log, e ∈ (s.advanceRequest id f rest).log) ∧
      ((∃ n, .complete id n ∈ (s.advanceRequest id f rest).log) ∨
        ∃ f', .processRequest id f' ∈ (s.advanceRequest id f rest).stack) := by
  unfold WorkLoop.advanceRequest
  split
  · exact ⟨fun frame h => h, fun e he => List.mem_append_left _ he,
      .inl ⟨_, List.mem_append_right _ List.mem_cons_self⟩⟩
  · dsimp only
    split
    · exact ⟨fun frame h => List.mem_cons_of_mem _ h, fun e he => List.mem_append_left _ he,
        .inr ⟨_, List.mem_cons_self⟩⟩
    · exact ⟨fun frame h => List.mem_cons_of_mem _ (List.mem_cons_of_mem _ h),
        fun e he => List.mem_append_left _ he,
        .inr ⟨_, List.mem_cons_of_mem _ List.mem_cons_self⟩⟩

theorem Executed.mono {log log' : List LogEvent} {id : ℕ} (h : Executed log id)
    (hlog : ∀ e ∈ log, e ∈ log') : Executed log' id := by
  obtain ⟨hcommand, n, hcomplete⟩ := h
  exact ⟨hlog _ hcommand, n, hlog _ hcomplete⟩

theorem Tracked.advanceRequest {s : WorkLoop} {id i : ℕ} {f : ProcessFrame} {rest : List Frame}
    (h : Tracked s id) (hs : s.stack = .processRequest i f :: rest) :
    Tracked (s.advanceRequest i f rest) id := by
  obtain ⟨hrest, hlog, hgo⟩ := advanceRequest_stack s i f rest
  have hqueue : (s.advanceRequest i f rest).requestQueue = s.requestQueue := by
    unfold WorkLoop.advanceRequest
    split
    · rfl
    · dsimp only
      split <;> rfl
  cases h with
  | queued hr hq => exact .queued hr (hqueue ▸ hq)
  | held hr hheld =>
    apply Tracked.held hr
    rw [hs] at hheld
    rcases hheld with hblock | ⟨localQueue, hlocal, hq⟩
    · exact .inl (hrest _ ((List.mem_cons.mp hblock).resolve_left Frame.noConfusion))
    · exact .inr ⟨localQueue, hrest _ ((List.mem_cons.mp hlocal).resolve_left Frame.noConfusion), hq⟩
  | begun hr hs' =>
    rw [hs, List.cons.injEq, Frame.processRequest.injEq] at hs'
    obtain ⟨⟨rfl, rfl⟩, rfl⟩ := hs'
    exact tracked_advanceRequest hr
  | @running f' hf hcommand =>
    rw [hs] at hf
    rcases List.mem_cons.mp hf with htop | hf
    · rw [Frame.processRequest.injEq] at htop
      obtain ⟨rfl, rfl⟩ := htop
      rcases hgo with ⟨n, hcomplete⟩ | ⟨f', hf'⟩
      · exact .executed ⟨hlog _ hcommand, n, hcomplete⟩
      · exact .running hf' (hlog _ hcommand)
    · exact .running (hrest _ hf) (hlog _ hcommand)
  | executed h => exact .executed (h.mono hlog)

/-- The top frame hands a request to `processRequest`. -/
theorem Tracked.beginRequest {s : WorkLoop} {id : ℕ} {q : QueuedRequest}
    {frame : Frame} {rest rest' : List Frame} (h : Tracked s id)
    (honline : s.hardwareOffline = false) (hs : s.stack = frame :: rest)
    (hrest : ∀ f ∈ rest, f ∈ rest') (hframe : ∀ i f, frame ≠ .processRequest i f)
    (hheld : ∀ q', Holds s.stack q' → q' = q ∨ Holds rest' q') :
    Tracked (s.beginRequest q rest') id := by
  have hlog : ∀ e ∈ s.log, e ∈ s.log ++ [LogEvent.begin q.id] :=
    fun e he => List.mem_append_left _ he
  cases h with
  | queued hr hq => exact .queued hr hq
  | held hr hheld' =>
    rcases hheld _ hheld' with rfl | hrest'
    · apply Tracked.begun hr
      rw [WorkLoop.beginRequest, honline]
    · exact .held hr (hrest'.mono fun f hf _ => List.mem_cons_of_mem _ hf)
  | begun hr hs' =>
    rw [hs, List.cons.injEq] at hs'
    exact absurd hs'.1 (hframe _ _)
  | running hf hcommand =>
    rw [hs] at hf
    rcases List.mem_cons.mp hf with htop | hf
    · exact absurd htop.symm (hframe _ _)
    · exact .running (List.mem_cons_of_mem _ (hrest _ hf)) (hlog _ hcommand)
  | executed h => exact .executed (h.mono hlog)

theorem holds_submitRequestAndBlock {r q : QueuedRequest} {rest : List Frame}
    (h : Holds (.submitRequestAndBlock r :: rest) q) : q = r ∨ Holds rest q := by
  rcases h with hblock | ⟨localQueue, hlocal, hq⟩
  · rcases List.mem_cons.mp hblock with htop | hrest
    · exact .inl (Frame.submitRequestAndBlock.inj htop)
    · exact .inr (.inl hrest)
  · exact .inr (.inr ⟨localQueue, (List.mem_cons.mp hlocal).resolve_left Frame.noConfusion, hq⟩)

theorem holds_processRequestQueue {localQueue : List QueuedRequest} {q : QueuedRequest}
    {rest : List Frame} (h : Holds (.processRequestQueue localQueue :: rest) q) :
    q ∈ localQueue ∨ Holds rest q := by
  rcases h with hblock | ⟨localQueue', hlocal, hq⟩
  · exact .inr (.inl ((List.mem_cons.mp hblock).resolve_left Frame.noConfusion))
  · rcases List.mem_cons.mp hlocal with htop | hrest
    · exact .inl (Frame.processRequestQueue.inj htop ▸ hq)
    · exact .inr (.inr ⟨localQueue', hrest, hq⟩)

/-- The local queue has been worked off. -/
theorem Tracked.queueDone {s : WorkLoop} {id : ℕ} {rest : List Frame} (h : Tracked s id)
    (hs : s.stack = .processRequestQueue [] :: rest) : Tracked { s with stack := rest } id := by
  cases h with
  | queued hr hq => exact .queued hr hq
  | held hr hheld =>
    rw [hs] at hheld
    exact .held hr ((holds_processRequestQueue hheld).resolve_left List.not_mem_nil)
  | begun hr hs' =>
    rw [hs, List.cons.injEq] at hs'
    exact absurd hs'.1 Frame.noConfusion
  | running hf hcommand =>
    rw [hs] at hf
    exact .running ((List.mem_cons.mp hf).resolve_left Frame.noConfusion) hcommand
  | executed h => exact .executed h

/-- A command has read its byte. -/
theorem Tracked.finish {s : WorkLoop} {id i : ℕ} {r : ReadResult} {f f' : ProcessFrame}
    {rest : List Frame} (h : Tracked s id)
    (hs : s.stack = .readDataPort r :: .processRequest i f :: rest) :
    Tracked { s with stack := .processRequest i f' :: rest } id := by
  cases h with
  | queued hr hq => exact .queued hr hq
  | held hr hheld =>
    apply Tracked.held hr
    rw [hs] at hheld
    rcases hheld with hblock | ⟨localQueue, hlocal, hq⟩
    · exact .inl (by simpa using hblock)
    · exact .inr ⟨localQueue, by simpa using hlocal, hq⟩
  | begun hr hs' =>
    rw [hs, List.cons.injEq] at hs'
    exact absurd hs'.1 Frame.noConfusion
  | @running f₀ hf hcommand =>
    rw [hs] at hf
    have htail := (List.mem_cons.mp hf).resolve_left Frame.noConfusion
    rcases List.mem_cons.mp htail with htop | hrest
    · rw [Frame.processRequest.injEq] at htop
      obtain ⟨rfl, rfl⟩ := htop
      exact .running List.mem_cons_self hcommand
    · exact .running (List.mem_cons_of_mem _ hrest) hcommand
  | executed h => exact .executed h

theorem Tracked.advance {s t : WorkLoop} {id : ℕ} (h : Tracked s id)
    (honline : s.hardwareOffline = false) (ht : s.advance = some t) : Tracked t id := by
  unfold WorkLoop.advance at ht
  split at ht
  next r rest hs =>
    cases ht
    apply h.beginRequest honline hs (fun _ hf => hf) (fun _ _ => Frame.noConfusion)
    intro q hq
    rw [hs] at hq
    exact holds_submitRequestAndBlock hq
  next rest hs =>
    cases ht
    exact h.queueDone hs
  next r localQueue rest hs =>
    cases ht
    apply h.beginRequest honline hs (fun _ hf => List.mem_cons_of_mem _ hf)
      (fun _ _ => Frame.noConfusion)
    intro q hq
    rw [hs] at hq
    rcases holds_processRequestQueue hq with hlocal | hrest
    · rcases List.mem_cons.mp hlocal with hfirst | hlater
      · exact .inl hfirst
      · exact .inr (.inr ⟨localQueue, List.mem_cons_self, hlater⟩)
    · exact .inr (hrest.mono fun _ hf _ => List.mem_cons_of_mem _ hf)
  next i f rest hs =>
    cases ht
    exact h.advanceRequest hs
  next r i f rest hs =>
    split at ht
    · cases ht
      exact h.finish hs
    · cases ht
  next => cases ht

/-- Nothing that happens on the work loop while the hardware is online loses a request. -/
theorem Tracked.step {s t : WorkLoop} {a : Action} {id : ℕ} (h : Tracked s id)
    (honline : s.hardwareOffline = false) (ht : s.step a = some t) : Tracked t id := by
  cases WorkLoop.stepped_of_step ht with
  | submitRequest request =>
    exact h.keeps (keeps_stack rfl (fun q hq => List.mem_append_left _ hq) rfl)
  | signalQueue _ => exact h.keeps (keeps_stack rfl (fun q hq => hq) rfl)
  | keyboardInterrupt data => exact h.keeps (keeps_stack rfl (fun q hq => hq) rfl)
  | runRequestQueue hs _ =>
    apply h.keeps
    exact keeps_transferQueue (fun _ hf => hf) (fun _ _ _ h => by simp [hs] at h) rfl rfl
  | runInterrupt hs _ => exact h.keeps (keeps_idle hs rfl rfl)
  | runGated hs => exact h.keeps (keeps_idle hs rfl rfl)
  | submitRequestAndBlock request hs hframe =>
    apply h.keeps
    refine keeps_transferQueue (fun _ hf => List.mem_cons_of_mem _ hf) ?_ rfl rfl
    intro i f rest' htop
    rw [hs, List.cons.injEq] at htop
    rcases hframe with ⟨d, rfl⟩ | rfl <;> exact absurd htop.1 Frame.noConfusion
  | setHardwareOffline offline _ => exact h.keeps (keeps_stack rfl (fun q hq => hq) rfl)
  | handlerReturn hs hframe =>
    apply h.keeps
    refine keeps_top hs ?_ (fun _ hf => hf) rfl rfl
    rcases hframe with ⟨d, rfl⟩ | rfl <;> exact fun h => h
  | @dispatchQueued rest byte queue hs hq =>
    have hnew : Tracked { s with keyboardQueue := queue } id :=
      h.keeps (keeps_stack rfl (fun q hq => hq) rfl)
    exact hnew.keeps (keeps_dispatch .keyboard byte hs)
  | dispatchMouse data hs _ =>
    have hnew : Tracked { s with portReads := s.portReads + 1 } id :=
      h.keeps (keeps_stack rfl (fun q hq => hq) rfl)
    exact hnew.keeps (keeps_dispatch .mouse _ hs)
  | interruptDone hs _ => exact h.keeps (keeps_top hs (fun h => h) (fun _ hf => hf) rfl rfl)
  | @readQueue f rest byte queue hs hq _ =>
    have hnew : Tracked { s with keyboardQueue := queue } id :=
      h.keeps (keeps_stack rfl (fun q hq => hq) rfl)
    exact hnew.keeps (keeps_readByte byte hs)
  | readPort polls stream data hs _ =>
    have hnew : Tracked { s with portReads := s.portReads + 1 } id :=
      h.keeps (keeps_stack rfl (fun q hq => hq) rfl)
    exact hnew.keeps (keeps_readByte _ hs)
  | readTimeout hs _ =>
    apply h.keeps
    exact keeps_top hs (fun h => h) (fun _ hf => List.mem_cons_of_mem _ hf) rfl rfl
  | advance ht => exact h.advance honline ht

/-- What a step may do to the queue, the numbering, the log and the offline flag. -/
structure Grows (a : Action) (s t : WorkLoop) : Prop where
  queue : ∀ q ∈ t.requestQueue, q ∈ s.requestQueue ∨ q.id = s.submitted
  submitted : s.submitted ≤ t.submitted
  log : ∀ e ∈ s.log, e ∈ t.log
  hardwareOffline : (∀ offline, a ≠ .setHardwareOffline offline) →
    t.hardwareOffline = s.hardwareOffline

theorem grows_same {s t : WorkLoop} (a : Action) (hqueue : t.requestQueue = s.requestQueue)
    (hsubmitted : t.submitted = s.submitted) (hlog : ∀ e ∈ s.log, e ∈ t.log)
    (hoffline : t.hardwareOffline = s.hardwareOffline) : Grows a s t where
  queue _ hq := .inl (hqueue ▸ hq)
  submitted := hsubmitted.ge
  log := hlog
  hardwareOffline _ := hoffline

theorem grows_transferQueue {s t : WorkLoop} (a : Action) (hsubmitted : s.submitted ≤ t.submitted)
    (hlog : t.log = s.log) (hoffline : t.hardwareOffline = s.hardwareOffline) :
    Grows a s t.transferQueue where
  queue _ hq := by simp [WorkLoop.transferQueue] at hq
  submitted := hsubmitted
  log _ he := hlog ▸ he
  hardwareOffline _ := hoffline

theorem grows_advance {s t : WorkLoop} (ht : s.advance = some t) : Grows .advance s t := by
  unfold WorkLoop.advance at ht
  split at ht
  next r rest hs =>
    cases ht
    exact grows_same _ rfl rfl (fun _ he => List.mem_append_left _ he) rfl
  next rest hs =>
    cases ht
    exact grows_same _ rfl rfl (fun _ he => he) rfl
  next r localQueue rest hs =>
    cases ht
    exact grows_same _ rfl rfl (fun _ he => List.mem_append_left _ he) rfl
  next i f rest hs =>
    cases ht
    unfold WorkLoop.advanceRequest
    split
    · exact grows_same _ rfl rfl (fun _ he => List.mem_append_left _ he) rfl
    · dsimp only
      split <;> exact grows_same _ rfl rfl (fun _ he => List.mem_append_left _ he) rfl
  next r i f rest hs =>
    split at ht
    · cases ht
      exact grows_same _ rfl rfl (fun _ he => he) rfl
    · cases ht
  next => cases ht

theorem Grows.dispatch {s u : WorkLoop} {a : Action} (h : Grows a s u) (d : PS2DeviceType)
    (b : PortByte) : Grows a s (u.dispatchDriverInterrupt d b) := by
  obtain ⟨stack, dispatched, heq, -⟩ := WorkLoop.dispatchDriverInterrupt_eq u d b
  rw [heq]
  exact ⟨h.queue, h.submitted, h.log, h.hardwareOffline⟩

theorem Grows.readByte {s u : WorkLoop} {a : Action} (h : Grows a s u) (f : ReadFrame)
    (rest : List Frame) (b : PortByte) : Grows a s (u.readByte f rest b) := by
  obtain ⟨stack, dispatched, heq, -⟩ := WorkLoop.readByte_eq u b f rest
  rw [heq]
  exact ⟨h.queue, h.submitted, h.log, h.hardwareOffline⟩

theorem grows_step {s t : WorkLoop} {a : Action} (ht : s.step a = some t) : Grows a s t := by
  cases WorkLoop.stepped_of_step ht with
  | submitRequest request =>
    constructor
    · intro q hq
      rcases List.mem_append.mp hq with hold | hnew
      · exact .inl hold
      · rw [List.mem_singleton.mp hnew]
        exact .inr rfl
    · exact Nat.le_succ _
    · exact fun _ he => he
    · exact fun _ => rfl
  | runRequestQueue _ _ => exact grows_transferQueue _ le_rfl rfl rfl
  | submitRequestAndBlock request _ _ => exact grows_transferQueue _ (Nat.le_succ _) rfl rfl
  | setHardwareOffline offline _ =>
    exact ⟨fun _ hq => .inl hq, le_rfl, fun _ he => he, fun h => absurd rfl (h offline)⟩
  | dispatchQueued _ _ =>
    apply Grows.dispatch
    exact grows_same _ rfl rfl (fun _ he => he) rfl
  | dispatchMouse data _ _ =>
    apply Grows.dispatch
    exact grows_same _ rfl rfl (fun _ he => he) rfl
  | readQueue _ _ _ =>
    apply Grows.readByte
    exact grows_same _ rfl rfl (fun _ he => he) rfl
  | readPort polls stream data _ _ =>
    apply Grows.readByte
    exact grows_same _ rfl rfl (fun _ he => he) rfl
  | advance ht => exact grows_advance ht
  | _ => exact grows_same _ rfl rfl (fun _ he => he) rfl

namespace GatedCall

def Proper : GatedCall → Prop
  | .submitRequest request | .submitRequestAndBlock request => request.HasCommand
  | .setCommandByte call _ | .resumeCommandByte call _ =>
    ∀ pc request, call.request pc = some request → request.HasCommand
  | _ => True

/-- The call drains the request queue before it returns. -/
def Drains : GatedCall → Prop
  | .submitRequestAndBlock _ => True
  | .setCommandByte call pc => (call.request pc).isSome
  | _ => False

/-- The hardware goes offline behind the last call, and a call that drains the queue
follows each asynchronous request. -/
def Covered : List GatedCall → Prop
  | [] => False
  | .submitRequest _ :: calls => (∃ c ∈ calls, c.Drains) ∧ Covered calls
  | .setHardwareOffline offline :: calls => offline = true ∧ calls = []
  | _ :: calls => Covered calls

end GatedCall

namespace SleepEntry

/-- The invariant while the handlers run. -/
structure Entering (s : SleepEntry) : Prop where
  proper : ∀ c ∈ s.calls, c.Proper
  covered : GatedCall.Covered s.calls
  online : s.loop.hardwareOffline = false
  submitted : ∀ id ∈ s.requests, id < s.loop.submitted
  tracked : ∀ id ∈ s.requests, Tracked s.loop id
  queue : (∀ q ∈ s.loop.requestQueue, q.id ∉ s.requests) ∨ ∃ c ∈ s.calls, c.Drains

/-- The handlers run, or their requests have been executed. -/
def Safe (s : SleepEntry) : Prop :=
  s.Entering ∨ s.calls = [] ∧ ∀ id ∈ s.requests, Executed s.loop.log id

/-- Between two calls a request is on the queue or executed. -/
theorem tracked_gated {s : WorkLoop} {id : ℕ} (h : Tracked s id) (hs : s.stack = [.gated])
    (hqueue : ∀ q ∈ s.requestQueue, q.id ≠ id) : Executed s.log id := by
  cases h with
  | queued hr hq => exact absurd rfl (hqueue _ hq)
  | held hr hheld => simp [hs, Holds] at hheld
  | begun hr hs' => simp [hs] at hs'
  | running hf hcommand => simp [hs] at hf
  | executed h => exact h

theorem Entering.loop {s : SleepEntry} (h : s.Entering) {a : Action} (hfree : s.Free a)
    {loop : WorkLoop} (ht : s.loop.step a = some loop) :
    Entering { s with loop } := by
  have hgrows := grows_step ht
  have hcalls : s.calls ≠ [] := by
    intro hnil
    have hcovered := h.covered
    rw [hnil] at hcovered
    exact hcovered
  have ha : ∀ offline, a ≠ .setHardwareOffline offline := by
    rintro offline rfl
    exact hcalls hfree
  constructor
  · exact h.proper
  · exact h.covered
  · exact (hgrows.hardwareOffline ha).trans h.online
  · exact fun id hid => (h.submitted id hid).trans_le hgrows.submitted
  · exact fun id hid => (h.tracked id hid).step h.online ht
  · apply h.queue.imp_left
    intro hqueue q hq hid
    rcases hgrows.queue q hq with hold | hnew
    · exact hqueue q hold hid
    · have hlt := h.submitted q.id hid
      omega

/-- A handler submits a request in one of the two ways. -/
theorem Entering.submit {s t : SleepEntry} (h : s.Entering) {a : Action} {calls : List GatedCall}
    (ha : ∀ offline, a ≠ .setHardwareOffline offline) (hproper : ∀ c ∈ calls, c.Proper)
    (hcovered : GatedCall.Covered calls) (ht : s.submit a calls = some t)
    (hnew : ∀ loop, s.loop.step a = some loop → s.loop.submitted < loop.submitted ∧
      Tracked loop s.loop.submitted ∧ (loop.requestQueue = [] ∨ ∃ c ∈ calls, c.Drains)) :
    t.Entering := by
  obtain ⟨loop, hloop, rfl⟩ := Option.map_eq_some_iff.mp ht
  obtain ⟨hsubmitted, htracked, hqueue⟩ := hnew loop hloop
  have hgrows := grows_step hloop
  constructor
  · exact hproper
  · exact hcovered
  · exact (hgrows.hardwareOffline ha).trans h.online
  · intro id hid
    rcases List.mem_append.mp hid with hold | hlast
    · exact (h.submitted id hold).trans_le hgrows.submitted
    · exact List.mem_singleton.mp hlast ▸ hsubmitted
  · intro id hid
    rcases List.mem_append.mp hid with hold | hlast
    · exact (h.tracked id hold).step h.online hloop
    · exact List.mem_singleton.mp hlast ▸ htracked
  · apply hqueue.imp_left
    intro hnil q hq
    simp [hnil] at hq

theorem Entering.submitRequest {s t : SleepEntry} (h : s.Entering) {request : PS2Request}
    {calls : List GatedCall} (hr : request.HasCommand) (hproper : ∀ c ∈ calls, c.Proper)
    (hcovered : GatedCall.Covered (.submitRequest request :: calls))
    (ht : s.submit (.submitRequest request) calls = some t) : t.Entering := by
  refine h.submit (fun _ => Action.noConfusion) hproper hcovered.2 ht ?_
  intro loop hloop
  rw [WorkLoop.step, Option.some.injEq] at hloop
  subst hloop
  refine ⟨Nat.lt_succ_self _, ?_, .inr hcovered.1⟩
  exact .queued hr (List.mem_append_right _ List.mem_cons_self)

theorem Entering.submitRequestAndBlock {s t : SleepEntry} (h : s.Entering)
    (hs : s.loop.stack = [.gated]) {request : PS2Request} {calls : List GatedCall}
    (hr : request.HasCommand) (hproper : ∀ c ∈ calls, c.Proper)
    (hcovered : GatedCall.Covered calls)
    (ht : s.submit (.submitRequestAndBlock request) calls = some t) : t.Entering := by
  refine h.submit (fun _ => Action.noConfusion) hproper hcovered ht ?_
  intro loop hloop
  simp only [WorkLoop.step, hs, Option.some.injEq] at hloop
  subst hloop
  refine ⟨Nat.lt_succ_self _, ?_, .inl rfl⟩
  exact .held hr (.inl (List.mem_cons_of_mem _ List.mem_cons_self))

theorem Entering.uninstall {s : SleepEntry} (h : s.Entering) {deviceType : PS2DeviceType}
    {calls : List GatedCall} (hcalls : s.calls = .uninstallInterruptAction deviceType :: calls)
    {loop : WorkLoop} (hsame : loop.requestQueue = s.loop.requestQueue ∧
      loop.submitted = s.loop.submitted ∧ loop.hardwareOffline = s.loop.hardwareOffline)
    (hkeeps : Keeps s.loop loop) : Entering { s with loop, calls } := by
  obtain ⟨hqueue, hsubmitted, honline⟩ := hsame
  have hproper := h.proper
  have hcovered := h.covered
  have hdrained := h.queue
  rw [hcalls] at hproper hcovered hdrained
  constructor
  · exact (List.forall_mem_cons.mp hproper).2
  · exact hcovered
  · exact honline.trans h.online
  · exact fun id hid => (h.submitted id hid).trans_eq hsubmitted.symm
  · exact fun id hid => (h.tracked id hid).keeps hkeeps
  · rw [hqueue]
    apply hdrained.imp_right
    rintro ⟨c, hc, hdrains⟩
    rcases List.mem_cons.mp hc with rfl | hc
    · exact absurd hdrains id
    · exact ⟨c, hc, hdrains⟩

/-- The step lemma for the code of the handlers. -/
theorem Entering.call {s t : SleepEntry} (h : s.Entering) (hs : s.loop.stack = [.gated])
    (ht : s.call = some t) : t.Safe := by
  have hproper := h.proper
  have hcovered := h.covered
  have hqueue := h.queue
  unfold SleepEntry.call at ht
  split at ht
  next => cases ht
  next request calls hcalls =>
    rw [hcalls] at hproper hcovered
    have htail := List.forall_mem_cons.mp hproper
    exact .inl (h.submitRequest htail.1 htail.2 hcovered ht)
  next request calls hcalls =>
    rw [hcalls] at hproper hcovered
    have htail := List.forall_mem_cons.mp hproper
    exact .inl (h.submitRequestAndBlock hs htail.1 htail.2 hcovered ht)
  next call pc calls hcalls =>
    rw [hcalls] at hproper hcovered hqueue
    have htail := List.forall_mem_cons.mp hproper
    split at ht
    next hrequest =>
      cases ht
      refine .inl ⟨htail.2, hcovered, h.online, h.submitted, h.tracked, ?_⟩
      apply hqueue.imp_right
      rintro ⟨c, hc, hdrains⟩
      rcases List.mem_cons.mp hc with rfl | hc
      · simp [GatedCall.Drains, hrequest] at hdrains
      · exact ⟨c, hc, hdrains⟩
    next request hrequest =>
      have hresume : GatedCall.Covered (.resumeCommandByte call pc :: calls) := hcovered
      refine .inl (h.submitRequestAndBlock hs (htail.1 pc request hrequest) ?_ hresume ht)
      exact List.forall_mem_cons.mpr ⟨htail.1, htail.2⟩
  next => cases ht
  next calls hcalls =>
    cases ht
    exact .inl (h.uninstall hcalls ⟨rfl, rfl, rfl⟩ (keeps_stack rfl (fun _ hq => hq) rfl))
  next calls hcalls =>
    cases ht
    exact .inl (h.uninstall hcalls ⟨rfl, rfl, rfl⟩ (keeps_stack rfl (fun _ hq => hq) rfl))
  next offline calls hcalls =>
    rw [hcalls] at hcovered hqueue
    obtain ⟨rfl, rfl⟩ := hcovered
    have hnone : ∀ q ∈ s.loop.requestQueue, q.id ∉ s.requests := by
      apply hqueue.resolve_right
      rintro ⟨c, hc, hdrains⟩
      rw [List.mem_singleton.mp hc] at hdrains
      exact hdrains
    obtain ⟨loop, hloop, rfl⟩ := Option.map_eq_some_iff.mp ht
    refine .inr ⟨rfl, ?_⟩
    intro id hid
    have hexecuted : Executed s.loop.log id := by
      apply tracked_gated (h.tracked id hid) hs
      rintro q hq rfl
      exact hnone q hq hid
    exact hexecuted.mono (grows_step hloop).log

theorem Entering.resume {s : SleepEntry} (h : s.Entering) {call : SetCommandByte}
    {pc pc' : TestAndSet.Pc UInt8} {calls : List GatedCall}
    (hcalls : s.calls = .resumeCommandByte call pc :: calls) :
    Entering { s with calls := .setCommandByte call pc' :: calls } := by
  have hproper := h.proper
  have hcovered := h.covered
  have hqueue := h.queue
  rw [hcalls] at hproper hcovered hqueue
  have htail := List.forall_mem_cons.mp hproper
  refine ⟨List.forall_mem_cons.mpr ⟨htail.1, htail.2⟩, hcovered, h.online, h.submitted,
    h.tracked, ?_⟩
  apply hqueue.imp_right
  rintro ⟨c, hc, hdrains⟩
  rcases List.mem_cons.mp hc with rfl | hc
  · exact absurd hdrains id
  · exact ⟨c, List.mem_cons_of_mem _ hc, hdrains⟩

theorem Safe.step {s t : SleepEntry} {a : SleepAction} (h : s.Safe) (ht : s.step a = some t) :
    t.Safe := by
  cases a with
  | loop a =>
    simp only [SleepEntry.step, Option.ite_none_right_eq_some, Option.map_eq_some_iff] at ht
    obtain ⟨hfree, loop, hloop, rfl⟩ := ht
    rcases h with hentering | ⟨hcalls, hexecuted⟩
    · exact .inl (hentering.loop hfree hloop)
    · exact .inr ⟨hcalls, fun id hid => (hexecuted id hid).mono (grows_step hloop).log⟩
  | call =>
    simp only [SleepEntry.step, Option.ite_none_right_eq_some] at ht
    rcases h with hentering | ⟨hcalls, -⟩
    · exact hentering.call ht.1 ht.2
    · simp [SleepEntry.call, hcalls] at ht
  | resume request =>
    simp only [SleepEntry.step] at ht
    split at ht
    next call pc calls hcalls =>
      simp only [Option.ite_none_right_eq_some, Option.some.injEq] at ht
      obtain ⟨-, rfl⟩ := ht
      rcases h with hentering | ⟨hnil, -⟩
      · exact .inl (hentering.resume hcalls)
      · simp [hcalls] at hnil
    next => cases ht

end SleepEntry

/-- The driver disables its device by a request that it waits for. -/
def PointerDriver.Synchronous (d : PointerDriver) : Prop := d = .mouse ∨ d = .synapticsTouchPad

/-- The last call to submit a request drains the queue, or there is none. -/
def PowerControlActions.Drained (c : PowerControlActions) : Prop :=
  c.keyboard = true ∨ ∀ d, c.mouse = some d → d.Synchronous

theorem tryLoop_hasCommand (setBits clearBits : UInt8) (pc : TestAndSet.Pc UInt8)
    (request : PS2Request)
    (h : (SetCommandByte.tryLoop setBits clearBits).request pc = some request) :
    request.HasCommand := by
  cases pc with
  | read =>
    cases h
    exact ⟨by decide, List.cons_ne_nil _ _⟩
  | testAndSet old =>
    cases h
    exact ⟨Nat.succ_pos _, List.cons_ne_nil _ _⟩
  | returned => cases h

theorem PointerDriver.proper (d : PointerDriver) : ∀ c ∈ d.disableDevice, c.Proper := by
  cases d with
  | _ =>
    intro c hc
    rw [List.mem_singleton.mp hc]
    exact ⟨by decide, List.cons_ne_nil _ _⟩

theorem ApplePS2Keyboard.proper : ∀ c ∈ ApplePS2Keyboard.disableDevice, c.Proper := by
  intro c hc
  simp only [ApplePS2Keyboard.disableDevice, List.mem_cons, List.not_mem_nil, or_false] at hc
  rcases hc with rfl | rfl | rfl
  · exact ⟨by decide, List.cons_ne_nil _ _⟩
  · exact tryLoop_hasCommand _ _
  · trivial

theorem PowerControlActions.proper (c : PowerControlActions) :
    ∀ call ∈ c.disableDevices ++ [.setHardwareOffline true], call.Proper := by
  intro call hcall
  rcases List.mem_append.mp hcall with hcall | hlast
  · rcases List.mem_append.mp hcall with hmouse | hkeyboard
    · cases hm : c.mouse with
      | none => simp [hm] at hmouse
      | some d =>
        rw [hm] at hmouse
        exact d.proper call hmouse
    · split at hkeyboard
      · exact ApplePS2Keyboard.proper call hkeyboard
      · cases hkeyboard
  · rw [List.mem_singleton.mp hlast]
    trivial

theorem PowerControlActions.covered {c : PowerControlActions} (h : c.Drained) :
    GatedCall.Covered (c.disableDevices ++ [.setHardwareOffline true]) := by
  obtain ⟨mouse, keyboard⟩ := c
  have hread : (GatedCall.setCommandByte (ApplePS2Keyboard.setCommandByte
    kCBDisableKeyboardClock kCBEnableKeyboardIRQ) .read).Drains := rfl
  cases keyboard with
  | true =>
    rcases mouse with - | - | - | - | - <;>
      simp [disableDevices, PointerDriver.disableDevice, ApplePS2Keyboard.disableDevice,
        GatedCall.Covered, hread]
  | false =>
    have hsync := h.resolve_left Bool.false_ne_true
    rcases mouse with - | d
    · exact ⟨rfl, rfl⟩
    · rcases hsync d rfl with rfl | rfl <;> exact ⟨rfl, rfl⟩

namespace SleepEntry

theorem enter_entering {loop : WorkLoop} (honline : loop.hardwareOffline = false)
    {c : PowerControlActions} (h : c.Drained) : (enter loop c).Entering where
  proper := c.proper
  covered := c.covered h
  online := honline
  submitted _ hid := absurd hid List.not_mem_nil
  tracked _ hid := absurd hid List.not_mem_nil
  queue := .inl fun _ _ => List.not_mem_nil

/-- An asynchronous request that nothing drains is left on the queue. -/
theorem asynchronous_not_executed {loop : WorkLoop} (hs : loop.stack = [.gated])
    (hfresh : ∀ id i, .command id i ∈ loop.log → id < loop.submitted) {c : PowerControlActions}
    {request : PS2Request} (hcalls : c.disableDevices = [.submitRequest request]) :
    ∃ t, run step (enter loop c) [.call, .call] = some t ∧ t.loop.hardwareOffline = true ∧
      ∃ id ∈ t.requests, ¬ Executed t.loop.log id := by
  refine ⟨⟨{ loop with
    requestQueue := loop.requestQueue ++ [⟨loop.submitted, request⟩]
    submitted := loop.submitted + 1
    signalsOwed := loop.signalsOwed + 1
    hardwareOffline := true }, [], [loop.submitted]⟩, ?_, rfl, loop.submitted,
    List.mem_cons_self, ?_⟩
  · simp [run, step, enter, hs, hcalls, SleepEntry.call, submit, WorkLoop.step]
  · intro hexecuted
    have hlt := hfresh _ _ hexecuted.1
    omega

/-- Whatever is on the queue and whatever the devices and other threads do, the handlers'
requests are executed before the hardware is offline exactly if the last one to submit drains
the queue. -/
theorem executed_iff {loop : WorkLoop} (hs : loop.stack = [.gated])
    (honline : loop.hardwareOffline = false)
    (hfresh : ∀ id i, .command id i ∈ loop.log → id < loop.submitted) (c : PowerControlActions) :
    (∀ as t, run step (enter loop c) as = some t → t.loop.hardwareOffline = true →
      ∀ id ∈ t.requests, Executed t.loop.log id) ↔ c.Drained := by
  constructor
  · intro h
    obtain ⟨mouse, keyboard⟩ := c
    by_contra hnot
    obtain ⟨hkeyboard, hmouse⟩ := not_or.mp hnot
    have hfail {request : PS2Request}
        (hcalls : PowerControlActions.disableDevices ⟨mouse, keyboard⟩ =
          [.submitRequest request]) : False := by
      obtain ⟨t, hrun, hoffline, id, hid, hlost⟩ := asynchronous_not_executed hs hfresh hcalls
      exact hlost (h _ t hrun hoffline id hid)
    rw [Bool.not_eq_true] at hkeyboard
    simp only at hkeyboard
    subst hkeyboard
    rcases mouse with - | - | - | - | -
    · exact hmouse fun d hd => by cases hd
    · exact hmouse fun d hd => .inl (Option.some.inj hd).symm
    · exact hmouse fun d hd => .inr (Option.some.inj hd).symm
    · exact hfail rfl
    · exact hfail rfl
  · intro h as t hrun hoffline id hid
    have hsafe : t.Safe := by
      have hstep : ∀ s a u, Safe s → step s a = some u → Safe u := fun _ _ _ hs hu => hs.step hu
      exact run_invariant hstep (.inl (enter_entering honline h)) hrun
    rcases hsafe with hentering | ⟨-, hexecuted⟩
    · rw [hentering.online] at hoffline
      cases hoffline
    · exact hexecuted id hid

/-- The work loop that has just called `setPowerStateGated`. -/
def gatedLoop : WorkLoop := { WorkLoop.initial with stack := [.gated] }

theorem alpsWithKeyboard_executed_iff :
    (∀ as t, run step (enter gatedLoop ⟨some .alpsGlidePoint, true⟩) as = some t →
      t.loop.hardwareOffline = true → ∀ id ∈ t.requests, Executed t.loop.log id) ↔
    PowerControlActions.Drained ⟨some .alpsGlidePoint, true⟩ :=
  executed_iff rfl rfl (fun _ _ h => absurd h List.not_mem_nil) _

/-- The touchpad alone: its request is left on the queue and fails when the work loop gets
to it. -/
def alpsAlone : List SleepAction :=
  [.call, .call, .loop .signalQueue, .loop .handlerReturn, .loop .runRequestQueue, .loop .advance,
    .loop .advance, .loop .advance]

theorem alpsAlone_not_executed :
    ∃ t, run step (enter gatedLoop ⟨some .alpsGlidePoint, false⟩) alpsAlone = some t ∧
      t.loop.hardwareOffline = true ∧ t.requests = [0] ∧
      t.loop.log = [.begin 0, .complete 0 0] ∧ ¬ Executed t.loop.log 0 := by
  refine ⟨_, rfl, rfl, rfl, rfl, ?_⟩
  rintro ⟨hcommand, -⟩
  revert hcommand
  decide

end SleepEntry
end PS2
