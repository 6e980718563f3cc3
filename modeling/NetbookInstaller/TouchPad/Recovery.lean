import NetbookInstaller.PS2.CommandByte
import NetbookInstaller.PS2.PowerState
import NetbookInstaller.TouchPad.PacketStream

/-! The recovery that the touchpad driver starts from its interrupt handler, and the bytes
that `readDataPort` dispatches to the same handler while the recovery waits for its own
requests. -/
namespace TouchPad

open PS2 Transition

def kDPSetMouseScaling1To1 : UInt8 := 0xE6
def kDPSetMouseResolution : UInt8 := 0xE8
def kDPSetMouseSampleRate : UInt8 := 0xF3

/-! The driver's requests. -/

def setTouchPadEnable (enable : Bool) : PS2Request := .ofCommands
  [⟨.sendMouseCommandAndCompareAck, if enable then kDPEnable else kDPSetDefaultsAndDisable⟩]

def setTouchPadModeByte (modeByteValue : UInt8) (enableStreamMode : Bool) : PS2Request :=
  .ofCommands <|
    [kDPSetDefaultsAndDisable,
      kDPSetMouseResolution, (modeByteValue >>> 6) &&& 0x3,
      kDPSetMouseResolution, (modeByteValue >>> 4) &&& 0x3,
      kDPSetMouseResolution, (modeByteValue >>> 2) &&& 0x3,
      kDPSetMouseResolution, (modeByteValue >>> 0) &&& 0x3,
      kDPSetMouseSampleRate, 20,
      if enableStreamMode then kDPEnable else kDPSetMouseScaling1To1].map
    fun inOrOut => ⟨.sendMouseCommandAndCompareAck, inOrOut⟩

/-- The call that `setDevicePowerState(kPS2C_EnableDevice)` is in. -/
inductive RecoveryStage where
  | modeByte
  | commandByte (pc : TestAndSet.Pc UInt8)
  | enable
  deriving DecidableEq, Repr

/-- A recovery in `submitRequestAndBlock`: `processRequest` has got to `process`, and to
the requests of `waiting` next, of which the last is the recovery's own. `read` is the
`readDataPort` call of a command, if the command is in one. -/
structure Recovery where
  stage : RecoveryStage
  waiting : List PS2Request
  process : ProcessFrame
  read : Option (PS2Command × ReadResult)
  deriving DecidableEq, Repr

/-- `submitRequestAndBlock` in the gate: the queued requests are processed first. -/
def Recovery.submit (stage : RecoveryStage) (own : PS2Request) : List PS2Request → Recovery
  | [] => ⟨stage, [], .enter own false, none⟩
  | request :: queue => ⟨stage, queue ++ [own], .enter request false, none⟩

/-- What happens during the handling of a byte. A byte is read off the port, or the
`readDataPort` call runs out of time; `proceed` is a command up to its read or behind it,
or the step to the next request; another thread submits a request. -/
inductive RecoveryEvent where
  | byte (b : PortByte) (m : Moment)
  | timeout
  | proceed
  | submitRequest (request : PS2Request)
  deriving DecidableEq, Repr

/-- `stack` are the recoveries that have not returned, the innermost one first;
`recoveries` counts the calls. -/
structure RecoveryState (D : Type) where
  core : PacketStream D
  requestQueue : List PS2Request
  stack : List Recovery
  recoveries : ℕ

namespace RecoveryState

variable {D : Type} [Double D]

/-- `setDevicePowerState(kPS2C_EnableDevice)` up to its first request. -/
def recover (s : RecoveryState D) : RecoveryState D :=
  { s with
    requestQueue := []
    stack := .submit .modeByte (setTouchPadModeByte s.core.touchPadModeByte false)
      s.requestQueue :: s.stack
    recoveries := s.recoveries + 1 }

/-- The driver's interrupt handler; a device reset has yet to change the driver. -/
def interruptOccurred (s : RecoveryState D) (data : UInt8) (m : Moment) : RecoveryState D :=
  match s.core.interruptOccurred data m with
  | (_, .deviceReset) => s.recover
  | (core, _) => { s with core }

/-- `dispatchDriverInterrupt`. What the keyboard's bytes do to its driver is left out. -/
def dispatch (s : RecoveryState D) (m : Moment) :
    Option (PS2DeviceType × PortByte) → RecoveryState D
  | some (.mouse, b) => s.interruptOccurred b.data m
  | _ => s

/-- The recovery's next request is submitted. -/
def submit (s : RecoveryState D) (stage : RecoveryStage) (request : PS2Request)
    (fs : List Recovery) : RecoveryState D :=
  { s with requestQueue := [], stack := .submit stage request s.requestQueue :: fs }

/-- `setCommandByte(kCB_EnableMouseIRQ, kCB_DisableMouseClock)`, and the statements behind
it when it has returned. -/
def setCommandByte (s : RecoveryState D) (pc : TestAndSet.Pc UInt8) (fs : List Recovery) :
    RecoveryState D :=
  match (ApplePS2SynapticsTouchPad.setCommandByte kCBEnableMouseIRQ kCBDisableMouseClock).request
    pc with
  | some request => s.submit (.commandByte pc) request fs
  | none =>
    { s with core := s.core.setDevicePowerState .enableDevice }.submit .enable
      (setTouchPadEnable true) fs

/-- A recovery goes on when a request of its own has completed. -/
def resume (s : RecoveryState D) (stage : RecoveryStage) (request : PS2Request)
    (fs : List Recovery) : RecoveryState D :=
  match stage with
  | .modeByte => s.setCommandByte .read fs
  | .commandByte pc =>
    s.setCommandByte
      ((ApplePS2SynapticsTouchPad.setCommandByte kCBEnableMouseIRQ kCBDisableMouseClock).resume
        pc request) fs
  | .enable => { s with stack := fs }

/-- The innermost recovery, outside of a `readDataPort` call. -/
def advance (s : RecoveryState D) (f : Recovery) (fs : List Recovery) : RecoveryState D :=
  match f.process.current with
  | some c =>
    let start := f.process.start c
    { s with
      stack :=
        { f with
          process := { f.process with
            index := if start.read.isNone then f.process.index + 1 else f.process.index
            deviceMode := start.deviceMode
            transmitToMouse := start.transmitToMouse }
          read := start.read.map fun frame => (c, .again frame) } :: fs }
  | none =>
    match f.waiting with
    | request :: waiting =>
      { s with stack := { f with waiting, process := .enter request false } :: fs }
    | [] => s.resume f.stage f.process.complete fs

/-- Nothing happens once the last recovery has returned. -/
def step (s : RecoveryState D) (e : RecoveryEvent) : Option (RecoveryState D) :=
  match s.stack with
  | [] => none
  | f :: fs =>
    match e, f.read with
    | .byte b m, some (c, .again frame) =>
      let pass := frame.onByte b
      some ({ s with stack := { f with read := some (c, pass.result) } :: fs }.dispatch m
        pass.dispatched)
    | .timeout, some (c, .again frame) =>
      some { s with stack := { f with read := some (c, .timedOut frame.firstByte) } :: fs }
    | .proceed, none => some (s.advance f fs)
    | .proceed, some (c, result) =>
      result.value.map fun byte =>
        { s with stack := { f with process := f.process.finish c byte, read := none } :: fs }
    | .submitRequest request, _ => some { s with requestQueue := s.requestQueue ++ [request] }
    | _, _ => none

/-- The driver when the controller has dispatched a byte to it. -/
def handle (core : PacketStream D) (requestQueue : List PS2Request) (data : UInt8) (m : Moment) :
    RecoveryState D :=
  interruptOccurred ⟨core, requestQueue, [], 0⟩ data m

/-- The driver takes the byte for a sign of a brown out. -/
def BrownOut (core : PacketStream D) (data : UInt8) : Prop :=
  core.packetByteCount = 0 ∧ data ≠ kSCAcknowledge ∧ core.absoluteMode = true ∧ data &&& 0x08 ≠ 0

instance (core : PacketStream D) (data : UInt8) : Decidable (BrownOut core data) :=
  inferInstanceAs (Decidable (_ ∧ _ ∧ _ ∧ _))

/-- What the innermost `readDataPort` call dispatches when it reads `b`. -/
def dispatched (s : RecoveryState D) (b : PortByte) : Option (PS2DeviceType × PortByte) :=
  match s.stack with
  | [] => none
  | f :: _ =>
    match f.read with
    | some (_, .again frame) => (frame.onByte b).dispatched
    | _ => none

/-- No byte that the event dispatches to the driver is taken for a sign of a brown out. -/
def Harmless (s : RecoveryState D) : RecoveryEvent → Prop
  | .byte b _ => ∀ d ∈ s.dispatched b, d.1 = .mouse → ¬ BrownOut s.core d.2.data
  | _ => True

instance (s : RecoveryState D) : ∀ e, Decidable (s.Harmless e)
  | .byte _ _ => inferInstanceAs (Decidable (∀ _ ∈ _, _ → _))
  | .timeout | .proceed | .submitRequest _ => .isTrue trivial

end RecoveryState

/-! How many events a recovery takes. Each command takes at most four: one up to its read,
two bytes of its own stream, and one behind the read. -/

def requestEvents (request : PS2Request) : ℕ := 4 * request.commandsCount + 1

/-- The requests that a stage has left behind the one that it waits for. -/
def RecoveryStage.events : RecoveryStage → ℕ
  | .modeByte => 31
  | .commandByte .read => 22
  | .commandByte _ => 5
  | .enable => 0

/-- A failed test-and-set makes the stage begin again. -/
def RecoveryStage.retry (stage : RecoveryStage) (completed : PS2Request) : ℕ :=
  match stage with
  | .commandByte (.testAndSet _) => if completed.commandsCount ≠ 4 then 26 else 0
  | _ => 0

def readEvents : ReadResult → ℕ
  | .again frame => if frame.firstByte.isNone then 3 else 2
  | _ => 1

def processEvents (f : ProcessFrame) : Option (PS2Command × ReadResult) → ℕ
  | some (_, result) => 4 * (f.request.commandsCount - (f.index + 1)) + 1 + readEvents result
  | none =>
    if f.current.isNone then 1 else 4 * (f.request.commandsCount - (f.index + 1)) + 5

def queueEvents (queue : List PS2Request) : ℕ := (queue.map requestEvents).sum

def Recovery.events (f : Recovery) : ℕ :=
  processEvents f.process f.read + queueEvents f.waiting + f.stage.events

namespace RecoveryState

variable {D : Type} [Double D]

def events (s : RecoveryState D) : ℕ :=
  (s.stack.map Recovery.events).sum + queueEvents s.requestQueue

/-- What an event adds that is not the touchpad's doing: a byte of the stream that nothing
is read from, a failed test-and-set of the command byte, and another thread's request. -/
def outside (s : RecoveryState D) : RecoveryEvent → ℕ
  | .byte b _ =>
    match s.stack with
    | ⟨_, _, _, some (_, .again frame)⟩ :: _ => if b.stream = frame.deviceType then 0 else 1
    | _ => 0
  | .timeout => 0
  | .proceed =>
    match s.stack with
    | ⟨stage, [], process, none⟩ :: _ =>
      if process.current.isNone then stage.retry process.complete else 0
    | _ => 0
  | .submitRequest request => requestEvents request + 1

theorem deviceReset_iff {core : PacketStream D} {data : UInt8} {m : Moment} :
    (core.interruptOccurred data m).2 = .deviceReset ↔ BrownOut core data := by
  have hstore : (core.storeByte data m).2 ≠ .deviceReset := by
    unfold PacketStream.storeByte
    extract_lets s p
    split
    · split <;> exact Interrupt.noConfusion
    · split
      · split <;> exact Interrupt.noConfusion
      · exact Interrupt.noConfusion
  unfold PacketStream.interruptOccurred BrownOut
  by_cases hcount : core.packetByteCount = 0
  · by_cases hack : data = kSCAcknowledge
    · simp [hcount, hack]
    · cases hmode : core.absoluteMode with
      | false =>
        by_cases hbit : data &&& 0x08 = 0 <;> simp [hcount, hack, hbit, hstore]
      | true =>
        by_cases hbit : data &&& 0x08 = 0 <;> simp [hcount, hack, hbit, hstore]
  · simp [hcount, hstore]

theorem interruptOccurred_cases (s : RecoveryState D) (data : UInt8) (m : Moment) :
    BrownOut s.core data ∧ s.interruptOccurred data m = s.recover ∨
      ¬ BrownOut s.core data ∧ ∃ core, s.interruptOccurred data m = { s with core } := by
  rw [← deviceReset_iff (m := m)]
  unfold interruptOccurred
  obtain ⟨core, i⟩ := s.core.interruptOccurred data m
  cases i with
  | deviceReset => exact .inl ⟨rfl, rfl⟩
  | _ => exact .inr ⟨Interrupt.noConfusion, core, rfl⟩

end RecoveryState

theorem processEvents_none (f : ProcessFrame) :
    processEvents f none ≤ 4 * (f.request.commandsCount - f.index) + 1 := by
  show (if f.current.isNone then 1 else 4 * (f.request.commandsCount - (f.index + 1)) + 5) ≤ _
  split
  · exact Nat.le_add_left ..
  · next h =>
    have hlt : f.index < f.request.commandsCount := by
      by_contra hge
      exact h (by simp [ProcessFrame.current, hge])
    omega

theorem enter_events (request : PS2Request) :
    processEvents (.enter request false) none ≤ requestEvents request := processEvents_none _

theorem submit_events (stage : RecoveryStage) (own : PS2Request) (queue : List PS2Request) :
    (Recovery.submit stage own queue).events ≤
      queueEvents queue + requestEvents own + stage.events := by
  cases queue with
  | nil =>
    have h := enter_events own
    simp only [Recovery.submit, Recovery.events, queueEvents, List.map_nil, List.sum_nil]
    omega
  | cons request queue =>
    have h := enter_events request
    simp only [Recovery.submit, Recovery.events, queueEvents, List.map_cons, List.sum_cons,
      List.map_append, List.sum_append, List.map_nil, List.sum_nil]
    omega

/-- A byte of the stream that the call reads brings it nearer to its end. -/
theorem onByte_events (frame : ReadFrame) (b : PortByte) :
    readEvents (frame.onByte b).result + 1 ≤
      readEvents (.again frame) + if b.stream = frame.deviceType then 0 else 1 := by
  obtain ⟨deviceType, expectedByte, firstByte, timeoutCounter⟩ := frame
  unfold ReadFrame.onByte
  by_cases hstream : b.stream = deviceType
  · rw [if_pos hstream, if_pos hstream]
    cases expectedByte with
    | none => cases firstByte <;> simp [readEvents]
    | some e =>
      by_cases hdata : b.data = e
      · cases firstByte <;> simp [readEvents, hdata]
      · cases firstByte <;> simp [readEvents, hdata]
  · rw [if_neg hstream, if_neg hstream]

/-- A command that is over leaves the commands behind it. -/
theorem finish_events (f : ProcessFrame) (c : PS2Command) (byte : UInt8) :
    processEvents (f.finish c byte) none ≤ 4 * (f.request.commandsCount - (f.index + 1)) + 1 := by
  have hfailed : processEvents { f with failed := true } none = 1 := by
    simp [processEvents, ProcessFrame.current]
  unfold ProcessFrame.finish
  split
  · exact processEvents_none _
  · split
    · exact processEvents_none _
    · omega
  · split
    · exact processEvents_none _
    · omega
  · exact processEvents_none _

namespace RecoveryState

variable {D : Type} {s t : RecoveryState D}

theorem recover_events (s : RecoveryState D) : s.recover.events ≤ s.events + 80 := by
  have h := submit_events .modeByte (setTouchPadModeByte s.core.touchPadModeByte false)
    s.requestQueue
  have hown : requestEvents (setTouchPadModeByte s.core.touchPadModeByte false) = 49 := rfl
  have hstage : RecoveryStage.modeByte.events = 31 := rfl
  simp only [recover, events, queueEvents, List.map_cons, List.sum_cons, List.map_nil,
    List.sum_nil] at *
  omega

theorem submit_events_le (s : RecoveryState D) (stage : RecoveryStage) (request : PS2Request)
    (fs : List Recovery) :
    (s.submit stage request fs).events ≤
      (fs.map Recovery.events).sum + queueEvents s.requestQueue + requestEvents request +
        stage.events := by
  have h := TouchPad.submit_events stage request s.requestQueue
  simp only [submit, events, queueEvents, List.map_cons, List.sum_cons, List.map_nil,
    List.sum_nil] at *
  omega

/-- What is left of the recovery when its `setCommandByte` goes on. -/
theorem setCommandByte_events (s : RecoveryState D) (pc : TestAndSet.Pc UInt8)
    (fs : List Recovery) : (s.setCommandByte pc fs).events ≤
      (fs.map Recovery.events).sum + queueEvents s.requestQueue +
        match pc with
        | .read => 31
        | .testAndSet _ => 22
        | .returned => 5 := by
  unfold setCommandByte
  cases pc with
  | read => exact submit_events_le ..
  | testAndSet commandByte => exact submit_events_le ..
  | returned =>
    exact submit_events_le { s with core := s.core.setDevicePowerState .enableDevice } .enable
      (setTouchPadEnable true) fs

/-- The last request of a stage completes. -/
theorem resume_events (s : RecoveryState D) (stage : RecoveryStage) (request : PS2Request)
    (fs : List Recovery) :
    (s.resume stage request fs).events ≤
      (fs.map Recovery.events).sum + queueEvents s.requestQueue + stage.events +
        stage.retry request := by
  cases stage with
  | modeByte => exact setCommandByte_events ..
  | enable => exact Nat.le_refl _
  | commandByte pc =>
    have h := s.setCommandByte_events
      ((ApplePS2SynapticsTouchPad.setCommandByte kCBEnableMouseIRQ kCBDisableMouseClock).resume
        pc request) fs
    cases pc with
    | read => exact h
    | returned => exact h
    | testAndSet commandByte =>
      have hresume : (ApplePS2SynapticsTouchPad.setCommandByte kCBEnableMouseIRQ
          kCBDisableMouseClock).resume (.testAndSet commandByte) request =
        if request.commandsCount ≠ 4 then .read else .returned := rfl
      refine h.trans ?_
      rw [hresume, RecoveryStage.retry]
      by_cases hcount : request.commandsCount ≠ 4
      · rw [if_pos hcount, if_pos hcount]
        exact (Nat.add_assoc _ 5 26).ge
      · rw [if_neg hcount, if_neg hcount]
        exact Nat.le_refl _

theorem start_read {f : ProcessFrame} {c : PS2Command} {frame : ReadFrame}
    (h : (f.start c).read = some frame) : frame.firstByte = none := by
  unfold ProcessFrame.start at h
  split at h <;> simp only [Option.some.injEq, reduceCtorEq] at h <;> exact h ▸ rfl

theorem advance_events {f : Recovery} {fs : List Recovery} (hstack : s.stack = f :: fs)
    (hread : f.read = none) :
    (s.advance f fs).events + 1 ≤ s.events + s.outside .proceed := by
  obtain ⟨stage, waiting, process, read⟩ := f
  simp only at hread
  subst hread
  unfold advance
  cases hcurrent : process.current with
  | some c =>
    cases hstart : (process.start c).read with
    | some frame =>
      have hheld := start_read hstart
      simp only [events, hstack, List.map_cons, List.sum_cons, Recovery.events, processEvents,
        hcurrent, hstart, Option.map_some, Option.isNone_some, Bool.false_eq_true, if_false,
        readEvents, hheld, Option.isNone_none, if_true]
      omega
    | none =>
      have hnext := processEvents_none { process with
        index := process.index + 1
        deviceMode := (process.start c).deviceMode
        transmitToMouse := (process.start c).transmitToMouse }
      simp only [events, hstack, List.map_cons, List.sum_cons, Recovery.events,
        hstart, Option.map_none, Option.isNone_none, if_true] at *
      have hbefore : processEvents process none =
          4 * (process.request.commandsCount - (process.index + 1)) + 5 := by
        simp [processEvents, hcurrent]
      omega
  | none =>
    have hbefore : processEvents process none = 1 := by simp [processEvents, hcurrent]
    cases waiting with
    | cons request waiting =>
      have h := enter_events request
      simp only [events, hstack, List.map_cons, List.sum_cons, Recovery.events, queueEvents,
        hbefore] at *
      omega
    | nil =>
      have h := s.resume_events stage process.complete fs
      have houtside : s.outside .proceed = stage.retry process.complete := by
        simp [outside, hstack, hcurrent]
      rw [houtside]
      simp only [events, hstack, List.map_cons, List.sum_cons, Recovery.events, hbefore] at *
      have hwaiting : queueEvents [] = 0 := rfl
      omega

theorem setCommandByte_kept (s : RecoveryState D) (pc : TestAndSet.Pc UInt8) (fs : List Recovery) :
    (s.setCommandByte pc fs).recoveries = s.recoveries ∧
      (s.setCommandByte pc fs).stack.length = fs.length + 1 := by
  unfold setCommandByte
  split <;> exact ⟨rfl, rfl⟩

/-- A recovery that goes on starts no other one. -/
theorem advance_kept (s : RecoveryState D) (f : Recovery) (fs : List Recovery) :
    (s.advance f fs).recoveries = s.recoveries ∧ (s.advance f fs).stack.length ≤ fs.length + 1 := by
  unfold advance
  split
  · exact ⟨rfl, Nat.le_refl _⟩
  · split
    · exact ⟨rfl, Nat.le_refl _⟩
    · unfold resume
      split
      · exact ⟨(s.setCommandByte_kept ..).1, (s.setCommandByte_kept ..).2.le⟩
      · exact ⟨(s.setCommandByte_kept ..).1, (s.setCommandByte_kept ..).2.le⟩
      · exact ⟨rfl, Nat.le_succ _⟩

variable [Double D]

theorem dispatch_events (s : RecoveryState D) (m : Moment)
    (d : Option (PS2DeviceType × PortByte)) :
    (s.dispatch m d).events + 80 * s.recoveries ≤ s.events + 80 * (s.dispatch m d).recoveries := by
  unfold dispatch
  split
  · next b =>
    rcases s.interruptOccurred_cases b.data m with ⟨-, heq⟩ | ⟨-, core, heq⟩
    · have h := s.recover_events
      have hcount : s.recover.recoveries = s.recoveries + 1 := rfl
      rw [heq]
      omega
    · rw [heq]
      exact Nat.le_refl _
  · exact Nat.le_refl _

/-- One event. -/
theorem step_events {e : RecoveryEvent} (h : s.step e = some t) :
    t.events + 80 * s.recoveries + 1 ≤ s.events + 80 * t.recoveries + s.outside e := by
  obtain ⟨core, requestQueue, stack, recoveries⟩ := s
  unfold step at h
  cases stack with
  | nil => cases h
  | cons f fs =>
    obtain ⟨stage, waiting, process, read⟩ := f
    dsimp only at h
    split at h
    next b m c frame =>
      rw [Option.some.injEq] at h
      subst h
      have hdispatch := dispatch_events ⟨core, requestQueue,
        ⟨stage, waiting, process, some (c, (frame.onByte b).result)⟩ :: fs, recoveries⟩ m
        (frame.onByte b).dispatched
      have hread := onByte_events frame b
      simp only [events, List.map_cons, List.sum_cons, Recovery.events, processEvents,
        outside] at *
      omega
    next c frame =>
      rw [Option.some.injEq] at h
      subst h
      have hread : 2 ≤ readEvents (.again frame) := by
        unfold readEvents
        dsimp only
        split <;> omega
      have htimeout : readEvents (.timedOut frame.firstByte) = 1 := rfl
      simp only [events, List.map_cons, List.sum_cons, Recovery.events, processEvents]
      omega
    next =>
      rw [Option.some.injEq] at h
      subst h
      have hadvance : (advance ⟨core, requestQueue, ⟨stage, waiting, process, none⟩ :: fs,
          recoveries⟩ ⟨stage, waiting, process, none⟩ fs).events + 1 ≤ _ :=
        advance_events rfl rfl
      have hkept := (advance_kept ⟨core, requestQueue, ⟨stage, waiting, process, none⟩ :: fs,
        recoveries⟩ ⟨stage, waiting, process, none⟩ fs).1
      dsimp only at hkept
      rw [hkept]
      dsimp only
      omega
    next c result =>
      obtain ⟨byte, hbyte, rfl⟩ := Option.map_eq_some_iff.mp h
      have hread : readEvents result = 1 := by
        cases result with
        | again => cases hbyte
        | _ => rfl
      have hfinish := finish_events process c byte
      simp only [events, List.map_cons, List.sum_cons, Recovery.events] at *
      have hbefore : processEvents process (some (c, result)) =
        4 * (process.request.commandsCount - (process.index + 1)) + 1 + readEvents result := rfl
      omega
    next request =>
      rw [Option.some.injEq] at h
      subst h
      simp only [events, queueEvents, List.map_append, List.sum_append, List.map_cons,
        List.map_nil, List.sum_cons, List.sum_nil, outside]
      omega
    next => cases h

/-- Each recovery takes at most 80 events, apart from what the touchpad has no part in. -/
theorem run_events {es : List RecoveryEvent} (h : run step s es = some t) :
    t.events + es.length + 80 * s.recoveries ≤
      s.events + 80 * t.recoveries + total step outside s es := by
  have hpotential (u : RecoveryState D) (e : RecoveryEvent) (v : RecoveryState D)
      (hv : step u e = some v) :
      ((v.events : ℤ) - 80 * v.recoveries) + 1 ≤ ((u.events : ℤ) - 80 * u.recoveries) +
        outside u e := by
    have hstep := step_events hv
    omega
  have hrun := run_potential hpotential h
  omega

/-- Without a sign of a brown out no event starts a recovery. -/
theorem step_harmless {e : RecoveryEvent} (h : s.step e = some t) (hharmless : s.Harmless e) :
    t.recoveries = s.recoveries ∧ t.stack.length ≤ s.stack.length := by
  obtain ⟨core, requestQueue, stack, recoveries⟩ := s
  unfold step at h
  cases stack with
  | nil => cases h
  | cons f fs =>
    obtain ⟨stage, waiting, process, read⟩ := f
    dsimp only at h
    split at h
    next b m c frame =>
      rw [Option.some.injEq] at h
      subst h
      unfold dispatch
      split
      next p hp =>
        have hcalm : ¬ BrownOut core p.data := hharmless (.mouse, p) hp rfl
        rcases interruptOccurred_cases ⟨core, requestQueue,
            ⟨stage, waiting, process, some (c, (frame.onByte b).result)⟩ :: fs, recoveries⟩
            p.data m with ⟨hbrown, -⟩ | ⟨-, core', heq⟩
        · exact absurd hbrown hcalm
        · rw [heq]
          exact ⟨rfl, Nat.le_refl _⟩
      next => exact ⟨rfl, Nat.le_refl _⟩
    next =>
      rw [Option.some.injEq] at h
      exact h ▸ ⟨rfl, Nat.le_refl _⟩
    next =>
      rw [Option.some.injEq] at h
      subst h
      exact advance_kept ..
    next =>
      obtain ⟨byte, -, rfl⟩ := Option.map_eq_some_iff.mp h
      exact ⟨rfl, Nat.le_refl _⟩
    next =>
      rw [Option.some.injEq] at h
      exact h ▸ ⟨rfl, Nat.le_refl _⟩
    next => cases h

/-- A recovery that has not returned can go on, if only because a read runs out of time. -/
theorem step_enabled (h : s.stack ≠ []) : ∃ e t, s.step e = some t ∧ s.Harmless e := by
  obtain ⟨core, requestQueue, stack, recoveries⟩ := s
  obtain ⟨⟨stage, waiting, process, read⟩, fs, rfl⟩ := List.exists_cons_of_ne_nil h
  rcases read with - | ⟨c, frame | byte | held⟩
  · exact ⟨.proceed, _, rfl, trivial⟩
  · exact ⟨.timeout, _, rfl, trivial⟩
  · exact ⟨.proceed, _, rfl, trivial⟩
  · exact ⟨.proceed, _, rfl, trivial⟩

theorem handle_cases (core : PacketStream D) (requestQueue : List PS2Request) (data : UInt8)
    (m : Moment) :
    (handle core requestQueue data m).recoveries ≤ 1 ∧
      (handle core requestQueue data m).stack.length ≤ 1 ∧
      (handle core requestQueue data m).events ≤
        queueEvents requestQueue + 80 * (handle core requestQueue data m).recoveries := by
  unfold handle
  rcases interruptOccurred_cases ⟨core, requestQueue, [], 0⟩ data m with
    ⟨-, heq⟩ | ⟨-, core', heq⟩
  · rw [heq]
    refine ⟨Nat.le_refl _, Nat.le_refl _, (recover_events _).trans ?_⟩
    show 0 + queueEvents requestQueue + 80 ≤ queueEvents requestQueue + 80 * (0 + 1)
    omega
  · rw [heq]
    refine ⟨Nat.zero_le _, Nat.zero_le _, ?_⟩
    simp [events]

/-- If no byte that `readDataPort` dispatches to the driver during a recovery is taken for a
sign of a brown out, the handling of a byte makes one recovery at most, and comes to an end
after a bounded number of events. -/
theorem handle_bounded (core : PacketStream D) (requestQueue : List PS2Request) (data : UInt8)
    (m : Moment) (es : List RecoveryEvent)
    (hrun : run step (handle core requestQueue data m) es = some t)
    (hharmless : Guarded step Harmless (handle core requestQueue data m) es) :
    t.recoveries ≤ 1 ∧ t.stack.length ≤ 1 ∧
      es.length ≤ 80 + queueEvents requestQueue +
        total step outside (handle core requestQueue data m) es ∧
      (t.stack ≠ [] → ∃ e u, t.step e = some u ∧ t.Harmless e) := by
  obtain ⟨hrecoveries, hstack, hevents⟩ := handle_cases core requestQueue data m
  have hstep (u : RecoveryState D) (e : RecoveryEvent) (v : RecoveryState D)
      (hu : u.recoveries ≤ 1 ∧ u.stack.length ≤ 1) (he : u.Harmless e) (hv : step u e = some v) :
      v.recoveries ≤ 1 ∧ v.stack.length ≤ 1 := by
    obtain ⟨heq, hless⟩ := step_harmless hv he
    exact ⟨heq.trans_le hu.1, hless.trans hu.2⟩
  have hkept := guarded_run_invariant hstep ⟨hrecoveries, hstack⟩ hharmless hrun
  have hlength := run_events hrun
  refine ⟨hkept.1, hkept.2, ?_, step_enabled⟩
  omega

/-- The innermost recovery has just submitted its first request. -/
def nested (core : PacketStream D) (fs : List Recovery) (recoveries : ℕ) : RecoveryState D :=
  ⟨core, [], .submit .modeByte (setTouchPadModeByte core.touchPadModeByte false) [] :: fs,
    recoveries⟩

/-- The first command is sent; a byte with bit 3 comes before its acknowledge. -/
def brownOut (m : Moment) : List RecoveryEvent :=
  [.proceed, .byte ⟨.mouse, 0x08, 0⟩ m, .byte ⟨.mouse, kSCAcknowledge, 0⟩ m]

theorem interruptOccurred_brownOut {data : UInt8} (h : BrownOut s.core data) (m : Moment) :
    s.interruptOccurred data m = s.recover := by
  rcases s.interruptOccurred_cases data m with ⟨-, heq⟩ | ⟨hcalm, -⟩
  · exact heq
  · exact absurd h hcalm

/-- The byte that was put aside starts another recovery when the acknowledge comes. -/
theorem run_brownOut {core : PacketStream D} (hbrown : BrownOut core 0x08) (m : Moment)
    (fs : List Recovery) (n : ℕ) :
    ∃ f, run step (nested core fs n) (brownOut m) = some (nested core (f :: fs) (n + 1)) := by
  let command : PS2Command := ⟨.sendMouseCommandAndCompareAck, kDPSetDefaultsAndDisable⟩
  let waiting (read : ReadResult) : Recovery :=
    ⟨.modeByte, [],
      { ProcessFrame.enter (setTouchPadModeByte core.touchPadModeByte false) false with
        deviceMode := .mouse },
      some (command, read)⟩
  let held : ReadFrame := ⟨.mouse, some kSCAcknowledge, some ⟨.mouse, 0x08, 0⟩, 10000⟩
  have hsend : step (nested core fs n) .proceed =
      some ⟨core, [], waiting (.again (.enter .mouse (some kSCAcknowledge))) :: fs, n⟩ := rfl
  have hbyte : step ⟨core, [], waiting (.again (.enter .mouse (some kSCAcknowledge))) :: fs, n⟩
      (.byte ⟨.mouse, 0x08, 0⟩ m) = some ⟨core, [], waiting (.again held) :: fs, n⟩ := rfl
  have hacknowledge : step ⟨core, [], waiting (.again held) :: fs, n⟩
      (.byte ⟨.mouse, kSCAcknowledge, 0⟩ m) =
      some (interruptOccurred ⟨core, [], waiting (.returned ⟨.mouse, kSCAcknowledge, 0⟩) :: fs, n⟩
        0x08 m) := rfl
  rw [interruptOccurred_brownOut hbrown] at hacknowledge
  exact ⟨_, run_cons.mpr ⟨_, hsend, run_cons.mpr ⟨_, hbyte, run_cons.mpr ⟨_, hacknowledge, rfl⟩⟩⟩⟩

theorem run_brownOuts {core : PacketStream D} (hbrown : BrownOut core 0x08) (m : Moment)
    (fs : List Recovery) (n k : ℕ) :
    ∃ fs', fs'.length = fs.length + k ∧
      run step (nested core fs n) (List.replicate k (brownOut m)).flatten =
        some (nested core fs' (n + k)) := by
  induction k generalizing fs n with
  | zero => exact ⟨fs, rfl, rfl⟩
  | succ k ih =>
    obtain ⟨f, hf⟩ := run_brownOut hbrown m fs n
    obtain ⟨fs', hlength, hrun⟩ := ih (f :: fs) (n + 1)
    refine ⟨fs', ?_, ?_⟩
    · rw [hlength, List.length_cons]
      omega
    · rw [List.replicate_succ, List.flatten_cons, Nat.add_comm k 1, ← Nat.add_assoc]
      exact run_append.mpr ⟨_, hf, hrun⟩

def idle : Moment := ⟨100, 0, 100, 0xFFFFFFFF, 50⟩

/-- A touchpad that sends such a byte in front of every acknowledge keeps the driver in the
handler for the first one, with more and more recoveries on the stack. -/
theorem brownOuts_unbounded :
    ¬ ∃ bound : ℕ, ∀ es t,
      run step (handle (PacketStream.start (D := ℚ) 0x8000 0 1) [] 0x08 idle) es = some t →
        t.stack.length ≤ bound ∨ t.recoveries ≤ bound := by
  rintro ⟨bound, hbound⟩
  have hbrown : BrownOut (PacketStream.start (D := ℚ) 0x8000 0 1) 0x08 := by decide
  obtain ⟨fs, hlength, hrun⟩ := run_brownOuts hbrown idle [] 1 bound
  have hhandle : run step (handle (PacketStream.start (D := ℚ) 0x8000 0 1) [] 0x08 idle)
      (List.replicate bound (brownOut idle)).flatten =
        some (nested (PacketStream.start (D := ℚ) 0x8000 0 1) fs (1 + bound)) := by
    rw [handle, interruptOccurred_brownOut hbrown]
    exact hrun
  rcases hbound _ _ hhandle with hstack | hrecoveries
  · simp [nested, hlength] at hstack
  · simp [nested] at hrecoveries

/-- A recovery that nothing disturbs. -/
def undisturbed : List RecoveryEvent :=
  let acknowledge : List RecoveryEvent :=
    [.proceed, .byte ⟨.mouse, kSCAcknowledge, 0⟩ idle, .proceed]
  let readCommandByte : List RecoveryEvent :=
    [.proceed, .proceed, .byte ⟨.keyboard, 0x47, 0⟩ idle, .proceed]
  (List.replicate 12 acknowledge).flatten ++ .proceed ::
    (readCommandByte ++ .proceed :: (readCommandByte ++ .proceed :: .proceed :: .proceed ::
      (acknowledge ++ [.proceed])))

theorem undisturbed_bounded :
    ∃ t, run step (handle (PacketStream.start (D := ℚ) 0x8000 0 1) [] 0x08 idle) undisturbed =
      some t ∧ t.stack = [] ∧ t.recoveries ≤ 1 := by
  have hends : (run step (handle (PacketStream.start (D := ℚ) 0x8000 0 1) [] 0x08 idle)
      undisturbed).map stack = some [] := by decide +kernel
  obtain ⟨t, ht, hstack⟩ := Option.map_eq_some_iff.mp hends
  exact ⟨t, ht, hstack, (handle_bounded (PacketStream.start (D := ℚ) 0x8000 0 1) [] 0x08 idle
    undisturbed ht (by decide +kernel)).1⟩

end RecoveryState
end TouchPad
