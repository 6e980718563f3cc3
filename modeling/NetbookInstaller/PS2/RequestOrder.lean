import NetbookInstaller.PS2.WorkLoop
import Mathlib.Data.List.Range
import Mathlib.Data.List.Perm.Basic

/-! In which order, how often and how atomically the work loop executes the
submitted requests. -/
namespace PS2
namespace WorkLoop

/-- The requests whose `processRequest` is on the stack, innermost first. -/
def active : List Frame → List ℕ
  | [] => []
  | .processRequest id _ :: rest => id :: active rest
  | _ :: rest => active rest

/-- The requests that the methods on the stack are still to execute, in that order. -/
def pendingIds : List Frame → List ℕ
  | [] => []
  | .submitRequestAndBlock r :: rest => r.id :: pendingIds rest
  | .processRequestQueue localQueue :: rest => localQueue.map QueuedRequest.id ++ pendingIds rest
  | _ :: rest => pendingIds rest

def begun : List LogEvent → List ℕ
  | [] => []
  | .begin id :: log => id :: begun log
  | _ :: log => begun log

def completed : List LogEvent → List ℕ
  | [] => []
  | .complete id _ :: log => id :: completed log
  | _ :: log => completed log

/-- The request open after an event, `none` if the event falls into another one. -/
def next : Option ℕ → LogEvent → Option (Option ℕ)
  | none, .begin id => some (some id)
  | some id, .command id' _ => if id' = id then some (some id) else none
  | some id, .complete id' _ => if id' = id then some none else none
  | _, _ => none

/-- Nothing is running, and no wake-up of the queue is outstanding. -/
def Quiescent (s : WorkLoop) : Prop :=
  s.stack = [] ∧ s.queueSignalled = false ∧ s.signalsOwed = 0

instance (s : WorkLoop) : Decidable s.Quiescent := by unfold Quiescent; infer_instance

/-- Requests run one after the other and in the order of submission, and each
once by the time that the controller is quiescent. -/
structure AtomicInOrder (s : WorkLoop) : Prop where
  atomic : (s.log.foldlM next none).isSome
  inOrder : begun s.log = List.range (begun s.log).length
  once : s.Quiescent →
    begun s.log = List.range s.submitted ∧ completed s.log = List.range s.submitted

/-- No request is being processed when driver code under the gate submits one. -/
def SubmitsOutside (s : WorkLoop) : Action → Prop
  | .submitRequestAndBlock _ => active s.stack = []
  | _ => True

instance (s : WorkLoop) : (a : Action) → Decidable (s.SubmitsOutside a)
  | .submitRequestAndBlock _ => inferInstanceAs (Decidable (active s.stack = []))
  | .submitRequest _ | .signalQueue | .keyboardInterrupt _ | .runRequestQueue | .runInterrupt
  | .runGated | .setHardwareOffline _ | .handlerReturn | .dispatchQueued | .dispatchMouse _
  | .interruptDone | .readQueue | .readPort _ _ _ | .readTimeout | .advance => .isTrue trivial

@[simp] theorem begun_append (xs ys : List LogEvent) :
    begun (xs ++ ys) = begun xs ++ begun ys := by
  induction xs with
  | nil => rfl
  | cons e xs ih => cases e <;> simp [begun, ih]

@[simp] theorem completed_append (xs ys : List LogEvent) :
    completed (xs ++ ys) = completed xs ++ completed ys := by
  induction xs with
  | nil => rfl
  | cons e xs ih => cases e <;> simp [completed, ih]

section Dispatch
variable (s : WorkLoop) (d : PS2DeviceType) (b : PortByte) (f : ReadFrame) (rest : List Frame)

/-- Dispatching touches the stack and the record of dispatches only. -/
theorem dispatchDriverInterrupt_eq : ∃ stack dispatched,
    s.dispatchDriverInterrupt d b = { s with stack, dispatched } ∧
      (stack = s.stack ∨ stack = .handler d :: s.stack) := by
  unfold dispatchDriverInterrupt
  split
  · exact ⟨_, _, rfl, .inr rfl⟩
  · exact ⟨_, _, rfl, .inl rfl⟩

theorem readByte_eq : ∃ stack dispatched,
    s.readByte f rest b = { s with stack, dispatched } ∧
      ((∃ r, stack = .readDataPort r :: rest) ∨
        ∃ d r, stack = .handler d :: .readDataPort r :: rest) := by
  unfold readByte
  split
  · exact ⟨_, _, rfl, .inl ⟨_, rfl⟩⟩
  · obtain ⟨stack, dispatched, h, hs | hs⟩ := dispatchDriverInterrupt_eq
      { s with stack := .readDataPort (f.onByte b).result :: rest } _ _
    · exact ⟨stack, dispatched, h, .inl ⟨_, hs⟩⟩
    · exact ⟨stack, dispatched, h, .inr ⟨_, _, hs⟩⟩

end Dispatch

@[simp] theorem active_processRequestQueue (q : List QueuedRequest) (rest : List Frame) :
    active (.processRequestQueue q :: rest) = active rest := rfl

@[simp] theorem active_processRequest (id : ℕ) (f : ProcessFrame) (rest : List Frame) :
    active (.processRequest id f :: rest) = id :: active rest := rfl

@[simp] theorem active_readDataPort (r : ReadResult) (rest : List Frame) :
    active (.readDataPort r :: rest) = active rest := rfl

@[simp] theorem pendingIds_submitRequestAndBlock (r : QueuedRequest) (rest : List Frame) :
    pendingIds (.submitRequestAndBlock r :: rest) = r.id :: pendingIds rest := rfl

@[simp] theorem pendingIds_processRequestQueue (q : List QueuedRequest) (rest : List Frame) :
    pendingIds (.processRequestQueue q :: rest) = q.map QueuedRequest.id ++ pendingIds rest := rfl

@[simp] theorem pendingIds_processRequest (id : ℕ) (f : ProcessFrame) (rest : List Frame) :
    pendingIds (.processRequest id f :: rest) = pendingIds rest := rfl

@[simp] theorem pendingIds_readDataPort (r : ReadResult) (rest : List Frame) :
    pendingIds (.readDataPort r :: rest) = pendingIds rest := rfl

/-- What may lie below a frame when no request runs inside another one. -/
def StacksOn : Frame → List Frame → Prop
  | .submitRequestAndBlock _, rest | .processRequestQueue _, rest
  | .processRequest _ _, rest => active rest = []
  | .readDataPort _, rest => active rest ≠ []
  | .handler _, rest | .gated, rest => active rest = [] → pendingIds rest = []
  | .interruptOccurred, rest => rest = []

def Flat : List Frame → Prop
  | [] => True
  | frame :: rest => StacksOn frame rest ∧ Flat rest

@[simp] theorem flat_cons (frame : Frame) (rest : List Frame) :
    Flat (frame :: rest) ↔ StacksOn frame rest ∧ Flat rest := Iff.rfl

/-- The invariant of the runs in which no request is submitted inside another one. -/
structure Ordered (s : WorkLoop) : Prop where
  flat : Flat s.stack
  serial : s.log.foldlM next none = some (active s.stack).head?
  order : begun s.log ++ pendingIds s.stack ++ s.requestQueue.map QueuedRequest.id =
    List.range s.submitted
  done : completed s.log ++ active s.stack = begun s.log
  signal : s.requestQueue ≠ [] → s.queueSignalled ∨ 0 < s.signalsOwed

theorem ordered_initial : Ordered initial := by
  constructor <;> simp [initial, Flat, active, pendingIds, begun, completed]

/-- What only submitting, beginning and completing a request change. -/
def requests (s : WorkLoop) : List QueuedRequest × ℕ × List LogEvent × Bool × ℕ :=
  (s.requestQueue, s.submitted, s.log, s.queueSignalled, s.signalsOwed)

/-- Steps that neither submit, begin nor complete a request. -/
theorem Ordered.quiet {s t : WorkLoop} {stack : List Frame} (h : Ordered s)
    (hs : s.stack = stack) (hflat : Flat t.stack) (hactive : active t.stack = active stack)
    (hpending : pendingIds t.stack = pendingIds stack) (hsame : t.requests = s.requests) :
    Ordered t := by
  subst hs
  simp only [requests, Prod.mk.injEq] at hsame
  obtain ⟨hqueue, hsubmitted, hlog, hsignal, howed⟩ := hsame
  refine ⟨hflat, ?_, ?_, ?_, ?_⟩
  · rw [hlog, hactive, h.serial]
  · rw [hlog, hpending, hqueue, hsubmitted, h.order]
  · rw [hlog, hactive, h.done]
  · rw [hqueue, hsignal, howed]
    exact h.signal

/-- A byte dispatched by `interruptOccurred`. -/
theorem Ordered.dispatch {s : WorkLoop} (h : Ordered s) {rest : List Frame}
    (hs : s.stack = .interruptOccurred :: rest) (d : PS2DeviceType) (b : PortByte) :
    Ordered (s.dispatchDriverInterrupt d b) := by
  obtain ⟨stack, dispatched, heq, hstack⟩ := dispatchDriverInterrupt_eq s d b
  have hflat := h.flat
  rw [hs, flat_cons, StacksOn] at hflat
  obtain ⟨rfl, -⟩ := hflat
  rw [heq]
  rcases hstack with rfl | rfl
  · exact h.quiet rfl h.flat rfl rfl rfl
  · refine h.quiet rfl ?_ rfl rfl rfl
    rw [flat_cons]
    exact ⟨fun _ => by rw [hs]; rfl, h.flat⟩

/-- A byte that `readDataPort` obtains. -/
theorem Ordered.readByte {s : WorkLoop} (h : Ordered s) {f g : ReadFrame} {rest : List Frame}
    (hs : s.stack = .readDataPort (.again g) :: rest) (b : PortByte) :
    Ordered (s.readByte f rest b) := by
  obtain ⟨stack, dispatched, heq, hstack⟩ := readByte_eq s b f rest
  have hflat := h.flat
  rw [hs, flat_cons, StacksOn] at hflat
  obtain ⟨hbusy, hrest⟩ := hflat
  rw [heq]
  rcases hstack with ⟨r, rfl⟩ | ⟨d, r, rfl⟩
  · exact h.quiet hs ⟨hbusy, hrest⟩ rfl rfl rfl
  · exact h.quiet hs ⟨fun hidle => absurd hidle hbusy, hbusy, hrest⟩ rfl rfl rfl

/-- `beginRequest` for the first of the pending requests. -/
theorem Ordered.begin {s : WorkLoop} (h : Ordered s) {r : QueuedRequest} {rest : List Frame}
    (hflat : Flat rest) (hidle : active rest = []) (hactive : active s.stack = [])
    (hpending : pendingIds s.stack = r.id :: pendingIds rest) :
    Ordered (s.beginRequest r rest) := by
  have hserial := h.serial
  have horder := h.order
  have hdone := h.done
  rw [hactive] at hserial hdone
  rw [hpending] at horder
  refine ⟨⟨hidle, hflat⟩, ?_, ?_, ?_, h.signal⟩
  · simp [beginRequest, List.foldlM_append, hserial, next]
  · simpa [beginRequest, begun] using horder
  · simpa [beginRequest, begun, completed, hidle] using hdone

theorem Ordered.advanceRequest {s : WorkLoop} (h : Ordered s) {id : ℕ} {f : ProcessFrame}
    {rest : List Frame} (hs : s.stack = .processRequest id f :: rest) :
    Ordered (s.advanceRequest id f rest) := by
  have hflat := h.flat
  have hserial := h.serial
  have horder := h.order
  have hdone := h.done
  rw [hs, flat_cons, StacksOn] at hflat
  obtain ⟨hidle, hrest⟩ := hflat
  simp only [hs, active_processRequest, pendingIds_processRequest, hidle,
    List.head?_cons] at hserial horder hdone
  unfold WorkLoop.advanceRequest
  split
  · refine ⟨hrest, ?_, ?_, ?_, h.signal⟩
    · simp [List.foldlM_append, hserial, next, hidle]
    · simpa [begun] using horder
    · simpa [begun, completed, hidle] using hdone
  · -- the log grows by a command of the one request that is open
    have hcommand : (s.log ++ [LogEvent.command id f.index]).foldlM next none = some (some id) := by
      simp [List.foldlM_append, hserial, next]
    dsimp only
    split
    · refine ⟨⟨hidle, hrest⟩, by simpa [hidle] using hcommand, ?_, ?_, h.signal⟩
      · simpa [begun] using horder
      · simpa [begun, completed, hidle] using hdone
    · refine ⟨⟨List.cons_ne_nil _ _, hidle, hrest⟩, by simpa [hidle] using hcommand, ?_, ?_, h.signal⟩
      · simpa [begun] using horder
      · simpa [begun, completed, hidle] using hdone

/-- The step lemma for what the controller's own methods do next. -/
theorem Ordered.advance {s t : WorkLoop} (h : Ordered s) (ht : s.advance = some t) :
    Ordered t := by
  have hflat := h.flat
  unfold WorkLoop.advance at ht
  split at ht
  next r rest hs =>
    cases ht
    rw [hs] at hflat
    exact h.begin hflat.2 hflat.1 (by rw [hs]; exact hflat.1) (by rw [hs]; rfl)
  next rest hs =>
    cases ht
    rw [hs] at hflat
    exact h.quiet hs hflat.2 rfl rfl rfl
  next r localQueue rest hs =>
    cases ht
    rw [hs] at hflat
    exact h.begin ⟨hflat.1, hflat.2⟩ hflat.1 (by rw [hs]; exact hflat.1) (by rw [hs]; rfl)
  next id f rest hs =>
    cases ht
    exact h.advanceRequest hs
  next r id f rest hs =>
    rw [hs] at hflat
    split at ht
    · cases ht
      exact h.quiet hs ⟨hflat.2.1, hflat.2.2⟩ rfl rfl rfl
    · cases ht
  next => cases ht

/-- The queue moves to a local one while nothing is being processed. -/
theorem Ordered.transferQueue {s : WorkLoop} (hflat : Flat s.stack) (hidle : active s.stack = [])
    (hserial : s.log.foldlM next none = some none)
    (horder : begun s.log ++ (s.requestQueue.map QueuedRequest.id ++ pendingIds s.stack) =
      List.range s.submitted)
    (hdone : completed s.log = begun s.log) : Ordered s.transferQueue := by
  refine ⟨⟨hidle, hflat⟩, ?_, ?_, ?_, ?_⟩
  · simpa [WorkLoop.transferQueue, hidle] using hserial
  · simpa [WorkLoop.transferQueue] using horder
  · simpa [WorkLoop.transferQueue, hidle] using hdone
  · intro hne
    exact absurd rfl hne

theorem Ordered.submitRequestAndBlock {s : WorkLoop} (h : Ordered s) (request : PS2Request)
    (hidle : active s.stack = []) (hpending : pendingIds s.stack = []) :
    Ordered { s with
      submitted := s.submitted + 1
      stack := .submitRequestAndBlock ⟨s.submitted, request⟩ :: s.stack }.transferQueue := by
  have hserial := h.serial
  have horder := h.order
  have hdone := h.done
  rw [hidle] at hserial hdone
  rw [hpending, List.append_nil] at horder
  refine Ordered.transferQueue ⟨hidle, h.flat⟩ hidle hserial ?_ (by simpa using hdone)
  simp only [pendingIds_submitRequestAndBlock, hpending]
  rw [← List.append_assoc, horder, List.range_succ]

theorem Ordered.step {s t : WorkLoop} {a : Action} (h : Ordered s) (hok : s.SubmitsOutside a)
    (ht : s.step a = some t) : Ordered t := by
  have hflat := h.flat
  cases stepped_of_step ht with
  | submitRequest request =>
    refine ⟨h.flat, h.serial, ?_, h.done, fun _ => .inr (Nat.succ_pos _)⟩
    simp [List.range_succ, ← h.order]
  | signalQueue _ => exact ⟨h.flat, h.serial, h.order, h.done, fun _ => .inl rfl⟩
  | keyboardInterrupt data => exact h.quiet rfl h.flat rfl rfl rfl
  | runRequestQueue hs _ =>
    have hserial := h.serial
    have horder := h.order
    have hdone := h.done
    rw [hs] at hserial horder hdone
    refine Ordered.transferQueue h.flat (by rw [hs]; rfl) hserial ?_ ?_
    · simpa [hs, pendingIds] using horder
    · simpa [active] using hdone
  | runInterrupt hs _ => exact h.quiet hs ⟨rfl, trivial⟩ rfl rfl rfl
  | runGated hs => exact h.quiet hs ⟨fun _ => rfl, trivial⟩ rfl rfl rfl
  | submitRequestAndBlock request hs hframe =>
    apply h.submitRequestAndBlock request hok
    have hidle : active s.stack = [] := hok
    rw [hs] at hflat hidle ⊢
    rcases hframe with ⟨d, rfl⟩ | rfl <;> exact hflat.1 hidle
  | setHardwareOffline offline _ => exact h.quiet rfl h.flat rfl rfl rfl
  | handlerReturn hs hframe =>
    rw [hs] at hflat
    rcases hframe with ⟨d, rfl⟩ | rfl <;> exact h.quiet hs hflat.2 rfl rfl rfl
  | @dispatchQueued rest byte queue hs hq =>
    have hnew : Ordered { s with keyboardQueue := queue } := h.quiet rfl h.flat rfl rfl rfl
    exact hnew.dispatch hs .keyboard byte
  | dispatchMouse data hs _ =>
    have hnew : Ordered { s with portReads := s.portReads + 1 } := h.quiet rfl h.flat rfl rfl rfl
    exact hnew.dispatch hs .mouse _
  | interruptDone hs _ =>
    rw [hs] at hflat
    exact h.quiet hs hflat.2 rfl rfl rfl
  | @readQueue f rest byte queue hs hq _ =>
    have hnew : Ordered { s with keyboardQueue := queue } := h.quiet rfl h.flat rfl rfl rfl
    exact hnew.readByte hs byte
  | readPort polls stream data hs _ =>
    have hnew : Ordered { s with portReads := s.portReads + 1 } := h.quiet rfl h.flat rfl rfl rfl
    exact hnew.readByte hs _
  | readTimeout hs _ =>
    rw [hs] at hflat
    exact h.quiet hs ⟨hflat.1, hflat.2⟩ rfl rfl rfl
  | advance ht => exact h.advance ht

theorem Ordered.atomicInOrder {s : WorkLoop} (h : Ordered s) : AtomicInOrder s := by
  have hprefix : begun s.log <+: List.range s.submitted := by
    rw [← h.order, List.append_assoc]
    exact List.prefix_append _ _
  have hlength : (begun s.log).length ≤ s.submitted := by simpa using hprefix.length_le
  refine ⟨by simp [h.serial], ?_, ?_⟩
  · have htake := List.prefix_iff_eq_take.mp hprefix
    rwa [List.take_range, Nat.min_eq_left hlength] at htake
  · rintro ⟨hstack, hsignalled, howed⟩
    have hqueue : s.requestQueue = [] := by
      by_contra hne
      rcases h.signal hne with hsignal | hsignal
      · simp [hsignalled] at hsignal
      · omega
    have horder := h.order
    have hdone := h.done
    simp only [hstack, hqueue, pendingIds, active, List.map_nil, List.append_nil] at horder hdone
    exact ⟨horder, hdone.trans horder⟩

/-- Every interleaving in which no handler submits a synchronous request in the
middle of another request keeps the requests atomic, in order and complete. -/
theorem run_atomicInOrder {as : List Action} {s : WorkLoop}
    (hg : Transition.Guarded step SubmitsOutside initial as)
    (hr : Transition.run step initial as = some s) : AtomicInOrder s :=
  (Transition.guarded_run_invariant (fun _ _ _ h hok ht => Ordered.step h hok ht)
    ordered_initial hg hr).atomicInOrder

/-- Two LED requests are queued, and the mouse sends a byte that starts no packet
while the first one waits for its acknowledge: `scheduleMouseReset` disables the
mouse from the handler. -/
def resetDuringLEDs : List Action :=
  [.submitRequest (setLEDs 2), .signalQueue, .submitRequest (setLEDs 0), .signalQueue,
    .runRequestQueue, .advance, .advance, .advance,
    .readPort 0 .mouse 0x00, .submitRequestAndBlock (setMouseEnable false),
    .advance, .advance, .advance, .advance, .advance, .readPort 0 .mouse 0xFA, .advance, .advance,
    .handlerReturn,
    .readPort 0 .keyboard 0xFA, .advance, .advance, .advance, .readPort 0 .keyboard 0xFA,
    .advance, .advance, .advance]

theorem resetDuringLEDs_interleaves :
    ∃ s, Transition.run step initial resetDuringLEDs = some s ∧
      [.command 0 1, .command 2 0, .command 0 2].Sublist s.log ∧
      begun s.log = [0, 2, 1] ∧ ¬ AtomicInOrder s := by
  refine ⟨_, rfl, by decide, by decide, ?_⟩
  intro h
  exact absurd h.inOrder (by decide)

/-- The byte arrives before the requests are run: the reset request drains the queue. -/
def resetBeforeLEDs : List Action :=
  [.submitRequest (setLEDs 2), .runInterrupt, .dispatchMouse 0x00,
    .submitRequestAndBlock (setMouseEnable false), .advance, .advance, .advance,
    .readPort 0 .keyboard 0xFA, .advance]

theorem resetBeforeLEDs_atomicInOrder :
    ∃ s, Transition.run step initial resetBeforeLEDs = some s ∧ AtomicInOrder s :=
  ⟨_, rfl, run_atomicInOrder
    (show Transition.Guarded step SubmitsOutside initial resetBeforeLEDs by decide) rfl⟩

end WorkLoop
end PS2
