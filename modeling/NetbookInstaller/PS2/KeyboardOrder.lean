import NetbookInstaller.PS2.RequestOrder

/-! In which order the bytes of the keyboard reach its driver. They come off the
data port at interrupt time, into the keyboard queue, or inside `readDataPort`. -/
namespace PS2
namespace WorkLoop

/-- The read numbers of the bytes handed to the keyboard driver. -/
def keyboardSeqs (dispatched : List (PS2DeviceType × PortByte)) : List ℕ :=
  (dispatched.filter fun x => x.1 = .keyboard).map fun x => x.2.seq

/-- The bytes reach the keyboard driver in the order in which they were read. -/
def KeyboardInOrder (s : WorkLoop) : Prop :=
  (keyboardSeqs s.dispatched).Pairwise (· < ·)

/-- The byte that a keyboard read has put aside and may still dispatch. -/
def ReadResult.heldKeyboard : ReadResult → List ℕ
  | .again f => if f.deviceType = .keyboard then f.firstByte.toList.map PortByte.seq else []
  | _ => []

def held : List Frame → List ℕ
  | [] => []
  | .readDataPort r :: rest => ReadResult.heldKeyboard r ++ held rest
  | _ :: rest => held rest

/-- A read of the mouse stream takes a keyboard byte off the port only while the
keyboard queue is empty, and no synchronous request is submitted under the gate
while a keyboard read holds a byte. -/
def OlderFirst (s : WorkLoop) : Action → Prop
  | .readPort _ .keyboard _ => s.keyboardQueue = []
  | .submitRequestAndBlock _ => held s.stack = []
  | _ => True

instance (s : WorkLoop) : (a : Action) → Decidable (s.OlderFirst a)
  | .readPort _ .keyboard _ => inferInstanceAs (Decidable (s.keyboardQueue = []))
  | .submitRequestAndBlock _ => inferInstanceAs (Decidable (held s.stack = []))
  | .readPort _ .mouse _ | .submitRequest _ | .signalQueue | .keyboardInterrupt _
  | .runRequestQueue | .runInterrupt | .runGated | .setHardwareOffline _ | .handlerReturn
  | .dispatchQueued | .dispatchMouse _ | .interruptDone | .readQueue | .readTimeout
  | .advance => .isTrue trivial

@[simp] theorem keyboardSeqs_append (xs ys : List (PS2DeviceType × PortByte)) :
    keyboardSeqs (xs ++ ys) = keyboardSeqs xs ++ keyboardSeqs ys := by
  simp [keyboardSeqs]

@[simp] theorem keyboardSeqs_nil : keyboardSeqs [] = [] := rfl

@[simp] theorem keyboardSeqs_keyboard (b : PortByte) :
    keyboardSeqs [(.keyboard, b)] = [b.seq] := rfl

@[simp] theorem keyboardSeqs_mouse (b : PortByte) : keyboardSeqs [(.mouse, b)] = [] := rfl

/-- The read numbers of keyboard bytes on their way to the driver, oldest first. -/
def trail (s : WorkLoop) : List ℕ :=
  keyboardSeqs s.dispatched ++ (held s.stack ++ s.keyboardQueue.map PortByte.seq)

/-- Only the innermost read may hold a byte. -/
def Clear : List Frame → Prop
  | [] => True
  | .handler _ :: rest | .gated :: rest => Clear rest
  | _ :: rest => held rest = [] ∧ Clear rest

structure KeyboardTrail (s : WorkLoop) : Prop where
  clear : Clear s.stack
  sorted : s.trail.Pairwise (· < ·)
  read : ∀ n ∈ s.trail, n < s.portReads
  stream : ∀ b ∈ s.keyboardQueue, b.stream = .keyboard

theorem keyboardTrail_initial : KeyboardTrail initial := by
  constructor <;> simp [initial, Clear, trail, held]

/-- A step that takes nothing off the port and only moves or drops bytes. -/
theorem KeyboardTrail.sublist {s t : WorkLoop} (h : KeyboardTrail s) (hclear : Clear t.stack)
    (htrail : t.trail.Sublist s.trail) (hreads : t.portReads = s.portReads)
    (hqueue : ∀ b ∈ t.keyboardQueue, b ∈ s.keyboardQueue) : KeyboardTrail t := by
  refine ⟨hclear, h.sorted.sublist htrail, ?_, fun b hb => h.stream b (hqueue b hb)⟩
  intro n hn
  rw [hreads]
  exact h.read n (htrail.mem hn)

/-- A step that takes one byte off the port. -/
theorem KeyboardTrail.sublistRead {s t : WorkLoop} (h : KeyboardTrail s) (hclear : Clear t.stack)
    (htrail : t.trail.Sublist (s.trail ++ [s.portReads]))
    (hreads : t.portReads = s.portReads + 1)
    (hqueue : ∀ b ∈ t.keyboardQueue, b.stream = .keyboard) : KeyboardTrail t := by
  refine ⟨hclear, List.Pairwise.sublist htrail ?_, ?_, hqueue⟩
  · rw [List.pairwise_append]
    refine ⟨h.sorted, List.pairwise_singleton _ _, ?_⟩
    intro n hn m hm
    rw [List.mem_singleton.mp hm]
    exact h.read n hn
  · intro n hn
    rw [hreads]
    rcases List.mem_append.mp (htrail.mem hn) with hn | hn
    · exact (h.read n hn).trans (Nat.lt_succ_self _)
    · rw [List.mem_singleton.mp hn]
      exact Nat.lt_succ_self _

/-- A byte's read number if it belongs to the keyboard. -/
def PortByte.keyboardSeq (b : PortByte) : List ℕ :=
  if b.stream = .keyboard then [b.seq] else []

/-- One byte: what a read dispatches to the keyboard driver or still holds comes
from the byte it held and then from this one. -/
theorem onByte_heldKeyboard (f : ReadFrame) (b : PortByte) :
    (keyboardSeqs (f.onByte b).dispatched.toList ++
      ReadResult.heldKeyboard (f.onByte b).result).Sublist
        (ReadResult.heldKeyboard (.again f) ++ PortByte.keyboardSeq b) := by
  obtain ⟨fd, fe, ff, t⟩ := f
  obtain ⟨stream, data, seq⟩ := b
  by_cases hs : stream = fd
  · subst hs
    cases stream <;> cases fe with
    | none => simp [ReadFrame.onByte, ReadResult.heldKeyboard]
    | some e =>
      by_cases hd : data = e <;> cases ff <;>
        simp [ReadFrame.onByte, hd, ReadResult.heldKeyboard, PortByte.keyboardSeq]
  · cases fd <;> cases stream <;>
      first
      | exact absurd rfl hs
      | simp [ReadFrame.onByte, ReadResult.heldKeyboard, PortByte.keyboardSeq, PS2DeviceType.other]

theorem dispatchDriverInterrupt_dispatched (s : WorkLoop) (d : PS2DeviceType) (b : PortByte) :
    (keyboardSeqs (s.dispatchDriverInterrupt d b).dispatched).Sublist
      (keyboardSeqs s.dispatched ++ keyboardSeqs [(d, b)]) := by
  unfold dispatchDriverInterrupt
  split
  · simp only [keyboardSeqs_append, List.Sublist.refl]
  · exact List.sublist_append_left _ _

theorem readByte_dispatched (s : WorkLoop) (f : ReadFrame) (rest : List Frame) (b : PortByte) :
    (keyboardSeqs (s.readByte f rest b).dispatched).Sublist
      (keyboardSeqs s.dispatched ++ keyboardSeqs (f.onByte b).dispatched.toList) := by
  unfold readByte
  cases (f.onByte b).dispatched with
  | none => simp
  | some x => exact dispatchDriverInterrupt_dispatched _ _ _

theorem readByte_held (s : WorkLoop) (f : ReadFrame) (rest : List Frame) (b : PortByte) :
    held (s.readByte f rest b).stack = ReadResult.heldKeyboard (f.onByte b).result ++ held rest := by
  unfold readByte
  cases (f.onByte b).dispatched with
  | none => rfl
  | some x =>
    simp only [dispatchDriverInterrupt]
    split <;> rfl

theorem readByte_clear (s : WorkLoop) (f : ReadFrame) {rest : List Frame} (b : PortByte)
    (hrest : held rest = [] ∧ Clear rest) : Clear (s.readByte f rest b).stack := by
  obtain ⟨stack, dispatched, heq, ⟨r, rfl⟩ | ⟨d, r, rfl⟩⟩ := readByte_eq s b f rest <;>
  · rw [heq]
    exact hrest

theorem readByte_keyboardQueue (s : WorkLoop) (f : ReadFrame) (rest : List Frame) (b : PortByte) :
    (s.readByte f rest b).keyboardQueue = s.keyboardQueue := by
  obtain ⟨stack, dispatched, heq, -⟩ := readByte_eq s b f rest
  rw [heq]

theorem readByte_portReads (s : WorkLoop) (f : ReadFrame) (rest : List Frame) (b : PortByte) :
    (s.readByte f rest b).portReads = s.portReads := by
  obtain ⟨stack, dispatched, heq, -⟩ := readByte_eq s b f rest
  rw [heq]

theorem readByte_trail (s : WorkLoop) (f : ReadFrame) {rest : List Frame} (b : PortByte)
    (hrest : held rest = []) :
    (s.readByte f rest b).trail.Sublist (keyboardSeqs s.dispatched ++
      (ReadResult.heldKeyboard (.again f) ++ PortByte.keyboardSeq b ++
        s.keyboardQueue.map PortByte.seq)) := by
  have hdispatched := readByte_dispatched s f rest b
  have hbyte := (onByte_heldKeyboard f b).append_right (s.keyboardQueue.map PortByte.seq)
  rw [trail, readByte_held, hrest, List.append_nil, readByte_keyboardQueue]
  refine (hdispatched.append_right _).trans ?_
  rw [List.append_assoc]
  refine List.Sublist.append_left ?_ _
  simpa only [List.append_assoc] using hbyte

/-- What only reads and dispatches change. -/
def bytes (s : WorkLoop) : List (PS2DeviceType × PortByte) × List PortByte × ℕ :=
  (s.dispatched, s.keyboardQueue, s.portReads)

/-- Frames are pushed and popped, and nothing is read or dispatched. -/
theorem KeyboardTrail.quiet {s t : WorkLoop} {stack : List Frame} (h : KeyboardTrail s)
    (hs : s.stack = stack) (hclear : Clear t.stack) (hheld : (held t.stack).Sublist (held stack))
    (hsame : t.bytes = s.bytes) : KeyboardTrail t := by
  subst hs
  simp only [bytes, Prod.mk.injEq] at hsame
  obtain ⟨hdispatched, hqueue, hreads⟩ := hsame
  refine h.sublist hclear ?_ hreads (by simp [hqueue])
  rw [trail, trail, hdispatched, hqueue]
  exact (hheld.append_right _).append_left _

theorem KeyboardTrail.keyboardInterrupt {s : WorkLoop} (h : KeyboardTrail s) (data : UInt8) :
    KeyboardTrail (s.keyboardInterrupt data) := by
  by_cases hfull : s.keyboardQueue.length < kKeyboardQueueSize
  · refine h.sublistRead h.clear ?_ rfl ?_
    · simp [WorkLoop.keyboardInterrupt, enqueueKeyboardData, hfull, trail]
    · intro b hb
      simp only [WorkLoop.keyboardInterrupt, enqueueKeyboardData, hfull, if_true,
        List.mem_append, List.mem_singleton] at hb
      rcases hb with hb | rfl
      · exact h.stream b hb
      · rfl
  · refine h.sublistRead h.clear ?_ rfl ?_
    · simp [WorkLoop.keyboardInterrupt, enqueueKeyboardData, hfull, trail]
    · simpa [WorkLoop.keyboardInterrupt, enqueueKeyboardData, hfull] using h.stream

/-- `interruptOccurred` hands over the oldest byte of the keyboard queue. -/
theorem KeyboardTrail.dispatchQueued {s : WorkLoop} (h : KeyboardTrail s) {rest : List Frame}
    {byte : PortByte} {queue : List PortByte} (hs : s.stack = .interruptOccurred :: rest)
    (hq : s.keyboardQueue = byte :: queue) :
    KeyboardTrail ({ s with keyboardQueue := queue }.dispatchDriverInterrupt .keyboard byte) := by
  have hclear := h.clear
  rw [hs] at hclear
  have htrail : s.trail = keyboardSeqs s.dispatched ++ byte.seq :: queue.map PortByte.seq := by
    simp [trail, hs, held, hclear.1, hq]
  refine h.sublist ?_ ?_ ?_ ?_
  · unfold dispatchDriverInterrupt
    split <;> exact h.clear
  · rw [htrail]
    unfold dispatchDriverInterrupt
    split
    · simp [trail, hs, held, hclear.1]
    · simp [trail, hs, held, hclear.1]
  · unfold dispatchDriverInterrupt
    split <;> rfl
  · intro b hb
    rw [hq]
    unfold dispatchDriverInterrupt at hb
    split at hb <;> exact List.mem_cons_of_mem _ hb

theorem KeyboardTrail.dispatchMouse {s : WorkLoop} (h : KeyboardTrail s) (b : PortByte) :
    KeyboardTrail ({ s with portReads := s.portReads + 1 }.dispatchDriverInterrupt .mouse b) := by
  unfold dispatchDriverInterrupt
  split
  · exact h.sublistRead h.clear (by simp [trail, held]) rfl h.stream
  · exact h.sublistRead h.clear (by simp [trail]) rfl h.stream

theorem KeyboardTrail.readQueue {s : WorkLoop} (h : KeyboardTrail s) {f : ReadFrame}
    {rest : List Frame} {byte : PortByte} {queue : List PortByte}
    (hs : s.stack = .readDataPort (.again f) :: rest) (hq : s.keyboardQueue = byte :: queue) :
    KeyboardTrail ({ s with keyboardQueue := queue }.readByte f rest byte) := by
  have hclear := h.clear
  rw [hs] at hclear
  have hstream : byte.stream = .keyboard := h.stream byte (by simp [hq])
  refine h.sublist (readByte_clear _ _ _ hclear) ?_ (readByte_portReads _ _ _ _) ?_
  · refine (readByte_trail _ f byte hclear.1).trans ?_
    simp [trail, hs, held, hclear.1, hq, PortByte.keyboardSeq, hstream]
  · intro b hb
    rw [readByte_keyboardQueue] at hb
    rw [hq]
    exact List.mem_cons_of_mem _ hb

/-- A byte off the port. If it is the keyboard's, no older one is waiting. -/
theorem KeyboardTrail.readPort {s : WorkLoop} (h : KeyboardTrail s) {f : ReadFrame}
    {rest : List Frame} (hs : s.stack = .readDataPort (.again f) :: rest) (t : ℕ)
    (stream : PS2DeviceType) (data : UInt8)
    (hok : stream = .keyboard → s.keyboardQueue = []) :
    KeyboardTrail ({ s with portReads := s.portReads + 1 }.readByte
      { f with timeoutCounter := t } rest ⟨stream, data, s.portReads⟩) := by
  have hclear := h.clear
  rw [hs] at hclear
  refine h.sublistRead (readByte_clear _ _ _ hclear) ?_ (readByte_portReads _ _ _ _) ?_
  · refine (readByte_trail _ _ _ hclear.1).trans ?_
    cases stream with
    | keyboard =>
      simp [trail, hs, held, hclear.1, hok rfl, PortByte.keyboardSeq, ReadResult.heldKeyboard]
    | mouse =>
      simp [trail, hs, held, hclear.1, PortByte.keyboardSeq, ReadResult.heldKeyboard]
  · rw [readByte_keyboardQueue]
    exact h.stream

theorem KeyboardTrail.advance {s t : WorkLoop} (h : KeyboardTrail s) (ht : s.advance = some t) :
    KeyboardTrail t := by
  have hclear := h.clear
  unfold WorkLoop.advance at ht
  split at ht
  next r rest hs =>
    cases ht
    rw [hs] at hclear
    exact h.quiet hs hclear (List.Sublist.refl _) rfl
  next rest hs =>
    cases ht
    rw [hs] at hclear
    exact h.quiet hs hclear.2 (List.Sublist.refl _) rfl
  next r localQueue rest hs =>
    cases ht
    rw [hs] at hclear
    exact h.quiet hs ⟨hclear.1, hclear⟩ (List.Sublist.refl _) rfl
  next id f rest hs =>
    cases ht
    rw [hs] at hclear
    unfold WorkLoop.advanceRequest
    split
    · exact h.quiet hs hclear.2 (List.Sublist.refl _) rfl
    next c hc =>
      dsimp only
      split
      · exact h.quiet hs hclear (List.Sublist.refl _) rfl
      next read hread =>
        -- a read starts without a held byte
        have hfirst : read.firstByte = none := by
          unfold ProcessFrame.start at hread
          split at hread <;> simp only [Option.some.injEq, reduceCtorEq] at hread <;>
            (subst hread; rfl)
        exact h.quiet hs ⟨hclear.1, hclear⟩
          (by simp [held, ReadResult.heldKeyboard, hfirst]) rfl
  next r id f rest hs =>
    rw [hs] at hclear
    split at ht
    · cases ht
      exact h.quiet hs hclear.2 (List.sublist_append_right _ _) rfl
    · cases ht
  next => cases ht

theorem KeyboardTrail.step {s t : WorkLoop} {a : Action} (h : KeyboardTrail s)
    (hok : s.OlderFirst a) (ht : s.step a = some t) : KeyboardTrail t := by
  have hclear := h.clear
  cases stepped_of_step ht with
  | submitRequest request => exact h.quiet rfl h.clear (List.Sublist.refl _) rfl
  | signalQueue _ => exact h.quiet rfl h.clear (List.Sublist.refl _) rfl
  | keyboardInterrupt data => exact h.keyboardInterrupt data
  | runRequestQueue hs _ => exact h.quiet rfl ⟨by rw [hs]; rfl, h.clear⟩ (List.Sublist.refl _) rfl
  | runInterrupt hs _ => exact h.quiet hs ⟨rfl, trivial⟩ (List.Sublist.refl _) rfl
  | runGated hs => exact h.quiet hs trivial (List.Sublist.refl _) rfl
  | submitRequestAndBlock request hs hframe =>
    exact h.quiet rfl ⟨hok, hok, h.clear⟩ (List.Sublist.refl _) rfl
  | setHardwareOffline offline _ => exact h.quiet rfl h.clear (List.Sublist.refl _) rfl
  | handlerReturn hs hframe =>
    rw [hs] at hclear
    rcases hframe with ⟨d, rfl⟩ | rfl <;> exact h.quiet hs hclear (List.Sublist.refl _) rfl
  | dispatchQueued hs hq => exact h.dispatchQueued hs hq
  | dispatchMouse data hs _ => exact h.dispatchMouse _
  | interruptDone hs _ =>
    rw [hs] at hclear
    exact h.quiet hs hclear.2 (List.Sublist.refl _) rfl
  | readQueue hs hq _ => exact h.readQueue hs hq
  | readPort polls stream data hs _ =>
    apply h.readPort hs _ stream data
    rintro rfl
    exact hok
  | readTimeout hs _ =>
    rw [hs] at hclear
    exact h.quiet hs hclear (List.sublist_append_right _ _) rfl
  | advance ht => exact h.advance ht

/-- Along every interleaving that lets no keyboard byte pass an older one, the
driver receives the bytes in the order of the reads. -/
theorem run_keyboardInOrder {as : List Action} {s : WorkLoop}
    (hg : Transition.Guarded WorkLoop.step OlderFirst initial as)
    (hr : Transition.run WorkLoop.step initial as = some s) : KeyboardInOrder s := by
  have h := Transition.guarded_run_invariant (fun _ _ _ h hok ht => KeyboardTrail.step h hok ht)
    keyboardTrail_initial hg hr
  exact (List.pairwise_append.mp h.sorted).1

/-- The mouse is being enabled. A key is pressed, and its code is queued by the
interrupt; the code of its release is found by the mouse's read. -/
def releaseDuringMouseEnable : List Action :=
  [.runGated, .submitRequestAndBlock (setMouseEnable true), .advance, .advance, .advance,
    .advance, .advance, .keyboardInterrupt 0x1E, .readPort 0 .keyboard 0x9E, .handlerReturn,
    .readPort 0 .mouse 0xFA, .advance, .advance, .handlerReturn,
    .runInterrupt, .dispatchQueued]

theorem releaseDuringMouseEnable_overtakes :
    ∃ s, Transition.run WorkLoop.step initial releaseDuringMouseEnable = some s ∧
      s.dispatched = [(.keyboard, ⟨.keyboard, 0x9E, 1⟩), (.keyboard, ⟨.keyboard, 0x1E, 0⟩)] ∧
      ¬ KeyboardInOrder s :=
  ⟨_, rfl, by decide, by unfold KeyboardInOrder; decide⟩

/-- The release comes by an interrupt as well. -/
def releaseQueuedDuringMouseEnable : List Action :=
  [.runGated, .submitRequestAndBlock (setMouseEnable true), .advance, .advance, .advance,
    .advance, .advance, .keyboardInterrupt 0x1E, .keyboardInterrupt 0x9E,
    .readPort 0 .mouse 0xFA, .advance, .advance, .handlerReturn,
    .runInterrupt, .dispatchQueued, .handlerReturn, .dispatchQueued]

theorem releaseQueuedDuringMouseEnable_keyboardInOrder :
    ∃ s, Transition.run WorkLoop.step initial releaseQueuedDuringMouseEnable = some s ∧
      keyboardSeqs s.dispatched = [0, 1] ∧ KeyboardInOrder s :=
  ⟨_, rfl, by decide, run_keyboardInOrder
    (show Transition.Guarded WorkLoop.step OlderFirst initial releaseQueuedDuringMouseEnable
      by decide) rfl⟩

end WorkLoop
end PS2
