import NetbookInstaller.TouchPad.DragTimer

/-! A packet moves the pointer or scrolls only if it goes on with the event of the packet
before it. -/
namespace TouchPad

/-- The event neither moves the pointer nor scrolls. -/
def Dispatched.Still : Dispatched → Prop
  | .relativePointerEvent dx dy _ => dx = 0 ∧ dy = 0
  | .scrollWheelEvent deltaAxis1 deltaAxis2 => deltaAxis1 = 0 ∧ deltaAxis2 = 0
  | .swipeEvent _ => True

instance (e : Dispatched) : Decidable e.Still :=
  match e with
  | .relativePointerEvent dx dy _ => inferInstanceAs (Decidable (dx = 0 ∧ dy = 0))
  | .scrollWheelEvent x y => inferInstanceAs (Decidable (x = 0 ∧ y = 0))
  | .swipeEvent _ => .isTrue trivial

variable {D : Type}

namespace Frame

/-- Neither `dx` nor `dy` is left. -/
structure Rests (f : Frame D) : Prop where
  dx : f.dx = 0
  dy : f.dy = 0

/-- From `f` to `g` only still events are dispatched, and no motion comes up. -/
structure Quiets (f g : Frame D) : Prop where
  stills : ∃ es, g.dispatched = f.dispatched ++ es ∧ ∀ e ∈ es, e.Still
  rests : Rests f → Rests g

theorem Quiets.of_same {f g : Frame D} (hdispatched : g.dispatched = f.dispatched)
    (hmotion : Rests f → Rests g) : Quiets f g :=
  ⟨⟨[], by rw [hdispatched, List.append_nil], by simp⟩, hmotion⟩

theorem Quiets.trans {f g h : Frame D} (hfg : Quiets f g) (hgh : Quiets g h) : Quiets f h := by
  obtain ⟨es, hg, hes⟩ := hfg.stills
  obtain ⟨es', hh, hes'⟩ := hgh.stills
  refine ⟨⟨es ++ es', by rw [hh, hg, List.append_assoc], ?_⟩, hgh.rests ∘ hfg.rests⟩
  intro e he
  rcases List.mem_append.mp he with he | he
  · exact hes e he
  · exact hes' e he

theorem Quiets.after {f g h : Frame D} (hgh : Quiets g h) (hfg : Quiets f g) : Quiets f h :=
  hfg.trans hgh

theorem dispatch_quiets {f : Frame D} {e : Dispatched} (h : e.Still) : Quiets f (f.dispatch e) :=
  ⟨⟨[e], rfl, by simpa using h⟩, fun h => ⟨h.dx, h.dy⟩⟩

theorem newStream_quiets (f : Frame D) : Quiets f f.newStream := by
  unfold newStream
  dsimp only
  split <;> exact .of_same rfl fun h => ⟨by simp [h.dx], by simp [h.dy]⟩

theorem endOfScrolling_quiets (f : Frame D) : Quiets f f.endOfScrolling := by
  unfold endOfScrolling
  dsimp only
  split <;> split <;> exact .of_same rfl fun h => ⟨h.dx, h.dy⟩

theorem endOfMovement_quiets (f : Frame D) : Quiets f f.endOfMovement := by
  unfold endOfMovement
  dsimp only
  split_ifs <;> exact .of_same rfl fun h => ⟨h.dx, h.dy⟩

theorem endOfDragging_quiets (f : Frame D) : Quiets f f.endOfDragging := by
  unfold endOfDragging
  dsimp only
  split_ifs
  · exact .of_same rfl fun h => ⟨h.dx, h.dy⟩
  · -- the double click does not move the pointer
    exact ⟨⟨[.relativePointerEvent 0 0 1, .relativePointerEvent 0 0 0],
      by simp [dispatch, SynapticsTouchPad.dispatch], by simp [Dispatched.Still]⟩,
      fun h => ⟨h.dx, h.dy⟩⟩
  · exact .of_same rfl fun h => ⟨h.dx, h.dy⟩

theorem dispatchSwipe_quiets (f : Frame D) : Quiets f f.dispatchSwipe := by
  unfold dispatchSwipe
  split_ifs
  · exact dispatch_quiets trivial
  · exact dispatch_quiets trivial
  · exact .of_same rfl id

theorem endOfSwipe_quiets (f : Frame D) : Quiets f f.endOfSwipe := by
  unfold endOfSwipe
  split
  · exact (dispatchSwipe_quiets f).trans (.of_same rfl fun h => ⟨h.dx, h.dy⟩)
  · exact .of_same rfl fun h => ⟨h.dx, h.dy⟩

theorem endOfStream_quiets (f : Frame D) : Quiets f f.endOfStream := by
  unfold endOfStream
  split
  · exact endOfScrolling_quiets f
  · exact endOfMovement_quiets f
  · exact endOfDragging_quiets f
  · exact endOfSwipe_quiets f
  · exact endOfSwipe_quiets f
  all_goals exact .of_same rfl fun h => ⟨h.dx, h.dy⟩

theorem eventChanged_quiets (f : Frame D) : Quiets f f.eventChanged := by
  unfold eventChanged
  split_ifs
  · exact newStream_quiets f
  · exact endOfStream_quiets f
  · exact .of_same rfl fun _ => ⟨rfl, rfl⟩
  · exact .of_same rfl fun _ => ⟨rfl, rfl⟩
  · exact .of_same rfl fun h => ⟨h.dx, h.dy⟩

theorem draggingCalculations_quiets (f : Frame D) : Quiets f f.draggingCalculations := by
  unfold draggingCalculations
  split_ifs <;> exact .of_same rfl fun h => ⟨h.dx, h.dy⟩

/-- Motion gets past the test for scrolling only if scrolling goes on. -/
theorem scrolling_rests {f : Frame D}
    (h : ¬ (f.prevEvent = .scrolling ∧ f.event = .scrolling ∧ f.settleTime ≠ 1)) :
    Rests f.scrolling := by
  unfold scrolling
  split
  · exact ⟨rfl, rfl⟩
  next hon =>
    rw [not_or, not_or, not_not, not_not] at hon
    exact absurd hon h

theorem scrolling_quiets (f : Frame D) : Quiets f f.scrolling := by
  unfold scrolling
  split
  · exact .of_same rfl fun _ => ⟨rfl, rfl⟩
  · exact .of_same rfl id

theorem sendMovement_quiets {f : Frame D} (h : Rests f) : Quiets f f.sendMovement :=
  dispatch_quiets ⟨h.dx, by rw [h.dy]; rfl⟩

theorem send_quiets {f : Frame D}
    (h : Rests f ∨ f.event = .defaultEvent ∨ f.event = .swipe ∨ f.event = .zooming) :
    Quiets f f.send := by
  unfold send
  rcases h with h | h | h | h
  · split
    · exact dispatch_quiets ⟨rfl, by rw [h.dx]; rfl⟩
    · exact dispatch_quiets ⟨h.dy, rfl⟩
    · split_ifs
      all_goals
        exact .after (dispatch_quiets ⟨by simp [h.dy], by simp [h.dx]⟩)
          (.of_same rfl fun h => ⟨by simp [h.dx], by simp [h.dy]⟩)
    · split
      all_goals
        exact .after (sendMovement_quiets ⟨h.dx, h.dy⟩) (.of_same rfl fun h => ⟨h.dx, h.dy⟩)
    · exact sendMovement_quiets h
    all_goals exact dispatch_quiets ⟨rfl, rfl⟩
  all_goals
    rw [h]
    exact dispatch_quiets ⟨rfl, rfl⟩

variable [Double D]

theorem edgeScrolling_quiets (p : Packet) (f : Frame D) : Quiets f (f.edgeScrolling p) := by
  unfold edgeScrolling
  dsimp only
  split_ifs <;> exact .of_same rfl fun h => ⟨h.dx, h.dy⟩

/-- The packet goes on with the event of the one before: with scrolling unless this is the
last packet of the settling, with other events once they have settled. -/
def GoesOn (f : Frame D) : Prop :=
  f.event = f.prevEvent ∧
    (f.event = .scrolling ∧ f.settleTime ≠ 1 ∨
      f.settleTime = 0 ∧ (f.event = .movement ∨ f.event = .dragging ∨
        f.event = .verticalScrolling ∨ f.event = .horizontalScrolling))

instance (f : Frame D) : Decidable (GoesOn f) :=
  inferInstanceAs (Decidable (_ ∧ (_ ∧ _ ∨ _ ∧ (_ ∨ _ ∨ _ ∨ _))))

theorem edgeScrolling_cases (p : Packet) (f : Frame D) :
    f.edgeScrolling p = f ∨ (f.edgeScrolling p).event = .verticalScrolling ∨
      (f.edgeScrolling p).event = .horizontalScrolling := by
  unfold edgeScrolling
  dsimp only
  split_ifs
  · exact .inr (.inl rfl)
  · exact .inr (.inr rfl)
  · exact .inl rfl

theorem edgeScrolling_scrolling {p : Packet} {f : Frame D}
    (h : (f.edgeScrolling p).prevEvent = .scrolling ∧ (f.edgeScrolling p).event = .scrolling ∧
      (f.edgeScrolling p).settleTime ≠ 1) : GoesOn f := by
  rcases edgeScrolling_cases p f with hsame | hedge | hedge
  · rw [hsame] at h
    exact ⟨h.2.1.trans h.1.symm, .inl h.2⟩
  · rw [hedge] at h
    cases h.2.1
  · rw [hedge] at h
    cases h.2.1

theorem settle_quiets (p : Packet) (f : Frame D) : Quiets f (f.settle p) := by
  unfold settle
  split
  · exact (((edgeScrolling_quiets p f).trans (scrolling_quiets _)).trans
      (eventChanged_quiets _)).trans (draggingCalculations_quiets _)
  · exact .of_same rfl id

/-- A packet that does not go on with an event has no motion to send. -/
theorem settle_rests (p : Packet) {f : Frame D} (h : ¬ GoesOn f) :
    Rests (f.settle p) ∨ (f.settle p).event = .defaultEvent ∨ (f.settle p).event = .swipe ∨
      (f.settle p).event = .zooming := by
  unfold settle
  split
  next =>
    left
    apply (draggingCalculations_quiets _).rests
    apply (eventChanged_quiets _).rests
    exact scrolling_rests fun hscrolling => h (edgeScrolling_scrolling hscrolling)
  next hsame =>
    right
    rw [not_or, not_not, not_not] at hsame
    obtain ⟨hprev, hsettle⟩ := hsame
    unfold GoesOn at h
    cases hevent : f.event <;> simp_all

end Frame

namespace SynapticsTouchPad

variable [Double D]

/-- What the driver dispatches for a packet. -/
def dispatchedFor (s : SynapticsTouchPad D) (p : Packet) : List Dispatched :=
  (s.dispatchRelativePointerEventWithAbsolutePacket p).dispatched.drop s.dispatched.length

/-- The time since the last packet, in microseconds. -/
def elapsed (s : SynapticsTouchPad D) (p : Packet) : ℤ :=
  (p.second.toNat * 1000000 + p.currentTime.toNat) -
    (s.prevPacketSecond.toNat * 1000000 + s.prevPacketTime.toNat)

/-- The last packet was one without a finger, or came more than 20 ms ago. -/
def AfterPause (s : SynapticsTouchPad D) (p : Packet) : Prop :=
  s.prevNumFingers = 0 ∨ 20000 < s.elapsed p

/-- The packet goes on with the event that the driver is in: it has a finger and comes, by
the driver's 32-bit clock, at most 20 ms after the last packet, and the event is
`.scrolling` before the last packet of its settling or another one that has settled. -/
def GoesOn (s : SynapticsTouchPad D) (p : Packet) : Prop :=
  s.dt p ≤ 20000 ∧ s.numFingers p ≠ 0 ∧
    match s.event with
    | .scrolling =>
      s.settleTime ≠ 1 ∧ s.numFingers p = 2 ∧ s.pref.scrollMode = SCROLL_MODE_TWO_FINGER
    | .movement =>
      s.settleTime = 0 ∧ (s.numFingers p = 1 ∨
        s.numFingers p = 2 ∧ s.pref.scrollMode ≠ SCROLL_MODE_TWO_FINGER)
    | .dragging | .verticalScrolling | .horizontalScrolling => s.settleTime = 0
    | .defaultEvent | .zooming | .swipe => False

theorem goesOn_ofPacket {s : SynapticsTouchPad D} {p : Packet} :
    Frame.GoesOn (Frame.ofPacket s p) ↔ s.GoesOn p := by
  show s.nextEvent p = s.event ∧ (s.nextEvent p = .scrolling ∧ s.settleTime ≠ 1 ∨
    s.settleTime = 0 ∧ (s.nextEvent p = .movement ∨ s.nextEvent p = .dragging ∨
      s.nextEvent p = .verticalScrolling ∨ s.nextEvent p = .horizontalScrolling)) ↔ _
  unfold GoesOn nextEvent
  by_cases hswipe : s.event = .swipe ∧ s.settleTime ≠ 0
  · rw [if_pos hswipe, hswipe.1]
    simp
  rw [if_neg hswipe]
  have hsoon : s.dt p > 20000 ↔ ¬ s.dt p ≤ 20000 := UInt64.not_le.symm
  by_cases hdefault : s.dt p > 20000 ∨ s.numFingers p = 0
  · have hoff : ¬ (s.dt p ≤ 20000 ∧ s.numFingers p ≠ 0) := by
      rw [not_and_or, not_not, ← hsoon]
      exact hdefault
    rw [← and_assoc, if_pos hdefault]
    simp only [hoff, false_and, iff_false]
    cases hevent : s.event <;> simp
  · rw [if_neg hdefault]
    rw [not_or, hsoon, not_not] at hdefault
    obtain ⟨hdt, hfingers⟩ := hdefault
    simp only [hdt, hfingers, ne_eq, not_false_eq_true, true_and]
    cases hevent : s.event
    case dragging | verticalScrolling | horizontalScrolling => simp
    all_goals
      by_cases hmode : s.pref.scrollMode = SCROLL_MODE_TWO_FINGER
      all_goals
        simp only [hmode, if_true, if_false]
        split <;> simp_all

/-- What is dispatched for a packet that does not go on with an event does not move. -/
theorem dispatchedFor_still {s : SynapticsTouchPad D} {p : Packet} (h : ¬ s.GoesOn p) :
    ∀ e ∈ s.dispatchedFor p, e.Still := by
  have hquiet : Frame.Quiets (Frame.ofPacket s p) ((Frame.ofPacket s p).settle p).send :=
    (Frame.settle_quiets p _).trans
      (Frame.send_quiets (Frame.settle_rests p (goesOn_ofPacket.not.mpr h)))
  obtain ⟨es, hes, hstill⟩ := hquiet.stills
  have hdispatched : s.dispatchedFor p = es := by
    show (((Frame.ofPacket s p).settle p).send.dispatched).drop s.dispatched.length = es
    rw [hes]
    exact List.drop_left
  rw [hdispatched]
  exact hstill

/-- A packet that goes on with an event is sent with all of its movement. -/
theorem goesOn_movement {s : SynapticsTouchPad D} {p : Packet} (h : s.GoesOn p) :
    let f := (Frame.ofPacket s p).settle p
    f.event = s.event ∧ f.dx = (s.movement p).1 ∧ f.dy = (s.movement p).2 := by
  obtain ⟨hevent, hkind⟩ := goesOn_ofPacket.mpr h
  have hprev : s.nextEvent p = s.event := hevent
  dsimp only
  unfold Frame.settle
  split
  next hchanged =>
    -- the event has not changed, so that it is a settling scroll
    have hsettle : (Frame.ofPacket s p).settleTime ≠ 0 :=
      hchanged.resolve_left fun hne => hne hevent.symm
    obtain ⟨hscrolling, hone⟩ := hkind.resolve_right fun hsettled => hsettle hsettled.1
    have hprevScrolling : (Frame.ofPacket s p).prevEvent = .scrolling := hevent.symm.trans hscrolling
    have hedge : (Frame.ofPacket s p).edgeScrolling p = Frame.ofPacket s p := by
      simp [Frame.edgeScrolling, hprevScrolling]
    have hon : (Frame.ofPacket s p).scrolling = Frame.ofPacket s p := by
      simp [Frame.scrolling, hprevScrolling, hscrolling, hone]
    rw [hedge, hon, Frame.eventChanged, if_neg hsettle, Frame.draggingCalculations]
    have hscrolling' : s.nextEvent p = .scrolling := hscrolling
    simp [Frame.ofPacket, hscrolling', ← hprev]
  next => exact ⟨hprev, rfl, rfl⟩

/-- No packet that comes after a pause goes on with an event. -/
def StartsAnew (s : SynapticsTouchPad D) : Action → Prop
  | .absolutePacket p => s.AfterPause p → ¬ s.GoesOn p
  | _ => True

/-- Nothing that is dispatched for a packet after a pause moves. -/
def NoJump (s : SynapticsTouchPad D) : Action → Prop
  | .absolutePacket p => s.AfterPause p → ∀ e ∈ s.dispatchedFor p, e.Still
  | _ => True

theorem noJump_of_startsAnew (s : SynapticsTouchPad D) (a : Action) (h : s.StartsAnew a) :
    s.NoJump a := by
  cases a with
  | absolutePacket p => exact fun hpause => dispatchedFor_still (h hpause)
  | _ => trivial

/-- In every run in which no packet after a pause goes on with an event, such packets
neither move the pointer nor scroll. -/
theorem run_noJump (capabilities : UInt16) (extendedCapabilities : UInt32) (scaleFactor : D)
    (as : List Action)
    (h : Transition.Guarded step StartsAnew
      (start capabilities extendedCapabilities scaleFactor) as) :
    Transition.Guarded step NoJump (start capabilities extendedCapabilities scaleFactor) as :=
  h.imp noJump_of_startsAnew

instance (s : SynapticsTouchPad D) (p : Packet) : Decidable (s.AfterPause p) :=
  inferInstanceAs (Decidable (_ ∨ _))

instance (s : SynapticsTouchPad D) (p : Packet) : Decidable (s.GoesOn p) :=
  decidable_of_iff (Frame.GoesOn (Frame.ofPacket s p)) goesOn_ofPacket

instance (s : SynapticsTouchPad D) (a : Action) : Decidable (s.StartsAnew a) :=
  match a with
  | .absolutePacket p => inferInstanceAs (Decidable (s.AfterPause p → ¬ s.GoesOn p))
  | .timerExpires | .setParamProperties _ | .setDevicePowerState _ => .isTrue trivial

instance (s : SynapticsTouchPad D) (a : Action) : Decidable (s.NoJump a) :=
  match a with
  | .absolutePacket p =>
    inferInstanceAs (Decidable (s.AfterPause p → ∀ e ∈ s.dispatchedFor p, e.Still))
  | .timerExpires | .setParamProperties _ | .setDevicePowerState _ => .isTrue trivial

end SynapticsTouchPad

/-- The tap does not move the pointer when the finger comes down. -/
theorem tap_noJump : Transition.Guarded step SynapticsTouchPad.NoJump plainPad tap :=
  SynapticsTouchPad.run_noJump 0x8000 0 1 tap (by decide +kernel)

/-- The finger has been away since the tap when the drag timer expires, and then it comes
down elsewhere. -/
def touchAfterTimer : List Action :=
  tap ++ List.replicate 5 (fingerAt 0 0 15000) ++ [.timerExpires, fingerAt 100 40 16000]

/-- Two fingers that scroll are away for one packet. -/
def scrollAgain : List Action :=
  [.setParamProperties { noParams with scrollMode := some 1, horizScroll := some true }] ++
    List.replicate 4 (fingerAt 0 70 0) ++ [fingerAt 0 0 5000, fingerAt 100 70 10000]

/-- After the expiry of the drag timer the pointer jumps, and after the end of a scroll the
window does. -/
theorem pointer_jumps :
    ¬ Transition.Guarded step SynapticsTouchPad.NoJump plainPad touchAfterTimer ∧
      ¬ Transition.Guarded step SynapticsTouchPad.NoJump plainPad scrollAgain := by
  constructor <;> decide +kernel

end TouchPad
