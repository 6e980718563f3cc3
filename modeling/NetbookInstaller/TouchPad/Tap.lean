import NetbookInstaller.TouchPad.StreamTime
import NetbookInstaller.TouchPad.Buttons

/-! Which touches of one finger the driver takes for a tap. -/
namespace TouchPad

/-- The event reports a pressed button. -/
def Dispatched.press : Dispatched → Bool
  | .relativePointerEvent _ _ buttons => buttons != 0
  | .scrollWheelEvent _ _ | .swipeEvent _ => false

/-- The events that report a pressed button. -/
def presses (dispatched : List Dispatched) : List Dispatched := dispatched.filter Dispatched.press

theorem presses_append_of_not_press {e : Dispatched} (ds : List Dispatched)
    (h : e.press = false) : presses (ds ++ [e]) = presses ds := by
  simp [presses, h]

theorem presses_append_of_press {e : Dispatched} (ds : List Dispatched)
    (h : e.press = true) : presses (ds ++ [e]) = presses ds ++ [e] := by
  simp [presses, h]

variable {D : Type}

section Edge
variable [Double D]

/-- A finger that comes down here scrolls. -/
def Prefs.AtEdge (pref : Prefs D) (p : Packet) : Prop :=
  pref.scrollMode = SCROLL_MODE_EDGE ∧
    (Double.lt (IntCast.intCast ABSOLUTE_X_MAX * (1.0 - pref.scrollArea)) (ofUInt32 p.absX : D) ∨
      pref.horizScroll ∧ Double.lt (ofUInt32 p.absY)
        (IntCast.intCast ABSOLUTE_Y_MIN * (1.0 + pref.scrollArea / 2.0) : D))

instance (pref : Prefs D) (p : Packet) : Decidable (pref.AtEdge p) :=
  inferInstanceAs (Decidable (_ = _ ∧ (_ = _ ∨ _ = _ ∧ _ = _)))

end Edge

/-- The time and the movement of a stream are those of a tap. -/
def Prefs.TapLimits (pref : Prefs D) (stream : ℤ × ℤ × UInt64) : Prop :=
  TAP_LENGTH_MIN < stream.2.2 ∧ stream.2.2 < pref.clickDelay.toUInt64 ∧
    |stream.1| ≤ 50 ∧ |stream.2.1| ≤ 50

instance (pref : Prefs D) (stream : ℤ × ℤ × UInt64) : Decidable (pref.TapLimits stream) :=
  inferInstanceAs (Decidable (_ < _ ∧ _ < _ ∧ _ ≤ _ ∧ _ ≤ _))

/-- The driver is scrolling at an edge. -/
def Event.AtEdge (e : Event) : Prop := e = .verticalScrolling ∨ e = .horizontalScrolling

namespace SynapticsTouchPad

/-- What only a tap or a drag changes. -/
def held (s : SynapticsTouchPad D) :
    Prefs D × (Bool × Bool × Bool × Option UInt32) × List Dispatched :=
  (s.pref, (s.tapped, s.dragging, s.dragLocked, s.dragTimeout), presses s.dispatched)

/-- What comes of a touch that leads from `s` to `t`, if it is a `tap`: a left click, or where
dragging is on, a pending tap for which the drag timer is armed. A drag that is locked takes
the tap. -/
structure TapOutcome (s t : SynapticsTouchPad D) (tap : Prop) : Prop where
  click : tap ∧ s.pref.dragging = false →
    presses t.dispatched = presses s.dispatched ++ [.relativePointerEvent 0 0 LEFT_CLICK]
  noClick : ¬ (tap ∧ s.pref.dragging = false) → presses t.dispatched = presses s.dispatched
  tapped : t.tapped = true ↔ tap ∧ s.pref.dragging = true ∧ s.dragLocked = false
  dragTimeout : t.tapped = true → t.dragTimeout = some s.pref.clickDelay
  dragging : t.dragging = s.dragging

theorem TapOutcome.congr {s s' t t' : SynapticsTouchPad D} {tap : Prop} (h : TapOutcome s t tap)
    (hs : s'.held = s.held) (ht : t'.held = t.held) : TapOutcome s' t' tap := by
  simp only [held, Prod.mk.injEq] at hs ht
  obtain ⟨hpref, ⟨-, hdrag, hlocked, -⟩, hpressed⟩ := hs
  obtain ⟨-, ⟨htapped, hdragging, -, htimer⟩, hpresses⟩ := ht
  constructor
  · rw [hpref, hpressed, hpresses]
    exact h.click
  · rw [hpref, hpressed, hpresses]
    exact h.noClick
  · rw [hpref, hlocked, htapped]
    exact h.tapped
  · rw [hpref, htapped, htimer]
    exact h.dragTimeout
  · rw [hdrag, hdragging]
    exact h.dragging

theorem tapOutcome_of_held {s t : SynapticsTouchPad D} {tap : Prop} (h : t.held = s.held)
    (htapped : s.tapped = false) (hno : ¬ tap) : TapOutcome s t tap := by
  have hnone : TapOutcome s s tap := by
    refine ⟨fun htap => absurd htap.1 hno, fun _ => rfl, ?_, ?_, rfl⟩
    · simp [htapped, hno]
    · simp [htapped]
  exact hnone.congr rfl h

end SynapticsTouchPad

namespace Frame

/-- What only a tap or a drag changes. -/
def held (f : Frame D) : Prefs D × UInt8 × (Bool × Bool × Bool × Option UInt32) × List Dispatched :=
  (f.pref, f.buttons, (f.tapped, f.dragging, f.dragLocked, f.dragTimeout), f.dispatched)

theorem scrolling_held (f : Frame D) : f.scrolling.held = f.held := by
  unfold scrolling
  split <;> rfl

theorem scrolling_event (f : Frame D) : f.scrolling.event = f.event := by
  unfold scrolling
  split <;> rfl

theorem held_pad {f g : Frame D} (h : g.held = f.held) :
    g.buttons = f.buttons ∧ g.dragging = f.dragging ∧
      g.toSynapticsTouchPad.held = f.toSynapticsTouchPad.held := by
  simp only [held, SynapticsTouchPad.held, Prod.mk.injEq] at h ⊢
  obtain ⟨hpref, hbuttons, hpending, hdispatched⟩ := h
  exact ⟨hbuttons, hpending.2.1, hpref, hpending, congrArg presses hdispatched⟩

theorem newStream_of_not_dragging {f : Frame D} (h : f.dragging = false) :
    f.newStream.held = f.held ∧ f.newStream.settleTime = 2 ∧ f.newStream.event = f.event := by
  unfold newStream
  dsimp only
  rw [if_neg (by simp [h])]
  exact ⟨rfl, rfl, rfl⟩

theorem draggingCalculations_of_not_tapped {f : Frame D} (h : f.tapped = false) :
    f.draggingCalculations = f := by
  simp [draggingCalculations, h]

/-- The end of a stream that is no tap: scrolling at an edge. -/
theorem endOfStream_of_edge {f : Frame D} (h : f.prevEvent.AtEdge) :
    f.endOfStream.held = f.held ∧ f.endOfStream.event = f.event := by
  unfold endOfStream
  rcases h with h | h <;> rw [h] <;> exact ⟨rfl, rfl⟩

theorem tapping_iff {f : Frame D} : f.tapping = true ↔ f.pref.TapLimits f.stream := by
  have habs : ∀ x : ℤ, x.natAbs ≤ 50 ↔ |x| ≤ 50 := by
    intro x
    rw [Int.abs_eq_natAbs]
    omega
  simp only [SynapticsTouchPad.tapping, Prefs.TapLimits, stream, Bool.and_eq_true,
    decide_eq_true_eq, habs, gt_iff_lt]
  tauto

/-- Without a button and a drag, no button is sent. -/
theorem send_held {f : Frame D} (hbuttons : f.buttons = 0) (hdragging : f.dragging = false)
    (hevent : f.event ≠ .dragging) :
    f.send.toSynapticsTouchPad.held = f.toSynapticsTouchPad.held := by
  have hpress : ∀ e : Dispatched, e.press = false →
      (f.dispatch e).toSynapticsTouchPad.held = f.toSynapticsTouchPad.held := by
    intro e he
    have hsame := presses_append_of_not_press f.dispatched he
    unfold SynapticsTouchPad.held
    rw [show (f.dispatch e).dispatched = f.dispatched ++ [e] from rfl, hsame]
    rfl
  have hnone : f.addDragging = 0 := by
    rw [addDragging, hbuttons, hdragging]
    rfl
  unfold send
  split
  next => exact hpress _ rfl
  next => exact hpress _ rfl
  next =>
    dsimp only
    split_ifs <;> exact hpress (.scrollWheelEvent _ _) rfl
  next hdrag => exact absurd hdrag hevent
  next =>
    rw [sendMovement, hnone]
    exact hpress _ rfl
  all_goals
    rw [hnone]
    exact hpress _ rfl

/-- What is sent for the packet that ends a movement. -/
theorem endOfMovement_tapOutcome {f : Frame D} (hclicking : f.pref.clicking = true)
    (hevent : f.endOfMovement.event = .defaultEvent) (hbuttons : f.buttons = 0)
    (hdragging : f.dragging = false) (htapped : f.tapped = false) :
    SynapticsTouchPad.TapOutcome f.toSynapticsTouchPad f.endOfMovement.send.toSynapticsTouchPad
      (f.pref.TapLimits f.stream) := by
  rw [← tapping_iff]
  have hsend : f.endOfMovement.send =
      f.endOfMovement.dispatch (.relativePointerEvent 0 0 f.endOfMovement.addDragging) := by
    rw [send, hevent]
  have hopen : f.endOfMovement =
      if f.tapping then
        if !f.pref.dragging then { f with settleTime := 5, buttons := LEFT_CLICK }
        else if f.dragLocked then { f with settleTime := 5, dragLocked := false }
        else { f with settleTime := 5, tapped := true, dragTimeout := some f.pref.clickDelay }
      else { f with settleTime := 5 } := by
    unfold endOfMovement
    simp only [hclicking, Bool.true_and]
    rfl
  have hnone : presses (f.dispatched ++ [.relativePointerEvent 0 0 0]) = presses f.dispatched :=
    presses_append_of_not_press _ rfl
  have hclick : presses (f.dispatched ++ [.relativePointerEvent 0 0 LEFT_CLICK]) =
      presses f.dispatched ++ [.relativePointerEvent 0 0 LEFT_CLICK] :=
    presses_append_of_press _ rfl
  rw [hsend]
  by_cases htap : f.tapping = true
  · by_cases hdrag : f.pref.dragging = true
    · by_cases hlocked : f.dragLocked = true
      · have hend : f.endOfMovement = { f with settleTime := 5, dragLocked := false } := by
          rw [hopen, if_pos htap, if_neg (by simp [hdrag]), if_pos hlocked]
        rw [hend, addDragging, hbuttons, hdragging]
        refine ⟨by simp [hdrag], fun _ => hnone, ?_, ?_, hdragging.symm⟩
        · simp [hlocked, htapped, dispatch, SynapticsTouchPad.dispatch]
        · simp [htapped, dispatch, SynapticsTouchPad.dispatch]
      · have hend : f.endOfMovement =
            { f with settleTime := 5, tapped := true, dragTimeout := some f.pref.clickDelay } := by
          rw [hopen, if_pos htap, if_neg (by simp [hdrag]), if_neg hlocked]
        rw [hend, addDragging, hbuttons, hdragging]
        refine ⟨by simp [hdrag], fun _ => hnone, ?_, fun _ => rfl, hdragging.symm⟩
        simp [htap, hdrag, hlocked, dispatch, SynapticsTouchPad.dispatch]
    · have hend : f.endOfMovement = { f with settleTime := 5, buttons := LEFT_CLICK } := by
        rw [hopen, if_pos htap, if_pos (by simp [hdrag])]
      have hbutton : f.endOfMovement.addDragging = LEFT_CLICK := by
        rw [hend, addDragging, hdragging]
        show LEFT_CLICK ||| (if false = true then 1 else 0) = LEFT_CLICK
        decide
      rw [hbutton, hend]
      refine ⟨fun _ => hclick, fun hno => absurd ⟨htap, by simpa using hdrag⟩ hno, ?_, ?_, rfl⟩
      · simp [hdrag, htapped, dispatch, SynapticsTouchPad.dispatch]
      · simp [htapped, dispatch, SynapticsTouchPad.dispatch]
  · have hend : f.endOfMovement = { f with settleTime := 5 } := by
      rw [hopen, if_neg htap]
    rw [hend, addDragging, hbuttons, hdragging]
    refine ⟨by simp [htap], fun _ => hnone, ?_, ?_, hdragging.symm⟩
    · simp [htap, htapped, dispatch, SynapticsTouchPad.dispatch]
    · simp [htapped, dispatch, SynapticsTouchPad.dispatch]

variable [Double D]

theorem edgeScrolling_held (p : Packet) (f : Frame D) : (f.edgeScrolling p).held = f.held := by
  unfold edgeScrolling
  dsimp only
  split_ifs <;> rfl

theorem edgeScrolling_of_prevEvent {p : Packet} {f : Frame D} (h : f.prevEvent ≠ .defaultEvent) :
    f.edgeScrolling p = f := by
  simp [edgeScrolling, h]

theorem edgeScrolling_atEdge {p : Packet} {f : Frame D} (hprev : f.prevEvent = .defaultEvent)
    (h : f.pref.AtEdge p) : (f.edgeScrolling p).event.AtEdge := by
  obtain ⟨hmode, hedge⟩ := h
  unfold edgeScrolling
  dsimp only
  split
  next => exact .inl rfl
  next hright =>
    rw [if_pos ⟨⟨hprev, hmode⟩, hedge.resolve_left fun h => hright ⟨⟨hprev, hmode⟩, h⟩⟩]
    exact .inr rfl

theorem edgeScrolling_of_not_atEdge {p : Packet} {f : Frame D} (h : ¬ f.pref.AtEdge p) :
    f.edgeScrolling p = f := by
  unfold edgeScrolling
  dsimp only
  rw [if_neg fun hright => h ⟨hright.1.2, .inl hright.2⟩,
    if_neg fun hbottom => h ⟨hbottom.1.2, .inr hbottom.2⟩]

/-- The first packet of a stream. -/
theorem settle_starts {f : Frame D} (p : Packet) (h : f.StartsStream) (htapped : f.tapped = false)
    (hdragging : f.dragging = false) :
    (f.settle p).held = f.held ∧ (f.settle p).settleTime = 2 ∧
      (f.settle p).event = (f.edgeScrolling p).event := by
  obtain ⟨hprev, hsettle, hevent⟩ := h
  have hg := edgeScrolling_scrolling_atEdge p f
  have hheld : ((f.edgeScrolling p).scrolling).held = f.held := by
    rw [scrolling_held, edgeScrolling_held]
  obtain ⟨hnew, hsettled, hsame⟩ := newStream_of_not_dragging (hg.dragging.trans hdragging)
  have htap : ((f.edgeScrolling p).scrolling).newStream.tapped = false := by
    have h := congrArg (fun x => x.2.2.1.1) (hnew.trans hheld)
    exact h.trans htapped
  have hchanged : f.prevEvent ≠ f.event ∨ f.settleTime ≠ 0 := .inl fun h => hevent (h ▸ hprev)
  rw [settle, if_pos hchanged, eventChanged, if_pos (hg.settleTime.trans hsettle),
    if_pos (hg.prevEvent.trans hprev), draggingCalculations_of_not_tapped htap]
  exact ⟨hnew.trans hheld, hsettled, hsame.trans (scrolling_event _)⟩

/-- A packet while the touchpad settles. -/
theorem settle_settling {f : Frame D} (p : Packet) (hsettle : f.settleTime ≠ 0)
    (htapped : f.tapped = false ∨ f.event ≠ .movement) :
    (f.settle p).held = f.held ∧ (f.settle p).settleTime = f.settleTime - 1 ∧
      (f.settle p).event = (f.edgeScrolling p).event := by
  have hg := edgeScrolling_scrolling_atEdge p f
  have hheld : ((f.edgeScrolling p).scrolling).held = f.held := by
    rw [scrolling_held, edgeScrolling_held]
  have hsettling : ((f.edgeScrolling p).scrolling).settleTime ≠ 0 := by
    rw [hg.settleTime]
    exact hsettle
  have hdrag : ((f.edgeScrolling p).scrolling).eventChanged.draggingCalculations =
      ((f.edgeScrolling p).scrolling).eventChanged := by
    rw [eventChanged, if_neg hsettling]
    rcases htapped with htapped | hevent
    · exact draggingCalculations_of_not_tapped (hg.tapped.trans htapped)
    · apply draggingCalculations_eq
      rcases hg.event with hsame | ⟨-, hedge | hedge⟩
      · exact hsame ▸ hevent
      · rw [hedge]
        decide
      · rw [hedge]
        decide
  rw [settle, if_pos (.inr hsettle), hdrag, eventChanged, if_neg hsettling]
  refine ⟨hheld, ?_, scrolling_event _⟩
  show ((f.edgeScrolling p).scrolling).settleTime - 1 = _
  rw [hg.settleTime]

theorem settle_settled {f : Frame D} (p : Packet) (hevent : f.prevEvent = f.event)
    (hsettle : f.settleTime = 0) : f.settle p = f := by
  rw [settle, if_neg]
  rw [not_or, not_not, not_not]
  exact ⟨hevent, hsettle⟩

/-- A packet that does not end a movement which has settled is no tap. -/
theorem settle_idles {f : Frame D} (p : Packet) (hevent : f.event = .defaultEvent)
    (hprev : f.prevEvent = .defaultEvent ∨ f.prevEvent.AtEdge ∨ f.settleTime ≠ 0) :
    (f.settle p).held = f.held ∧ ((f.settle p).event = .defaultEvent ∨
      f.prevEvent = .defaultEvent ∧ (f.settle p).event.AtEdge) := by
  have hg := edgeScrolling_scrolling_atEdge p f
  by_cases hsettle : f.settleTime = 0
  · by_cases hdefault : f.prevEvent = .defaultEvent
    · rw [settle_settled p (hdefault.trans hevent.symm) hsettle]
      exact ⟨rfl, .inl hevent⟩
    · have hedge : f.prevEvent.AtEdge :=
        (hprev.resolve_left hdefault).resolve_right fun hne => hne hsettle
      have hsame : f.scrolling.event = .defaultEvent := (scrolling_event f).trans hevent
      rw [edgeScrolling_of_prevEvent hdefault] at hg
      obtain ⟨hheld, hend⟩ := endOfStream_of_edge (f := f.scrolling) (by rwa [hg.prevEvent])
      have hdrag : f.scrolling.endOfStream.draggingCalculations = f.scrolling.endOfStream :=
        draggingCalculations_eq (by rw [hend, hsame]; decide)
      rw [settle, if_pos (.inl (by rwa [hevent])), edgeScrolling_of_prevEvent hdefault,
        eventChanged, if_pos (hg.settleTime.trans hsettle), if_neg (by rwa [hg.prevEvent]),
        if_pos hsame, hdrag]
      exact ⟨hheld.trans (scrolling_held f), .inl (hend.trans hsame)⟩
  · obtain ⟨hheld, -, hsame⟩ := settle_settling p hsettle (.inr (by rw [hevent]; decide))
    refine ⟨hheld, ?_⟩
    rcases edgeScrolling_cases p f with hno | hedge
    · rw [hno, hevent] at hsame
      exact .inl hsame
    · by_cases hdefault : f.prevEvent = .defaultEvent
      · exact .inr ⟨hdefault, hsame ▸ hedge⟩
      · rw [edgeScrolling_of_prevEvent hdefault, hevent] at hsame
        exact .inl hsame

/-- The packet that ends a movement which has settled. -/
theorem settle_lifts {f : Frame D} (p : Packet) (hevent : f.event = .defaultEvent)
    (hprev : f.prevEvent = .movement) (hsettle : f.settleTime = 0) :
    f.settle p = f.scrolling.endOfMovement ∧ f.scrolling.endOfMovement.event = .defaultEvent := by
  have hdefault : f.prevEvent ≠ .defaultEvent := by
    rw [hprev]
    decide
  have hsame : f.scrolling.event = .defaultEvent := (scrolling_event f).trans hevent
  have hg := edgeScrolling_scrolling_atEdge p f
  rw [edgeScrolling_of_prevEvent hdefault] at hg
  have hend : f.scrolling.endOfMovement.event = .defaultEvent := by
    unfold endOfMovement
    dsimp only
    split_ifs <;> exact hsame
  have hstream : f.scrolling.endOfStream = f.scrolling.endOfMovement := by
    rw [endOfStream, hg.prevEvent, hprev]
  refine ⟨?_, hend⟩
  rw [settle, if_pos (.inl (by rw [hevent]; exact hdefault)), edgeScrolling_of_prevEvent hdefault,
    eventChanged, if_pos (hg.settleTime.trans hsettle), if_neg (by rwa [hg.prevEvent]),
    if_pos hsame, hstream, draggingCalculations_eq (by rw [hend]; decide)]

end Frame

namespace SynapticsTouchPad

variable [Double D]

/-- No touch goes on, and nothing is pending. -/
structure Settled (s : SynapticsTouchPad D) : Prop where
  event : s.event = .defaultEvent
  settleTime : s.settleTime = 0
  tapped : s.tapped = false
  dragging : s.dragging = false

/-- One finger and no button. -/
structure OneFinger (s : SynapticsTouchPad D) (p : Packet) : Prop where
  numFingers : s.numFingers p = 1
  buttons : p.buttons s.pref.swapButtons = 0

/-- One finger and no button, at most 20 ms after the packet before. -/
structure InTouch (s : SynapticsTouchPad D) (p : Packet) : Prop extends s.OneFinger p where
  soon : s.dt p ≤ 20000

/-- No finger and no button. -/
structure NoFinger (s : SynapticsTouchPad D) (p : Packet) : Prop where
  numFingers : s.numFingers p = 0
  buttons : p.buttons s.pref.swapButtons = 0

/-- The finger has been lifted, or the packet comes too late to go on with the touch. -/
structure EndsTouch (s : SynapticsTouchPad D) (p : Packet) : Prop where
  ends : s.dt p > 20000 ∨ s.numFingers p = 0
  buttons : p.buttons s.pref.swapButtons = 0

theorem NoFinger.endsTouch {s : SynapticsTouchPad D} {p : Packet} (h : s.NoFinger p) :
    s.EndsTouch p := ⟨.inr h.numFingers, h.buttons⟩

def onPacket (s : SynapticsTouchPad D) (p : Packet) : Option (SynapticsTouchPad D) :=
  step s (.absolutePacket p)

def packets (s : SynapticsTouchPad D) (ps : List Packet) : SynapticsTouchPad D :=
  ps.foldl dispatchRelativePointerEventWithAbsolutePacket s

/-- A touch of one finger; nothing is said of the time before it. -/
def Touch (s : SynapticsTouchPad D) : List Packet → Prop
  | [] => False
  | p :: ps => s.OneFinger p ∧
      Transition.Guarded onPacket InTouch (s.dispatchRelativePointerEventWithAbsolutePacket p) ps

/-- What the packets add up to, on top of what there is. -/
def streamAfter : SynapticsTouchPad D → ℤ × ℤ × UInt64 → List Packet → ℤ × ℤ × UInt64
  | _, stream, [] => stream
  | s, (dx, dy, dt), p :: ps =>
    streamAfter (s.dispatchRelativePointerEventWithAbsolutePacket p)
      (addSInt32 dx (s.movement p).1, addSInt32 dy (s.movement p).2, dt + s.dt p) ps

/-- The stream is a tap if the finger has not come down at an edge, there are two more packets
for the touchpad to settle, and from the first packet to the lift the limits are kept. -/
def StreamTaps (s : SynapticsTouchPad D) (lift : Packet) : List Packet → Prop
  | [] => False
  | p :: ps => ¬ s.pref.AtEdge p ∧ 2 ≤ ps.length ∧
      s.pref.TapLimits
        (streamAfter (s.dispatchRelativePointerEventWithAbsolutePacket p) (0, 0, 0) (ps ++ [lift]))

/-- The stream of a touch does not start with a packet that comes after a pause. -/
def Taps (s : SynapticsTouchPad D) (lift : Packet) : List Packet → Prop
  | [] => False
  | p :: ps =>
    if s.dt p > 20000 then
      (s.dispatchRelativePointerEventWithAbsolutePacket p).StreamTaps lift ps
    else s.StreamTaps lift (p :: ps)

theorem nextEvent_ends {s : SynapticsTouchPad D} {p : Packet} (h : s.EndsTouch p)
    (hevent : s.event ≠ .swipe) : s.nextEvent p = .defaultEvent := by
  simp [nextEvent, hevent, h.ends]

theorem nextEvent_inTouch {s : SynapticsTouchPad D} {p : Packet} (h : s.InTouch p)
    (hevent : s.event = .defaultEvent ∨ s.event = .movement) : s.nextEvent p = .movement := by
  have hsoon : ¬ s.dt p > 20000 := UInt64.not_lt.mpr h.soon
  rcases hevent with hevent | hevent <;> simp [nextEvent, hevent, hsoon, h.numFingers]

theorem nextEvent_edge {s : SynapticsTouchPad D} {p : Packet} (h : s.InTouch p)
    (hevent : s.event.AtEdge) : s.nextEvent p = s.event := by
  have hsoon : ¬ s.dt p > 20000 := UInt64.not_lt.mpr h.soon
  rcases hevent with hevent | hevent <;> simp [nextEvent, hevent, hsoon, h.numFingers]

/-- A packet without a button, of which the driver has not made a tap or a drag. -/
theorem packet_held {s : SynapticsTouchPad D} {p : Packet}
    (hsettled : ((Frame.ofPacket s p).settle p).held = (Frame.ofPacket s p).held)
    (hbuttons : p.buttons s.pref.swapButtons = 0) (hdragging : s.dragging = false)
    (hevent : ((Frame.ofPacket s p).settle p).event ≠ .dragging) :
    let t := s.dispatchRelativePointerEventWithAbsolutePacket p
    t.held = s.held ∧ t.event = ((Frame.ofPacket s p).settle p).event ∧
      t.settleTime = ((Frame.ofPacket s p).settle p).settleTime := by
  obtain ⟨hsent, hdrag, hpad⟩ := Frame.held_pad hsettled
  have hheld := Frame.send_held (hsent.trans hbuttons) (hdrag.trans hdragging) hevent
  exact ⟨hheld.trans hpad, Frame.send_event hevent, Frame.send_settleTime _⟩

/-- The packet that starts the stream. -/
theorem packet_starts {s : SynapticsTouchPad D} {p : Packet} (hs : s.Settled) (hp : s.InTouch p) :
    let t := s.dispatchRelativePointerEventWithAbsolutePacket p
    t.held = s.held ∧ (s.pref.AtEdge p → t.event.AtEdge) ∧
      (¬ s.pref.AtEdge p → t.event = .movement ∧ t.settleTime = 2) := by
  have hmoves := nextEvent_inTouch hp (.inl hs.event)
  have hstarts : (Frame.ofPacket s p).StartsStream :=
    ⟨hs.event, hs.settleTime, fun h => by cases hmoves.symm.trans h⟩
  obtain ⟨hheld, hsettle, hevent⟩ := Frame.settle_starts p hstarts hs.tapped hs.dragging
  by_cases hedge : s.pref.AtEdge p
  · have hscrolls : ((Frame.ofPacket s p).settle p).event.AtEdge := by
      rw [hevent]
      exact Frame.edgeScrolling_atEdge hs.event hedge
    have hno : ((Frame.ofPacket s p).settle p).event ≠ .dragging := by
      rcases hscrolls with h | h <;> rw [h] <;> decide
    obtain ⟨hkept, hsame, -⟩ := packet_held hheld hp.buttons hs.dragging hno
    exact ⟨hkept, fun _ => hsame ▸ hscrolls, fun hnot => absurd hedge hnot⟩
  · rw [Frame.edgeScrolling_of_not_atEdge (f := Frame.ofPacket s p) hedge] at hevent
    have hmovement : ((Frame.ofPacket s p).settle p).event = .movement := hevent.trans hmoves
    obtain ⟨hkept, hsame, hcount⟩ :=
      packet_held hheld hp.buttons hs.dragging (by rw [hmovement]; decide)
    exact ⟨hkept, fun h => absurd h hedge,
      fun _ => ⟨hsame.trans hmovement, hcount.trans hsettle⟩⟩

/-- A further packet of a movement. -/
theorem packet_moves {s : SynapticsTouchPad D} {p : Packet} (hevent : s.event = .movement)
    (htapped : s.tapped = false) (hdragging : s.dragging = false) (hp : s.InTouch p) :
    let t := s.dispatchRelativePointerEventWithAbsolutePacket p
    t.held = s.held ∧ t.event = .movement ∧ t.settleTime = s.settleTime - 1 := by
  have hmoves := nextEvent_inTouch hp (.inr hevent)
  have hprev : (Frame.ofPacket s p).prevEvent ≠ .defaultEvent := by
    show s.event ≠ .defaultEvent
    rw [hevent]
    decide
  have hsettled : ((Frame.ofPacket s p).settle p).held = (Frame.ofPacket s p).held ∧
      ((Frame.ofPacket s p).settle p).settleTime = s.settleTime - 1 ∧
      ((Frame.ofPacket s p).settle p).event = .movement := by
    by_cases hsettle : s.settleTime = 0
    · rw [Frame.settle_settled p (hevent.trans hmoves.symm) hsettle]
      exact ⟨rfl, by show s.settleTime = _; omega, hmoves⟩
    · obtain ⟨hheld, hcount, hsame⟩ :=
        Frame.settle_settling (f := Frame.ofPacket s p) p hsettle (.inl htapped)
      rw [Frame.edgeScrolling_of_prevEvent hprev] at hsame
      exact ⟨hheld, hcount, hsame.trans hmoves⟩
  obtain ⟨hheld, hcount, hmovement⟩ := hsettled
  obtain ⟨hkept, hsame, htime⟩ :=
    packet_held hheld hp.buttons hdragging (by rw [hmovement]; decide)
  exact ⟨hkept, hsame.trans hmovement, htime.trans hcount⟩

/-- A further packet while the finger scrolls at an edge. -/
theorem packet_scrolls {s : SynapticsTouchPad D} {p : Packet} (hevent : s.event.AtEdge)
    (hdragging : s.dragging = false) (hp : s.InTouch p) :
    let t := s.dispatchRelativePointerEventWithAbsolutePacket p
    t.held = s.held ∧ t.event.AtEdge := by
  have hscrolls := nextEvent_edge hp hevent
  have hother : s.event ≠ .defaultEvent ∧ s.event ≠ .movement ∧ s.event ≠ .dragging := by
    rcases hevent with h | h <;> rw [h] <;> decide
  have hsettled : ((Frame.ofPacket s p).settle p).held = (Frame.ofPacket s p).held ∧
      ((Frame.ofPacket s p).settle p).event = s.event := by
    by_cases hsettle : s.settleTime = 0
    · rw [Frame.settle_settled p hscrolls.symm hsettle]
      exact ⟨rfl, hscrolls⟩
    · obtain ⟨hheld, -, hsame⟩ := Frame.settle_settling (f := Frame.ofPacket s p) p hsettle
        (.inr fun h => hother.2.1 (hscrolls.symm.trans h))
      rw [Frame.edgeScrolling_of_prevEvent (f := Frame.ofPacket s p) hother.1] at hsame
      exact ⟨hheld, hsame.trans hscrolls⟩
  obtain ⟨hheld, hsame⟩ := hsettled
  obtain ⟨hkept, hlast, -⟩ := packet_held hheld hp.buttons hdragging (hsame ▸ hother.2.2)
  refine ⟨hkept, ?_⟩
  rw [hlast, hsame]
  exact hevent

/-- A packet that ends no movement which has settled. -/
theorem packet_idles {s : SynapticsTouchPad D} {p : Packet} (hp : s.EndsTouch p)
    (hevent : s.event = .defaultEvent ∨ s.event.AtEdge ∨ s.event = .movement ∧ s.settleTime ≠ 0)
    (hdragging : s.dragging = false) :
    let t := s.dispatchRelativePointerEventWithAbsolutePacket p
    t.held = s.held ∧ (t.event = .defaultEvent ∨ s.event = .defaultEvent ∧ t.event.AtEdge) := by
  have hswipe : s.event ≠ .swipe := by
    rcases hevent with h | (h | h) | ⟨h, -⟩ <;> rw [h] <;> decide
  obtain ⟨hheld, hend⟩ := Frame.settle_idles (f := Frame.ofPacket s p) p
    (nextEvent_ends hp hswipe) (hevent.imp_right fun h => h.imp_right fun h => h.2)
  have hno : ((Frame.ofPacket s p).settle p).event ≠ .dragging := by
    rcases hend with h | ⟨-, h | h⟩ <;> rw [h] <;> decide
  obtain ⟨hkept, hsame, -⟩ := packet_held hheld hp.buttons hdragging hno
  refine ⟨hkept, ?_⟩
  rw [hsame]
  exact hend

/-- The packet that ends a movement which has settled. -/
theorem packet_lifts {s : SynapticsTouchPad D} {p : Packet} (hp : s.EndsTouch p)
    (hclicking : s.pref.clicking = true) (hevent : s.event = .movement)
    (hsettle : s.settleTime = 0) (htapped : s.tapped = false) (hdragging : s.dragging = false) :
    let t := s.dispatchRelativePointerEventWithAbsolutePacket p
    TapOutcome s t (s.pref.TapLimits (streamAfter s (s.streamdx, s.streamdy, s.streamdt) [p])) ∧
      t.event = .defaultEvent := by
  obtain ⟨hlifts, hend⟩ := Frame.settle_lifts (f := Frame.ofPacket s p) p
    (nextEvent_ends hp (by rw [hevent]; decide)) hevent hsettle
  have hheld := Frame.scrolling_held (Frame.ofPacket s p)
  have htapped' := congrArg (fun held => held.2.2.1.1) hheld
  have hpref := congrArg (fun held => held.1) hheld
  obtain ⟨hbuttons, hdrag, hpad⟩ := Frame.held_pad hheld
  have hclicking' : (Frame.ofPacket s p).scrolling.pref.clicking = true := by
    rw [show (Frame.ofPacket s p).scrolling.pref = s.pref from hpref]
    exact hclicking
  have houtcome := Frame.endOfMovement_tapOutcome hclicking' hend (hbuttons.trans hp.buttons)
    (hdrag.trans hdragging) (htapped'.trans htapped)
  rw [Frame.scrolling_stream, show (Frame.ofPacket s p).scrolling.pref = s.pref from hpref,
    ← hlifts] at houtcome
  rw [← hlifts] at hend
  refine ⟨houtcome.congr hpad.symm rfl, ?_⟩
  exact (Frame.send_event (by rw [hend]; decide)).trans hend

omit [Double D] in
theorem held_fields {s t : SynapticsTouchPad D} (h : t.held = s.held) :
    t.pref = s.pref ∧ t.tapped = s.tapped ∧ t.dragging = s.dragging := by
  simp only [held, Prod.mk.injEq] at h
  exact ⟨h.1, h.2.1.1, h.2.1.2.1⟩

/-- After a pause, the first packet of a touch is not taken up. -/
theorem packet_pauses {s : SynapticsTouchPad D} {p : Packet} (hs : s.Settled)
    (hp : s.EndsTouch p) :
    let t := s.dispatchRelativePointerEventWithAbsolutePacket p
    t.held = s.held ∧ t.Settled := by
  have hends := nextEvent_ends hp (by rw [hs.event]; decide)
  have hsettled := Frame.settle_settled (f := Frame.ofPacket s p) p (hs.event.trans hends.symm)
    hs.settleTime
  have hevent : ((Frame.ofPacket s p).settle p).event = .defaultEvent := by
    rw [hsettled]
    exact hends
  have hcount : ((Frame.ofPacket s p).settle p).settleTime = 0 := by
    rw [hsettled]
    exact hs.settleTime
  obtain ⟨hheld, hsame, htime⟩ :=
    packet_held (by rw [hsettled]) hp.buttons hs.dragging (by rw [hevent]; decide)
  obtain ⟨-, htapped, hdragging⟩ := held_fields hheld
  exact ⟨hheld, hsame.trans hevent, htime.trans hcount, htapped.trans hs.tapped,
    hdragging.trans hs.dragging⟩

theorem packets_cons (s : SynapticsTouchPad D) (p : Packet) (ps : List Packet) :
    s.packets (p :: ps) = (s.dispatchRelativePointerEventWithAbsolutePacket p).packets ps := rfl

theorem packets_append (s : SynapticsTouchPad D) (ps qs : List Packet) :
    s.packets (ps ++ qs) = (s.packets ps).packets qs := List.foldl_append

theorem streamAfter_append (s : SynapticsTouchPad D) (stream : ℤ × ℤ × UInt64)
    (ps qs : List Packet) :
    streamAfter s stream (ps ++ qs) = streamAfter (s.packets ps) (streamAfter s stream ps) qs := by
  induction ps generalizing s stream with
  | nil => rfl
  | cons p ps ih => exact ih _ _

/-- A movement goes on: the touchpad settles, and the stream is added up. -/
theorem packets_move {ps : List Packet} {s : SynapticsTouchPad D} (hevent : s.event = .movement)
    (htapped : s.tapped = false) (hdragging : s.dragging = false)
    (hps : Transition.Guarded onPacket InTouch s ps) :
    let t := s.packets ps
    t.held = s.held ∧ t.event = .movement ∧ t.settleTime = s.settleTime - ps.length ∧
      (t.streamdx, t.streamdy, t.streamdt) =
        streamAfter s (s.streamdx, s.streamdy, s.streamdt) ps := by
  induction ps generalizing s with
  | nil => exact ⟨rfl, hevent, rfl, rfl⟩
  | cons p ps ih =>
    obtain ⟨hheld, hmoves, hcount⟩ := packet_moves hevent htapped hdragging hps.1
    have hlater : ¬ s.StartsStream p := fun h => by cases hevent.symm.trans h.1
    obtain ⟨hdx, hdy, hdt⟩ := packet_stream_of_not_starts hlater
    obtain ⟨-, htapped', hdragging'⟩ := held_fields hheld
    obtain ⟨hkept, hlast, hsettle, hstream⟩ :=
      ih hmoves (htapped'.trans htapped) (hdragging'.trans hdragging) (hps.2 _ rfl)
    refine ⟨hkept.trans hheld, hlast, ?_, ?_⟩
    · refine hsettle.trans ?_
      rw [hcount, List.length_cons]
      omega
    · refine hstream.trans ?_
      rw [hdx, hdy, hdt]
      rfl

theorem packets_scroll {ps : List Packet} {s : SynapticsTouchPad D} (hevent : s.event.AtEdge)
    (hdragging : s.dragging = false) (hps : Transition.Guarded onPacket InTouch s ps) :
    (s.packets ps).held = s.held ∧ (s.packets ps).event.AtEdge := by
  induction ps generalizing s with
  | nil => exact ⟨rfl, hevent⟩
  | cons p ps ih =>
    obtain ⟨hheld, hscrolls⟩ := packet_scrolls hevent hdragging hps.1
    have hdragging' := (held_fields hheld).2.2
    obtain ⟨hkept, hlast⟩ := ih hscrolls (hdragging'.trans hdragging) (hps.2 _ rfl)
    exact ⟨hkept.trans hheld, hlast⟩

/-- On a settled pad, the packets from the one that starts the stream up to the lift. -/
theorem stream_tapOutcome {s : SynapticsTouchPad D} {p lift : Packet} {ps : List Packet}
    (hs : s.Settled) (hclicking : s.pref.clicking = true) (hp : s.InTouch p)
    (hps : Transition.Guarded onPacket InTouch
      (s.dispatchRelativePointerEventWithAbsolutePacket p) ps)
    (hlift : (s.packets (p :: ps)).EndsTouch lift) :
    let t := s.packets (p :: ps ++ [lift])
    TapOutcome s t (s.StreamTaps lift (p :: ps)) ∧
      (t.event = .defaultEvent ∨ t.event.AtEdge) := by
  obtain ⟨hheld, hedge, hmove⟩ := packet_starts hs hp
  obtain ⟨hpref, htapped, hdragging⟩ := held_fields hheld
  dsimp only
  rw [packets_append, packets_cons]
  rw [packets_cons] at hlift
  by_cases hat : s.pref.AtEdge p
  · obtain ⟨hkept, hlast⟩ := packets_scroll (hedge hat) (hdragging.trans hs.dragging) hps
    have hdrag := (held_fields (hkept.trans hheld)).2.2
    obtain ⟨hsame, hevent⟩ := packet_idles hlift (.inr (.inl hlast)) (hdrag.trans hs.dragging)
    exact ⟨tapOutcome_of_held (hsame.trans (hkept.trans hheld)) hs.tapped fun h => h.1 hat,
      hevent.imp_right fun h => h.2⟩
  · obtain ⟨hevent, hcount⟩ := hmove hat
    obtain ⟨hkept, hlast, hsettle, hstream⟩ :=
      packets_move hevent (htapped.trans hs.tapped) (hdragging.trans hs.dragging) hps
    obtain ⟨hpref', htapped', hdragging'⟩ := held_fields (hkept.trans hheld)
    rw [hcount] at hsettle
    by_cases htwo : 2 ≤ ps.length
    · obtain ⟨houtcome, hdefault⟩ := packet_lifts hlift (by rw [hpref']; exact hclicking) hlast
        (hsettle.trans (by omega)) (htapped'.trans hs.tapped) (hdragging'.trans hs.dragging)
      refine ⟨?_, .inl hdefault⟩
      have hstarts : s.StartsStream p :=
        ⟨hs.event, hs.settleTime, by rw [nextEvent_inTouch hp (.inl hs.event)]; decide⟩
      obtain ⟨hdx, hdy, hdt⟩ := packet_stream_of_starts hstarts
      rw [hstream, hdx, hdy, hdt, ← streamAfter_append, hpref'] at houtcome
      have htaps : s.StreamTaps lift (p :: ps) = s.pref.TapLimits (streamAfter
          (s.dispatchRelativePointerEventWithAbsolutePacket p) (0, 0, 0) (ps ++ [lift])) :=
        propext ⟨fun h => h.2.2, fun h => ⟨hat, htwo, h⟩⟩
      rw [htaps]
      exact houtcome.congr (hkept.trans hheld).symm rfl
    · obtain ⟨hsame, hdefault⟩ := packet_idles hlift
        (.inr (.inr ⟨hlast, by rw [hsettle]; omega⟩)) (hdragging'.trans hs.dragging)
      exact ⟨tapOutcome_of_held (hsame.trans (hkept.trans hheld)) hs.tapped fun h => htwo h.2.1,
        hdefault.imp_right fun h => h.2⟩

/-- After the lift a packet sends no button, or in place of the buttons a scroll event. -/
theorem packet_releases {s : SynapticsTouchPad D} {p : Packet} (hp : s.NoFinger p)
    (hevent : s.event = .defaultEvent ∨ s.event.AtEdge) (hdragging : s.dragging = false) :
    let t := s.dispatchRelativePointerEventWithAbsolutePacket p
    lastButtons t.dispatched = 0 ∨ s.event = .defaultEvent ∧ t.event.AtEdge ∧
      lastButtons t.dispatched = lastButtons s.dispatched := by
  have hother : s.event ≠ .swipe ∧ Frame.CalmEvent s.event := by
    rcases hevent with h | h | h <;> rw [h] <;> exact ⟨by decide, by decide, by decide, by decide⟩
  have hlifted : Frame.Lifted (Frame.ofPacket s p) :=
    ⟨hp.numFingers, hp.buttons, .inl (nextEvent_ends hp.endsTouch hother.1)⟩
  have hquiet := Frame.settle_quiet p hlifted fun _ => hother.2
  have hsame : (s.dispatchRelativePointerEventWithAbsolutePacket p).event =
      ((Frame.ofPacket s p).settle p).event := Frame.send_event hquiet.calmEvent.2.2
  rcases (Frame.send_quiet hquiet).2 with hlast | ⟨hprev, hlast, hedge⟩
  · left
    refine Eq.trans hlast ?_
    rw [show (Frame.ofPacket s p).dragging = false from hdragging]
    rfl
  · refine .inr ⟨hprev, ?_, hlast⟩
    rw [hsame]
    exact hedge

/-- After the lift nothing more comes of the touch, and the button is released by the second
packet at the latest. -/
theorem packets_idle {ps : List Packet} {s : SynapticsTouchPad D}
    (hevent : s.event = .defaultEvent ∨ s.event.AtEdge) (hdragging : s.dragging = false)
    (hps : Transition.Guarded onPacket NoFinger s ps) :
    (s.packets ps).held = s.held ∧
      (lastButtons s.dispatched = 0 ∨ s.event.AtEdge ∧ 1 ≤ ps.length ∨ 2 ≤ ps.length →
        lastButtons (s.packets ps).dispatched = 0) := by
  induction ps generalizing s with
  | nil => exact ⟨rfl, by simp; exact id⟩
  | cons p ps ih =>
    obtain ⟨hheld, hnext⟩ := packet_idles hps.1.endsTouch (hevent.imp_right .inl) hdragging
    obtain ⟨hkept, hreleased⟩ := ih (hnext.imp_right fun h => h.2)
      ((held_fields hheld).2.2.trans hdragging) (hps.2 _ rfl)
    refine ⟨hkept.trans hheld, fun h => hreleased ?_⟩
    rcases packet_releases hps.1 hevent hdragging with hlast | ⟨hdefault, hedge, hlast⟩
    · exact .inl hlast
    · rcases h with h | ⟨h, -⟩ | h
      · exact .inl (hlast.trans h)
      · rcases h with h | h <;> cases hdefault.symm.trans h
      · exact .inr (.inl ⟨hedge, Nat.le_of_succ_le_succ h⟩)

instance (s : SynapticsTouchPad D) : Decidable s.Settled :=
  decidable_of_iff
    (s.event = .defaultEvent ∧ s.settleTime = 0 ∧ s.tapped = false ∧ s.dragging = false)
    ⟨fun ⟨h₁, h₂, h₃, h₄⟩ => ⟨h₁, h₂, h₃, h₄⟩, fun h => ⟨h.1, h.2, h.3, h.4⟩⟩

instance (s : SynapticsTouchPad D) (p : Packet) : Decidable (s.OneFinger p) :=
  decidable_of_iff (s.numFingers p = 1 ∧ p.buttons s.pref.swapButtons = 0)
    ⟨fun ⟨h₁, h₂⟩ => ⟨h₁, h₂⟩, fun h => ⟨h.1, h.2⟩⟩

instance (s : SynapticsTouchPad D) (p : Packet) : Decidable (s.InTouch p) :=
  decidable_of_iff (s.OneFinger p ∧ s.dt p ≤ 20000)
    ⟨fun ⟨h₁, h₂⟩ => ⟨h₁, h₂⟩, fun h => ⟨h.1, h.2⟩⟩

instance (s : SynapticsTouchPad D) (p : Packet) : Decidable (s.NoFinger p) :=
  decidable_of_iff (s.numFingers p = 0 ∧ p.buttons s.pref.swapButtons = 0)
    ⟨fun ⟨h₁, h₂⟩ => ⟨h₁, h₂⟩, fun h => ⟨h.1, h.2⟩⟩

instance (s : SynapticsTouchPad D) (p : Packet) : Decidable (s.EndsTouch p) :=
  decidable_of_iff
    ((s.dt p > 20000 ∨ s.numFingers p = 0) ∧ p.buttons s.pref.swapButtons = 0)
    ⟨fun ⟨h₁, h₂⟩ => ⟨h₁, h₂⟩, fun h => ⟨h.1, h.2⟩⟩

instance (s : SynapticsTouchPad D) : ∀ touch, Decidable (s.Touch touch)
  | [] => .isFalse id
  | p :: ps => inferInstanceAs (Decidable (s.OneFinger p ∧
      Transition.Guarded onPacket InTouch (s.dispatchRelativePointerEventWithAbsolutePacket p) ps))

/-- A touch of one finger on a settled pad with clicking on, within the limits of a tap from its
first packet up to its last one and up to the lift, of which nothing comes. -/
def LosesTap (s : SynapticsTouchPad D) (p : Packet) (ps : List Packet) (lift : Packet)
    (rest : List Packet) : Prop :=
  (s.Settled ∧ s.prevNumFingers = 0 ∧ s.pref.clicking = true ∧ s.Touch (p :: ps) ∧
    (s.packets (p :: ps)).EndsTouch lift ∧
    Transition.Guarded onPacket NoFinger (s.packets (p :: ps ++ [lift])) rest) ∧
  (∀ last ∈ [[], [lift]], s.pref.TapLimits (streamAfter
    (s.dispatchRelativePointerEventWithAbsolutePacket p) (0, 0, 0) (ps ++ last))) ∧
  presses (s.packets (p :: ps ++ [lift] ++ rest)).dispatched = presses s.dispatched ∧
  (s.packets (p :: ps ++ [lift] ++ rest)).tapped = false

instance (s : SynapticsTouchPad D) (p : Packet) (ps : List Packet) (lift : Packet)
    (rest : List Packet) : Decidable (s.LosesTap p ps lift rest) :=
  inferInstanceAs (Decidable
    ((_ ∧ _ ∧ _ ∧ _ ∧ _ ∧ _) ∧ (∀ last ∈ [[], [lift]], _) ∧ _ = _ ∧ _ = _))

end SynapticsTouchPad

/-- The pad with clicking on. -/
def clickPad : SynapticsTouchPad ℚ :=
  plainPad.setParamProperties { noParams with tapToClick := some true }

/-- The pad that scrolls at its edges. -/
def edgePad : SynapticsTouchPad ℚ :=
  plainPad.setParamProperties { noParams with
    tapToClick := some true, scrollMode := some SCROLL_MODE_EDGE, horizScroll := some true }

/-- The pad on which a tap and a short touch have locked a drag. -/
def lockedPad : SynapticsTouchPad ℚ :=
  (plainPad.setParamProperties { noParams with
    tapToClick := some true, draggin := some true, dragLock := some true }).packets
    [packetAt 0 40 0, packetAt 0 40 5000, packetAt 0 40 10000, packetAt 0 0 15000,
      packetAt 0 0 20000, packetAt 0 0 25000, packetAt 0 0 30000, packetAt 0 0 35000,
      packetAt 0 0 40000, packetAt 0 40 45000, packetAt 0 0 50000, packetAt 0 0 55000]

end TouchPad
