import NetbookInstaller.TouchPad.DragTimer

/-! After three packets without a finger and without a button the driver reports no
button, except for a drag that waits for the drag timer. -/
namespace TouchPad

variable {D : Type}

/-- The button state that was dispatched last. -/
def lastButtons (dispatched : List Dispatched) : UInt8 :=
  dispatched.foldl (fun buttons e =>
    match e with
    | .relativePointerEvent _ _ buttons' => buttons'
    | _ => buttons) 0

@[simp] theorem lastButtons_relativePointerEvent (ds : List Dispatched) (dx dy : ℤ)
    (buttons : UInt8) : lastButtons (ds ++ [.relativePointerEvent dx dy buttons]) = buttons := by
  simp [lastButtons]

@[simp] theorem lastButtons_scrollWheelEvent (ds : List Dispatched) (x y : ℤ) :
    lastButtons (ds ++ [.scrollWheelEvent x y]) = lastButtons ds := by
  simp [lastButtons]

@[simp] theorem lastButtons_swipeEvent (ds : List Dispatched) (right : Bool) :
    lastButtons (ds ++ [.swipeEvent right]) = lastButtons ds := by
  simp [lastButtons]

namespace Frame

/-- What every part of a packet's handling leaves alone, and a drag that is let go
arms the timer. -/
structure Carries (f g : Frame D) : Prop where
  touchPadModeByte : g.touchPadModeByte = f.touchPadModeByte
  capabilities : g.capabilities = f.capabilities
  pref : g.pref = f.pref
  numFingers : g.numFingers = f.numFingers
  armed : (f.dragging = true → f.dragTimeout.isSome = true) →
    g.dragging = true → g.dragTimeout.isSome = true

/-- The data of a frame that no part of a packet's handling changes. -/
def kept (f : Frame D) : (UInt8 × UInt16) × Prefs D × ℕ :=
  ((f.touchPadModeByte, f.capabilities), f.pref, f.numFingers)

/-- The drag is let go with the timer armed, or is not let go. -/
theorem Carries.of_armed {f g : Frame D} (hkept : g.kept = f.kept)
    (harmed : g.dragging = true → g.dragTimeout.isSome = true) : Carries f g := by
  simp only [kept, Prod.mk.injEq] at hkept
  obtain ⟨⟨hmode, hcapabilities⟩, hpref, hfingers⟩ := hkept
  exact ⟨hmode, hcapabilities, hpref, hfingers, fun _ => harmed⟩

/-- The drag and the timer are left alone too. -/
theorem Carries.of_same {f g : Frame D} (hkept : g.kept = f.kept)
    (hdrag : (g.dragging, g.dragTimeout) = (f.dragging, f.dragTimeout)) : Carries f g := by
  simp only [kept, Prod.mk.injEq] at hkept hdrag
  obtain ⟨⟨hmode, hcapabilities⟩, hpref, hfingers⟩ := hkept
  refine ⟨hmode, hcapabilities, hpref, hfingers, ?_⟩
  rw [hdrag.1, hdrag.2]
  exact id

theorem Carries.refl (f : Frame D) : Carries f f := .of_same rfl rfl

theorem Carries.trans {f g h : Frame D} (hfg : Carries f g) (hgh : Carries g h) : Carries f h :=
  ⟨hgh.touchPadModeByte.trans hfg.touchPadModeByte, hgh.capabilities.trans hfg.capabilities,
    hgh.pref.trans hfg.pref, hgh.numFingers.trans hfg.numFingers, fun h => hgh.armed (hfg.armed h)⟩

theorem scrolling_carries (f : Frame D) : Carries f f.scrolling := by
  unfold scrolling
  split
  · exact .of_same rfl rfl
  · exact Carries.refl f

theorem newStream_carries (f : Frame D) : Carries f f.newStream := by
  unfold newStream
  dsimp only
  split
  · exact .of_armed rfl fun h => by cases h
  · exact .of_same rfl rfl

theorem endOfScrolling_carries (f : Frame D) : Carries f f.endOfScrolling := by
  unfold endOfScrolling
  dsimp only
  split <;> split <;> exact .of_same rfl rfl

theorem endOfMovement_carries (f : Frame D) : Carries f f.endOfMovement := by
  unfold endOfMovement
  dsimp only
  split
  · split
    · exact .of_same rfl rfl
    · split
      · exact .of_same rfl rfl
      · exact .of_armed rfl fun _ => rfl
  · exact .of_same rfl rfl

theorem endOfDragging_carries (f : Frame D) : Carries f f.endOfDragging := by
  unfold endOfDragging
  dsimp only
  split
  · split <;> exact .of_same rfl rfl
  · exact .of_armed rfl fun _ => rfl

theorem dispatchSwipe_carries (f : Frame D) : Carries f f.dispatchSwipe := by
  unfold dispatchSwipe
  split
  · exact .of_same rfl rfl
  · split
    · exact .of_same rfl rfl
    · exact Carries.refl f

theorem endOfSwipe_carries (f : Frame D) : Carries f f.endOfSwipe := by
  have h := dispatchSwipe_carries f
  unfold endOfSwipe
  split
  · exact ⟨h.touchPadModeByte, h.capabilities, h.pref, h.numFingers, h.armed⟩
  · exact .of_same rfl rfl

theorem endOfStream_carries (f : Frame D) : Carries f f.endOfStream := by
  unfold endOfStream
  split
  next => exact endOfScrolling_carries f
  next => exact endOfMovement_carries f
  next => exact endOfDragging_carries f
  next => exact endOfSwipe_carries f
  next => exact endOfSwipe_carries f
  all_goals exact .of_same rfl rfl

theorem eventChanged_carries (f : Frame D) : Carries f f.eventChanged := by
  unfold eventChanged
  split
  · split
    · exact newStream_carries f
    · split
      · exact endOfStream_carries f
      · exact .of_same rfl rfl
  · exact .of_same rfl rfl

theorem draggingCalculations_carries (f : Frame D) : Carries f f.draggingCalculations := by
  unfold draggingCalculations
  split
  · exact Carries.refl f
  · split
    · exact .of_armed rfl fun h => by cases h
    · exact Carries.refl f

theorem send_carries (f : Frame D) : Carries f f.send := by
  unfold send
  split
  next => exact .of_same rfl rfl
  next => exact .of_same rfl rfl
  next =>
    dsimp only
    split
    · exact .of_same rfl rfl
    · split
      · exact .of_same rfl rfl
      · split <;> exact .of_same rfl rfl
  next =>
    split
    · exact .of_armed rfl fun h => by cases h
    · exact .of_same rfl rfl
  all_goals exact .of_same rfl rfl

/-- The frame of a packet without a finger and without a button. -/
structure Lifted (f : Frame D) : Prop where
  numFingers : f.numFingers = 0
  buttons : f.buttons = 0
  event : f.event = .defaultEvent ∨
    f.event = .swipe ∧ f.prevEvent = .swipe ∧ f.settleTime ≠ 0

/-- An event in which nothing is held or moved. -/
def CalmEvent (e : Event) : Prop := e ≠ .scrolling ∧ e ≠ .movement ∧ e ≠ .dragging

/-- What a packet without a finger sends if the driver had calmed down. -/
structure Quiet (f g : Frame D) : Prop where
  buttons : g.buttons = 0
  dragging : g.dragging = f.dragging
  last : lastButtons g.dispatched = lastButtons f.dispatched
  event : g.event = .defaultEvent ∨ g.event = .swipe ∨ f.prevEvent = .defaultEvent ∧
    (g.event = .verticalScrolling ∨ g.event = .horizontalScrolling)

theorem Quiet.calmEvent {f g : Frame D} (h : Quiet f g) : CalmEvent g.event := by
  rcases h.event with hevent | hevent | ⟨-, hevent | hevent⟩ <;>
    rw [hevent] <;> exact ⟨by decide, by decide, by decide⟩

theorem draggingCalculations_eq {f : Frame D} (h : f.event ≠ .movement) :
    f.draggingCalculations = f := by
  simp [draggingCalculations, h]

theorem draggingCalculations_settleTime (f : Frame D) :
    f.draggingCalculations.settleTime = f.settleTime := by
  unfold draggingCalculations
  split
  · rfl
  · split <;> rfl

theorem endOfStream_settleTime (f : Frame D) : f.endOfStream.settleTime ≠ 0 := by
  unfold endOfStream
  split
  next =>
    unfold endOfScrolling
    dsimp only
    split <;> split <;> simp
  next =>
    unfold endOfMovement
    dsimp only
    split
    · split
      · simp
      · split <;> simp
    · simp
  next =>
    unfold endOfDragging
    dsimp only
    split
    · split <;> simp [dispatch, SynapticsTouchPad.dispatch]
    · simp
  all_goals simp [endOfSwipe]

/-- The end of a stream that has calmed down. -/
theorem endOfStream_quiet {f : Frame D} (hfingers : f.numFingers = 0) (hbuttons : f.buttons = 0)
    (hevent : f.event = .defaultEvent) (hcalm : CalmEvent f.prevEvent) : Quiet f f.endOfStream := by
  have hswipe : Quiet f f.endOfSwipe := by
    unfold endOfSwipe dispatchSwipe
    rw [if_pos hfingers]
    split
    · exact ⟨hbuttons, rfl, lastButtons_swipeEvent _ _, .inl rfl⟩
    · split
      · exact ⟨hbuttons, rfl, lastButtons_swipeEvent _ _, .inl rfl⟩
      · exact ⟨hbuttons, rfl, rfl, .inl rfl⟩
  unfold endOfStream
  split
  next hprev => exact absurd hprev hcalm.1
  next hprev => exact absurd hprev hcalm.2.1
  next hprev => exact absurd hprev hcalm.2.2
  next => exact hswipe
  next => exact hswipe
  all_goals exact ⟨hbuttons, rfl, rfl, .inl hevent⟩

/-- While the touchpad settles, a packet without a finger changes no button. -/
theorem eventChanged_quiet {f g : Frame D} (h : Lifted f) (hg : AtEdge f g)
    (hsettle : f.settleTime ≠ 0) : Quiet f g.eventChanged := by
  unfold eventChanged
  rw [if_neg (by rw [hg.settleTime]; exact hsettle)]
  refine ⟨hg.buttons.trans h.buttons, hg.dragging, congrArg lastButtons hg.dispatched, ?_⟩
  rcases hg.event with hevent | hedge
  · rcases h.event with hdefault | ⟨hswipe, -, -⟩
    · exact .inl (hevent.trans hdefault)
    · exact .inr (.inl (hevent.trans hswipe))
  · exact .inr (.inr hedge)

/-- On a pad that has settled, the packet that lifts the finger ends the stream. -/
theorem eventChanged_endOfStream {f g : Frame D} (h : Lifted f) (hg : AtEdge f g)
    (hchanged : f.prevEvent ≠ f.event ∨ f.settleTime ≠ 0) (hsettle : f.settleTime = 0) :
    g.eventChanged = g.endOfStream ∧ g.event = .defaultEvent := by
  have hdefault : f.event = .defaultEvent := by
    rcases h.event with hdefault | ⟨-, -, hne⟩
    · exact hdefault
    · exact absurd hsettle hne
  have hprev : f.prevEvent ≠ .defaultEvent := by
    rcases hchanged with hne | hne
    · rwa [hdefault] at hne
    · exact absurd hsettle hne
  have hevent : g.event = .defaultEvent := by
    rcases hg.event with hsame | ⟨hedge, -⟩
    · rw [hsame, hdefault]
    · exact absurd hedge hprev
  unfold eventChanged
  rw [if_pos (hg.settleTime.trans hsettle), if_neg (by rwa [hg.prevEvent]), if_pos hevent]
  exact ⟨rfl, hevent⟩

theorem send_event {f : Frame D} (h : f.event ≠ .dragging) : f.send.event = f.event := by
  unfold send
  split
  next => rfl
  next => rfl
  next =>
    dsimp only
    split
    · rfl
    · split
      · rfl
      · split <;> rfl
  next hevent => exact absurd hevent h
  all_goals rfl

theorem send_settleTime (f : Frame D) : f.send.settleTime = f.settleTime := by
  unfold send
  split
  next => rfl
  next => rfl
  next =>
    dsimp only
    split
    · rfl
    · split
      · rfl
      · split <;> rfl
  next => split <;> rfl
  all_goals rfl

/-- Of a quiet frame the button of a pending drag is sent, or a scroll event at an edge. -/
theorem send_quiet {f g : Frame D} (h : Quiet f g) :
    g.send.dragging = f.dragging ∧
      (lastButtons g.send.dispatched = (if f.dragging then 1 else 0) ∨
        f.prevEvent = .defaultEvent ∧ lastButtons g.send.dispatched = lastButtons f.dispatched ∧
          (g.event = .verticalScrolling ∨ g.event = .horizontalScrolling)) := by
  have hbuttons : g.addDragging = if f.dragging then 1 else 0 := by
    rw [addDragging, h.buttons, h.dragging]
    cases f.dragging <;> rfl
  rcases h.event with hevent | hevent | ⟨hprev, hevent⟩
  · simp only [send, hevent]
    exact ⟨h.dragging, .inl ((lastButtons_relativePointerEvent _ _ _ _).trans hbuttons)⟩
  · simp only [send, hevent]
    exact ⟨h.dragging, .inl ((lastButtons_relativePointerEvent _ _ _ _).trans hbuttons)⟩
  · rcases hevent with hevent | hevent
    · simp only [send, hevent]
      exact ⟨h.dragging, .inr ⟨hprev, (lastButtons_scrollWheelEvent _ _ _).trans h.last, by simp⟩⟩
    · simp only [send, hevent]
      exact ⟨h.dragging, .inr ⟨hprev, (lastButtons_scrollWheelEvent _ _ _).trans h.last, by simp⟩⟩

/-- The frame of a drag that goes on without a button. -/
structure Dragged (f : Frame D) : Prop where
  prevEvent : f.prevEvent = .dragging
  event : f.event = .dragging
  buttons : f.buttons = 0
  dragging : f.dragging = false
  dragTimeout : f.dragTimeout = none

theorem Dragged.send {f : Frame D} (h : Dragged f) :
    f.send.event = .dragging ∧ f.send.dragging = false ∧ f.send.dragTimeout = none ∧
      lastButtons f.send.dispatched = 1 := by
  have hsend : f.send = sendMovement { f with buttons := 0x01 } := by
    simp [Frame.send, h.event, h.buttons]
  rw [hsend]
  refine ⟨h.event, h.dragging, h.dragTimeout, (lastButtons_relativePointerEvent _ _ _ _).trans ?_⟩
  simp [addDragging, h.dragging]

variable [Double D]

theorem edgeScrolling_carries (p : Packet) (f : Frame D) : Carries f (f.edgeScrolling p) := by
  unfold edgeScrolling
  dsimp only
  split
  · exact .of_same rfl rfl
  · split
    · exact .of_same rfl rfl
    · exact Carries.refl f

theorem settle_carries (p : Packet) (f : Frame D) : Carries f (f.settle p) := by
  unfold settle
  split
  · exact (edgeScrolling_carries p f).trans ((scrolling_carries _).trans
      ((eventChanged_carries _).trans (draggingCalculations_carries _)))
  · exact Carries.refl f

theorem settle_quiet {f : Frame D} (p : Packet) (h : Lifted f)
    (hcalm : f.settleTime = 0 → CalmEvent f.prevEvent) : Quiet f (f.settle p) := by
  have hg := edgeScrolling_scrolling_atEdge p f
  unfold settle
  split
  next hchanged =>
    have hquiet : Quiet f ((f.edgeScrolling p).scrolling).eventChanged := by
      by_cases hsettle : f.settleTime = 0
      · obtain ⟨hend, hevent⟩ := eventChanged_endOfStream h hg hchanged hsettle
        have hprev := hcalm hsettle
        rw [← hg.prevEvent] at hprev
        have hq := endOfStream_quiet (hg.numFingers.trans h.numFingers)
          (hg.buttons.trans h.buttons) hevent hprev
        rw [hend]
        refine ⟨hq.buttons, hq.dragging.trans hg.dragging,
          hq.last.trans (congrArg lastButtons hg.dispatched), ?_⟩
        rw [← hg.prevEvent]
        exact hq.event
      · exact eventChanged_quiet h hg hsettle
    rwa [draggingCalculations_eq hquiet.calmEvent.2.1]
  next hsame =>
    rw [not_or, not_not, not_not] at hsame
    refine ⟨h.buttons, rfl, rfl, .inl ?_⟩
    rcases h.event with hdefault | ⟨-, -, hne⟩
    · exact hdefault
    · exact absurd hsame.2 hne

/-- A packet without a finger leaves the driver calm, or about to settle. -/
theorem settle_calm {f : Frame D} (p : Packet) (h : Lifted f) :
    (f.settle p).settleTime = 0 → CalmEvent (f.settle p).event := by
  by_cases hsettle : f.settleTime = 0
  · by_cases hchanged : f.prevEvent ≠ f.event ∨ f.settleTime ≠ 0
    · have hend := (eventChanged_endOfStream h (edgeScrolling_scrolling_atEdge p f) hchanged
        hsettle).1
      intro hzero
      rw [settle, if_pos hchanged, draggingCalculations_settleTime, hend] at hzero
      exact absurd hzero (endOfStream_settleTime _)
    · intro _
      rw [settle, if_neg hchanged]
      rcases h.event with hdefault | ⟨-, -, hne⟩
      · rw [hdefault]
        exact ⟨by decide, by decide, by decide⟩
      · exact absurd hsettle hne
  · intro _
    exact (settle_quiet p h fun hzero => absurd hzero hsettle).calmEvent

theorem Dragged.settle {f : Frame D} (h : Dragged f) (p : Packet) : Dragged (f.settle p) := by
  have hg := edgeScrolling_scrolling_atEdge p f
  have hevent : ((f.edgeScrolling p).scrolling).event = .dragging := by
    rcases hg.event with hsame | ⟨hdefault, -⟩
    · rw [hsame, h.event]
    · rw [h.prevEvent] at hdefault
      cases hdefault
  unfold Frame.settle
  split
  next hchanged =>
    have hsettle : ((f.edgeScrolling p).scrolling).settleTime ≠ 0 := by
      rw [hg.settleTime]
      simpa [h.prevEvent, h.event] using hchanged
    rw [eventChanged, if_neg hsettle, draggingCalculations_eq (by rw [hevent]; decide)]
    exact ⟨hg.prevEvent.trans h.prevEvent, hevent, hg.buttons.trans h.buttons,
      hg.dragging.trans h.dragging, hg.dragTimeout.trans h.dragTimeout⟩
  next => exact h

end Frame

namespace SynapticsTouchPad

/-- A pad in W mode whose drag that has been let go waits for the timer. -/
structure ButtonInvariant (s : SynapticsTouchPad D) : Prop where
  wMode : s.wMode = true
  fingers : s.prevNumFingers ≤ 3
  armed : s.dragging = true → s.dragTimeout.isSome = true

/-- A packet without a finger does not end a stream, or ends one in which nothing is
held or moved. -/
def Calm (s : SynapticsTouchPad D) : Prop := s.settleTime = 0 → Frame.CalmEvent s.event

/-- The last button state is that of a pending drag. -/
def Released (s : SynapticsTouchPad D) : Prop :=
  lastButtons s.dispatched = if s.dragging then 1 else 0

/-- The expiry of the drag timer if it is armed. -/
def expire (s : SynapticsTouchPad D) : SynapticsTouchPad D :=
  if s.dragTimeout.isSome then s.draggingTimeout else s

theorem expire_lastButtons {s : SynapticsTouchPad D} (h : s.ButtonInvariant) (hs : s.Released) :
    lastButtons s.expire.dispatched = 0 := by
  unfold expire
  split
  next => exact lastButtons_relativePointerEvent _ _ _ _
  next htimer =>
    have hdragging : s.dragging = false := by
      rw [← Bool.not_eq_true]
      exact fun hdragging => htimer (h.armed hdragging)
    rw [hs, hdragging]
    rfl

variable [Double D]

/-- The pressure is below the threshold for one finger; where the driver tells the number
of fingers by the pressure, it is also below the threshold less the hysteresis. -/
def ReportsNoFinger (s : SynapticsTouchPad D) (p : Packet) : Prop :=
  Double.lt (IntCast.intCast p.pressureZ.toNat) s.pref.oneFingerThreshold = true ∧
    (s.capMultifinger = true ∨
      Double.lt (IntCast.intCast p.pressureZ.toNat)
        (s.pref.oneFingerThreshold * (1.0 - s.pref.hysteresis)) = true)

theorem prevNumFingers_cases {n : ℕ} (h0 : n ≠ 0) (h1 : n ≠ 1) (h2 : n ≠ 2) (h3 : n ≠ 3) :
    ¬ n ≤ 3 := by
  omega

theorem numFingers_le {s : SynapticsTouchPad D} (hprev : s.prevNumFingers ≤ 3) (p : Packet) :
    s.numFingers p ≤ 3 := by
  have hfingers : s.fingers p ≤ 3 := by
    unfold fingers
    dsimp only
    split
    · split_ifs <;> omega
    · split
      · split
        · split_ifs <;> omega
        · split_ifs <;> omega
        · split_ifs <;> omega
        · split_ifs <;> omega
        next h0 h1 h2 h3 => exact absurd hprev (prevNumFingers_cases h0 h1 h2 h3)
      · omega
  unfold numFingers
  split_ifs <;> omega

theorem numFingers_eq_zero {s : SynapticsTouchPad D} {p : Packet} (hw : s.wMode = true)
    (hprev : s.prevNumFingers ≤ 3) (hp : s.ReportsNoFinger p) : s.numFingers p = 0 := by
  have hfingers : s.fingers p = 0 := by
    obtain ⟨hone, hlow⟩ := hp
    unfold fingers
    dsimp only
    split
    next => rfl
    next hmulti =>
      rw [hw, Bool.true_and] at hmulti
      have hlow' := hlow.resolve_left hmulti
      split
      · rfl
      · rw [if_pos hlow']
      · rw [if_pos hlow']
      · rw [if_pos hlow']
      next h0 h1 h2 h3 => exact absurd hprev (prevNumFingers_cases h0 h1 h2 h3)
  simp [numFingers, hfingers]

theorem lifted_ofPacket {s : SynapticsTouchPad D} {p : Packet} (h : s.ButtonInvariant)
    (hp : s.ReportsNoFinger p) (hb : p.buttons s.pref.swapButtons = 0) :
    Frame.Lifted (Frame.ofPacket s p) := by
  refine ⟨numFingers_eq_zero h.wMode h.fingers hp, hb, ?_⟩
  show s.nextEvent p = .defaultEvent ∨ s.nextEvent p = .swipe ∧ s.event = .swipe ∧ s.settleTime ≠ 0
  unfold nextEvent
  split
  next hswipe => exact .inr ⟨rfl, hswipe⟩
  next =>
    rw [if_pos (.inr (numFingers_eq_zero h.wMode h.fingers hp))]
    exact .inl rfl

theorem packet_carries (s : SynapticsTouchPad D) (p : Packet) :
    Frame.Carries (Frame.ofPacket s p) ((Frame.ofPacket s p).settle p).send :=
  (Frame.settle_carries p _).trans (Frame.send_carries _)

theorem packet_buttonInvariant {s : SynapticsTouchPad D} (h : s.ButtonInvariant) (p : Packet) :
    (s.dispatchRelativePointerEventWithAbsolutePacket p).ButtonInvariant := by
  have hcarries := packet_carries s p
  refine ⟨?_, ?_, hcarries.armed h.armed⟩
  · have hmode : (s.dispatchRelativePointerEventWithAbsolutePacket p).touchPadModeByte =
        s.touchPadModeByte := hcarries.touchPadModeByte
    rw [SynapticsTouchPad.wMode, hmode]
    exact h.wMode
  · have hfingers : (s.dispatchRelativePointerEventWithAbsolutePacket p).prevNumFingers =
        s.numFingers p := hcarries.numFingers
    rw [hfingers]
    exact numFingers_le h.fingers p

theorem step_buttonInvariant (s : SynapticsTouchPad D) (a : Action) (t : SynapticsTouchPad D)
    (h : s.ButtonInvariant) (hstep : step s a = some t) : t.ButtonInvariant := by
  cases a with
  | absolutePacket p =>
    rw [step, Option.some.injEq] at hstep
    exact hstep ▸ packet_buttonInvariant h p
  | timerExpires =>
    rw [step, Option.ite_none_right_eq_some, Option.some.injEq] at hstep
    exact hstep.2 ▸ ⟨h.wMode, h.fingers, fun hdragging => by cases hdragging⟩
  | setParamProperties dict =>
    rw [step, Option.some.injEq] at hstep
    exact hstep ▸ ⟨h.wMode, h.fingers, fun hdragging => by cases hdragging⟩
  | setDevicePowerState whatToDo =>
    rw [step, Option.some.injEq] at hstep
    subst hstep
    cases whatToDo with
    | disableDevice => exact h
    | enableDevice => exact ⟨h.wMode, h.fingers, h.armed⟩

/-- The first packet without a finger. -/
theorem packet_calm {s : SynapticsTouchPad D} {p : Packet} (h : s.ButtonInvariant)
    (hp : s.ReportsNoFinger p) (hb : p.buttons s.pref.swapButtons = 0) :
    (s.dispatchRelativePointerEventWithAbsolutePacket p).Calm := by
  have hcalm := Frame.settle_calm p (lifted_ofPacket h hp hb)
  intro hzero
  have hsettle : ((Frame.ofPacket s p).settle p).settleTime = 0 := by
    rw [← Frame.send_settleTime]
    exact hzero
  have hevent : (s.dispatchRelativePointerEventWithAbsolutePacket p).event =
      ((Frame.ofPacket s p).settle p).event := Frame.send_event (hcalm hsettle).2.2
  rw [hevent]
  exact hcalm hsettle

/-- On a calm pad, a packet without a finger sends the button of a pending drag, or a
scroll event at an edge, but not twice in a row. -/
theorem packet_quiet {s : SynapticsTouchPad D} {p : Packet} (h : s.ButtonInvariant)
    (hp : s.ReportsNoFinger p) (hb : p.buttons s.pref.swapButtons = 0) (hcalm : s.Calm) :
    (s.dispatchRelativePointerEventWithAbsolutePacket p).Released ∨
      s.event = .defaultEvent ∧
        (s.dispatchRelativePointerEventWithAbsolutePacket p).event ≠ .defaultEvent ∧
        (s.Released → (s.dispatchRelativePointerEventWithAbsolutePacket p).Released) := by
  have hquiet := Frame.settle_quiet p (lifted_ofPacket h hp hb) hcalm
  have hevent : (s.dispatchRelativePointerEventWithAbsolutePacket p).event =
      ((Frame.ofPacket s p).settle p).event := Frame.send_event hquiet.calmEvent.2.2
  obtain ⟨hdragging, hbuttons⟩ := Frame.send_quiet hquiet
  have hkept : (s.dispatchRelativePointerEventWithAbsolutePacket p).dragging = s.dragging :=
    hdragging
  rcases hbuttons with hbuttons | ⟨hprev, hbuttons, hedge⟩
  · left
    rw [Released, hkept]
    exact hbuttons
  · right
    refine ⟨hprev, ?_, ?_⟩
    · rw [hevent]
      rcases hedge with hedge | hedge <;> rw [hedge] <;> decide
    · intro hs
      rw [Released, hkept]
      exact hbuttons.trans hs

theorem packet_released {s : SynapticsTouchPad D} {p : Packet} (h : s.ButtonInvariant)
    (hp : s.ReportsNoFinger p) (hb : p.buttons s.pref.swapButtons = 0) (hcalm : s.Calm)
    (hs : s.Released ∨ s.event ≠ .defaultEvent) :
    (s.dispatchRelativePointerEventWithAbsolutePacket p).Released := by
  rcases packet_quiet h hp hb hcalm with hreleased | ⟨hdefault, -, hkept⟩
  · exact hreleased
  · rcases hs with hs | hs
    · exact hkept hs
    · exact absurd hdefault hs

/-- Packets without a finger and without a button. -/
def Idle (s : SynapticsTouchPad D) (ps : List Packet) : Prop :=
  ∀ p ∈ ps, s.ReportsNoFinger p ∧ p.buttons s.pref.swapButtons = 0

instance (s : SynapticsTouchPad D) (ps : List Packet) : Decidable (s.Idle ps) :=
  inferInstanceAs (Decidable (∀ p ∈ ps, (_ ∧ (_ ∨ _)) ∧ _))

theorem Idle.packet {s : SynapticsTouchPad D} {p : Packet} {ps : List Packet}
    (h : s.Idle (p :: ps)) : (s.dispatchRelativePointerEventWithAbsolutePacket p).Idle ps := by
  have hcarries := packet_carries s p
  have hpref : (s.dispatchRelativePointerEventWithAbsolutePacket p).pref = s.pref := hcarries.pref
  have hmulti : (s.dispatchRelativePointerEventWithAbsolutePacket p).capMultifinger =
      s.capMultifinger := congrArg (· &&& 0x0002 != 0) hcarries.capabilities
  intro q hq
  rw [ReportsNoFinger, hpref, hmulti]
  exact h q (List.mem_cons_of_mem p hq)

theorem packets_released {ps : List Packet} {s : SynapticsTouchPad D} (h : s.ButtonInvariant)
    (hcalm : s.Calm) (hs : s.Released) (hidle : s.Idle ps) :
    (ps.foldl dispatchRelativePointerEventWithAbsolutePacket s).Released := by
  induction ps generalizing s with
  | nil => exact hs
  | cons p ps ih =>
    obtain ⟨hp, hb⟩ := hidle p List.mem_cons_self
    exact ih (packet_buttonInvariant h p) (packet_calm h hp hb)
      (packet_released h hp hb hcalm (.inl hs)) hidle.packet

/-- Three packets calm the driver, send its buttons, and make up for a scroll event that
took the place of the buttons. -/
theorem threePackets_released {ps : List Packet} {s : SynapticsTouchPad D} (h : s.ButtonInvariant)
    (hthree : 3 ≤ ps.length) (hidle : s.Idle ps) :
    (ps.foldl dispatchRelativePointerEventWithAbsolutePacket s).Released := by
  obtain ⟨p, q, r, ps, rfl⟩ : ∃ p q r rest, ps = p :: q :: r :: rest := by
    match ps, hthree with
    | p :: q :: r :: rest, _ => exact ⟨p, q, r, rest, rfl⟩
  have hp := hidle p List.mem_cons_self
  have hq := hidle.packet q List.mem_cons_self
  have hr := hidle.packet.packet r List.mem_cons_self
  have h₁ := packet_buttonInvariant h p
  have h₂ := packet_buttonInvariant h₁ q
  have hcalm₁ := packet_calm h hp.1 hp.2
  have hcalm₂ := packet_calm h₁ hq.1 hq.2
  have hcalm₃ := packet_calm h₂ hr.1 hr.2
  have hreleased : (((s.dispatchRelativePointerEventWithAbsolutePacket p
      ).dispatchRelativePointerEventWithAbsolutePacket q
      ).dispatchRelativePointerEventWithAbsolutePacket r).Released := by
    apply packet_released h₂ hr.1 hr.2 hcalm₂
    rcases packet_quiet h₁ hq.1 hq.2 hcalm₁ with hs | ⟨-, hedge, -⟩
    · exact .inl hs
    · exact .inr hedge
  rw [List.foldl_cons, List.foldl_cons, List.foldl_cons]
  exact packets_released (packet_buttonInvariant h₂ r) hcalm₃ hreleased hidle.packet.packet.packet

theorem run_packets (ps : List Packet) (s : SynapticsTouchPad D) :
    Transition.run step s (ps.map .absolutePacket) =
      some (ps.foldl dispatchRelativePointerEventWithAbsolutePacket s) := by
  induction ps generalizing s with
  | nil => rfl
  | cons p ps ih => exact ih _

/-- No button is stuck: on a pad in W mode, every run that ends with three or more
packets without a finger and without a button, and then with the expiry of the drag timer
if it is armed, has dispatched the button state 0 last. -/
theorem lastButtons_eq_zero (capabilities : UInt16) (extendedCapabilities : UInt32)
    (scaleFactor : D) (hmode : (start capabilities extendedCapabilities scaleFactor).wMode = true)
    (as : List Action) (s : SynapticsTouchPad D)
    (hs : Transition.run step (start capabilities extendedCapabilities scaleFactor) as = some s)
    (ps : List Packet) (hthree : 3 ≤ ps.length) (hidle : s.Idle ps) (t : SynapticsTouchPad D)
    (ht : Transition.run step s (ps.map .absolutePacket) = some t) :
    lastButtons t.expire.dispatched = 0 := by
  have hstart : (start capabilities extendedCapabilities scaleFactor).ButtonInvariant :=
    ⟨hmode, Nat.zero_le 3, fun hdragging => by cases hdragging⟩
  have h := Transition.run_invariant step_buttonInvariant hstart hs
  have hlast := Transition.run_invariant step_buttonInvariant h ht
  rw [run_packets, Option.some.injEq] at ht
  exact expire_lastButtons hlast (ht ▸ threePackets_released h hthree hidle)

/-- A drag under a packet that still counts as one finger, no button being pressed. -/
structure HeldDrag (s : SynapticsTouchPad D) (p : Packet) : Prop where
  event : s.event = .dragging
  prevNumFingers : s.prevNumFingers = 1
  numFingers : s.numFingers p = 1
  soon : ¬ s.dt p > 20000
  buttons : p.buttons s.pref.swapButtons = 0
  dragging : s.dragging = false
  dragTimeout : s.dragTimeout = none

theorem HeldDrag.nextEvent {s : SynapticsTouchPad D} {p : Packet} (h : s.HeldDrag p) :
    s.nextEvent p = .dragging := by
  simp [SynapticsTouchPad.nextEvent, h.event, h.numFingers, h.soon]

/-- Such a packet sends the button and leaves the drag as it is. -/
theorem HeldDrag.send {s : SynapticsTouchPad D} {p : Packet} (h : s.HeldDrag p) :
    let t := s.dispatchRelativePointerEventWithAbsolutePacket p
    t.event = .dragging ∧ t.dragging = false ∧ t.dragTimeout = none ∧
      lastButtons t.dispatched = 1 := by
  have hframe : Frame.Dragged (Frame.ofPacket s p) :=
    ⟨h.event, h.nextEvent, h.buttons, h.dragging, h.dragTimeout⟩
  exact (hframe.settle p).send

theorem HeldDrag.packet {s : SynapticsTouchPad D} {p : Packet} (h : s.HeldDrag p) :
    (s.dispatchRelativePointerEventWithAbsolutePacket p).HeldDrag p := by
  have hcarries := packet_carries s p
  have hsent := h.send
  have hprev : (s.dispatchRelativePointerEventWithAbsolutePacket p).prevNumFingers = 1 :=
    hcarries.numFingers.trans h.numFingers
  have hpref : (s.dispatchRelativePointerEventWithAbsolutePacket p).pref = s.pref := hcarries.pref
  have hmode : (s.dispatchRelativePointerEventWithAbsolutePacket p).touchPadModeByte =
      s.touchPadModeByte := hcarries.touchPadModeByte
  have hcapabilities : (s.dispatchRelativePointerEventWithAbsolutePacket p).capabilities =
      s.capabilities := hcarries.capabilities
  refine ⟨hsent.1, hprev, ?_, ?_, ?_, hsent.2.1, hsent.2.2.1⟩
  · have hfingers := h.numFingers
    simp only [SynapticsTouchPad.numFingers, fingers, wMode, capMultifinger, hprev, hpref, hmode,
      hcapabilities, h.prevNumFingers] at hfingers ⊢
    exact hfingers
  · have hzero : (s.dispatchRelativePointerEventWithAbsolutePacket p).dt p = 0 := by
      simp [SynapticsTouchPad.dt, dispatchRelativePointerEventWithAbsolutePacket]
    rw [hzero]
    decide
  · rw [hpref]
    exact h.buttons

/-- As long as the packets count as one finger, the button of a drag is not released. -/
theorem HeldDrag.packets {s : SynapticsTouchPad D} {p : Packet} (h : s.HeldDrag p)
    (hs : lastButtons s.dispatched = 1) (n : ℕ) :
    ∃ t, Transition.run step s (List.replicate n (.absolutePacket p)) = some t ∧
      t.dragTimeout = none ∧ lastButtons t.dispatched = 1 := by
  induction n generalizing s with
  | zero => exact ⟨s, rfl, h.dragTimeout, hs⟩
  | succ n ih => exact ih h.packet h.send.2.2.2

end SynapticsTouchPad

/-- The finger stays away after the tap. -/
theorem tap_lastButtons_eq_zero : ∃ s t, Transition.run step plainPad tap = some s ∧
    Transition.run step s
      ([packetAt 0 0 20000, packetAt 0 0 25000, packetAt 0 0 30000].map .absolutePacket) = some t ∧
    lastButtons t.expire.dispatched = 0 := by
  have hrun : (Transition.run step plainPad tap).map (fun s => decide (s.Idle
      [packetAt 0 0 20000, packetAt 0 0 25000, packetAt 0 0 30000])) = some true := by
    decide +kernel
  obtain ⟨s, hs, hidle⟩ := Option.map_eq_some_iff.mp hrun
  refine ⟨s, _, hs, SynapticsTouchPad.run_packets _ s, ?_⟩
  exact SynapticsTouchPad.lastButtons_eq_zero 0x8000 0 1 (by decide) tap s hs _ (by decide)
    (of_decide_eq_true hidle) _ (SynapticsTouchPad.run_packets _ s)

/-- A finger that is lifted from a drag to just below the light finger threshold, but not
by more than the hysteresis, holds the button for as long as it stays there. -/
theorem lightFinger_holds_button : (28 : UInt8).toUInt32 < Z_LIGHT_FINGER ∧
    ∀ n, ∃ t, Transition.run step plainPad
      (tap ++ [fingerAt 0 40 16000] ++ List.replicate n (fingerAt 0 28 16000)) = some t ∧
      lastButtons t.expire.dispatched = 1 := by
  refine ⟨by decide, ?_⟩
  intro n
  have hrun : (Transition.run step plainPad (tap ++ [fingerAt 0 40 16000])).map (fun s => decide
      ((s.event = .dragging ∧ s.prevNumFingers = 1 ∧ s.numFingers (packetAt 0 28 16000) = 1 ∧
        ¬ s.dt (packetAt 0 28 16000) > 20000) ∧
      (packetAt 0 28 16000).buttons s.pref.swapButtons = 0 ∧ s.dragging = false ∧
        s.dragTimeout = none ∧ lastButtons s.dispatched = 1)) = some true := by
    decide +kernel
  obtain ⟨s, hs, hfields⟩ := Option.map_eq_some_iff.mp hrun
  obtain ⟨⟨hevent, hprev, hfingers, hsoon⟩, hbuttons, hdragging, htimer, hlast⟩ :=
    of_decide_eq_true hfields
  have hheld : s.HeldDrag (packetAt 0 28 16000) :=
    ⟨hevent, hprev, hfingers, hsoon, hbuttons, hdragging, htimer⟩
  obtain ⟨t, ht, htimer', hlast'⟩ := hheld.packets hlast n
  refine ⟨t, Transition.run_append.mpr ⟨s, hs, ht⟩, ?_⟩
  rw [SynapticsTouchPad.expire, htimer']
  exact hlast'

end TouchPad
