import NetbookInstaller.TouchPad.Packet

/-! The drag timer is armed as long as a tap or a drag is pending. -/
namespace TouchPad

variable {D : Type}

/-- The timer is armed for a pending tap or drag, and not during a drag. -/
structure TimerInvariant (s : SynapticsTouchPad D) : Prop where
  armed : s.dragTimeout.isSome = true ↔ s.tapped = true ∨ s.dragging = true
  drag : s.event = .dragging → s.dragTimeout = none

theorem TimerInvariant.idle {s : SynapticsTouchPad D} (h : TimerInvariant s)
    (htimer : s.dragTimeout = none) : s.tapped = false ∧ s.dragging = false := by
  have harmed := h.armed
  rw [htimer] at harmed
  simpa using harmed

/-- Nothing is pending and the timer is not armed. -/
theorem timerInvariant_of_idle {s : SynapticsTouchPad D} (htimer : s.dragTimeout = none)
    (htapped : s.tapped = false) (hdragging : s.dragging = false) : TimerInvariant s :=
  ⟨by simp [htimer, htapped, hdragging], fun _ => htimer⟩

/-- Something has been made pending, and the timer has been armed. -/
theorem timerInvariant_of_armed {s : SynapticsTouchPad D} {us : UInt32}
    (htimer : s.dragTimeout = some us) (hpending : s.tapped = true ∨ s.dragging = true)
    (hevent : s.event ≠ .dragging) : TimerInvariant s :=
  ⟨by simp [htimer, hpending], fun h => absurd h hevent⟩

namespace Frame

/-- What the tests for edges and scrolling do: at an edge the event is another one. -/
structure AtEdge (f g : Frame D) : Prop where
  prevEvent : g.prevEvent = f.prevEvent
  settleTime : g.settleTime = f.settleTime
  numFingers : g.numFingers = f.numFingers
  buttons : g.buttons = f.buttons
  tapped : g.tapped = f.tapped
  dragging : g.dragging = f.dragging
  dragTimeout : g.dragTimeout = f.dragTimeout
  dispatched : g.dispatched = f.dispatched
  event : g.event = f.event ∨ f.prevEvent = .defaultEvent ∧
    (g.event = .verticalScrolling ∨ g.event = .horizontalScrolling)

theorem AtEdge.timerInvariant {f g : Frame D} (hg : AtEdge f g)
    (h : TimerInvariant f.toSynapticsTouchPad) : TimerInvariant g.toSynapticsTouchPad := by
  constructor
  · rw [hg.dragTimeout, hg.tapped, hg.dragging]
    exact h.armed
  · intro hdrag
    rw [hg.dragTimeout]
    rcases hg.event with hsame | ⟨-, hedge | hedge⟩
    · exact h.drag (hsame ▸ hdrag)
    · rw [hedge] at hdrag
      cases hdrag
    · rw [hedge] at hdrag
      cases hdrag

/-- A new stream takes up a pending drag. -/
theorem newStream_timerInvariant {f : Frame D} (h : TimerInvariant f.toSynapticsTouchPad)
    (hpending : ¬ (f.tapped = true ∧ f.dragging = true)) :
    TimerInvariant f.newStream.toSynapticsTouchPad := by
  unfold newStream
  dsimp only
  split
  next hdragging =>
    have htapped : f.tapped = false := by
      rw [← Bool.not_eq_true]
      exact fun htapped => hpending ⟨htapped, hdragging⟩
    exact timerInvariant_of_idle rfl htapped rfl
  next => exact ⟨h.armed, h.drag⟩

theorem endOfScrolling_timerInvariant {f : Frame D} (h : TimerInvariant f.toSynapticsTouchPad) :
    TimerInvariant f.endOfScrolling.toSynapticsTouchPad := by
  unfold endOfScrolling
  dsimp only
  split <;> split <;> exact ⟨h.armed, fun hevent => by cases hevent⟩

theorem endOfMovement_timerInvariant {f : Frame D} (h : TimerInvariant f.toSynapticsTouchPad)
    (hevent : f.event = .defaultEvent) : TimerInvariant f.endOfMovement.toSynapticsTouchPad := by
  unfold endOfMovement
  dsimp only
  split
  · split
    · exact ⟨h.armed, h.drag⟩
    · split
      · exact ⟨h.armed, h.drag⟩
      · exact timerInvariant_of_armed rfl (.inl rfl) (by rw [hevent]; decide)
  · exact ⟨h.armed, h.drag⟩

theorem endOfDragging_timerInvariant {f : Frame D} (h : TimerInvariant f.toSynapticsTouchPad)
    (htimer : f.dragTimeout = none) : TimerInvariant f.endOfDragging.toSynapticsTouchPad := by
  obtain ⟨htapped, hdragging⟩ := h.idle htimer
  unfold endOfDragging
  dsimp only
  split
  · split
    · exact timerInvariant_of_idle htimer htapped hdragging
    · exact timerInvariant_of_idle htimer rfl hdragging
  · exact timerInvariant_of_armed rfl (.inr rfl) (by simp)

theorem endOfSwipe_timerInvariant {f : Frame D} (h : TimerInvariant f.toSynapticsTouchPad) :
    TimerInvariant f.endOfSwipe.toSynapticsTouchPad := by
  have hswipe : TimerInvariant f.dispatchSwipe.toSynapticsTouchPad := by
    unfold dispatchSwipe
    split
    · exact ⟨h.armed, h.drag⟩
    · split
      · exact ⟨h.armed, h.drag⟩
      · exact h
  unfold endOfSwipe
  split
  · exact ⟨hswipe.armed, fun hevent => by cases hevent⟩
  · exact ⟨h.armed, h.drag⟩

theorem endOfStream_timerInvariant {f : Frame D} (h : TimerInvariant f.toSynapticsTouchPad)
    (hevent : f.event = .defaultEvent) (hprev : f.prevEvent = .dragging → f.dragTimeout = none) :
    TimerInvariant f.endOfStream.toSynapticsTouchPad := by
  unfold endOfStream
  split
  next => exact endOfScrolling_timerInvariant h
  next => exact endOfMovement_timerInvariant h hevent
  next hdrag => exact endOfDragging_timerInvariant h (hprev hdrag)
  next => exact endOfSwipe_timerInvariant h
  next => exact endOfSwipe_timerInvariant h
  all_goals exact ⟨h.armed, h.drag⟩

theorem eventChanged_timerInvariant {f : Frame D} (h : TimerInvariant f.toSynapticsTouchPad)
    (hprev : f.prevEvent = .dragging → f.dragTimeout = none)
    (hpending : f.prevEvent = .defaultEvent → f.settleTime = 0 →
      ¬ (f.tapped = true ∧ f.dragging = true)) :
    TimerInvariant f.eventChanged.toSynapticsTouchPad := by
  unfold eventChanged
  split
  next hsettle =>
    split
    next hdefault => exact newStream_timerInvariant h (hpending hdefault hsettle)
    next =>
      split
      next hevent => exact endOfStream_timerInvariant h hevent hprev
      next => exact ⟨h.armed, h.drag⟩
  next => exact ⟨h.armed, h.drag⟩

theorem draggingCalculations_timerInvariant {f : Frame D}
    (h : TimerInvariant f.toSynapticsTouchPad) :
    TimerInvariant f.draggingCalculations.toSynapticsTouchPad := by
  unfold draggingCalculations
  split
  · exact h
  · split
    · exact timerInvariant_of_idle rfl rfl rfl
    · exact h

theorem send_timerInvariant {f : Frame D} (h : TimerInvariant f.toSynapticsTouchPad) :
    TimerInvariant f.send.toSynapticsTouchPad := by
  unfold send
  split
  next => exact ⟨h.armed, h.drag⟩
  next => exact ⟨h.armed, h.drag⟩
  next =>
    dsimp only
    split
    · exact ⟨h.armed, h.drag⟩
    · split
      · exact ⟨h.armed, h.drag⟩
      · split
        · exact ⟨h.armed, h.drag⟩
        · exact ⟨h.armed, h.drag⟩
  next hevent =>
    split
    · exact timerInvariant_of_idle (h.drag hevent) rfl rfl
    · exact ⟨h.armed, h.drag⟩
  all_goals exact ⟨h.armed, h.drag⟩

variable [Double D]

theorem edgeScrolling_scrolling_atEdge (p : Packet) (f : Frame D) :
    AtEdge f (f.edgeScrolling p).scrolling := by
  have hedge : AtEdge f (f.edgeScrolling p) := by
    unfold edgeScrolling
    dsimp only
    split
    next h => exact ⟨rfl, rfl, rfl, rfl, rfl, rfl, rfl, rfl, .inr ⟨h.1.1, .inl rfl⟩⟩
    next =>
      split
      next h => exact ⟨rfl, rfl, rfl, rfl, rfl, rfl, rfl, rfl, .inr ⟨h.1.1, .inr rfl⟩⟩
      next => exact ⟨rfl, rfl, rfl, rfl, rfl, rfl, rfl, rfl, .inl rfl⟩
  unfold scrolling
  split
  · exact ⟨hedge.prevEvent, hedge.settleTime, hedge.numFingers, hedge.buttons, hedge.tapped,
      hedge.dragging, hedge.dragTimeout, hedge.dispatched, hedge.event⟩
  · exact hedge

theorem settle_timerInvariant {f : Frame D} (p : Packet)
    (h : TimerInvariant f.toSynapticsTouchPad)
    (hprev : f.prevEvent = .dragging → f.dragTimeout = none)
    (hpending : f.prevEvent = .defaultEvent → f.settleTime = 0 → f.event ≠ .defaultEvent →
      ¬ (f.tapped = true ∧ f.dragging = true)) :
    TimerInvariant (f.settle p).toSynapticsTouchPad := by
  unfold settle
  split
  next hchanged =>
    have hg := edgeScrolling_scrolling_atEdge p f
    apply draggingCalculations_timerInvariant
    apply eventChanged_timerInvariant
    · exact hg.timerInvariant h
    · rw [hg.prevEvent, hg.dragTimeout]
      exact hprev
    · rw [hg.prevEvent, hg.settleTime, hg.tapped, hg.dragging]
      intro hdefault hzero
      apply hpending hdefault hzero
      intro hevent
      rw [hdefault, hevent, hzero] at hchanged
      simp at hchanged
  next => exact h

end Frame

namespace SynapticsTouchPad

variable [Double D]

/-- A packet starts a new stream on a pad that has settled. -/
def StartsStream (s : SynapticsTouchPad D) (p : Packet) : Prop :=
  s.event = .defaultEvent ∧ s.settleTime = 0 ∧ s.nextEvent p ≠ .defaultEvent

/-- What an action must not do: start a stream while both a tap and a drag are
pending, or clear what is pending without the timer. -/
def KeepsTimer (s : SynapticsTouchPad D) : Action → Prop
  | .absolutePacket p => ¬ (s.tapped = true ∧ s.dragging = true ∧ s.StartsStream p)
  | .timerExpires => True
  | .setParamProperties _ => s.tapped = false ∧ s.dragging = false
  | .setDevicePowerState whatToDo =>
    whatToDo = .enableDevice → s.tapped = true → s.dragging = true

theorem nextEvent_dragging {s : SynapticsTouchPad D} {p : Packet} (h : s.nextEvent p = .dragging) :
    s.event = .dragging := by
  unfold nextEvent at h
  split at h
  · cases h
  · split at h
    · cases h
    · split at h
      · cases h
      · cases h
      · assumption
      · split at h
        · cases h
        · split at h <;> cases h
        · cases h
        · cases h

theorem packet_timerInvariant {s : SynapticsTouchPad D} {p : Packet} (h : TimerInvariant s)
    (hok : s.KeepsTimer (.absolutePacket p)) :
    TimerInvariant (s.dispatchRelativePointerEventWithAbsolutePacket p) := by
  have hframe : TimerInvariant (Frame.ofPacket s p).toSynapticsTouchPad :=
    ⟨h.armed, fun hevent => h.drag (nextEvent_dragging hevent)⟩
  have hsent := Frame.send_timerInvariant (Frame.settle_timerInvariant p hframe h.drag
    fun hdefault hzero hevent hpending =>
      hok ⟨hpending.1, hpending.2, hdefault, hzero, hevent⟩)
  exact ⟨hsent.armed, hsent.drag⟩

theorem step_timerInvariant (s : SynapticsTouchPad D) (a : Action) (t : SynapticsTouchPad D)
    (h : TimerInvariant s) (hok : s.KeepsTimer a) (hstep : step s a = some t) :
    TimerInvariant t := by
  cases a with
  | absolutePacket p =>
    rw [step, Option.some.injEq] at hstep
    exact hstep ▸ packet_timerInvariant h hok
  | timerExpires =>
    rw [step, Option.ite_none_right_eq_some, Option.some.injEq] at hstep
    exact hstep.2 ▸ timerInvariant_of_idle rfl rfl rfl
  | setParamProperties dict =>
    rw [step, Option.some.injEq] at hstep
    subst hstep
    have htimer : s.dragTimeout = none := by
      have harmed := h.armed
      rw [hok.1, hok.2] at harmed
      simpa using harmed
    exact timerInvariant_of_idle htimer rfl rfl
  | setDevicePowerState whatToDo =>
    rw [step, Option.some.injEq] at hstep
    subst hstep
    cases whatToDo with
    | disableDevice => exact h
    | enableDevice =>
      refine ⟨?_, h.drag⟩
      have harmed := h.armed
      have hdrag := hok rfl
      show s.dragTimeout.isSome = true ↔ false = true ∨ s.dragging = true
      rw [harmed]
      constructor
      · rintro (htapped | hdragging)
        · exact .inr (hdrag htapped)
        · exact .inr hdragging
      · rintro (hfalse | hdragging)
        · cases hfalse
        · exact .inr hdragging

/-- In every run that keeps the timer, the timer is armed exactly as long as a tap or a
drag is pending; when it expires, one is pending and none is left. -/
theorem dragTimer_armed_iff_pending (capabilities : UInt16) (extendedCapabilities : UInt32)
    (scaleFactor : D) (as : List Action) (t : SynapticsTouchPad D)
    (hok : Transition.Guarded step KeepsTimer
      (start capabilities extendedCapabilities scaleFactor) as)
    (hr : Transition.run step (start capabilities extendedCapabilities scaleFactor) as = some t) :
    (t.dragTimeout.isSome = true ↔ t.tapped = true ∨ t.dragging = true) ∧
      ∀ u, step t .timerExpires = some u →
        (t.tapped = true ∨ t.dragging = true) ∧
          u.dragTimeout = none ∧ u.tapped = false ∧ u.dragging = false := by
  have hstart : TimerInvariant (start capabilities extendedCapabilities scaleFactor) :=
    timerInvariant_of_idle rfl rfl rfl
  have h := Transition.guarded_run_invariant step_timerInvariant hstart hok hr
  refine ⟨h.armed, ?_⟩
  intro u hu
  rw [step, Option.ite_none_right_eq_some, Option.some.injEq] at hu
  exact ⟨h.armed.mp hu.1, hu.2 ▸ ⟨rfl, rfl, rfl⟩⟩

instance (s : SynapticsTouchPad D) (a : Action) : Decidable (s.KeepsTimer a) :=
  match a with
  | .absolutePacket p =>
    inferInstanceAs (Decidable (¬ (s.tapped = true ∧ s.dragging = true ∧
      s.event = .defaultEvent ∧ s.settleTime = 0 ∧ s.nextEvent p ≠ .defaultEvent)))
  | .timerExpires => .isTrue trivial
  | .setParamProperties _ => inferInstanceAs (Decidable (s.tapped = false ∧ s.dragging = false))
  | .setDevicePowerState whatToDo =>
    inferInstanceAs (Decidable (whatToDo = .enableDevice → s.tapped = true → s.dragging = true))

end SynapticsTouchPad

/-! A pad in W mode that counts the fingers by the pressure, and one finger on it. -/

def plainPad : SynapticsTouchPad ℚ := .start 0x8000 0 1

def noParams : ParamProperties :=
  ⟨none, none, none, none, none, none, none, none, none, none, none, none, none, none, none, none⟩

def tapToDrag : Action :=
  .setParamProperties { noParams with tapToClick := some true, draggin := some true }

def packetAt (x pressureZ : UInt8) (currentTime : UInt32) : Packet :=
  ⟨#v[0x90, 0, pressureZ, 0xC0, x, 0], 0, currentTime⟩

def fingerAt (x pressureZ : UInt8) (currentTime : UInt32) : Action :=
  .absolutePacket (packetAt x pressureZ currentTime)

def tap : List Action :=
  [tapToDrag, fingerAt 0 40 0, fingerAt 0 40 5000, fingerAt 0 40 10000, fingerAt 0 0 15000]

/-- After the tap, a drag that is let go; before its release delay is over, a second
touch that ends as a tap, and a third one. -/
def tapOverDrag : List Action :=
  tap ++ [fingerAt 0 40 16000, fingerAt 100 40 17000, fingerAt 100 40 18000,
    fingerAt 100 40 19000, fingerAt 100 40 20000, fingerAt 100 40 21000, fingerAt 100 0 22000,
    fingerAt 0 40 23000] ++
  List.replicate 10 (fingerAt 0 40 24000) ++ List.replicate 6 (fingerAt 0 0 25000) ++
  [fingerAt 0 40 26000]

/-- The timer is armed for a tap. -/
theorem tap_dragTimer_armed : ∃ t, Transition.run step plainPad tap = some t ∧
    (t.dragTimeout.isSome = true ↔ t.tapped = true ∨ t.dragging = true) := by
  obtain ⟨t, ht⟩ : ∃ t, Transition.run step plainPad tap = some t :=
    Option.isSome_iff_exists.mp (by decide +kernel)
  exact ⟨t, ht, (SynapticsTouchPad.dragTimer_armed_iff_pending 0x8000 0 1 tap t
    (by decide +kernel) ht).1⟩

/-- New settings and an enabled device leave the timer armed with nothing pending; a
stream that takes up a drag over a pending tap leaves the tap without the timer. -/
theorem dragTimer_not_armed_iff_pending :
    (∃ t, Transition.run step plainPad (tap ++ [.setParamProperties noParams]) = some t ∧
      t.dragTimeout.isSome = true ∧ t.tapped = false ∧ t.dragging = false) ∧
    (∃ t, Transition.run step plainPad (tap ++ [.setDevicePowerState .enableDevice]) = some t ∧
      t.dragTimeout.isSome = true ∧ t.tapped = false ∧ t.dragging = false) ∧
    ∃ t, Transition.run step plainPad tapOverDrag = some t ∧
      t.dragTimeout.isSome = false ∧ t.tapped = true ∧ t.dragging = false := by
  have hview : ∀ (as : List Action) (armed tapped dragging : Bool),
      (Transition.run step plainPad as).map
        (fun t => (t.dragTimeout.isSome, t.tapped, t.dragging)) = some (armed, tapped, dragging) →
      ∃ t, Transition.run step plainPad as = some t ∧
        t.dragTimeout.isSome = armed ∧ t.tapped = tapped ∧ t.dragging = dragging := by
    intro as armed tapped dragging h
    obtain ⟨t, ht, hfields⟩ := Option.map_eq_some_iff.mp h
    simp only [Prod.mk.injEq] at hfields
    exact ⟨t, ht, hfields⟩
  refine ⟨hview _ _ _ _ ?_, hview _ _ _ _ ?_, hview _ _ _ _ ?_⟩
  · decide +kernel
  · decide +kernel
  · decide +kernel

end TouchPad
