import NetbookInstaller.TouchPad.PointerJump
import Mathlib.Data.Int.ModEq

/-! The time that the touchpad driver measures: between two packets in 32 bits, and from the
packet that starts a stream on as the sum of these. -/
namespace TouchPad

variable {D : Type}

namespace Frame

/-- What the driver adds up over a stream. -/
def stream (f : Frame D) : ℤ × ℤ × UInt64 := (f.streamdx, f.streamdy, f.streamdt)

theorem scrolling_stream (f : Frame D) : f.scrolling.stream = f.stream := by
  unfold scrolling
  split <;> rfl

theorem newStream_stream (f : Frame D) : f.newStream.stream = (0, 0, 0) := by
  unfold newStream
  dsimp only
  split <;> rfl

theorem endOfStream_stream (f : Frame D) : f.endOfStream.stream = f.stream := by
  have hswipe : f.endOfSwipe.stream = f.stream := by
    unfold endOfSwipe dispatchSwipe
    split_ifs <;> rfl
  unfold endOfStream
  split
  · unfold endOfScrolling
    dsimp only
    split_ifs <;> rfl
  · unfold endOfMovement
    dsimp only
    split_ifs <;> rfl
  · unfold endOfDragging
    dsimp only
    split_ifs <;> rfl
  · exact hswipe
  · exact hswipe
  all_goals rfl

theorem draggingCalculations_stream (f : Frame D) : f.draggingCalculations.stream = f.stream := by
  unfold draggingCalculations
  split_ifs <;> rfl

theorem send_stream (f : Frame D) : f.send.stream = f.stream := by
  unfold send
  split
  next => rfl
  next => rfl
  next =>
    dsimp only
    split_ifs <;> rfl
  next => split <;> rfl
  all_goals rfl

variable [Double D]

theorem edgeScrolling_stream (p : Packet) (f : Frame D) : (f.edgeScrolling p).stream = f.stream := by
  unfold edgeScrolling
  dsimp only
  split_ifs <;> rfl

/-- A stream starts with the first event on a pad that has settled. -/
def StartsStream (f : Frame D) : Prop :=
  f.prevEvent = .defaultEvent ∧ f.settleTime = 0 ∧ f.event ≠ .defaultEvent

theorem settle_stream_of_starts (p : Packet) {f : Frame D} (h : f.StartsStream) :
    (f.settle p).stream = (0, 0, 0) := by
  obtain ⟨hprev, hsettle, hevent⟩ := h
  have hg := edgeScrolling_scrolling_atEdge p f
  have hchanged : f.prevEvent ≠ f.event ∨ f.settleTime ≠ 0 := .inl fun h => hevent (h ▸ hprev)
  rw [settle, if_pos hchanged, draggingCalculations_stream, eventChanged,
    if_pos (hg.settleTime.trans hsettle), if_pos (hg.prevEvent.trans hprev), newStream_stream]

theorem settle_stream_of_not_starts (p : Packet) {f : Frame D} (h : ¬ f.StartsStream) :
    (f.settle p).stream = f.stream := by
  have hg := edgeScrolling_scrolling_atEdge p f
  unfold settle
  split
  next hchanged =>
    have hkept : ((f.edgeScrolling p).scrolling).stream = f.stream := by
      rw [scrolling_stream, edgeScrolling_stream]
    rw [draggingCalculations_stream, eventChanged]
    split
    next hsettle =>
      rw [hg.settleTime] at hsettle
      have hprev : ((f.edgeScrolling p).scrolling).prevEvent ≠ .defaultEvent := by
        rw [hg.prevEvent]
        intro hprev
        refine h ⟨hprev, hsettle, ?_⟩
        rw [← hprev]
        exact (hchanged.resolve_right fun hne => hne hsettle).symm
      rw [if_neg hprev]
      split
      · rw [endOfStream_stream, hkept]
      · exact hkept
    next => exact hkept
  next => rfl

end Frame

namespace SynapticsTouchPad

variable [Double D]

theorem packet_stream_of_starts {s : SynapticsTouchPad D} {p : Packet} (h : s.StartsStream p) :
    let t := s.dispatchRelativePointerEventWithAbsolutePacket p
    t.streamdx = 0 ∧ t.streamdy = 0 ∧ t.streamdt = 0 := by
  have hstream : ((Frame.ofPacket s p).settle p).send.stream = (0, 0, 0) := by
    rw [Frame.send_stream]
    exact Frame.settle_stream_of_starts p h
  simp only [Frame.stream, Prod.mk.injEq] at hstream
  exact hstream

theorem packet_stream_of_not_starts {s : SynapticsTouchPad D} {p : Packet}
    (h : ¬ s.StartsStream p) :
    let t := s.dispatchRelativePointerEventWithAbsolutePacket p
    t.streamdx = addSInt32 s.streamdx (s.movement p).1 ∧
      t.streamdy = addSInt32 s.streamdy (s.movement p).2 ∧ t.streamdt = s.streamdt + s.dt p := by
  have hstream : ((Frame.ofPacket s p).settle p).send.stream = (Frame.ofPacket s p).stream := by
    rw [Frame.send_stream]
    exact Frame.settle_stream_of_not_starts p h
  simp only [Frame.stream, Prod.mk.injEq] at hstream
  exact hstream

/-- The time of the last packet, in microseconds. -/
def now (s : SynapticsTouchPad D) : ℤ := s.prevPacketSecond.toNat * 1000000 + s.prevPacketTime.toNat

theorem toNat_sub_modEq (x y : UInt32) : ((x - y).toNat : ℤ) ≡ x.toNat - y.toNat [ZMOD 2 ^ 32] := by
  have hy := y.toNat_lt
  rw [UInt32.toNat_sub, Int.ModEq]
  omega

omit [Double D] in
/-- The driver's clock goes round every 2 ^ 32 microseconds. -/
theorem dt_toNat (s : SynapticsTouchPad D) (p : Packet) :
    ((s.dt p).toNat : ℤ) = s.elapsed p % 2 ^ 32 := by
  have hseconds := (toNat_sub_modEq p.second s.prevPacketSecond).mul_right 1000000
  have hround : ((s.dt p).toNat : ℤ) ≡ s.elapsed p [ZMOD 2 ^ 32] := by
    unfold dt
    rw [UInt32.toNat_toUInt64, UInt32.toNat_add, UInt32.toNat_mul,
      show (1000000 : UInt32).toNat = 1000000 from rfl]
    push_cast
    calc _ ≡ ((p.second - s.prevPacketSecond).toNat * 1000000 : ℤ) +
          (p.currentTime - s.prevPacketTime).toNat [ZMOD 2 ^ 32] :=
          (Int.mod_modEq _ _).trans ((Int.mod_modEq _ _).add_right _)
      _ ≡ (p.second.toNat - s.prevPacketSecond.toNat) * 1000000 +
          (p.currentTime.toNat - s.prevPacketTime.toNat) [ZMOD 2 ^ 32] :=
          hseconds.add (toNat_sub_modEq _ _)
      _ = s.elapsed p := by
          unfold elapsed
          ring
  have hsmall : (s.dt p).toNat < 2 ^ 32 := by
    unfold dt
    rw [UInt32.toNat_toUInt64]
    exact UInt32.toNat_lt _
  rw [← hround, Int.emod_eq_of_lt (Int.natCast_nonneg _) (by omega)]

omit [Double D] in
theorem dt_gt_iff (s : SynapticsTouchPad D) (p : Packet) :
    s.dt p > 20000 ↔ 20000 < s.elapsed p % 2 ^ 32 := by
  rw [gt_iff_lt, UInt64.lt_iff_toNat_lt, ← dt_toNat,
    show (20000 : UInt64).toNat = 20000 from rfl]
  omega

/-- A later packet of the stream, by a clock that does not go back. -/
def InStream (s : SynapticsTouchPad D) : Action → Prop
  | .absolutePacket p => 0 ≤ s.elapsed p ∧ ¬ s.StartsStream p
  | _ => True

/-- The packet comes before the driver's clock has gone round. -/
def WithinClock (s : SynapticsTouchPad D) : Action → Prop
  | .absolutePacket p => s.elapsed p < 2 ^ 32
  | _ => True

/-- How far the time of the stream is behind the time since `began`. -/
def lag (began : ℤ) (s : SynapticsTouchPad D) : ℤ := s.now - began - s.streamdt.toNat

theorem packet_lag {began : ℤ} {s : SynapticsTouchPad D} {p : Packet} (hbegan : 0 ≤ began)
    (hlag : 0 ≤ lag began s) (h : s.InStream (.absolutePacket p)) :
    lag began (s.dispatchRelativePointerEventWithAbsolutePacket p) =
      lag began s + (s.elapsed p - s.elapsed p % 2 ^ 32) := by
  have hdt := (packet_stream_of_not_starts h.2).2.2
  have hnow : (s.dispatchRelativePointerEventWithAbsolutePacket p).now = s.now + s.elapsed p := by
    unfold now elapsed
    show (p.second.toNat * 1000000 + p.currentTime.toNat : ℤ) = _
    ring
  have hbound : s.now + s.elapsed p < 2 ^ 64 := by
    have hsecond := p.second.toNat_lt
    have htime := p.currentTime.toNat_lt
    unfold now elapsed
    omega
  have hsmall : s.elapsed p % 2 ^ 32 ≤ s.elapsed p := by
    have hsoon := h.1
    omega
  have hmod := dt_toNat s p
  unfold lag at hlag ⊢
  -- the time of the stream is not more than the clock has shown, so that its sum fits
  have hsum : (s.streamdt + s.dt p).toNat = s.streamdt.toNat + (s.dt p).toNat := by
    rw [UInt64.toNat_add]
    exact Nat.mod_eq_of_lt (by omega)
  rw [hdt, hnow, hsum]
  push_cast
  omega

theorem step_lag {began : ℤ} (hbegan : 0 ≤ began) (s : SynapticsTouchPad D) (a : Action)
    (t : SynapticsTouchPad D) (hlag : 0 ≤ lag began s) (hok : s.InStream a)
    (hstep : step s a = some t) :
    lag began s ≤ lag began t ∧ (lag began t = lag began s ↔ s.WithinClock a) := by
  cases a with
  | absolutePacket p =>
    rw [step, Option.some.injEq] at hstep
    have hlater := packet_lag hbegan hlag hok
    rw [hstep] at hlater
    have hsoon : 0 ≤ s.elapsed p := hok.1
    show _ ∧ (_ ↔ s.elapsed p < 2 ^ 32)
    omega
  | timerExpires =>
    rw [step, Option.ite_none_right_eq_some, Option.some.injEq] at hstep
    rw [← hstep.2]
    exact ⟨le_rfl, iff_of_true rfl trivial⟩
  | setParamProperties dict =>
    rw [step, Option.some.injEq] at hstep
    rw [← hstep]
    exact ⟨le_rfl, iff_of_true rfl trivial⟩
  | setDevicePowerState whatToDo =>
    rw [step, Option.some.injEq] at hstep
    rw [← hstep]
    cases whatToDo <;> exact ⟨le_rfl, iff_of_true rfl trivial⟩

theorem run_lag {began : ℤ} (hbegan : 0 ≤ began) {as : List Action} {s t : SynapticsTouchPad D}
    (hlag : 0 ≤ lag began s) (hok : Transition.Guarded step InStream s as)
    (hr : Transition.run step s as = some t) :
    lag began t = lag began s ↔ Transition.Guarded step WithinClock s as :=
  (Transition.Guarded.run_measure_eq_iff
    (fun s a t hs ha ht => hs.trans (step_lag hbegan s a t hs ha ht).1)
    (step_lag hbegan) hlag hok hr).2

/-- By a clock that does not go back, the driver finds a gap of more than 20 ms before a packet
exactly when there is one, unless so much time has gone by that its clock is back within the
20 ms; and the time of the stream is the time since the packet that started it exactly as
long as no packet comes after the driver's clock has gone round. -/
theorem gap_and_streamdt_iff (s : SynapticsTouchPad D) (p : Packet) (hclock : 0 ≤ s.elapsed p) :
    ((s.dt p > 20000 ↔ 20000 < s.elapsed p) ↔
      s.elapsed p < 2 ^ 32 ∨ 20000 < s.elapsed p % 2 ^ 32) ∧
    (s.StartsStream p → ∀ (as : List Action) (t : SynapticsTouchPad D),
      let began := s.dispatchRelativePointerEventWithAbsolutePacket p
      Transition.Guarded step InStream began as → Transition.run step began as = some t →
        (t.streamdt.toNat = t.now - began.now ↔ Transition.Guarded step WithinClock began as)) := by
  constructor
  · rw [dt_gt_iff]
    omega
  · intro hstarts as t
    dsimp only
    intro hok hr
    have hzero := (packet_stream_of_starts hstarts).2.2
    have hlag : lag (s.dispatchRelativePointerEventWithAbsolutePacket p).now
        (s.dispatchRelativePointerEventWithAbsolutePacket p) = 0 := by
      unfold lag
      rw [hzero]
      simp
    have hbegan : 0 ≤ (s.dispatchRelativePointerEventWithAbsolutePacket p).now := by
      unfold now
      omega
    rw [← run_lag hbegan hlag.ge hok hr, hlag, lag]
    omega

instance (s : SynapticsTouchPad D) (p : Packet) : Decidable (s.StartsStream p) :=
  inferInstanceAs (Decidable (_ ∧ _ ∧ _))

instance (s : SynapticsTouchPad D) (a : Action) : Decidable (s.InStream a) :=
  match a with
  | .absolutePacket p => inferInstanceAs (Decidable (0 ≤ s.elapsed p ∧ ¬ s.StartsStream p))
  | .timerExpires | .setParamProperties _ | .setDevicePowerState _ => .isTrue trivial

instance (s : SynapticsTouchPad D) (a : Action) : Decidable (s.WithinClock a) :=
  match a with
  | .absolutePacket p => inferInstanceAs (Decidable (s.elapsed p < 2 ^ 32))
  | .timerExpires | .setParamProperties _ | .setDevicePowerState _ => .isTrue trivial

end SynapticsTouchPad

/-- The pad with a finger that has come down at time 0. -/
def touched : SynapticsTouchPad ℚ :=
  plainPad.dispatchRelativePointerEventWithAbsolutePacket (packetAt 0 40 0)

/-- A finger that stays for 10 ms. -/
def stay : List Action := [fingerAt 0 40 5000, fingerAt 0 40 10000]

theorem stay_streamdt :
    ((plainPad.dt (packetAt 0 40 0) > 20000 ↔ 20000 < plainPad.elapsed (packetAt 0 40 0)) ↔
      plainPad.elapsed (packetAt 0 40 0) < 2 ^ 32 ∨
        20000 < plainPad.elapsed (packetAt 0 40 0) % 2 ^ 32) ∧
    ∃ t, Transition.run step touched stay = some t ∧
      (t.streamdt.toNat = t.now - touched.now ↔
        Transition.Guarded step SynapticsTouchPad.WithinClock touched stay) := by
  obtain ⟨t, ht⟩ : ∃ t, Transition.run step touched stay = some t :=
    Option.isSome_iff_exists.mp (by decide +kernel)
  obtain ⟨hgap, hstream⟩ :=
    SynapticsTouchPad.gap_and_streamdt_iff plainPad (packetAt 0 40 0) (by decide)
  exact ⟨hgap, t, ht, hstream (by decide +kernel) stay t (by decide +kernel) ht⟩

/-- The packet that comes 2 ^ 32 µs and 10 ms later. -/
def muchLater : Packet := { packetAt 0 40 977296 with second := 4294 }

/-- A touch that goes on after more than an hour is no gap, and 10 ms long. -/
theorem muchLater_is_no_gap :
    ¬ (touched.dt muchLater > 20000 ↔ 20000 < touched.elapsed muchLater) ∧
      Transition.Guarded step SynapticsTouchPad.InStream touched [.absolutePacket muchLater] ∧
      ∃ t, Transition.run step touched [.absolutePacket muchLater] = some t ∧
        ¬ (t.streamdt.toNat = t.now - touched.now) := by
  refine ⟨by decide +kernel, by decide +kernel, ?_⟩
  exact ⟨touched.dispatchRelativePointerEventWithAbsolutePacket muchLater, rfl, by decide +kernel⟩

end TouchPad
