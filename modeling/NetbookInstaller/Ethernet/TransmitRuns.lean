import NetbookInstaller.Ethernet.Transmit
import Mathlib.Data.Multiset.OrderedMonoid

/-! What becomes of the packets over whole runs of the transmit path: the order after the
adapter has been opened again, the packets that are given back, and the queue that waits for
a descriptor. -/
namespace Ethernet

/-- The actions that reset the chip or stop it. -/
def TxAction.resets : TxAction → Bool
  | .R1000TxTimeout | .R1000CloseAdapter | .R1000OpenAdapter => true
  | _ => false

namespace TxSystem

variable {s t u : TxSystem} {a : TxAction} {as : List TxAction}

/-- The frame that a step takes into the ring. -/
def acceptedFrame (s : TxSystem) : TxAction → List (List UInt8)
  | .outputPacket m =>
    if s.ring.frame s.ring.entry = none ∧ m.pkthdr_len ≤ tx_pkt_len then [m.bytes] else []
  | _ => []

def acceptedFrames (s : TxSystem) : List TxAction → List (List UInt8)
  | [] => []
  | a :: as =>
    s.acceptedFrame a ++
      match s.step a with
      | none => []
      | some t => t.acceptedFrames as

theorem acceptedFrames_cons (h : s.step a = some t) :
    s.acceptedFrames (a :: as) = s.acceptedFrame a ++ t.acceptedFrames as := by
  rw [acceptedFrames, h]

/-- How things stand after the adapter has been opened again with the driver at the
descriptor `entry`: the frames lie in the ring from there on and nothing leaves before the
driver comes round to the descriptor that the chip looks at, whose frame is the first to
leave. -/
inductive Reopened (entry : ℕ) (sent accepted : List (List UInt8)) (s : TxSystem) : Prop where
  | silent (h : s.sent = sent) (position : s.position = 0)
      (queue : SlotRing.Holds NUM_TX_DESC (· = none) s.ring.frame entry s.ring.cur_tx.toNat
        accepted)
  | leaving (frame : List UInt8) (rest : List (List UInt8)) (h : s.sent = sent ++ frame :: rest)
      (first : accepted[(NUM_TX_DESC - entry) % NUM_TX_DESC]? = some frame)

theorem Reopened.congr {entry : ℕ} {sent accepted : List (List UInt8)}
    (h : s.Reopened entry sent accepted) (hframe : t.ring.frame = s.ring.frame)
    (hcur : t.ring.cur_tx = s.ring.cur_tx) (hpos : t.position = s.position)
    (hsent : t.sent = s.sent) : t.Reopened entry sent accepted := by
  cases h with
  | silent h position queue =>
    refine .silent (hsent.trans h) (hpos.trans position) ?_
    rwa [hframe, hcur]
  | leaving frame rest h first => exact .leaving frame rest (hsent.trans h) first

theorem Reopened.output {entry : ℕ} {sent accepted : List (List UInt8)}
    (h : s.Reopened entry sent accepted) (m : Mbuf) :
    (s.output m).Reopened entry sent (accepted ++ s.acceptedFrame (.outputPacket m)) := by
  rw [output_eq, acceptedFrame]
  by_cases hfree : s.ring.frame s.ring.entry = none
  · rw [if_pos hfree]
    by_cases hlen : m.pkthdr_len ≤ tx_pkt_len
    · rw [if_pos hlen, if_pos ⟨hfree, hlen⟩]
      cases h with
      | silent h position queue =>
        have hroom := queue.length_lt_of_none (by decide) hfree
        refine .silent h position ?_
        rw [TxSystem.accepted, s.ring.frame_accept hlen]
        exact (queue.write hroom m.bytes).congr (fun _ _ => rfl) rfl
          (toNat_succ_mod s.ring.cur_tx)
      | leaving frame rest h first =>
        exact .leaving frame rest h (List.getElem?_append_left
          (List.getElem?_eq_some_iff.mp first).1 ▸ first)
    · rw [if_neg hlen, if_neg fun hboth => hlen hboth.2, List.append_nil]
      exact h.congr rfl rfl rfl rfl
  · rw [if_neg hfree, if_neg fun hboth => hfree hboth.1, List.append_nil]
    exact h.congr rfl rfl rfl rfl

theorem Reopened.transmit {entry : ℕ} {sent accepted : List (List UInt8)} {frame : List UInt8}
    (h : s.Reopened entry sent accepted) (hentry : entry < NUM_TX_DESC)
    (hframe : s.ring.frame s.position = some frame) :
    (s.transmit frame).Reopened entry sent accepted := by
  cases h with
  | silent h position queue =>
    have hround : (entry + (NUM_TX_DESC - entry) % NUM_TX_DESC) % NUM_TX_DESC = 0 := by
      rw [Nat.add_mod_mod, Nat.add_sub_cancel' hentry.le, Nat.mod_self]
    rw [position, ← hround] at hframe
    refine .leaving frame [] (by rw [TxSystem.transmit, h]) ?_
    by_cases hreached : (NUM_TX_DESC - entry) % NUM_TX_DESC < accepted.length
    · have hfilled := queue.filled _ hreached
      rw [hframe] at hfilled
      rw [List.getElem?_eq_getElem hreached, hfilled]
    · have hrest := queue.rest _ (not_lt.mp hreached) (Nat.mod_lt _ (by decide))
      rw [hframe] at hrest
      exact absurd hrest (Option.some_ne_none frame)
  | leaving first rest h hfirst =>
    refine .leaving first (rest ++ [frame]) ?_ hfirst
    rw [TxSystem.transmit, h, List.append_assoc, List.cons_append]

theorem Reopened.step {entry : ℕ} {sent accepted : List (List UInt8)}
    (h : s.Reopened entry sent accepted) (hentry : entry < NUM_TX_DESC)
    (ha : a.resets = false) (hst : s.step a = some t) :
    t.Reopened entry sent (accepted ++ s.acceptedFrame a) := by
  cases a with
  | outputPacket m =>
    obtain ⟨-, rfl⟩ := step_outputPacket.mp hst
    exact h.output m
  | R1000Interrupt =>
    obtain ⟨-, rfl⟩ := step_R1000Interrupt.mp hst
    simp only [acceptedFrame, List.append_nil]
    exact h.congr rfl rfl rfl rfl
  | poll other =>
    obtain ⟨boguscnt, -, rfl⟩ := step_poll.mp hst
    obtain ⟨hdesc, hbuff, hcur, hpos, hsent, -⟩ := s.steady_poll other boguscnt
    simp only [acceptedFrame, List.append_nil]
    exact h.congr (TxRing.frame_congr hdesc hbuff) hcur hpos hsent
  | turn =>
    obtain ⟨boguscnt, l, -, rfl⟩ := step_turn.mp hst
    obtain ⟨hdesc, hbuff, hcur, hpos, hsent, -⟩ := s.steady_turn boguscnt l
    simp only [acceptedFrame, List.append_nil]
    exact h.congr (TxRing.frame_congr hdesc hbuff) hcur hpos hsent
  | R1000TxTimeout => exact absurd ha (by decide)
  | R1000CloseAdapter => exact absurd ha (by decide)
  | R1000OpenAdapter => exact absurd ha (by decide)
  | transmit =>
    obtain ⟨-, frame, hframe, rfl⟩ := step_transmit.mp hst
    simp only [acceptedFrame, List.append_nil]
    exact h.transmit hentry hframe

theorem Reopened.run {entry : ℕ} {sent : List (List UInt8)} (hentry : entry < NUM_TX_DESC) :
    ∀ {as : List TxAction} {s t : TxSystem} {accepted : List (List UInt8)},
      s.Reopened entry sent accepted → (∀ a ∈ as, a.resets = false) →
      Transition.run TxSystem.step s as = some t →
      t.Reopened entry sent (accepted ++ s.acceptedFrames as) := by
  intro as
  induction as with
  | nil =>
    intro s t accepted h _ hr
    rw [Transition.run_nil, Option.some.injEq] at hr
    rw [acceptedFrames, List.append_nil]
    exact hr ▸ h
  | cons a as ih =>
    intro s t accepted h has hr
    obtain ⟨u, hu, hr⟩ := Transition.run_cons.mp hr
    have hnext := h.step hentry (has a List.mem_cons_self) hu
    have hrest := ih hnext (fun b hb => has b (List.mem_cons_of_mem a hb)) hr
    rwa [acceptedFrames_cons hu, ← List.append_assoc]

/-- The adapter is opened again when nothing waits in the ring: the chip starts at the first
descriptor and the driver goes on where it was. Nothing leaves until the driver has come round
to the first descriptor; the packet that it puts there is the first to leave, before all the
packets that it has accepted since and that lie behind it in the ring. -/
theorem first_frame_after_reopening (hempty : ∀ i < NUM_TX_DESC, s.ring.frame i = none)
    (hopen : s.step .R1000OpenAdapter = some t) (has : ∀ a ∈ as, a.resets = false)
    (hrun : Transition.run step t as = some u) :
    ∃ new, u.sent = s.sent ++ new ∧ ∀ frame ∈ new.head?,
      (t.acceptedFrames as)[(NUM_TX_DESC - s.ring.entry) % NUM_TX_DESC]? = some frame := by
  obtain ⟨-, rfl⟩ := step_R1000OpenAdapter.mp hopen
  have hcur : s.ring.cur_tx.toNat % NUM_TX_DESC = s.ring.entry % NUM_TX_DESC :=
    (Nat.mod_mod ..).symm
  have hreopened : { s with stalled := false }.R1000HwStart.Reopened s.ring.entry s.sent [] :=
    .silent rfl rfl (SlotRing.holds_nil hcur hempty)
  have hend := Reopened.run s.ring.entry_lt hreopened has hrun
  rw [List.nil_append] at hend
  cases hend with
  | silent h position queue =>
    refine ⟨[], by rw [h, List.append_nil], fun frame hframe => ?_⟩
    exact absurd hframe (Option.not_mem_none frame)
  | leaving first rest h hfirst =>
    refine ⟨first :: rest, h, fun frame hframe => ?_⟩
    rwa [← Option.mem_some_iff.mp hframe]

/-- The driver is at the last descriptor, and nothing waits, when the adapter is opened again. -/
def atLast : TxSystem :=
  { start (fun _ => 0) (fun _ => []) with
    ring := { TxRing.start (fun _ => 0) (fun _ => []) with cur_tx := 1023, dirty_tx := 1023 } }

def twoPackets : List TxAction :=
  [.outputPacket ⟨0, [2], [], 1, rfl⟩, .outputPacket ⟨1, [3], [], 1, rfl⟩, .transmit]

/-- The second packet leaves, and the first one does not. -/
theorem atLast_reopened :
    ∃ t u, atLast.step .R1000OpenAdapter = some t ∧
      Transition.run step t twoPackets = some u ∧ u.sent = atLast.sent ++ [[3]] ∧
      (t.acceptedFrames twoPackets)[1]? = some [3] := by
  have hempty : ∀ i < NUM_TX_DESC, atLast.ring.frame i = none := by
    intro i hi
    rw [TxRing.frame_eq_none_iff]
    simp only [atLast, TxRing.start, if_pos hi, UInt32.zero_and]
  refine ⟨_, _, rfl, rfl, rfl, ?_⟩
  have hkept : ∀ a ∈ twoPackets, a.resets = false := by decide
  obtain ⟨new, hsent, hfirst⟩ := first_frame_after_reopening hempty rfl hkept rfl
  have hnew : new = [[3]] := List.append_cancel_left (hsent.symm.trans rfl)
  exact hfirst [3] (by rw [hnew]; rfl)

/-- What the driver was given it has freed, has in a slot of `Tx_skbuff`, or has written
another packet over. -/
def Accounts (s : TxSystem) : Prop :=
  s.given = s.freed + SlotRing.stock NUM_TX_DESC s.ring.Tx_skbuff + s.overwritten

theorem accounts_start (memory : ℕ → UInt32) (buffers : ℕ → List UInt8) :
    (start memory buffers).Accounts := by
  have hstock : SlotRing.stock NUM_TX_DESC (start memory buffers).ring.Tx_skbuff = 0 :=
    SlotRing.stock_eq_zero fun _ _ => rfl
  rw [Accounts, hstock]
  rfl

theorem Accounts.output (h : s.Accounts) (m : Mbuf) : (s.output m).Accounts := by
  rw [Accounts] at h
  have hstock := SlotRing.stock_update s.ring.entry_lt s.ring.Tx_skbuff (some m)
  rw [SlotRing.item_some] at hstock
  generalize hold : SlotRing.stock NUM_TX_DESC s.ring.Tx_skbuff = old at h hstock
  rw [output_eq]
  split_ifs
  · rw [Accounts, accepted, TxRing.accept]
    generalize SlotRing.stock NUM_TX_DESC _ = new at hstock ⊢
    calc s.given + {m} = s.freed + (old + {m}) + s.overwritten := by
          rw [h]
          ac_rfl
      _ = s.freed + new + (s.overwritten + SlotRing.item (s.ring.Tx_skbuff s.ring.entry)) := by
          rw [← hstock]
          ac_rfl
  · rw [Accounts, dropped]
    simp only [hold, h]
    ac_rfl
  · rw [Accounts, stall, hold]
    exact h

theorem Accounts.turn (h : s.Accounts) (boguscnt : ℕ) (l : TxLoop) :
    (s.turn boguscnt l).Accounts := by
  rw [Accounts] at h
  have hstock := SlotRing.stock_update l.slot_lt s.ring.Tx_skbuff none
  rw [SlotRing.item_none, add_zero] at hstock
  generalize hold : SlotRing.stock NUM_TX_DESC s.ring.Tx_skbuff = old at h hstock
  rw [TxSystem.turn]
  split_ifs with hon hfrees
  · rw [Accounts, TxLoop.turn, if_pos hfrees]
    generalize SlotRing.stock NUM_TX_DESC _ = new at hstock ⊢
    calc s.given = s.freed + (new + SlotRing.item (s.ring.Tx_skbuff l.slot)) + s.overwritten := by
          rw [h, hstock]
      _ = s.freed + SlotRing.item (s.ring.Tx_skbuff l.slot) + new + s.overwritten := by ac_rfl
  · rw [Accounts, TxLoop.turn, if_neg hfrees, add_zero, hold]
    exact h
  · rw [Accounts, hold]
    exact h
  · rw [Accounts, hold]
    exact h

theorem Accounts.timeout (h : s.Accounts) : s.R1000TxTimeout.Accounts := by
  have hstock : SlotRing.stock NUM_TX_DESC s.ring.R1000TxClear.Tx_skbuff = 0 :=
    SlotRing.stock_eq_zero fun i hi => if_pos hi
  rw [Accounts, R1000TxTimeout, R1000HwStart]
  simp only
  rw [hstock, add_zero]
  exact h

theorem Accounts.step (h : s.Accounts) (hst : s.step a = some t) : t.Accounts := by
  cases a with
  | outputPacket m =>
    obtain ⟨-, rfl⟩ := step_outputPacket.mp hst
    exact h.output m
  | R1000Interrupt =>
    obtain ⟨-, rfl⟩ := step_R1000Interrupt.mp hst
    exact h
  | poll other =>
    obtain ⟨boguscnt, -, rfl⟩ := step_poll.mp hst
    cases boguscnt with
    | zero => exact h
    | succ boguscnt =>
      simp only [poll]
      split_ifs
      all_goals exact h
  | turn =>
    obtain ⟨boguscnt, l, -, rfl⟩ := step_turn.mp hst
    exact h.turn boguscnt l
  | R1000TxTimeout =>
    obtain ⟨-, rfl⟩ := step_R1000TxTimeout.mp hst
    exact h.timeout
  | R1000CloseAdapter =>
    obtain ⟨-, rfl⟩ := step_R1000CloseAdapter.mp hst
    exact h
  | R1000OpenAdapter =>
    obtain ⟨-, rfl⟩ := step_R1000OpenAdapter.mp hst
    exact h
  | transmit =>
    obtain ⟨-, frame, -, rfl⟩ := step_transmit.mp hst
    exact h

theorem overwritten_poll (s : TxSystem) (other : UInt16) (boguscnt : ℕ) :
    (s.poll other boguscnt).overwritten = s.overwritten := by
  cases boguscnt with
  | zero => rfl
  | succ boguscnt =>
    simp only [poll]
    split_ifs
    all_goals rfl

theorem overwritten_turn (s : TxSystem) (boguscnt : ℕ) (l : TxLoop) :
    (s.turn boguscnt l).overwritten = s.overwritten := by
  rw [turn]
  split_ifs
  all_goals rfl

/-- Up to where the packets have been given back, by the running loop or by the last one. -/
def reclaimed (s : TxSystem) : UInt32 :=
  match s.handler with
  | .loop _ l => l.ldirty_tx
  | _ => s.ring.dirty_tx

/-- The slots hold the packets between the two counters. -/
structure Window (s : TxSystem) (held : List Mbuf) : Prop where
  queue : SlotRing.Holds NUM_TX_DESC (· = none) s.ring.Tx_skbuff s.reclaimed.toNat
    s.ring.cur_tx.toNat held
  backlog : (s.ring.cur_tx - s.reclaimed).toNat = held.length
  tx_left : ∀ boguscnt l, s.handler = .loop boguscnt l → l.tx_left = s.ring.cur_tx - l.ldirty_tx

/-- Fewer packets than the ring has slots wait to be given back when another is accepted. -/
def InTime (s : TxSystem) : TxAction → Prop
  | .outputPacket m =>
    s.ring.frame s.ring.entry = none → m.pkthdr_len ≤ tx_pkt_len →
      (s.ring.cur_tx - s.ring.dirty_tx).toNat < NUM_TX_DESC
  | _ => True

theorem reclaimed_of_idle (h : s.handler = .idle) : s.reclaimed = s.ring.dirty_tx := by
  rw [reclaimed, h]

theorem Window.of_eq {held : List Mbuf} (h : s.Window held)
    (hbuff : t.ring.Tx_skbuff = s.ring.Tx_skbuff)
    (hcur : t.ring.cur_tx = s.ring.cur_tx) (hrec : t.reclaimed = s.reclaimed)
    (hleft : ∀ boguscnt l, t.handler = .loop boguscnt l → l.tx_left = t.ring.cur_tx - l.ldirty_tx) :
    t.Window held := by
  obtain ⟨hqueue, hbacklog, -⟩ := h
  refine ⟨?_, ?_, hleft⟩
  · rwa [hbuff, hcur, hrec]
  · rwa [hcur, hrec]

/-- The next packet gets an empty slot as long as fewer packets are held than there are. -/
theorem Window.slot_entry {held : List Mbuf} (h : s.Window held) :
    s.ring.Tx_skbuff s.ring.entry = none ↔ held.length < NUM_TX_DESC :=
  h.queue.slot_write_eq_none_iff (by decide)

theorem sub_succ_toNat {x y : UInt32} {k : ℕ} (h : (x - y).toNat = k) (hk : k < 4294967295) :
    (x + 1 - y).toNat = k + 1 := by
  have hx := x.toNat_lt
  have hy := y.toNat_lt
  rw [UInt32.toNat_sub] at h ⊢
  rw [UInt32.toNat_add, UInt32.toNat_one]
  omega

theorem sub_pred_toNat {x y : UInt32} {k : ℕ} (h : (x - y).toNat = k + 1) :
    (x - (y + 1)).toNat = k := by
  have hx := x.toNat_lt
  have hy := y.toNat_lt
  rw [UInt32.toNat_sub] at h ⊢
  rw [UInt32.toNat_add, UInt32.toNat_one]
  omega

theorem Window.accepted {held : List Mbuf} (h : s.Window held) (hidle : s.handler = .idle)
    (hroom : held.length < NUM_TX_DESC) (m : Mbuf) : (s.accepted m).Window (held ++ [m]) where
  queue := (h.queue.write hroom m).congr (fun _ _ => rfl) rfl (toNat_succ_mod s.ring.cur_tx)
  backlog := by
    rw [List.length_append, List.length_singleton]
    exact sub_succ_toNat h.backlog (hroom.trans (by decide))
  tx_left := fun boguscnt l hl => by
    rw [TxSystem.accepted, hidle] at hl
    exact absurd hl TxHandler.noConfusion

theorem sub_succ (x y : UInt32) : x - (y + 1) = x - y - 1 := by
  have hx := x.toNat_lt
  have hy := y.toNat_lt
  rw [← UInt32.toNat_inj, UInt32.toNat_sub, UInt32.toNat_sub, UInt32.toNat_sub, UInt32.toNat_add,
    UInt32.toNat_one]
  omega

/-- A turn of the loop gives back the packet that has been held longest. -/
theorem Window.turn {held : List Mbuf} (h : s.Window held) {boguscnt : ℕ} {l : TxLoop}
    (hl : s.handler = .loop boguscnt l) : ∃ held', (s.turn boguscnt l).Window held' := by
  have hrec : s.reclaimed = l.ldirty_tx := by rw [reclaimed, hl]
  have hleft := h.tx_left boguscnt l hl
  by_cases hon : l.goesOn = true
  · rw [TxSystem.turn, if_pos hon]
    by_cases hfrees : l.frees s.ring = true
    · cases held with
      | nil =>
        have hzero : l.tx_left.toNat = 0 := by rw [hleft, ← hrec, h.backlog, List.length_nil]
        rw [TxLoop.goesOn, decide_eq_true_iff, UInt32.lt_iff_toNat_lt, hzero] at hon
        exact absurd hon.1 (lt_irrefl 0)
      | cons m held =>
        have hqueue := h.queue
        have hbacklog := h.backlog
        rw [hrec] at hqueue hbacklog
        refine ⟨held, ?_, ?_, ?_⟩
        all_goals rw [TxLoop.turn, if_pos hfrees]
        · exact (hqueue.read rfl).congr (fun _ _ => rfl) (toNat_succ_mod l.ldirty_tx) rfl
        · exact sub_pred_toNat hbacklog
        · intro b l' hl'
          obtain ⟨-, rfl⟩ := TxHandler.loop.inj hl'
          rw [hleft]
          exact (sub_succ s.ring.cur_tx l.ldirty_tx).symm
    · refine ⟨held, h.of_eq ?_ ?_ ?_ ?_⟩
      all_goals rw [TxLoop.turn, if_neg hfrees]
      · exact hrec.symm
      · intro b l' hl'
        obtain ⟨-, rfl⟩ := TxHandler.loop.inj hl'
        exact hleft
  · rw [TxSystem.turn, if_neg hon]
    refine ⟨held, ?_⟩
    by_cases hdirty : s.ring.dirty_tx ≠ l.ldirty_tx
    · rw [if_pos hdirty]
      exact h.of_eq rfl rfl hrec.symm fun b l' hl' => TxHandler.noConfusion hl'
    · rw [if_neg hdirty]
      exact h.of_eq rfl rfl ((not_not.mp hdirty).trans hrec.symm)
        fun b l' hl' => TxHandler.noConfusion hl'

theorem window_start (memory : ℕ → UInt32) (buffers : ℕ → List UInt8) :
    (start memory buffers).Window [] where
  queue := SlotRing.holds_nil rfl fun _ _ => rfl
  backlog := show ((0 : UInt32) - 0).toNat = 0 by decide
  tx_left := fun _ _ hl => TxHandler.noConfusion hl

theorem Window.poll {held : List Mbuf} (h : s.Window held) {boguscnt : ℕ}
    (hd : s.handler = .dispatch boguscnt) (other : UInt16) :
    (s.poll other boguscnt).Window held := by
  have hrec : s.reclaimed = s.ring.dirty_tx := by rw [reclaimed, hd]
  cases boguscnt with
  | zero => exact h.of_eq rfl rfl hrec.symm fun b l hl => TxHandler.noConfusion hl
  | succ boguscnt =>
    simp only [TxSystem.poll]
    split_ifs
    · exact h.of_eq rfl rfl hrec.symm fun b l hl => TxHandler.noConfusion hl
    · exact h.of_eq rfl rfl hrec.symm fun b l hl => TxHandler.noConfusion hl
    · refine h.of_eq rfl rfl hrec.symm fun b l hl => ?_
      obtain ⟨-, rfl⟩ := TxHandler.loop.inj hl
      rfl
    · exact h.of_eq rfl rfl hrec.symm fun b l hl => TxHandler.noConfusion hl

/-- A packet that is accepted in time finds an empty slot, any other is written over one that
is held. -/
theorem Window.overwritten {held : List Mbuf} (h : s.Window held) (hidle : s.handler = .idle) :
    SlotRing.item (s.ring.Tx_skbuff s.ring.entry) = 0 ↔
      (s.ring.cur_tx - s.ring.dirty_tx).toNat < NUM_TX_DESC := by
  rw [← reclaimed_of_idle hidle, h.backlog, ← h.slot_entry]
  cases s.ring.Tx_skbuff s.ring.entry with
  | none => exact iff_of_true rfl rfl
  | some m => exact iff_of_false (Multiset.singleton_ne_zero m) (Option.some_ne_none m)

/-- The slots are in order and no packet has been written over another. -/
def Sound (s : TxSystem) : Prop := s.overwritten = 0 ∧ ∃ held, s.Window held

theorem Sound.step (h : s.Sound) (hok : s.InTime a) (hst : s.step a = some t) : t.Sound := by
  obtain ⟨hover, held, hw⟩ := h
  cases a with
  | outputPacket m =>
    obtain ⟨⟨-, hidle⟩, rfl⟩ := step_outputPacket.mp hst
    rw [output_eq]
    by_cases hfree : s.ring.frame s.ring.entry = none
    · rw [if_pos hfree]
      by_cases hlen : m.pkthdr_len ≤ tx_pkt_len
      · rw [if_pos hlen]
        have htime := hok hfree hlen
        have hroom : held.length < NUM_TX_DESC := by
          rwa [← hw.backlog, reclaimed_of_idle hidle]
        refine ⟨?_, _, hw.accepted hidle hroom m⟩
        rw [TxSystem.accepted, hover, zero_add]
        exact (hw.overwritten hidle).mpr htime
      · rw [if_neg hlen]
        exact ⟨hover, held, hw.of_eq rfl rfl rfl hw.tx_left⟩
    · rw [if_neg hfree]
      exact ⟨hover, held, hw.of_eq rfl rfl rfl hw.tx_left⟩
  | R1000Interrupt =>
    obtain ⟨⟨-, hidle⟩, rfl⟩ := step_R1000Interrupt.mp hst
    exact ⟨hover, held, hw.of_eq rfl rfl (reclaimed_of_idle hidle).symm
      fun b l hl => TxHandler.noConfusion hl⟩
  | poll other =>
    obtain ⟨boguscnt, hd, rfl⟩ := step_poll.mp hst
    refine ⟨?_, held, hw.poll hd other⟩
    rw [s.overwritten_poll, hover]
  | turn =>
    obtain ⟨boguscnt, l, hl, rfl⟩ := step_turn.mp hst
    refine ⟨?_, hw.turn hl⟩
    rw [s.overwritten_turn, hover]
  | R1000TxTimeout =>
    obtain ⟨⟨-, hidle⟩, rfl⟩ := step_R1000TxTimeout.mp hst
    have hrec : s.R1000TxTimeout.reclaimed = 0 := reclaimed_of_idle hidle
    refine ⟨hover, [], ⟨SlotRing.holds_nil ?_ fun i hi => if_pos hi, ?_, fun b l hl => ?_⟩⟩
    · rw [hrec]
      rfl
    · rw [hrec]
      exact show ((0 : UInt32) - 0).toNat = 0 by decide
    · rw [R1000TxTimeout, R1000HwStart, hidle] at hl
      exact TxHandler.noConfusion hl
  | R1000CloseAdapter =>
    obtain ⟨-, rfl⟩ := step_R1000CloseAdapter.mp hst
    exact ⟨hover, held, hw.of_eq rfl rfl rfl hw.tx_left⟩
  | R1000OpenAdapter =>
    obtain ⟨-, rfl⟩ := step_R1000OpenAdapter.mp hst
    exact ⟨hover, held, hw.of_eq rfl rfl rfl hw.tx_left⟩
  | transmit =>
    obtain ⟨-, frame, -, rfl⟩ := step_transmit.mp hst
    exact ⟨hover, held, hw.of_eq rfl rfl rfl hw.tx_left⟩

theorem Sound.spoilt (h : s.Sound) (hok : ¬s.InTime a) (hst : s.step a = some t) :
    t.overwritten ≠ 0 := by
  obtain ⟨-, held, hw⟩ := h
  cases a with
  | outputPacket m =>
    obtain ⟨⟨-, hidle⟩, rfl⟩ := step_outputPacket.mp hst
    simp only [InTime, not_forall] at hok
    obtain ⟨hfree, hlen, htime⟩ := hok
    rw [output_eq, if_pos hfree, if_pos hlen, TxSystem.accepted]
    intro hzero
    exact htime ((hw.overwritten hidle).mp (add_eq_zero.mp hzero).2)
  | _ => exact absurd trivial hok

/-- What has been written over stays lost. -/
theorem overwritten_step (h : s.overwritten ≠ 0) (hst : s.step a = some t) : t.overwritten ≠ 0 := by
  cases a with
  | outputPacket m =>
    obtain ⟨-, rfl⟩ := step_outputPacket.mp hst
    rw [output_eq]
    split_ifs
    · intro hzero
      exact h (add_eq_zero.mp hzero).1
    · exact h
    · exact h
  | R1000Interrupt =>
    obtain ⟨-, rfl⟩ := step_R1000Interrupt.mp hst
    exact h
  | poll other =>
    obtain ⟨boguscnt, -, rfl⟩ := step_poll.mp hst
    rwa [s.overwritten_poll]
  | turn =>
    obtain ⟨boguscnt, l, -, rfl⟩ := step_turn.mp hst
    rwa [s.overwritten_turn]
  | R1000TxTimeout =>
    obtain ⟨-, rfl⟩ := step_R1000TxTimeout.mp hst
    exact h
  | R1000CloseAdapter =>
    obtain ⟨-, rfl⟩ := step_R1000CloseAdapter.mp hst
    exact h
  | R1000OpenAdapter =>
    obtain ⟨-, rfl⟩ := step_R1000OpenAdapter.mp hst
    exact h
  | transmit =>
    obtain ⟨-, frame, -, rfl⟩ := step_transmit.mp hst
    exact h

/-- Each packet that the driver is given is freed once, is in a slot, or has been written over;
the last does not happen exactly when every packet is accepted in time. -/
theorem run_accounts (memory : ℕ → UInt32) (buffers : ℕ → List UInt8) (as : List TxAction)
    (hrun : Transition.run step (start memory buffers) as = some s) :
    s.given = s.freed + SlotRing.stock NUM_TX_DESC s.ring.Tx_skbuff + s.overwritten ∧
      (s.overwritten = 0 ↔ Transition.Guarded step InTime (start memory buffers) as) := by
  refine ⟨Transition.run_invariant (fun _ _ _ => Accounts.step) (accounts_start memory buffers)
    hrun, ?_⟩
  have hiff := Transition.run_not_iff_guarded (fun _ _ _ => Sound.step) (fun _ _ _ => Sound.spoilt)
    (fun _ _ _ => overwritten_step) (fun _ h => not_not_intro h.1)
    ⟨rfl, [], window_start memory buffers⟩ hrun
  rwa [ne_eq, not_not] at hiff

theorem onePacket_accounts :
    ∃ s, Transition.run step (start (fun _ => 0) fun _ => []) onePacket = some s ∧
      s.given = s.freed + SlotRing.stock NUM_TX_DESC s.ring.Tx_skbuff + s.overwritten ∧
      (s.overwritten = 0 ↔
        Transition.Guarded step InTime (start (fun _ => 0) fun _ => []) onePacket) :=
  ⟨_, rfl, run_accounts (fun _ => 0) (fun _ => []) onePacket rfl⟩

theorem txOK_eq_false (s : TxSystem) (other : UInt16) {mask : UInt16} (hm : TxOK &&& mask ≠ 0)
    (h : s.intrStatus other &&& mask = 0) : s.txOK = false := by
  refine Bool.eq_false_iff.mpr fun hok => hm ?_
  rw [intrStatus, if_pos hok] at h
  have hsplit : (other ||| TxOK) &&& mask = (other &&& mask) ||| (TxOK &&& mask) := by
    rw [← UInt16.toBitVec_inj]
    exact BitVec.and_or_distrib_right
  rw [hsplit] at h
  exact (UInt16.or_eq_zero_iff.mp h).2

/-- What the queue's waiting depends on: the counters do not come round on each other, and the
interrupt sources that are cleared when the turns are used up include no `TxOK`. -/
def Wakeful (s : TxSystem) : TxAction → Prop
  | .outputPacket _ => s.ring.cur_tx + 1 ≠ s.ring.dirty_tx
  | .poll _ => s.handler = .dispatch 0 → s.txOK = false
  | _ => True

instance (s : TxSystem) : DecidablePred s.Wakeful
  | .outputPacket _ => inferInstanceAs (Decidable (_ ≠ _))
  | .poll _ => decidable_of_iff (¬s.handler = .dispatch 0 ∨ s.txOK = false) imp_iff_not_or.symm
  | .R1000Interrupt | .turn | .R1000TxTimeout | .R1000CloseAdapter | .R1000OpenAdapter
  | .transmit => .isTrue trivial

/-- The loop has given back some packets, one for each turn at most; before the first of them it
looks at the descriptor for the next packet, with all packets left that are held. -/
structure LoopRecord (s : TxSystem) (l : TxLoop) : Prop where
  count : ∃ k ≤ l.txloop_cnt, l.ldirty_tx = s.ring.dirty_tx + UInt32.ofNat k
  bound : l.txloop_cnt ≤ max_interrupt_work
  progress : l.ldirty_tx ≠ s.ring.dirty_tx → s.ring.frame s.ring.entry = none
  first : l.ldirty_tx = s.ring.dirty_tx →
    l.entry = s.ring.entry ∧ l.tx_left = s.ring.cur_tx - s.ring.dirty_tx

/-- What will start the queue again: the descriptor is not free yet, an interrupt is due, or
the loop that runs has given a packet back or is about to. -/
def Due (s : TxSystem) : Prop :=
  s.ring.frame s.ring.entry ≠ none ∨ s.txOK ∨
    ∃ boguscnt l, s.handler = .loop boguscnt l ∧
      (l.ldirty_tx ≠ s.ring.dirty_tx ∨ l.txloop_cnt = 0)

structure Awake (s : TxSystem) : Prop where
  full : s.ring.frame s.ring.entry ≠ none → s.ring.cur_tx ≠ s.ring.dirty_tx
  held : s.stalled → s.ring.cur_tx ≠ s.ring.dirty_tx
  loop : ∀ boguscnt l, s.handler = .loop boguscnt l → s.LoopRecord l
  due : s.stalled → s.Due

theorem awake_start (memory : ℕ → UInt32) (buffers : ℕ → List UInt8) :
    (start memory buffers).Awake where
  full := fun h => absurd ((TxRing.frame_eq_none_iff _ _).mpr (by
    simp only [start, TxRing.start, TxRing.entry, if_pos (Nat.mod_lt _ (show 0 < NUM_TX_DESC by
      decide)), UInt32.zero_and])) h
  held := fun h => Bool.noConfusion h
  loop := fun _ _ hl => TxHandler.noConfusion hl
  due := fun h => Bool.noConfusion h

theorem Awake.output (h : s.Awake) (hidle : s.handler = .idle) (m : Mbuf)
    (hok : s.ring.cur_tx + 1 ≠ s.ring.dirty_tx) : (s.output m).Awake := by
  have hloop : ∀ t : TxSystem, t.handler = s.handler → ∀ boguscnt l,
      t.handler = .loop boguscnt l → t.LoopRecord l := by
    intro t ht boguscnt l hl
    rw [ht, hidle] at hl
    exact TxHandler.noConfusion hl
  rw [output_eq]
  by_cases hfree : s.ring.frame s.ring.entry = none
  · rw [if_pos hfree]
    by_cases hlen : m.pkthdr_len ≤ tx_pkt_len
    · rw [if_pos hlen]
      refine ⟨fun _ => hok, fun _ => hok, hloop _ rfl, fun hst => ?_⟩
      -- a descriptor was free although the queue waited, so an interrupt is due
      obtain hfull | hdue | ⟨boguscnt, l, hl, -⟩ := h.due hst
      · exact absurd hfree hfull
      · exact .inr (.inl hdue)
      · rw [hidle] at hl
        exact TxHandler.noConfusion hl
    · rw [if_neg hlen]
      exact ⟨h.full, h.held, hloop _ rfl, h.due⟩
  · rw [if_neg hfree]
    exact ⟨h.full, fun _ => h.full hfree, hloop _ rfl, fun _ => .inl hfree⟩

theorem Awake.poll (h : s.Awake) {boguscnt : ℕ} (hd : s.handler = .dispatch boguscnt)
    (other : UInt16) (hok : s.handler = .dispatch 0 → s.txOK = false) :
    (s.poll other boguscnt).Awake := by
  have hdue : s.stalled → s.txOK = false → s.ring.frame s.ring.entry ≠ none := by
    intro hst hno
    obtain hfull | hok | ⟨b, l, hl, -⟩ := h.due hst
    · exact hfull
    · rw [hno] at hok
      exact Bool.noConfusion hok
    · rw [hd] at hl
      exact TxHandler.noConfusion hl
  cases boguscnt with
  | zero =>
    exact ⟨h.full, h.held, fun _ _ hl => TxHandler.noConfusion hl,
      fun hst => .inl (hdue hst (hok hd))⟩
  | succ boguscnt =>
    simp only [TxSystem.poll]
    split_ifs with hgone hquiet htx
    · refine ⟨h.full, h.held, fun _ _ hl => TxHandler.noConfusion hl, fun hst => ?_⟩
      by_cases hno : s.txOK = false
      · exact .inl (hdue hst hno)
      · exact .inr (.inl (Bool.eq_true_of_not_eq_false hno))
    · refine ⟨h.full, h.held, fun _ _ hl => TxHandler.noConfusion hl, fun hst => ?_⟩
      exact .inl (hdue hst (s.txOK_eq_false other (by decide) hquiet))
    · refine ⟨h.full, h.held, fun b l hl => ?_, fun hst => ?_⟩
      · obtain ⟨-, rfl⟩ := TxHandler.loop.inj hl
        refine ⟨⟨0, le_rfl, ?_⟩, Nat.zero_le _, fun hne => absurd rfl hne, fun _ => ⟨rfl, rfl⟩⟩
        exact (UInt32.add_zero _).symm
      · exact .inr (.inr ⟨boguscnt, s.ring.enterLoop, rfl, .inr rfl⟩)
    · refine ⟨h.full, h.held, fun _ _ hl => TxHandler.noConfusion hl, fun hst => ?_⟩
      exact .inl (hdue hst (s.txOK_eq_false other (by decide) (not_not.mp htx)))

theorem add_ofNat_ne_self (x : UInt32) {k : ℕ} (hpos : 0 < k) (hk : k ≤ max_interrupt_work) :
    x + UInt32.ofNat k ≠ x := by
  have hx := x.toNat_lt
  unfold max_interrupt_work at hk
  rw [ne_eq, ← UInt32.toNat_inj, UInt32.toNat_add, UInt32.toNat_ofNat']
  omega

theorem sub_pos_of_ne {x y : UInt32} (h : x ≠ y) : 0 < x - y := by
  have hx := x.toNat_lt
  have hy := y.toNat_lt
  rw [ne_eq, ← UInt32.toNat_inj] at h
  rw [UInt32.lt_iff_toNat_lt, UInt32.toNat_sub, UInt32.toNat_zero]
  omega

/-- A loop that goes on cannot come round to where it began. -/
theorem LoopRecord.moves {l : TxLoop} (h : s.LoopRecord l) (hon : l.goesOn = true) :
    ∃ k ≤ l.txloop_cnt, l.ldirty_tx + 1 = s.ring.dirty_tx + UInt32.ofNat (k + 1) ∧
      l.ldirty_tx + 1 ≠ s.ring.dirty_tx := by
  rw [TxLoop.goesOn, decide_eq_true_iff] at hon
  obtain ⟨k, hk, hcount⟩ := h.count
  have hstep : l.ldirty_tx + 1 = s.ring.dirty_tx + UInt32.ofNat (k + 1) := by
    rw [hcount, UInt32.ofNat_add, ← UInt32.add_assoc]
    rfl
  refine ⟨k, hk, hstep, ?_⟩
  rw [hstep]
  exact add_ofNat_ne_self _ k.succ_pos (by omega)

theorem LoopRecord.turn {l : TxLoop} (h : s.LoopRecord l) (hon : l.goesOn = true)
    (hfrees : l.frees s.ring = true) : s.LoopRecord (l.turn s.ring).1 := by
  obtain ⟨k, hk, hstep, hmoved⟩ := h.moves hon
  rw [TxLoop.goesOn, decide_eq_true_iff] at hon
  have hfree : s.ring.frame s.ring.entry = none := by
    by_cases hfirst : l.ldirty_tx = s.ring.dirty_tx
    · rw [TxRing.frame_eq_none_iff, ← (h.first hfirst).1]
      exact of_decide_eq_true hfrees
    · exact h.progress hfirst
  rw [TxLoop.turn, if_pos hfrees]
  exact ⟨⟨k + 1, Nat.succ_le_succ hk, hstep⟩, hon.2, fun _ => hfree, fun heq => absurd heq hmoved⟩

theorem LoopRecord.idle_turn {l : TxLoop} (h : s.LoopRecord l) (hon : l.goesOn = true) :
    s.LoopRecord { l with txloop_cnt := l.txloop_cnt + 1 } := by
  rw [TxLoop.goesOn, decide_eq_true_iff] at hon
  obtain ⟨k, hk, hcount⟩ := h.count
  exact ⟨⟨k, Nat.le_succ_of_le hk, hcount⟩, hon.2, h.progress, h.first⟩

/-- The record of a loop does not depend on the slots, or on anything outside the ring. -/
theorem LoopRecord.congr {l : TxLoop} (h : s.LoopRecord l)
    (hdirty : t.ring.dirty_tx = s.ring.dirty_tx)
    (hcur : t.ring.cur_tx = s.ring.cur_tx)
    (hframe : s.ring.frame s.ring.entry = none → t.ring.frame t.ring.entry = none) :
    t.LoopRecord l := by
  obtain ⟨hcount, hbound, hprogress, hfirst⟩ := h
  have hentry : t.ring.entry = s.ring.entry := by rw [TxRing.entry, TxRing.entry, hcur]
  refine ⟨?_, hbound, ?_, ?_⟩
  · rwa [hdirty]
  · rw [hdirty]
    exact fun hne => hframe (hprogress hne)
  · rwa [hdirty, hentry, hcur]

theorem Awake.turn (h : s.Awake) {boguscnt : ℕ} {l : TxLoop}
    (hl : s.handler = .loop boguscnt l) : (s.turn boguscnt l).Awake := by
  have hrec := h.loop boguscnt l hl
  by_cases hon : l.goesOn = true
  · rw [TxSystem.turn, if_pos hon]
    by_cases hfrees : l.frees s.ring = true
    · have hnext := hrec.turn hon hfrees
      obtain ⟨-, -, -, hmoved⟩ := hrec.moves hon
      rw [TxLoop.turn, if_pos hfrees] at hnext ⊢
      refine ⟨h.full, h.held, fun b l' hl' => ?_, fun hst => ?_⟩
      · obtain ⟨-, rfl⟩ := TxHandler.loop.inj hl'
        exact hnext.congr rfl rfl id
      · exact .inr (.inr ⟨_, _, rfl, .inl hmoved⟩)
    · rw [TxLoop.turn, if_neg hfrees]
      refine ⟨h.full, h.held, fun b l' hl' => ?_, fun hst => ?_⟩
      · obtain ⟨-, rfl⟩ := TxHandler.loop.inj hl'
        exact (hrec.idle_turn hon).congr rfl rfl id
      · by_cases hfirst : l.ldirty_tx = s.ring.dirty_tx
        · -- the loop has seen the descriptor that the queue waits for, and it is not free
          refine .inl fun hnone => hfrees ?_
          rw [TxLoop.frees, (hrec.first hfirst).1, decide_eq_true_iff]
          exact (TxRing.frame_eq_none_iff _ _).mp hnone
        · exact .inr (.inr ⟨_, _, rfl, .inl hfirst⟩)
  · rw [TxSystem.turn, if_neg hon]
    by_cases hdirty : s.ring.dirty_tx ≠ l.ldirty_tx
    · rw [if_pos hdirty]
      have hfree := hrec.progress hdirty.symm
      exact ⟨fun hfull => absurd hfree hfull, fun hst => Bool.noConfusion hst,
        fun _ _ hl' => TxHandler.noConfusion hl', fun hst => Bool.noConfusion hst⟩
    · rw [if_neg hdirty]
      refine ⟨h.full, h.held, fun _ _ hl' => TxHandler.noConfusion hl', fun hst => ?_⟩
      obtain hfull | hok | ⟨b, l', hl', hdue⟩ := h.due hst
      · exact .inl hfull
      · exact .inr (.inl hok)
      · -- a loop that has not begun yet has packets to give back
        rw [hl] at hl'
        obtain ⟨-, rfl⟩ := TxHandler.loop.inj hl'
        have hsame := not_not.mp hdirty
        obtain hmoved | hcnt := hdue
        · exact absurd hsame.symm hmoved
        · refine absurd ?_ hon
          rw [TxLoop.goesOn, decide_eq_true_iff, hcnt, (hrec.first hsame.symm).2]
          exact ⟨sub_pos_of_ne (h.held hst), by decide⟩

theorem Awake.step (h : s.Awake) (hok : s.Wakeful a) (hst : s.step a = some t) : t.Awake := by
  have hidle : s.handler = .idle → ∀ b l, s.handler = .loop b l → False := by
    intro hi b l hl
    rw [hi] at hl
    exact TxHandler.noConfusion hl
  cases a with
  | outputPacket m =>
    obtain ⟨⟨-, hi⟩, rfl⟩ := step_outputPacket.mp hst
    exact h.output hi m hok
  | R1000Interrupt =>
    obtain ⟨⟨-, hi⟩, rfl⟩ := step_R1000Interrupt.mp hst
    refine ⟨h.full, h.held, fun _ _ hl => TxHandler.noConfusion hl, fun hstalled => ?_⟩
    obtain hfull | hdue | ⟨b, l, hl, -⟩ := h.due hstalled
    · exact .inl hfull
    · exact .inr (.inl hdue)
    · exact absurd hl (hidle hi b l)
  | poll other =>
    obtain ⟨boguscnt, hd, rfl⟩ := step_poll.mp hst
    exact h.poll hd other hok
  | turn =>
    obtain ⟨boguscnt, l, hl, rfl⟩ := step_turn.mp hst
    exact h.turn hl
  | R1000TxTimeout =>
    obtain ⟨⟨-, hi⟩, rfl⟩ := step_R1000TxTimeout.mp hst
    refine ⟨fun hfull => absurd ?_ hfull, fun hstalled => Bool.noConfusion hstalled,
      fun b l hl => absurd hl (hidle hi b l), fun hstalled => Bool.noConfusion hstalled⟩
    exact s.ring.frame_R1000TxClear s.ring.R1000TxClear.entry_lt
  | R1000CloseAdapter =>
    obtain ⟨-, rfl⟩ := step_R1000CloseAdapter.mp hst
    exact ⟨h.full, h.held, fun b l hl => (h.loop b l hl).congr rfl rfl id, h.due⟩
  | R1000OpenAdapter =>
    obtain ⟨⟨hi, -⟩, rfl⟩ := step_R1000OpenAdapter.mp hst
    exact ⟨h.full, fun hstalled => Bool.noConfusion hstalled,
      fun b l hl => absurd hl (hidle hi b l), fun hstalled => Bool.noConfusion hstalled⟩
  | transmit =>
    obtain ⟨-, frame, -, rfl⟩ := step_transmit.mp hst
    -- the chip only gives descriptors back
    have hfree : s.ring.frame s.ring.entry = none →
        (s.ring.release s.position).frame s.ring.entry = none := by
      intro hnone
      rw [TxRing.frame_release, Function.update_apply, hnone, ite_self]
    exact ⟨fun hfull => h.full fun hnone => hfull (hfree hnone), h.held,
      fun b l hl => (h.loop b l hl).congr rfl rfl hfree, fun _ => .inr (.inl rfl)⟩

/-- When the interrupt handler has come to its end and the output queue waits although there is
a descriptor for its packet, a transmit interrupt is due. -/
theorem no_lost_wakeup (memory : ℕ → UInt32) (buffers : ℕ → List UInt8) (as : List TxAction)
    (hok : Transition.Guarded step Wakeful (start memory buffers) as)
    (hrun : Transition.run step (start memory buffers) as = some s) (hidle : s.handler = .idle)
    (hstalled : s.stalled = true) (hfree : s.ring.frame s.ring.entry = none) : s.txOK = true := by
  have hawake := Transition.guarded_run_invariant (fun _ _ _ => Awake.step)
    (awake_start memory buffers) hok hrun
  obtain hfull | hdue | ⟨b, l, hl, -⟩ := hawake.due hstalled
  · exact absurd hfree hfull
  · exact hdue
  · rw [hidle] at hl
    exact TxHandler.noConfusion hl

/-- The driver has filled `k` descriptors from the first one on and the chip has not begun. -/
structure Filling (s : TxSystem) (k : ℕ) : Prop where
  enabled : s.CmdTxEnb = true
  idle : s.handler = .idle
  position : s.position = 0
  dirty_tx : s.ring.dirty_tx = 0
  cur_tx : s.ring.cur_tx.toNat = k
  inStep : ∃ waiting, waiting.length = k ∧ s.ring.InStep 0 waiting

/-- A packet without a byte. -/
def nothing : Mbuf := ⟨0, [], [], 0, rfl⟩

theorem Filling.succ {k : ℕ} (h : s.Filling k) (hk : k < NUM_TX_DESC) :
    s.Wakeful (.outputPacket nothing) ∧
      ∃ t, s.step (.outputPacket nothing) = some t ∧ t.Filling (k + 1) := by
  obtain ⟨waiting, hlen, hin⟩ := h.inStep
  have hlt : k < 1024 := hk
  have hcur : (s.ring.cur_tx + 1).toNat = k + 1 := by
    rw [UInt32.toNat_add, UInt32.toNat_one, h.cur_tx]
    omega
  have hout : s.output nothing = s.accepted nothing := by
    rw [output_eq, if_pos (hin.frame_entry.mpr (hlen.trans_lt hk)), if_pos (by decide)]
  refine ⟨fun heq => ?_, s.accepted nothing, ?_, h.enabled, h.idle, h.position, h.dirty_tx, hcur,
    waiting ++ [nothing.bytes], ?_, hin.accept (hlen.trans_lt hk) (by decide)⟩
  · rw [h.dirty_tx, ← UInt32.toNat_inj, hcur] at heq
    exact k.succ_ne_zero heq
  · exact step_outputPacket.mpr ⟨⟨h.enabled, h.idle⟩, hout⟩
  · rw [List.length_append, List.length_singleton, hlen]

theorem Filling.run (n : ℕ) : ∀ {s : TxSystem} {k : ℕ}, s.Filling k → k + n ≤ NUM_TX_DESC →
    ∃ t, t.Filling (k + n) ∧ ∀ {bs : List TxAction},
      (Transition.Guarded TxSystem.step Wakeful t bs → Transition.Guarded TxSystem.step Wakeful s
        (List.replicate n (.outputPacket nothing) ++ bs)) ∧
      Transition.run TxSystem.step s (List.replicate n (.outputPacket nothing) ++ bs) =
        Transition.run TxSystem.step t bs := by
  induction n with
  | zero => exact fun {s k} h _ => ⟨s, h, id, rfl⟩
  | succ n ih =>
    intro s k h hk
    obtain ⟨hok, u, hu, hfill⟩ := h.succ (by omega)
    obtain ⟨t, ht, hrest⟩ := ih hfill (by omega)
    refine ⟨t, ?_, fun {bs} => ⟨fun hg => ⟨hok, fun v hv => ?_⟩, ?_⟩⟩
    · rwa [Nat.add_right_comm, Nat.add_assoc] at ht
    · rw [hu, Option.some.injEq] at hv
      exact hv ▸ hrest.1 hg
    · rw [List.replicate_succ, List.cons_append, Transition.run, hu, Option.bind_some]
      exact hrest.2

/-- A packet finds the ring full, and then the chip takes a frame. -/
def fullRing : List TxAction :=
  .R1000OpenAdapter :: (List.replicate NUM_TX_DESC (.outputPacket nothing) ++
    [.outputPacket nothing, .transmit])

theorem fullRing_wakes :
    ∃ s, Transition.run step (start (fun _ => 0) fun _ => []) fullRing = some s ∧
      s.stalled = true ∧ s.txOK = true := by
  have hopen : { start (fun _ => 0) (fun _ => []) with stalled := false }.R1000HwStart.Filling 0 :=
    ⟨rfl, rfl, rfl, rfl, rfl, [], rfl, (refines_start (fun _ => 0) fun _ => []).inStep⟩
  obtain ⟨t, ht, hrun⟩ := hopen.run NUM_TX_DESC (Nat.zero_add _).le
  obtain ⟨waiting, hlen, hin⟩ := ht.inStep
  have hentry : t.ring.entry = 0 := by rw [TxRing.entry, ht.cur_tx, Nat.zero_add, Nat.mod_self]
  have hfull : t.ring.frame t.ring.entry ≠ none :=
    hin.frame_entry.not.mpr (by rw [hlen, Nat.zero_add]; exact lt_irrefl _)
  obtain ⟨frame, hframe⟩ := Option.ne_none_iff_exists'.mp hfull
  have hout : t.output nothing = t.stall := by rw [output_eq, if_neg hfull]
  have hstall : t.step (.outputPacket nothing) = some t.stall :=
    step_outputPacket.mpr ⟨⟨ht.enabled, ht.idle⟩, hout⟩
  have hsend : t.stall.step .transmit = some (t.stall.transmit frame) := by
    refine step_transmit.mpr ⟨ht.enabled, frame, ?_, rfl⟩
    rw [stall, ht.position, ← hentry]
    exact hframe
  have hsteps : Transition.run step (start (fun _ => 0) fun _ => []) fullRing =
      some (t.stall.transmit frame) := by
    rw [fullRing, Transition.run, step_R1000OpenAdapter.mpr ⟨⟨rfl, rfl⟩, rfl⟩, Option.bind_some,
      hrun.2, Transition.run, hstall, Option.bind_some, Transition.run, hsend]
    rfl
  have hok : Transition.Guarded step Wakeful (start (fun _ => 0) fun _ => []) fullRing := by
    refine ⟨trivial, fun v hv => ?_⟩
    rw [step_R1000OpenAdapter.mpr ⟨⟨rfl, rfl⟩, rfl⟩, Option.some.injEq] at hv
    refine hv ▸ hrun.1 ⟨fun heq => ?_, fun v hv => ⟨trivial, fun _ _ => trivial⟩⟩
    rw [ht.dirty_tx, ← UInt32.toNat_inj, UInt32.toNat_add, ht.cur_tx] at heq
    exact absurd heq (by decide)
  have hfree : (t.stall.transmit frame).ring.frame (t.stall.transmit frame).ring.entry = none := by
    rw [transmit, TxRing.frame_release, stall, ht.position, ← hentry]
    exact Function.update_self ..
  exact ⟨_, hsteps, rfl, no_lost_wakeup _ _ fullRing hok hsteps ht.idle rfl hfree⟩

end TxSystem
end Ethernet
