import NetbookInstaller.Ethernet.Transmit

/-! The receive ring of `RealtekR1000`: the chip fills descriptors at its own pace, also while
the handler runs, and the handler passes the packets on. -/
namespace Ethernet

def NUM_RX_DESC : ℕ := 1024

/-- `DEFAULT_MTU + ETH_HDR_LEN`, which nothing changes. -/
def rx_pkt_len : ℕ := 1514

/-- `rx_pkt_len + 8`. -/
def hw_rx_pkt_len : ℕ := 1522

def RxRES : UInt32 := 0x00200000

/-- A frame as the chip stores it, with the bits that it sets in the status word beside the
length; it takes none that is longer than `RxMaxSize`. -/
structure RxFrame where
  data : List UInt8
  fcs : List UInt8
  flags : UInt32
  fcs_length : fcs.length = 4
  length_le : data.length + 4 ≤ hw_rx_pkt_len
  flags_eq : flags &&& (OWNbit ||| EORbit ||| 0x3FFF) = 0
  deriving DecidableEq

/-- The status word of a descriptor that is given to the chip. -/
def rxStatus (i : ℕ) : UInt32 :=
  if i = NUM_RX_DESC - 1 then (OWNbit ||| EORbit) ||| UInt32.ofNat hw_rx_pkt_len
  else OWNbit ||| UInt32.ofNat hw_rx_pkt_len

/-- The status word that the chip writes; the mark at the end of the ring stays. -/
def RxFrame.status (f : RxFrame) (old : UInt32) : UInt32 :=
  ((old &&& EORbit) ||| f.flags) ||| UInt32.ofNat (f.data.length + 4)

/-- How much of the buffer `R1000RxInterrupt` copies. -/
def pkt_size (status : UInt32) : ℤ :=
  let pkt_size := ((status &&& 0x1FFF).toNat : ℤ) - 4
  if pkt_size > rx_pkt_len then rx_pkt_len else pkt_size

/-- What the handler finds in a descriptor that the chip has given back. -/
structure RxFound where
  error : Bool
  packet : List UInt8
  deriving DecidableEq, Repr

/-- What becomes of a frame on its way: a packet without the checksum and no longer than
`rx_pkt_len`, or an error. -/
def RxFrame.found (f : RxFrame) : RxFound := ⟨f.flags &&& RxRES ≠ 0, f.data.take rx_pkt_len⟩

/-- The packets among them. -/
def packets (found : List RxFound) : List (List UInt8) :=
  (found.filter fun x => !x.error).map RxFound.packet

/-- The driver's side of the ring. -/
structure RxRing where
  cur_rx : ℕ
  RxDescArray : ℕ → UInt32
  Rx_dbuff : ℕ → List UInt8

/-- The local variables of `R1000RxInterrupt`. -/
structure RxLoop where
  lcur_rx : ℕ
  rxdesc_cnt : ℕ
  deriving DecidableEq, Repr

namespace RxRing

/-- The ring that `AllocateDescriptorsMemory` sets up. -/
def start (buffers : ℕ → List UInt8) : RxRing := ⟨0, rxStatus, buffers⟩

def found (s : RxRing) (i : ℕ) : Option RxFound :=
  if s.RxDescArray i &&& OWNbit = 0 then
    some ⟨s.RxDescArray i &&& RxRES ≠ 0,
      (s.Rx_dbuff i).take (pkt_size (s.RxDescArray i)).toNat⟩
  else none

/-- The driver gives a descriptor back to the chip. -/
def giveBack (s : RxRing) (i : ℕ) : RxRing :=
  { s with RxDescArray := Function.update s.RxDescArray i (rxStatus i) }

/-- The chip stores a frame. -/
def store (s : RxRing) (i : ℕ) (f : RxFrame) : RxRing :=
  { s with
    Rx_dbuff := Function.update s.Rx_dbuff i
      (f.data ++ f.fcs ++ (s.Rx_dbuff i).drop (f.data.length + 4))
    RxDescArray := Function.update s.RxDescArray i (f.status (s.RxDescArray i)) }

end RxRing

/-- One turn of the loop of `R1000RxInterrupt`; a packet for which there is no memory stays
where it is. -/
def RxLoop.turn (l : RxLoop) (s : RxRing) (x : RxFound) (allocated : Bool) :
    RxLoop × RxRing × List (List UInt8) :=
  if x.error then (⟨(l.lcur_rx + 1) % NUM_RX_DESC, l.rxdesc_cnt + 1⟩, s, [])
  else if allocated then
    (⟨(l.lcur_rx + 1) % NUM_RX_DESC, l.rxdesc_cnt + 1⟩, s.giveBack l.lcur_rx, [x.packet])
  else (⟨l.lcur_rx, l.rxdesc_cnt + 1⟩, s, [])

inductive RxAction where
  | receive (f : RxFrame)
  | R1000RxInterrupt
  | turn (allocated : Bool)
  | R1000HwStart
  | R1000CloseAdapter
  deriving DecidableEq

/-- The driver, the chip with the descriptor it fills next, the frames that the chip has
stored, and the packets that the driver has passed on. -/
structure RxSystem where
  ring : RxRing
  handler : Option RxLoop
  CmdRxEnb : Bool
  position : ℕ
  received : List RxFrame
  missed : List RxFrame
  delivered : List (List UInt8)

namespace RxSystem

def start (buffers : ℕ → List UInt8) : RxSystem :=
  ⟨.start buffers, none, false, 0, [], [], []⟩

/-- A frame comes in; it is lost unless the chip owns the descriptor that it looks at. -/
def receive (s : RxSystem) (f : RxFrame) : RxSystem :=
  if s.ring.found s.position = none then
    { s with
      ring := s.ring.store s.position f
      position := if s.ring.RxDescArray s.position &&& EORbit = 0 then s.position + 1 else 0
      received := s.received ++ [f] }
  else { s with missed := s.missed ++ [f] }

/-- A turn of the loop, or what comes after it. -/
def turn (s : RxSystem) (l : RxLoop) (allocated : Bool) : RxSystem :=
  match s.ring.found l.lcur_rx with
  | none => { s with ring := { s.ring with cur_rx := l.lcur_rx }, handler := none }
  | some x =>
    if l.rxdesc_cnt < max_interrupt_work then
      { s with
        ring := (l.turn s.ring x allocated).2.1
        handler := some (l.turn s.ring x allocated).1
        delivered := s.delivered ++ (l.turn s.ring x allocated).2.2 }
    else { s with ring := { s.ring with cur_rx := l.lcur_rx }, handler := none }

/-- The descriptors stay as they are when the chip is reset. -/
def R1000HwStart (s : RxSystem) : RxSystem :=
  { s with ring := { s.ring with cur_rx := 0 }, CmdRxEnb := true, position := 0 }

def step (s : RxSystem) : RxAction → Option RxSystem
  | .receive f => if s.CmdRxEnb then some (s.receive f) else none
  | .R1000RxInterrupt =>
    if s.CmdRxEnb ∧ s.handler = none then some { s with handler := some ⟨s.ring.cur_rx, 0⟩ }
    else none
  | .turn allocated => s.handler.map fun l => s.turn l allocated
  | .R1000HwStart => if s.handler = none then some s.R1000HwStart else none
  | .R1000CloseAdapter => if s.handler = none then some { s with CmdRxEnb := false } else none

end RxSystem

namespace RxFrame

theorem flags_and (f : RxFrame) {mask : UInt32}
    (hm : (OWNbit ||| EORbit ||| 0x3FFF) &&& mask = mask) : f.flags &&& mask = 0 := by
  rw [← hm, ← UInt32.and_assoc, f.flags_eq, UInt32.zero_and]

theorem length_lt (f : RxFrame) : f.data.length + 4 < 2 ^ 16 :=
  f.length_le.trans_lt (by decide)

/-- The bits of the status word that are not part of the length. -/
theorem status_and (f : RxFrame) (old : UInt32) {mask : UInt32}
    (hm : (0xFFFF : UInt32) &&& mask = 0) :
    f.status old &&& mask = (old &&& (EORbit &&& mask)) ||| (f.flags &&& mask) := by
  rw [status, or_and_distrib, or_and_distrib, length_and_high f.length_lt hm, UInt32.or_zero,
    UInt32.and_assoc]

theorem status_and_OWNbit (f : RxFrame) (old : UInt32) : f.status old &&& OWNbit = 0 := by
  rw [f.status_and old (by decide), f.flags_and (by decide),
    show EORbit &&& OWNbit = 0 by decide, UInt32.and_zero, UInt32.or_zero]

theorem status_and_EORbit (f : RxFrame) (old : UInt32) :
    f.status old &&& EORbit = old &&& EORbit := by
  rw [f.status_and old (by decide), f.flags_and (by decide),
    show EORbit &&& EORbit = EORbit by decide, UInt32.or_zero]

theorem status_and_RxRES (f : RxFrame) (old : UInt32) :
    f.status old &&& RxRES = f.flags &&& RxRES := by
  rw [f.status_and old (by decide), show EORbit &&& RxRES = 0 by decide, UInt32.and_zero,
    UInt32.zero_or]

theorem status_length (f : RxFrame) (old : UInt32) :
    (f.status old &&& 0x1FFF).toNat = f.data.length + 4 := by
  have hle := f.length_le
  unfold hw_rx_pkt_len at hle
  rw [status, or_and_distrib, or_and_distrib, f.flags_and (by decide), UInt32.and_assoc,
    show EORbit &&& 0x1FFF = 0 by decide, UInt32.and_zero, UInt32.zero_or, UInt32.zero_or,
    UInt32.toNat_and, UInt32.toNat_ofNat',
    show (0x1FFF : UInt32).toNat = 2 ^ 13 - 1 from rfl, Nat.and_two_pow_sub_one_eq_mod]
  omega

/-- The handler copies what the frame carries, up to `rx_pkt_len`. -/
theorem pkt_size_status (f : RxFrame) (old : UInt32) :
    (pkt_size (f.status old)).toNat = min rx_pkt_len f.data.length := by
  rw [pkt_size, f.status_length]
  split_ifs with h
  · omega
  · omega

end RxFrame

theorem rxStatus_and {i : ℕ} : rxStatus i &&& OWNbit ≠ 0 ∧
    (rxStatus i &&& EORbit = 0 ↔ i ≠ NUM_RX_DESC - 1) := by
  unfold rxStatus
  split_ifs with h
  · exact ⟨by decide, iff_of_false (by decide) (not_not_intro h)⟩
  · exact ⟨by decide, iff_of_true (by decide) h⟩

theorem packets_append (xs ys : List RxFound) : packets (xs ++ ys) = packets xs ++ packets ys := by
  rw [packets, List.filter_append, List.map_append]
  rfl

theorem packets_cons_error {x : RxFound} (h : x.error = true) (xs : List RxFound) :
    packets (x :: xs) = packets xs := by
  rw [packets, List.filter_cons_of_neg (by rw [h]; decide)]
  rfl

theorem packets_cons {x : RxFound} (h : ¬x.error = true) (xs : List RxFound) :
    packets (x :: xs) = x.packet :: packets xs := by
  rw [packets, List.filter_cons_of_pos (by rw [Bool.eq_false_iff.mpr h]; decide)]
  rfl

theorem packets_eq_nil {xs : List RxFound} (h : ∀ x ∈ xs, x.error = true) : packets xs = [] := by
  rw [packets, List.filter_eq_nil_iff.mpr fun x hx => by rw [h x hx]; decide, List.map_nil]

namespace RxRing

theorem found_eq_none_iff (s : RxRing) (i : ℕ) :
    s.found i = none ↔ s.RxDescArray i &&& OWNbit ≠ 0 := by
  by_cases h : s.RxDescArray i &&& OWNbit = 0
  · rw [found, if_pos h]
    exact iff_of_false (Option.some_ne_none _) (not_not_intro h)
  · exact iff_of_true (if_neg h) h

theorem giveBack_RxDescArray (s : RxRing) (i : ℕ) :
    (s.giveBack i).RxDescArray = Function.update s.RxDescArray i (rxStatus i) := rfl

theorem store_RxDescArray (s : RxRing) (i : ℕ) (f : RxFrame) :
    (s.store i f).RxDescArray =
      Function.update s.RxDescArray i (f.status (s.RxDescArray i)) := rfl

theorem store_Rx_dbuff (s : RxRing) (i : ℕ) (f : RxFrame) :
    (s.store i f).Rx_dbuff = Function.update s.Rx_dbuff i
      (f.data ++ f.fcs ++ (s.Rx_dbuff i).drop (f.data.length + 4)) := rfl

theorem found_giveBack (s : RxRing) (j : ℕ) :
    (s.giveBack j).found = Function.update s.found j none := by
  funext i
  by_cases hi : i = j
  · subst hi
    rw [Function.update_self, found_eq_none_iff, giveBack_RxDescArray, Function.update_self]
    exact rxStatus_and.1
  · rw [Function.update_of_ne hi, found, giveBack_RxDescArray, Function.update_of_ne hi]
    rfl

theorem found_store (s : RxRing) (j : ℕ) (f : RxFrame) :
    (s.store j f).found = Function.update s.found j (some f.found) := by
  funext i
  by_cases hi : i = j
  · subst hi
    rw [Function.update_self, found, store_RxDescArray, Function.update_self,
      if_pos (f.status_and_OWNbit _), f.status_and_RxRES, f.pkt_size_status, store_Rx_dbuff,
      Function.update_self, List.append_assoc, List.take_append_of_le_length (min_le_right _ _),
      RxFrame.found, ← List.take_eq_take_min]
  · rw [Function.update_of_ne hi, found, store_RxDescArray, Function.update_of_ne hi, store]
    simp only [Function.update_of_ne hi]
    rfl

end RxRing

namespace RxSystem

variable {s t : RxSystem} {a : RxAction}

theorem step_receive {f : RxFrame} :
    s.step (.receive f) = some t ↔ s.CmdRxEnb ∧ s.receive f = t := by
  rw [step, Option.ite_none_right_eq_some, Option.some.injEq]

theorem step_R1000RxInterrupt : s.step .R1000RxInterrupt = some t ↔
    (s.CmdRxEnb ∧ s.handler = none) ∧ { s with handler := some ⟨s.ring.cur_rx, 0⟩ } = t := by
  rw [step, Option.ite_none_right_eq_some, Option.some.injEq]

theorem step_turn {allocated : Bool} : s.step (.turn allocated) = some t ↔
    ∃ l, s.handler = some l ∧ s.turn l allocated = t := by
  rw [step, Option.map_eq_some_iff]

theorem step_R1000HwStart :
    s.step .R1000HwStart = some t ↔ s.handler = none ∧ s.R1000HwStart = t := by
  rw [step, Option.ite_none_right_eq_some, Option.some.injEq]

theorem step_R1000CloseAdapter : s.step .R1000CloseAdapter = some t ↔
    s.handler = none ∧ { s with CmdRxEnb := false } = t := by
  rw [step, Option.ite_none_right_eq_some, Option.some.injEq]

/-- The chip is at a descriptor of the ring, and the last of them is marked as its end. -/
structure Marked (s : RxSystem) : Prop where
  position_lt : s.position < NUM_RX_DESC
  endOfRing : ∀ i, s.ring.RxDescArray i &&& EORbit = 0 ↔ i ≠ NUM_RX_DESC - 1

theorem marked_start (buffers : ℕ → List UInt8) : (start buffers).Marked :=
  ⟨show 0 < NUM_RX_DESC by decide, fun _ => rxStatus_and.2⟩

/-- The chip comes round the ring. -/
theorem Marked.next (h : s.Marked) :
    (if s.ring.RxDescArray s.position &&& EORbit = 0 then s.position + 1 else 0) =
      (s.position + 1) % NUM_RX_DESC := by
  have hlt := h.position_lt
  simp only [h.endOfRing, NUM_RX_DESC] at hlt ⊢
  split_ifs <;> omega

/-- What a turn of the loop does with what it finds. -/
theorem turn_cases (s : RxSystem) (l : RxLoop) (allocated : Bool) :
    s.turn l allocated = { s with ring := { s.ring with cur_rx := l.lcur_rx }, handler := none } ∨
      ∃ x, s.ring.found l.lcur_rx = some x ∧
        (x.error = true ∧ s.turn l allocated =
            { s with handler := some ⟨(l.lcur_rx + 1) % NUM_RX_DESC, l.rxdesc_cnt + 1⟩ } ∨
          ¬x.error = true ∧ s.turn l allocated =
            { s with
              ring := s.ring.giveBack l.lcur_rx
              handler := some ⟨(l.lcur_rx + 1) % NUM_RX_DESC, l.rxdesc_cnt + 1⟩
              delivered := s.delivered ++ [x.packet] } ∨
          ¬x.error = true ∧ s.turn l allocated =
            { s with handler := some ⟨l.lcur_rx, l.rxdesc_cnt + 1⟩ }) := by
  cases hx : s.ring.found l.lcur_rx with
  | none => exact .inl (by rw [turn, hx])
  | some x =>
    by_cases hcnt : l.rxdesc_cnt < max_interrupt_work
    · refine .inr ⟨x, rfl, ?_⟩
      simp only [turn, hx, if_pos hcnt, RxLoop.turn]
      by_cases herr : x.error = true
      · refine .inl ⟨herr, ?_⟩
        simp only [if_pos herr, List.append_nil]
      · cases allocated with
        | true => exact .inr (.inl ⟨herr, by simp only [if_neg herr, if_true]⟩)
        | false =>
          refine .inr (.inr ⟨herr, ?_⟩)
          simp only [if_neg herr, if_false, List.append_nil, reduceCtorEq]
    · refine .inl ?_
      simp only [turn, hx, if_neg hcnt]

theorem Marked.receive_cases (h : s.Marked) (f : RxFrame) :
    (s.ring.found s.position = none ∧ s.receive f =
        { s with
          ring := s.ring.store s.position f
          position := (s.position + 1) % NUM_RX_DESC
          received := s.received ++ [f] }) ∨
      s.ring.found s.position ≠ none ∧ s.receive f = { s with missed := s.missed ++ [f] } := by
  by_cases hfree : s.ring.found s.position = none
  · rw [receive, if_pos hfree, h.next]
    exact .inl ⟨hfree, rfl⟩
  · rw [receive, if_neg hfree]
    exact .inr ⟨hfree, rfl⟩

theorem Marked.step (h : s.Marked) (hst : s.step a = some t) : t.Marked := by
  cases a with
  | receive f =>
    obtain ⟨-, rfl⟩ := step_receive.mp hst
    obtain ⟨-, heq⟩ | ⟨-, heq⟩ := h.receive_cases f
    · rw [heq]
      refine ⟨Nat.mod_lt _ (by decide), fun i => ?_⟩
      rw [RxRing.store_RxDescArray, Function.update_apply]
      split_ifs with hi
      · rw [f.status_and_EORbit, hi]
        exact h.endOfRing s.position
      · exact h.endOfRing i
    · rw [heq]
      exact ⟨h.position_lt, h.endOfRing⟩
  | R1000RxInterrupt =>
    obtain ⟨-, rfl⟩ := step_R1000RxInterrupt.mp hst
    exact ⟨h.position_lt, h.endOfRing⟩
  | turn allocated =>
    obtain ⟨l, -, rfl⟩ := step_turn.mp hst
    obtain heq | ⟨x, -, ⟨-, heq⟩ | ⟨-, heq⟩ | ⟨-, heq⟩⟩ := s.turn_cases l allocated
    · rw [heq]
      exact ⟨h.position_lt, h.endOfRing⟩
    · rw [heq]
      exact ⟨h.position_lt, h.endOfRing⟩
    · rw [heq]
      refine ⟨h.position_lt, fun i => ?_⟩
      rw [RxRing.giveBack_RxDescArray, Function.update_apply]
      split_ifs with hi
      · rw [hi]
        exact rxStatus_and.2
      · exact h.endOfRing i
    · rw [heq]
      exact ⟨h.position_lt, h.endOfRing⟩
  | R1000HwStart =>
    obtain ⟨-, rfl⟩ := step_R1000HwStart.mp hst
    exact ⟨show 0 < NUM_RX_DESC by decide, h.endOfRing⟩
  | R1000CloseAdapter =>
    obtain ⟨-, rfl⟩ := step_R1000CloseAdapter.mp hst
    exact ⟨h.position_lt, h.endOfRing⟩

/-- Where the handler looks next, or will look when it is called. -/
def reader (s : RxSystem) : ℕ :=
  match s.handler with
  | some l => l.lcur_rx
  | none => s.ring.cur_rx

/-- Nothing to be passed on lies in a descriptor: the chip owns it, or it holds an error. -/
def Idle (v : Option RxFound) : Prop := ∀ x ∈ v, x.error = true

instance (v : Option RxFound) : Decidable (Idle v) := by
  unfold Idle
  infer_instance

/-- The descriptors from the handler's place on hold what the chip has stored since, and the
packets among that are what is missing from those passed on. -/
structure InStep (s : RxSystem) (waiting : List RxFound) : Prop where
  queue : SlotRing.Holds NUM_RX_DESC Idle s.ring.found s.reader s.position waiting
  reader_lt : s.reader < NUM_RX_DESC
  log : s.delivered ++ packets waiting = packets (s.received.map RxFrame.found)

/-- The chip has come round to a descriptor that holds an error; everything else has been
passed on. -/
structure Blocked (s : RxSystem) : Prop where
  filled : s.ring.found s.position ≠ none
  idle : ∀ i < NUM_RX_DESC, Idle (s.ring.found i)
  reader_lt : s.reader < NUM_RX_DESC
  log : s.delivered = packets (s.received.map RxFrame.found)

/-- The chip and the handler are in step, or the chip is blocked. -/
def Ordered (s : RxSystem) : Prop := (∃ waiting, s.InStep waiting) ∨ s.Blocked

theorem InStep.congr {waiting : List RxFound} (h : s.InStep waiting)
    (hfound : t.ring.found = s.ring.found) (hreader : t.reader = s.reader)
    (hpos : t.position = s.position) (hrec : t.received = s.received)
    (hdel : t.delivered = s.delivered) : t.InStep waiting := by
  obtain ⟨hqueue, hlt, hlog⟩ := h
  refine ⟨?_, ?_, ?_⟩
  · rwa [hfound, hreader, hpos]
  · rwa [hreader]
  · rwa [hrec, hdel]

theorem Blocked.congr (h : s.Blocked) (hfound : t.ring.found = s.ring.found)
    (hreader : t.reader < NUM_RX_DESC) (hpos : t.position = s.position)
    (hrec : t.received = s.received) (hdel : t.delivered = s.delivered) : t.Blocked := by
  obtain ⟨hfilled, hidle, -, hlog⟩ := h
  refine ⟨?_, ?_, hreader, ?_⟩
  · rwa [hfound, hpos]
  · rwa [hfound]
  · rwa [hrec, hdel]

theorem Ordered.congr (h : s.Ordered) (hfound : t.ring.found = s.ring.found)
    (hreader : t.reader = s.reader) (hpos : t.position = s.position)
    (hrec : t.received = s.received) (hdel : t.delivered = s.delivered) : t.Ordered := by
  obtain ⟨waiting, h⟩ | h := h
  · exact .inl ⟨waiting, h.congr hfound hreader hpos hrec hdel⟩
  · exact .inr (h.congr hfound (hreader ▸ h.reader_lt) hpos hrec hdel)

theorem Ordered.receive (h : s.Ordered) (hm : s.Marked) (f : RxFrame) :
    (s.receive f).Ordered := by
  obtain ⟨hfree, heq⟩ | ⟨-, heq⟩ := hm.receive_cases f
  · rw [heq]
    obtain ⟨waiting, hqueue, hlt, hlog⟩ | h := h
    · have hpos : s.position = s.position % NUM_RX_DESC := (Nat.mod_eq_of_lt hm.position_lt).symm
      have hroom := hqueue.length_lt_of_none (by decide) (hpos ▸ hfree)
      refine .inl ⟨waiting ++ [f.found], ?_, hlt, ?_⟩
      · rw [RxRing.found_store, hpos]
        exact (hqueue.write hroom f.found).congr (fun _ _ => by rw [← hpos]) rfl
          (by rw [Nat.mod_mod, Nat.mod_add_mod])
      · rw [packets_append, ← List.append_assoc, hlog, List.map_append, packets_append]
        rfl
    · exact absurd hfree h.filled
  · rw [heq]
    exact h.congr rfl rfl rfl rfl rfl

theorem InStep.pass {x : RxFound} {waiting : List RxFound} (h : s.InStep (x :: waiting))
    {l : RxLoop} (hl : s.handler = some l) {v : Option RxFound} (hv : Idle v)
    (ht : t.ring.found = Function.update s.ring.found l.lcur_rx v)
    (hreader : t.reader = (l.lcur_rx + 1) % NUM_RX_DESC) (hpos : t.position = s.position)
    (hrec : t.received = s.received)
    (hdel : t.delivered ++ packets waiting = s.delivered ++ packets (x :: waiting)) :
    t.InStep waiting := by
  obtain ⟨hqueue, hlt, hlog⟩ := h
  have hr : s.reader = l.lcur_rx := by rw [reader, hl]
  rw [hr] at hqueue hlt
  refine ⟨?_, ?_, ?_⟩
  · rw [ht, hreader, hpos]
    have hread := hqueue.read hv
    rw [Nat.mod_eq_of_lt hlt] at hread
    exact hread.congr (fun _ _ => rfl) (Nat.mod_mod _ _) rfl
  · rw [hreader]
    exact Nat.mod_lt _ (by decide)
  · rw [hrec, hdel, hlog]

theorem Ordered.turn (h : s.Ordered) (hm : s.Marked) {l : RxLoop} (hl : s.handler = some l)
    (allocated : Bool) : (s.turn l allocated).Ordered := by
  have hr : s.reader = l.lcur_rx := by rw [reader, hl]
  have hnext : (l.lcur_rx + 1) % NUM_RX_DESC < NUM_RX_DESC := Nat.mod_lt _ (by decide)
  obtain heq | ⟨x, hx, hcases⟩ := s.turn_cases l allocated
  · rw [heq]
    exact h.congr rfl hr.symm rfl rfl rfl
  · obtain ⟨waiting, h⟩ | h := h
    · cases waiting with
      | nil =>
        -- nothing waits, so the chip has come round to an error
        have hidle := h.queue.idle_read (by decide)
        rw [Nat.mod_eq_of_lt h.reader_lt, hr, hx] at hidle
        have herr := hidle x rfl
        obtain ⟨-, heq⟩ | ⟨hgood, -⟩ | ⟨hgood, -⟩ := hcases
        · rw [heq]
          have hpos : s.position = l.lcur_rx := by
            have hw := h.queue.write_mod
            rwa [List.length_nil, Nat.add_zero, Nat.mod_eq_of_lt h.reader_lt,
              Nat.mod_eq_of_lt hm.position_lt, hr] at hw
          refine .inr ⟨?_, fun i hi => ?_, hnext, ?_⟩
          · rw [hpos, hx]
            exact Option.some_ne_none x
          · obtain ⟨j, hj, rfl⟩ := SlotRing.exists_ahead s.reader hi
            exact h.queue.rest j (Nat.zero_le j) hj
          · rw [← h.log, packets_eq_nil fun x hx => absurd hx List.not_mem_nil, List.append_nil]
        · exact absurd herr hgood
        · exact absurd herr hgood
      | cons y waiting =>
        have hread := h.queue.slot_read
        rw [Nat.mod_eq_of_lt h.reader_lt, hr, hx, Option.some.injEq] at hread
        subst hread
        obtain ⟨herr, heq⟩ | ⟨hgood, heq⟩ | ⟨-, heq⟩ := hcases
        · rw [heq]
          have hv : Idle (some x) := fun y hy => (Option.mem_some_iff.mp hy) ▸ herr
          refine .inl ⟨waiting, h.pass hl hv ?_ rfl rfl rfl ?_⟩
          · rw [← hx, Function.update_eq_self]
          · rw [packets_cons_error herr]
        · rw [heq]
          refine .inl ⟨waiting, h.pass hl (fun y hy => absurd hy (Option.not_mem_none y))
            (RxRing.found_giveBack _ _) rfl rfl rfl ?_⟩
          rw [packets_cons hgood, List.append_assoc, List.singleton_append]
        · rw [heq]
          exact .inl ⟨x :: waiting, h.congr rfl hr.symm rfl rfl rfl⟩
    · have herr : x.error = true := by
        have hidle := h.idle l.lcur_rx (hr ▸ h.reader_lt)
        rw [hx] at hidle
        exact hidle x rfl
      obtain ⟨-, heq⟩ | ⟨hgood, -⟩ | ⟨hgood, -⟩ := hcases
      · rw [heq]
        exact .inr (h.congr rfl hnext rfl rfl rfl)
      · exact absurd herr hgood
      · exact absurd herr hgood

/-- When the chip is reset, nothing to be passed on lies in the descriptors. -/
def ResetWhenIdle (s : RxSystem) : RxAction → Prop
  | .R1000HwStart => ∀ i < NUM_RX_DESC, Idle (s.ring.found i)
  | _ => True

instance (s : RxSystem) (a : RxAction) : Decidable (s.ResetWhenIdle a) := by
  cases a <;> unfold ResetWhenIdle <;> infer_instance

theorem idle_start (buffers : ℕ → List UInt8) (i : ℕ) : Idle ((start buffers).ring.found i) := by
  have hnone : (start buffers).ring.found i = none :=
    (RxRing.found_eq_none_iff _ _).mpr rxStatus_and.1
  rw [hnone]
  exact fun x hx => absurd hx (Option.not_mem_none x)

theorem ordered_start (buffers : ℕ → List UInt8) : (start buffers).Ordered :=
  .inl ⟨[], SlotRing.holds_nil rfl fun i _ => idle_start buffers i,
    show 0 < NUM_RX_DESC by decide, rfl⟩

/-- All that waits is in the descriptors. -/
theorem InStep.exists_slot {waiting : List RxFound} (h : s.InStep waiting) {packet : List UInt8}
    (hp : packet ∈ packets waiting) : ∃ i < NUM_RX_DESC, s.ring.found i = some ⟨false, packet⟩ := by
  rw [packets, List.mem_map] at hp
  obtain ⟨x, hx, rfl⟩ := hp
  obtain ⟨hx, hgood⟩ := List.mem_filter.mp hx
  obtain ⟨k, hk, rfl⟩ := List.getElem_of_mem hx
  refine ⟨(s.reader + k) % NUM_RX_DESC, Nat.mod_lt _ (by decide), ?_⟩
  rw [Bool.not_eq_eq_eq_not, Bool.not_true] at hgood
  rw [h.queue.filled k hk, ← hgood]

theorem Ordered.hwStart (h : s.Ordered) (hidle : ∀ i < NUM_RX_DESC, Idle (s.ring.found i))
    (hnone : s.handler = none) : s.R1000HwStart.Ordered := by
  have hreader : s.R1000HwStart.reader = 0 := by rw [reader, R1000HwStart, hnone]
  have hlog : s.delivered = packets (s.received.map RxFrame.found) := by
    obtain ⟨waiting, h⟩ | h := h
    · have hnil : packets waiting = [] := by
        refine List.eq_nil_iff_forall_not_mem.mpr fun packet hp => ?_
        obtain ⟨i, hi, hfound⟩ := h.exists_slot hp
        exact Bool.noConfusion (hidle i hi _ hfound)
      rw [← h.log, hnil, List.append_nil]
    · exact h.log
  refine .inl ⟨[], ?_, hreader ▸ show 0 < NUM_RX_DESC by decide, ?_⟩
  · rw [hreader]
    exact SlotRing.holds_nil rfl hidle
  · rw [packets_eq_nil fun x hx => absurd hx List.not_mem_nil, List.append_nil]
    exact hlog

theorem Ordered.step (h : s.Ordered) (hm : s.Marked) (hok : s.ResetWhenIdle a)
    (hst : s.step a = some t) : t.Ordered := by
  cases a with
  | receive f =>
    obtain ⟨-, rfl⟩ := step_receive.mp hst
    exact h.receive hm f
  | R1000RxInterrupt =>
    obtain ⟨⟨-, hnone⟩, rfl⟩ := step_R1000RxInterrupt.mp hst
    refine h.congr rfl ?_ rfl rfl rfl
    rw [reader, reader, hnone]
  | turn allocated =>
    obtain ⟨l, hl, rfl⟩ := step_turn.mp hst
    exact h.turn hm hl allocated
  | R1000HwStart =>
    obtain ⟨hnone, rfl⟩ := step_R1000HwStart.mp hst
    exact h.hwStart hok hnone
  | R1000CloseAdapter =>
    obtain ⟨-, rfl⟩ := step_R1000CloseAdapter.mp hst
    exact h.congr rfl rfl rfl rfl rfl

/-- The packets that are passed on are those of the frames that the chip has stored without an
error, in their order and each once, and what is missing lies in the descriptors; this holds
whenever the chip fills them, the handler takes its turns and memory runs short, if the chip is
not reset while something waits. -/
theorem run_delivers (buffers : ℕ → List UInt8) (as : List RxAction)
    (hok : Transition.Guarded step ResetWhenIdle (start buffers) as)
    (hrun : Transition.run step (start buffers) as = some s) :
    ∃ waiting, s.delivered ++ waiting = packets (s.received.map RxFrame.found) ∧
      ∀ packet ∈ waiting, ∃ i < NUM_RX_DESC, s.ring.found i = some ⟨false, packet⟩ := by
  have hstep : ∀ (s : RxSystem) a t, s.Ordered ∧ s.Marked → s.ResetWhenIdle a →
      s.step a = some t → t.Ordered ∧ t.Marked :=
    fun _ _ _ h hok hst => ⟨h.1.step h.2 hok hst, h.2.step hst⟩
  obtain ⟨hordered, -⟩ := Transition.guarded_run_invariant hstep
    ⟨ordered_start buffers, marked_start buffers⟩ hok hrun
  obtain ⟨waiting, h⟩ | h := hordered
  · exact ⟨packets waiting, h.log, fun packet hp => h.exists_slot hp⟩
  · exact ⟨[], by rw [List.append_nil, h.log], fun packet hp => absurd hp List.not_mem_nil⟩

/-- A packet comes in, and a frame with an error while the handler runs. -/
def packetAndError : List RxAction :=
  [.R1000HwStart, .receive ⟨[1, 2], [0, 0, 0, 0], 0, rfl, by decide, by decide⟩,
    .R1000RxInterrupt, .turn false, .turn true,
    .receive ⟨[3], [0, 0, 0, 0], RxRES, rfl, by decide, by decide⟩, .turn true, .turn true]

theorem packetAndError_delivers :
    ∃ s, Transition.run step (start fun _ => []) packetAndError = some s ∧
      ∃ waiting, s.delivered ++ waiting = packets (s.received.map RxFrame.found) ∧
        ∀ packet ∈ waiting, ∃ i < NUM_RX_DESC, s.ring.found i = some ⟨false, packet⟩ :=
  ⟨_, rfl, run_delivers (fun _ => []) packetAndError
    ⟨fun i _ => idle_start _ i, fun _ _ => by
      refine ⟨trivial, fun _ _ => ⟨trivial, fun _ _ => ⟨trivial, fun _ _ => ⟨trivial, fun _ _ =>
        ⟨trivial, fun _ _ => ⟨trivial, fun _ _ => ⟨trivial, fun _ _ => trivial⟩⟩⟩⟩⟩⟩⟩⟩
    rfl⟩

/-- How many frames the chip can store before it comes to the descriptor `i`. -/
def room (s : RxSystem) (i : ℕ) : ℕ := (i + (NUM_RX_DESC - s.position)) % NUM_RX_DESC

/-- The descriptor `i` holds the frame `x`, which has an error. -/
structure Wedged (i : ℕ) (x : RxFound) (s : RxSystem) : Prop where
  marked : s.Marked
  found : s.ring.found i = some x
  error : x.error = true

theorem room_le (s : RxSystem) (i : ℕ) : s.room i ≤ NUM_RX_DESC - 1 :=
  Nat.le_pred_of_lt (Nat.mod_lt _ (by decide))

/-- A descriptor that holds an error is never given back, nor does the chip write to it. -/
theorem Wedged.step {i : ℕ} {x : RxFound} (h : s.Wedged i x) (hst : s.step a = some t) :
    t.Wedged i x := by
  refine ⟨h.marked.step hst, ?_, h.error⟩
  have hx := h.found
  cases a with
  | receive f =>
    obtain ⟨-, rfl⟩ := step_receive.mp hst
    obtain ⟨hfree, heq⟩ | ⟨-, heq⟩ := h.marked.receive_cases f
    · rw [heq, RxRing.found_store, Function.update_of_ne]
      · exact hx
      · rintro rfl
        rw [hfree] at hx
        exact Option.some_ne_none x hx.symm
    · rw [heq]
      exact hx
  | R1000RxInterrupt =>
    obtain ⟨-, rfl⟩ := step_R1000RxInterrupt.mp hst
    exact hx
  | turn allocated =>
    obtain ⟨l, -, rfl⟩ := step_turn.mp hst
    obtain heq | ⟨y, hy, ⟨-, heq⟩ | ⟨hgood, heq⟩ | ⟨-, heq⟩⟩ := s.turn_cases l allocated
    · rw [heq]
      exact hx
    · rw [heq]
      exact hx
    · rw [heq, RxRing.found_giveBack, Function.update_of_ne]
      · exact hx
      · rintro rfl
        rw [hx, Option.some.injEq] at hy
        exact hgood (hy ▸ h.error)
    · rw [heq]
      exact hx
  | R1000HwStart =>
    obtain ⟨-, rfl⟩ := step_R1000HwStart.mp hst
    exact hx
  | R1000CloseAdapter =>
    obtain ⟨-, rfl⟩ := step_R1000CloseAdapter.mp hst
    exact hx

/-- Each frame that is stored takes the chip closer to the error; only a reset takes it back. -/
theorem Wedged.room_step {i : ℕ} {x : RxFound} (h : s.Wedged i x) (hi : i < NUM_RX_DESC)
    (hst : s.step a = some t) :
    t.received.length + t.room i ≤ s.received.length + s.room i +
      if a = .R1000HwStart then NUM_RX_DESC - 1 else 0 := by
  cases a with
  | receive f =>
    obtain ⟨-, rfl⟩ := step_receive.mp hst
    obtain ⟨hfree, heq⟩ | ⟨-, heq⟩ := h.marked.receive_cases f
    · have hne : s.position ≠ i := by
        rintro rfl
        exact Option.some_ne_none x (h.found.symm.trans hfree)
      have hlt := h.marked.position_lt
      rw [heq, room, room]
      simp only [List.length_append, List.length_singleton, NUM_RX_DESC] at hlt hi ⊢
      omega
    · rw [heq]
      exact Nat.le_add_right _ _
  | R1000RxInterrupt =>
    obtain ⟨-, rfl⟩ := step_R1000RxInterrupt.mp hst
    exact Nat.le_add_right _ _
  | turn allocated =>
    obtain ⟨l, -, rfl⟩ := step_turn.mp hst
    obtain heq | ⟨y, -, ⟨-, heq⟩ | ⟨-, heq⟩ | ⟨-, heq⟩⟩ := s.turn_cases l allocated
    all_goals
      rw [heq]
      exact Nat.le_add_right _ _
  | R1000HwStart =>
    obtain ⟨-, rfl⟩ := step_R1000HwStart.mp hst
    rw [if_pos rfl]
    have hroom := room_le s.R1000HwStart i
    exact Nat.add_le_add (Nat.le_add_right _ _) hroom
  | R1000CloseAdapter =>
    obtain ⟨-, rfl⟩ := step_R1000CloseAdapter.mp hst
    exact Nat.le_add_right _ _

theorem sum_resets (as : List RxAction) (k : ℕ) :
    (as.map fun a => if a = .R1000HwStart then k else 0).sum = as.count .R1000HwStart * k := by
  induction as with
  | nil => rw [List.map_nil, List.sum_nil, List.count_nil, Nat.zero_mul]
  | cons a as ih =>
    rw [List.map_cons, List.sum_cons, ih, List.count_cons, Nat.add_mul, Nat.add_comm]
    by_cases ha : a = .R1000HwStart
    · rw [if_pos ha, ha, if_pos (beq_self_eq_true _), Nat.one_mul]
    · rw [if_neg ha, if_neg (beq_eq_false_iff_ne.mpr ha ▸ Bool.false_ne_true), Nat.zero_mul]

/-- Once a frame with an error has been stored, its descriptor is out of use for good, and the
chip stores at most one frame for each of the other descriptors until it is reset; after each
reset again no more than that, whatever the handler does. -/
theorem received_le_of_error (buffers : ℕ → List UInt8) (as : List RxAction) {bs : List RxAction}
    (hrun : Transition.run step (start buffers) as = some s) {i : ℕ} (hi : i < NUM_RX_DESC)
    {x : RxFound} (hx : s.ring.found i = some x) (herr : x.error = true)
    (hrun' : Transition.run step s bs = some t) :
    t.ring.found i = some x ∧
      t.received.length ≤ s.received.length +
        (bs.count .R1000HwStart + 1) * (NUM_RX_DESC - 1) := by
  have hmarked := Transition.run_invariant (fun _ _ _ => Marked.step) (marked_start buffers) hrun
  have hwedged : s.Wedged i x := ⟨hmarked, hx, herr⟩
  refine ⟨(Transition.run_invariant (fun _ _ _ => Wedged.step) hwedged hrun').found, ?_⟩
  have hstep : ∀ (s : RxSystem) a t, s.Wedged i x → s.step a = some t →
      t.received.length + t.room i ≤ s.received.length + s.room i +
        if a = .R1000HwStart then NUM_RX_DESC - 1 else 0 := fun _ _ _ h hst => h.room_step hi hst
  have hbound := Transition.run_measure_le (fun _ _ _ => Wedged.step) hstep hwedged hrun'
  have hroom := s.room_le i
  rw [sum_resets] at hbound
  rw [Nat.add_mul, Nat.one_mul]
  omega

theorem packetAndError_received_le :
    ∃ s t, Transition.run step (start fun _ => []) packetAndError = some s ∧
      Transition.run step s [.R1000HwStart] = some t ∧
      t.ring.found 1 = s.ring.found 1 ∧
      t.received.length ≤ s.received.length +
        ([RxAction.R1000HwStart].count .R1000HwStart + 1) * (NUM_RX_DESC - 1) :=
  ⟨_, _, rfl, rfl, received_le_of_error (fun _ => []) packetAndError rfl (by decide) rfl rfl rfl⟩

end RxSystem

end Ethernet
