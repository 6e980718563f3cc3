import NetbookInstaller.Transition.Runs
import NetbookInstaller.Transition.SlotRing
import Mathlib.Tactic.Common

/-! The transmit ring of `RealtekR1000`: the driver fills descriptors under its gate, the
interrupt handler gives the packets back, and the chip takes the descriptors at its own pace,
also while the handler runs. -/
namespace Ethernet

def NUM_TX_DESC : ℕ := 1024

def max_interrupt_work : ℕ := 20

/-- `DEFAULT_MTU + ETH_HDR_LEN`, which nothing changes. -/
def tx_pkt_len : ℕ := 1514

def OWNbit : UInt32 := 0x80000000

def EORbit : UInt32 := 0x40000000

def FSbit : UInt32 := 0x20000000

def LSbit : UInt32 := 0x10000000

/-- A packet is a chain of buffers; its header knows the length of the whole chain. -/
structure Mbuf where
  id : ℕ
  data : List UInt8
  next : List (List UInt8)
  pkthdr_len : ℕ
  pkthdr_len_eq : pkthdr_len = data.length + (next.map List.length).sum
  deriving DecidableEq

/-- The bytes of the whole chain. -/
def Mbuf.bytes (m : Mbuf) : List UInt8 := m.data ++ m.next.flatten

inductive OutputResult where
  | kIOReturnOutputSuccess
  | kIOReturnOutputDropped
  | kIOReturnOutputStall
  deriving DecidableEq, Repr

/-- What the loop of `outputPacket` copies from the buffer `cur_buf` on, behind the
`pkt_snd_len` bytes that it has copied already. -/
def copyChain (buf_len pkt_snd_len : ℕ) (cur_buf : List UInt8) : List (List UInt8) → List UInt8
  | [] => cur_buf
  | next :: rest =>
    let pkt_snd_len := pkt_snd_len + cur_buf.length
    if pkt_snd_len + next.length ≤ buf_len then
      cur_buf ++ copyChain buf_len pkt_snd_len next rest
    else cur_buf

/-- The driver's side of the ring. `TxDescArray` is the memory from the array on, as its
status words; what lies behind the last descriptor belongs to others. -/
structure TxRing where
  cur_tx : UInt32
  dirty_tx : UInt32
  TxDescArray : ℕ → UInt32
  Tx_skbuff : ℕ → Option Mbuf
  Tx_dbuff : ℕ → List UInt8

/-- The status word of a descriptor that is handed to the chip. -/
def txStatus (entry buf_len : ℕ) : UInt32 :=
  if entry ≠ NUM_TX_DESC - 1 then (OWNbit ||| FSbit ||| LSbit) ||| UInt32.ofNat buf_len
  else (OWNbit ||| EORbit ||| FSbit ||| LSbit) ||| UInt32.ofNat buf_len

/-- The local variables of `R1000TxInterrupt`. -/
structure TxLoop where
  ldirty_tx : UInt32
  tx_left : UInt32
  entry : ℕ
  txloop_cnt : ℕ
  deriving DecidableEq, Repr

namespace TxRing

/-- The ring that `AllocateDescriptorsMemory` sets up. -/
def start (memory : ℕ → UInt32) (buffers : ℕ → List UInt8) : TxRing :=
  ⟨0, 0, fun i => if i < NUM_TX_DESC then 0 else memory i, fun _ => none, buffers⟩

/-- The place of the next packet. -/
def entry (s : TxRing) : ℕ := s.cur_tx.toNat % NUM_TX_DESC

def outputPacket (s : TxRing) (m : Mbuf) : OutputResult × TxRing :=
  if s.TxDescArray s.entry &&& OWNbit = 0 then
    if m.pkthdr_len ≤ tx_pkt_len then
      let data := copyChain m.pkthdr_len 0 m.data m.next
      (.kIOReturnOutputSuccess,
        { s with
          Tx_skbuff := Function.update s.Tx_skbuff s.entry (some m)
          Tx_dbuff := Function.update s.Tx_dbuff s.entry
            (data ++ (s.Tx_dbuff s.entry).drop data.length)
          TxDescArray := Function.update s.TxDescArray s.entry (txStatus s.entry data.length)
          cur_tx := s.cur_tx + 1 })
    else (.kIOReturnOutputDropped, s)
  else (.kIOReturnOutputStall, s)

/-- `R1000TxInterrupt` up to its loop. -/
def enterLoop (s : TxRing) : TxLoop := ⟨s.dirty_tx, s.cur_tx - s.dirty_tx, s.entry, 0⟩

/-- The packets go back in the order of the slots. -/
def R1000TxClear (s : TxRing) : TxRing :=
  { s with
    cur_tx := 0
    dirty_tx := 0
    TxDescArray := fun i => if i < NUM_TX_DESC then 0 else s.TxDescArray i
    Tx_skbuff := fun i => if i < NUM_TX_DESC then none else s.Tx_skbuff i }

/-- The frame that the chip finds in a descriptor that it owns. -/
def frame (s : TxRing) (i : ℕ) : Option (List UInt8) :=
  if s.TxDescArray i &&& OWNbit = 0 then none
  else some ((s.Tx_dbuff i).take (s.TxDescArray i &&& 0xFFFF).toNat)

/-- The chip gives a descriptor back. -/
def release (s : TxRing) (i : ℕ) : TxRing :=
  { s with TxDescArray := Function.update s.TxDescArray i (s.TxDescArray i &&& ~~~OWNbit) }

end TxRing

namespace TxLoop

/-- The slot whose packet goes back next. -/
def slot (l : TxLoop) : ℕ := l.ldirty_tx.toNat % NUM_TX_DESC

/-- The condition of the loop. -/
def goesOn (l : TxLoop) : Bool := decide (0 < l.tx_left ∧ l.txloop_cnt < max_interrupt_work)

/-- Whether the turn gives a packet back; `entry` counts up without coming round. -/
def frees (l : TxLoop) (s : TxRing) : Bool := s.TxDescArray l.entry &&& OWNbit = 0

/-- One turn of the loop. -/
def turn (l : TxLoop) (s : TxRing) : TxLoop × TxRing :=
  if l.frees s then
    (⟨l.ldirty_tx + 1, l.tx_left - 1, l.entry + 1, l.txloop_cnt + 1⟩,
      { s with Tx_skbuff := Function.update s.Tx_skbuff l.slot none })
  else ({ l with txloop_cnt := l.txloop_cnt + 1 }, s)

end TxLoop

/-- Where `R1000Interrupt` is: at the top of its loop with `boguscnt` turns left, or in the
loop of the `R1000TxInterrupt` that it has called. -/
inductive TxHandler where
  | idle
  | dispatch (boguscnt : ℕ)
  | loop (boguscnt : ℕ) (l : TxLoop)
  deriving DecidableEq, Repr

inductive TxAction where
  | outputPacket (m : Mbuf)
  | R1000Interrupt
  | poll (other : UInt16)
  | turn
  | R1000TxTimeout
  | R1000CloseAdapter
  | R1000OpenAdapter
  | transmit
  deriving DecidableEq

def TxOK : UInt16 := 0x04

def TxErr : UInt16 := 0x08

/-- `LinkChg | RxOverflow | RxFIFOOver | TxErr | TxOK | RxErr | RxOK`. -/
def r1000_intr_mask : UInt16 := 0x7F

/-- The driver, the chip with the descriptor it looks at next, and the output queue, which a
stall stops until it is started again. The rest records what has happened. -/
structure TxSystem where
  ring : TxRing
  handler : TxHandler
  CmdTxEnb : Bool
  position : ℕ
  txOK : Bool
  stalled : Bool
  results : List OutputResult
  sent : List (List UInt8)
  given : Multiset Mbuf
  freed : Multiset Mbuf
  overwritten : Multiset Mbuf

namespace TxSystem

def start (memory : ℕ → UInt32) (buffers : ℕ → List UInt8) : TxSystem :=
  ⟨.start memory buffers, .idle, false, 0, false, false, [], [], 0, 0, 0⟩

def output (s : TxSystem) (m : Mbuf) : TxSystem :=
  match s.ring.outputPacket m with
  | (.kIOReturnOutputSuccess, ring) =>
    { s with
      ring
      results := s.results ++ [.kIOReturnOutputSuccess]
      given := s.given + {m}
      overwritten := s.overwritten + SlotRing.item (s.ring.Tx_skbuff s.ring.entry) }
  | (.kIOReturnOutputDropped, ring) =>
    { s with
      ring
      results := s.results ++ [.kIOReturnOutputDropped]
      given := s.given + {m}
      freed := s.freed + {m} }
  | (.kIOReturnOutputStall, ring) =>
    { s with
      ring
      results := s.results ++ [.kIOReturnOutputStall]
      stalled := true }

/-- The bits of `IntrStatus`, of which the chip sets `TxOK` and others set the rest. -/
def intrStatus (s : TxSystem) (other : UInt16) : UInt16 :=
  if s.txOK then other ||| TxOK else other

/-- A turn of the loop in `R1000Interrupt`, or what comes after it: when the turns are used
up, all interrupt sources are cleared. -/
def poll (s : TxSystem) (other : UInt16) : ℕ → TxSystem
  | 0 => { s with handler := .idle, txOK := false }
  | boguscnt + 1 =>
    let status := s.intrStatus other
    if status = 0xFFFF then { s with handler := .idle }
    else if status &&& r1000_intr_mask = 0 then { s with handler := .idle, txOK := false }
    else if status &&& (TxOK ||| TxErr) ≠ 0 then
      { s with handler := .loop boguscnt s.ring.enterLoop, txOK := false }
    else { s with handler := .dispatch boguscnt, txOK := false }

/-- A turn of the loop in `R1000TxInterrupt`, or what comes after it. -/
def turn (s : TxSystem) (boguscnt : ℕ) (l : TxLoop) : TxSystem :=
  if l.goesOn then
    { s with
      ring := (l.turn s.ring).2
      handler := .loop boguscnt (l.turn s.ring).1
      freed := s.freed + if l.frees s.ring then SlotRing.item (s.ring.Tx_skbuff l.slot) else 0 }
  else if s.ring.dirty_tx ≠ l.ldirty_tx then
    { s with
      ring := { s.ring with dirty_tx := l.ldirty_tx }
      handler := .dispatch boguscnt
      stalled := false }
  else { s with handler := .dispatch boguscnt }

/-- The reset that `R1000HwStart` begins with, and the addresses that it writes. -/
def R1000HwStart (s : TxSystem) : TxSystem :=
  { s with CmdTxEnb := true, position := 0, txOK := false }

def R1000TxTimeout (s : TxSystem) : TxSystem :=
  { s with
    ring := s.ring.R1000TxClear
    freed := s.freed + SlotRing.stock NUM_TX_DESC s.ring.Tx_skbuff
    stalled := false }.R1000HwStart

/-- The chip takes the frame it looks at; it goes on behind the descriptor, or at the first
one if the descriptor is marked as the end of the ring. -/
def transmit (s : TxSystem) (frame : List UInt8) : TxSystem :=
  { s with
    ring := s.ring.release s.position
    position := if s.ring.TxDescArray s.position &&& EORbit = 0 then s.position + 1 else 0
    txOK := true
    sent := s.sent ++ [frame] }

def step (s : TxSystem) : TxAction → Option TxSystem
  | .outputPacket m => if s.CmdTxEnb ∧ s.handler = .idle then some (s.output m) else none
  | .R1000Interrupt =>
    if s.CmdTxEnb ∧ s.handler = .idle then
      some { s with handler := .dispatch max_interrupt_work }
    else none
  | .poll other =>
    match s.handler with
    | .dispatch boguscnt => some (s.poll other boguscnt)
    | _ => none
  | .turn =>
    match s.handler with
    | .loop boguscnt l => some (s.turn boguscnt l)
    | _ => none
  | .R1000TxTimeout => if s.CmdTxEnb ∧ s.handler = .idle then some s.R1000TxTimeout else none
  | .R1000CloseAdapter => if s.handler = .idle then some { s with CmdTxEnb := false } else none
  | .R1000OpenAdapter =>
    if s.handler = .idle ∧ s.CmdTxEnb = false then
      some { s with stalled := false }.R1000HwStart
    else none
  | .transmit =>
    if s.CmdTxEnb then (s.ring.frame s.position).map s.transmit else none

end TxSystem

theorem or_and_distrib (a b c : UInt32) : (a ||| b) &&& c = (a &&& c) ||| (b &&& c) := by
  rw [← UInt32.toBitVec_inj]
  exact BitVec.and_or_distrib_right

/-- A length stays in the low half of the word. -/
theorem length_and_low {len : ℕ} (h : len < 2 ^ 16) :
    UInt32.ofNat len &&& 0xFFFF = UInt32.ofNat len := by
  rw [← UInt32.toNat_inj, UInt32.toNat_and, UInt32.toNat_ofNat',
    show (0xFFFF : UInt32).toNat = 2 ^ 16 - 1 from rfl, Nat.and_two_pow_sub_one_eq_mod]
  omega

theorem length_and_high {len : ℕ} (h : len < 2 ^ 16) {mask : UInt32}
    (hm : (0xFFFF : UInt32) &&& mask = 0) : UInt32.ofNat len &&& mask = 0 := by
  rw [← length_and_low h, UInt32.and_assoc, hm, UInt32.and_zero]

theorem tx_pkt_len_lt {buf_len : ℕ} (h : buf_len ≤ tx_pkt_len) : buf_len < 2 ^ 16 :=
  h.trans_lt (by decide)

theorem txStatus_and_OWNbit {buf_len : ℕ} (h : buf_len ≤ tx_pkt_len) (entry : ℕ) :
    txStatus entry buf_len &&& OWNbit ≠ 0 := by
  unfold txStatus
  split_ifs
  all_goals
    rw [or_and_distrib, length_and_high (tx_pkt_len_lt h) (by decide), UInt32.or_zero]
    decide

theorem txStatus_and_EORbit {buf_len : ℕ} (h : buf_len ≤ tx_pkt_len) (entry : ℕ) :
    txStatus entry buf_len &&& EORbit = 0 ↔ entry ≠ NUM_TX_DESC - 1 := by
  unfold txStatus
  split_ifs with hlast
  all_goals rw [or_and_distrib, length_and_high (tx_pkt_len_lt h) (by decide), UInt32.or_zero]
  · exact iff_of_true (by decide) hlast
  · exact iff_of_false (by decide) hlast

theorem txStatus_length {buf_len : ℕ} (h : buf_len ≤ tx_pkt_len) (entry : ℕ) :
    (txStatus entry buf_len &&& 0xFFFF).toNat = buf_len := by
  have hlow : (UInt32.ofNat buf_len).toNat = buf_len := by
    rw [UInt32.toNat_ofNat']
    unfold tx_pkt_len at h
    omega
  unfold txStatus
  split_ifs
  · rw [or_and_distrib, length_and_low (tx_pkt_len_lt h),
      show (OWNbit ||| FSbit ||| LSbit) &&& 0xFFFF = 0 by decide, UInt32.zero_or, hlow]
  · rw [or_and_distrib, length_and_low (tx_pkt_len_lt h),
      show (OWNbit ||| EORbit ||| FSbit ||| LSbit) &&& 0xFFFF = 0 by decide, UInt32.zero_or, hlow]

/-- The whole chain is copied if the header knows its length. -/
theorem copyChain_eq {buf_len : ℕ} (next : List (List UInt8)) :
    ∀ {pkt_snd_len : ℕ} {cur_buf : List UInt8},
      pkt_snd_len + cur_buf.length + (next.map List.length).sum ≤ buf_len →
      copyChain buf_len pkt_snd_len cur_buf next = cur_buf ++ next.flatten := by
  induction next with
  | nil =>
    intro _ cur_buf _
    rw [copyChain, List.flatten_nil, List.append_nil]
  | cons buf next ih =>
    intro pkt_snd_len cur_buf h
    rw [List.map_cons, List.sum_cons] at h
    rw [copyChain, if_pos (by omega), ih (by omega), List.flatten_cons]

theorem Mbuf.copied (m : Mbuf) : copyChain m.pkthdr_len 0 m.data m.next = m.bytes :=
  copyChain_eq m.next (by rw [Nat.zero_add, m.pkthdr_len_eq])

theorem Mbuf.length_bytes (m : Mbuf) : m.bytes.length = m.pkthdr_len := by
  rw [m.pkthdr_len_eq, Mbuf.bytes, List.length_append, List.length_flatten]

/-- The counters come round at a multiple of the length of the ring. -/
theorem toNat_succ_mod (x : UInt32) :
    (x + 1).toNat % NUM_TX_DESC = (x.toNat + 1) % NUM_TX_DESC := by
  rw [UInt32.toNat_add, UInt32.toNat_one, NUM_TX_DESC]
  omega

namespace TxRing

theorem entry_lt (s : TxRing) : s.entry < NUM_TX_DESC := Nat.mod_lt _ (by decide)

theorem frame_eq_none_iff (s : TxRing) (i : ℕ) :
    s.frame i = none ↔ s.TxDescArray i &&& OWNbit = 0 := by
  by_cases h : s.TxDescArray i &&& OWNbit = 0
  · exact iff_of_true (if_pos h) h
  · rw [frame, if_neg h]
    exact iff_of_false (Option.some_ne_none _) h

theorem frame_congr {s s' : TxRing} (hdesc : s'.TxDescArray = s.TxDescArray)
    (hbuff : s'.Tx_dbuff = s.Tx_dbuff) : s'.frame = s.frame := by
  funext i
  rw [frame, frame, hdesc, hbuff]

/-- The ring after a packet has been accepted. -/
def accept (s : TxRing) (m : Mbuf) : TxRing :=
  { s with
    Tx_skbuff := Function.update s.Tx_skbuff s.entry (some m)
    Tx_dbuff := Function.update s.Tx_dbuff s.entry
      (m.bytes ++ (s.Tx_dbuff s.entry).drop m.pkthdr_len)
    TxDescArray := Function.update s.TxDescArray s.entry (txStatus s.entry m.pkthdr_len)
    cur_tx := s.cur_tx + 1 }

theorem accept_TxDescArray (s : TxRing) (m : Mbuf) :
    (s.accept m).TxDescArray =
      Function.update s.TxDescArray s.entry (txStatus s.entry m.pkthdr_len) := rfl

theorem release_TxDescArray (s : TxRing) (i : ℕ) :
    (s.release i).TxDescArray =
      Function.update s.TxDescArray i (s.TxDescArray i &&& ~~~OWNbit) := rfl

/-- A packet is accepted if there is a descriptor for it and it is not too long. -/
theorem outputPacket_eq (s : TxRing) (m : Mbuf) :
    s.outputPacket m =
      if s.frame s.entry = none then
        if m.pkthdr_len ≤ tx_pkt_len then (.kIOReturnOutputSuccess, s.accept m)
        else (.kIOReturnOutputDropped, s)
      else (.kIOReturnOutputStall, s) := by
  simp only [frame_eq_none_iff, outputPacket, accept, m.copied, m.length_bytes]

theorem frame_accept (s : TxRing) {m : Mbuf} (h : m.pkthdr_len ≤ tx_pkt_len) :
    (s.accept m).frame = Function.update s.frame s.entry (some m.bytes) := by
  funext i
  by_cases hi : i = s.entry
  · subst hi
    rw [Function.update_self, frame, accept]
    simp only [Function.update_self]
    rw [if_neg (txStatus_and_OWNbit h _), txStatus_length h, ← m.length_bytes,
      List.take_left]
  · rw [Function.update_of_ne hi, frame, accept]
    simp only [Function.update_of_ne hi]
    rfl

theorem frame_release (s : TxRing) (j : ℕ) :
    (s.release j).frame = Function.update s.frame j none := by
  funext i
  by_cases hi : i = j
  · subst hi
    rw [Function.update_self, frame_eq_none_iff, release]
    simp only [Function.update_self]
    rw [UInt32.and_assoc, UInt32.not_and_self, UInt32.and_zero]
  · rw [Function.update_of_ne hi, frame, release]
    simp only [Function.update_of_ne hi]
    rfl

theorem frame_R1000TxClear (s : TxRing) {i : ℕ} (hi : i < NUM_TX_DESC) :
    s.R1000TxClear.frame i = none := by
  rw [frame_eq_none_iff, R1000TxClear]
  simp only [if_pos hi, UInt32.zero_and]

end TxRing

/-- What the transmit path is for: a queue of bounded length between the driver and the
cable. -/
structure TxPipe where
  waiting : List (List UInt8)
  sent : List (List UInt8)
  results : List OutputResult
  deriving DecidableEq, Repr

namespace TxPipe

def output (p : TxPipe) (m : Mbuf) : TxPipe :=
  if p.waiting.length < NUM_TX_DESC then
    if m.pkthdr_len ≤ tx_pkt_len then
      { p with
        waiting := p.waiting ++ [m.bytes]
        results := p.results ++ [.kIOReturnOutputSuccess] }
    else { p with results := p.results ++ [.kIOReturnOutputDropped] }
  else { p with results := p.results ++ [.kIOReturnOutputStall] }

def step (p : TxPipe) : TxAction → Option TxPipe
  | .outputPacket m => some (p.output m)
  | .transmit =>
    match p.waiting with
    | [] => none
    | frame :: waiting => some { p with waiting, sent := p.sent ++ [frame] }
  | .R1000TxTimeout => some { p with waiting := [] }
  | _ => some p

end TxPipe

/-- The descriptors from the chip's position on hold the frames that wait, the driver goes on
behind them, and the last descriptor is the one marked as the end of the ring. -/
structure TxRing.InStep (s : TxRing) (position : ℕ) (waiting : List (List UInt8)) : Prop where
  position_lt : position < NUM_TX_DESC
  queue : SlotRing.Holds NUM_TX_DESC (· = none) s.frame position s.cur_tx.toNat waiting
  endOfRing : ∀ i, s.frame i ≠ none → i < NUM_TX_DESC →
    (s.TxDescArray i &&& EORbit = 0 ↔ i ≠ NUM_TX_DESC - 1)

namespace TxRing.InStep

variable {s s' : TxRing} {position : ℕ} {waiting : List (List UInt8)}

theorem nothing_waits (hframe : ∀ i < NUM_TX_DESC, s.frame i = none)
    (hcur : s.cur_tx.toNat % NUM_TX_DESC = 0) : s.InStep 0 [] where
  position_lt := by decide
  queue := SlotRing.holds_nil (hcur.trans (Nat.zero_mod _).symm) hframe
  endOfRing := fun i hne hi => absurd (hframe i hi) hne

theorem congr (h : s.InStep position waiting) (hdesc : s'.TxDescArray = s.TxDescArray)
    (hbuff : s'.Tx_dbuff = s.Tx_dbuff) (hcur : s'.cur_tx = s.cur_tx) :
    s'.InStep position waiting := by
  have hframe := TxRing.frame_congr hdesc hbuff
  obtain ⟨hlt, hqueue, hend⟩ := h
  refine ⟨hlt, ?_, ?_⟩
  · rwa [hframe, hcur]
  · rwa [hframe, hdesc]

/-- A descriptor for the next packet is missing exactly when the ring is full of frames. -/
theorem frame_entry (h : s.InStep position waiting) :
    s.frame s.entry = none ↔ waiting.length < NUM_TX_DESC :=
  h.queue.slot_write_eq_none_iff (by decide)

theorem accept (h : s.InStep position waiting) (hfree : waiting.length < NUM_TX_DESC) {m : Mbuf}
    (hlen : m.pkthdr_len ≤ tx_pkt_len) :
    (s.accept m).InStep position (waiting ++ [m.bytes]) := by
  refine ⟨h.position_lt, ?_, fun i hne hi => ?_⟩
  · rw [s.frame_accept hlen]
    exact (h.queue.write hfree m.bytes).congr (fun _ _ => rfl) rfl (toNat_succ_mod s.cur_tx)
  · rw [s.frame_accept hlen] at hne
    rw [s.accept_TxDescArray]
    by_cases hentry : i = s.entry
    · subst hentry
      rw [Function.update_self]
      exact txStatus_and_EORbit hlen _
    · rw [Function.update_of_ne hentry] at hne ⊢
      exact h.endOfRing i hne hi

/-- The chip comes round the ring in step with the driver. -/
theorem release {frame : List UInt8} (h : s.InStep position (frame :: waiting)) :
    (s.release position).InStep
      (if s.TxDescArray position &&& EORbit = 0 then position + 1 else 0) waiting := by
  have hread : s.frame position = some frame := by
    simpa only [Nat.mod_eq_of_lt h.position_lt] using h.queue.slot_read
  have hmark := h.endOfRing position (by rw [hread]; exact Option.some_ne_none _) h.position_lt
  have hnext : (if s.TxDescArray position &&& EORbit = 0 then position + 1 else 0) =
      (position + 1) % NUM_TX_DESC := by
    have hlt := h.position_lt
    simp only [hmark, NUM_TX_DESC] at hlt ⊢
    split_ifs <;> omega
  rw [hnext]
  refine ⟨Nat.mod_lt _ (by decide), ?_, fun i hne hi => ?_⟩
  · rw [s.frame_release, ← Nat.mod_eq_of_lt h.position_lt]
    exact (h.queue.read rfl).congr (fun _ _ => rfl) (by rw [Nat.mod_mod, Nat.mod_add_mod]) rfl
  · rw [s.frame_release] at hne
    have hi' : i ≠ position := by
      rintro rfl
      exact hne (Function.update_self ..)
    rw [Function.update_of_ne hi'] at hne
    rw [s.release_TxDescArray, Function.update_of_ne hi']
    exact h.endOfRing i hne hi

end TxRing.InStep

theorem TxLoop.slot_lt (l : TxLoop) : l.slot < NUM_TX_DESC := Nat.mod_lt _ (by decide)

theorem TxRing.turn_eq (s : TxRing) (l : TxLoop) :
    (l.turn s).2.TxDescArray = s.TxDescArray ∧ (l.turn s).2.Tx_dbuff = s.Tx_dbuff ∧
      (l.turn s).2.cur_tx = s.cur_tx ∧ (l.turn s).2.dirty_tx = s.dirty_tx := by
  unfold TxLoop.turn
  split_ifs
  · exact ⟨rfl, rfl, rfl, rfl⟩
  · exact ⟨rfl, rfl, rfl, rfl⟩

namespace TxSystem

variable {s t : TxSystem}

/-- The system after a packet has been accepted. -/
def accepted (s : TxSystem) (m : Mbuf) : TxSystem :=
  { s with
    ring := s.ring.accept m
    results := s.results ++ [.kIOReturnOutputSuccess]
    given := s.given + {m}
    overwritten := s.overwritten + SlotRing.item (s.ring.Tx_skbuff s.ring.entry) }

/-- The system after a packet has been thrown away. -/
def dropped (s : TxSystem) (m : Mbuf) : TxSystem :=
  { s with
    results := s.results ++ [.kIOReturnOutputDropped]
    given := s.given + {m}
    freed := s.freed + {m} }

/-- The system after a packet has been left with the queue. -/
def stall (s : TxSystem) : TxSystem :=
  { s with
    results := s.results ++ [.kIOReturnOutputStall]
    stalled := true }

theorem output_eq (s : TxSystem) (m : Mbuf) :
    s.output m =
      if s.ring.frame s.ring.entry = none then
        if m.pkthdr_len ≤ tx_pkt_len then s.accepted m else s.dropped m
      else s.stall := by
  rw [output, s.ring.outputPacket_eq]
  split_ifs
  · rfl
  · rfl
  · rfl

theorem step_outputPacket {m : Mbuf} : s.step (.outputPacket m) = some t ↔
    (s.CmdTxEnb ∧ s.handler = .idle) ∧ s.output m = t := by
  rw [step, Option.ite_none_right_eq_some, Option.some.injEq]

theorem step_R1000Interrupt : s.step .R1000Interrupt = some t ↔
    (s.CmdTxEnb ∧ s.handler = .idle) ∧ { s with handler := .dispatch max_interrupt_work } = t := by
  rw [step, Option.ite_none_right_eq_some, Option.some.injEq]

theorem step_poll {other : UInt16} : s.step (.poll other) = some t ↔
    ∃ boguscnt, s.handler = .dispatch boguscnt ∧ s.poll other boguscnt = t := by
  rw [step]
  cases s.handler with
  | idle => simp
  | dispatch boguscnt => simp
  | loop boguscnt l => simp

theorem step_turn : s.step .turn = some t ↔
    ∃ boguscnt l, s.handler = .loop boguscnt l ∧ s.turn boguscnt l = t := by
  rw [step]
  cases s.handler with
  | idle => simp
  | dispatch boguscnt => simp
  | loop boguscnt l => simp

theorem step_R1000TxTimeout : s.step .R1000TxTimeout = some t ↔
    (s.CmdTxEnb ∧ s.handler = .idle) ∧ s.R1000TxTimeout = t := by
  rw [step, Option.ite_none_right_eq_some, Option.some.injEq]

theorem step_R1000CloseAdapter : s.step .R1000CloseAdapter = some t ↔
    s.handler = .idle ∧ { s with CmdTxEnb := false } = t := by
  rw [step, Option.ite_none_right_eq_some, Option.some.injEq]

theorem step_R1000OpenAdapter : s.step .R1000OpenAdapter = some t ↔
    (s.handler = .idle ∧ s.CmdTxEnb = false) ∧
      { s with stalled := false }.R1000HwStart = t := by
  rw [step, Option.ite_none_right_eq_some, Option.some.injEq]

theorem step_transmit : s.step .transmit = some t ↔
    s.CmdTxEnb ∧ ∃ frame, s.ring.frame s.position = some frame ∧ s.transmit frame = t := by
  rw [step, Option.ite_none_right_eq_some, Option.map_eq_some_iff]

/-- A handler's step leaves the descriptors, the chip and what it has sent alone. -/
structure Steady (s t : TxSystem) : Prop where
  TxDescArray : t.ring.TxDescArray = s.ring.TxDescArray
  Tx_dbuff : t.ring.Tx_dbuff = s.ring.Tx_dbuff
  cur_tx : t.ring.cur_tx = s.ring.cur_tx
  position : t.position = s.position
  sent : t.sent = s.sent
  results : t.results = s.results

theorem steady_poll (s : TxSystem) (other : UInt16) (boguscnt : ℕ) :
    s.Steady (s.poll other boguscnt) := by
  cases boguscnt with
  | zero => exact ⟨rfl, rfl, rfl, rfl, rfl, rfl⟩
  | succ boguscnt =>
    simp only [poll]
    split_ifs
    all_goals exact ⟨rfl, rfl, rfl, rfl, rfl, rfl⟩

theorem steady_turn (s : TxSystem) (boguscnt : ℕ) (l : TxLoop) : s.Steady (s.turn boguscnt l) := by
  obtain ⟨hdesc, hbuff, hcur, -⟩ := s.ring.turn_eq l
  by_cases hon : l.goesOn
  · rw [turn, if_pos hon]
    exact ⟨hdesc, hbuff, hcur, rfl, rfl, rfl⟩
  · rw [turn, if_neg hon]
    split_ifs
    all_goals exact ⟨rfl, rfl, rfl, rfl, rfl, rfl⟩

/-- The system is a pipe as far as packets and frames go. -/
structure Refines (s : TxSystem) (p : TxPipe) : Prop where
  inStep : s.ring.InStep s.position p.waiting
  sent : p.sent = s.sent
  results : p.results = s.results

/-- The chip goes on from the first descriptor after a reset, so it has to be there already
unless the ring is cleared. -/
def ResetInPlace (s : TxSystem) : TxAction → Prop
  | .R1000OpenAdapter => s.position = 0
  | _ => True

instance (s : TxSystem) (a : TxAction) : Decidable (s.ResetInPlace a) := by
  cases a <;> unfold ResetInPlace <;> infer_instance

theorem Refines.of_steady {p : TxPipe} (h : s.Refines p) (hst : s.Steady t) : t.Refines p where
  inStep := by
    rw [hst.position]
    exact h.inStep.congr hst.TxDescArray hst.Tx_dbuff hst.cur_tx
  sent := h.sent.trans hst.sent.symm
  results := h.results.trans hst.results.symm

theorem Refines.output {p : TxPipe} (h : s.Refines p) (m : Mbuf) :
    (s.output m).Refines (p.output m) := by
  simp only [output_eq, TxPipe.output, h.inStep.frame_entry]
  split_ifs with hfree hlen
  · refine ⟨h.inStep.accept hfree hlen, h.sent, ?_⟩
    rw [accepted, h.results]
  · refine ⟨h.inStep, h.sent, ?_⟩
    rw [dropped, h.results]
  · refine ⟨h.inStep, h.sent, ?_⟩
    rw [stall, h.results]

/-- Each step of the system is a step of the pipe. -/
theorem Refines.step {p : TxPipe} (h : s.Refines p) {a : TxAction} (hok : s.ResetInPlace a)
    (hst : s.step a = some t) : ∃ p', p.step a = some p' ∧ t.Refines p' := by
  cases a with
  | outputPacket m =>
    obtain ⟨-, rfl⟩ := step_outputPacket.mp hst
    exact ⟨p.output m, rfl, h.output m⟩
  | R1000Interrupt =>
    obtain ⟨-, rfl⟩ := step_R1000Interrupt.mp hst
    exact ⟨p, rfl, h.of_steady ⟨rfl, rfl, rfl, rfl, rfl, rfl⟩⟩
  | poll other =>
    obtain ⟨boguscnt, -, rfl⟩ := step_poll.mp hst
    exact ⟨p, rfl, h.of_steady (s.steady_poll other boguscnt)⟩
  | turn =>
    obtain ⟨boguscnt, l, -, rfl⟩ := step_turn.mp hst
    exact ⟨p, rfl, h.of_steady (s.steady_turn boguscnt l)⟩
  | R1000TxTimeout =>
    obtain ⟨-, rfl⟩ := step_R1000TxTimeout.mp hst
    refine ⟨{ p with waiting := [] }, rfl, ?_, h.sent, h.results⟩
    exact .nothing_waits (fun i hi => s.ring.frame_R1000TxClear hi) rfl
  | R1000CloseAdapter =>
    obtain ⟨-, rfl⟩ := step_R1000CloseAdapter.mp hst
    exact ⟨p, rfl, h.of_steady ⟨rfl, rfl, rfl, rfl, rfl, rfl⟩⟩
  | R1000OpenAdapter =>
    obtain ⟨-, rfl⟩ := step_R1000OpenAdapter.mp hst
    have hpos : s.position = 0 := hok
    exact ⟨p, rfl, h.of_steady ⟨rfl, rfl, rfl, hpos.symm, rfl, rfl⟩⟩
  | transmit =>
    obtain ⟨-, frame, hframe, rfl⟩ := step_transmit.mp hst
    have hin := h.inStep
    cases hw : p.waiting with
    | nil =>
      rw [hw] at hin
      have hidle := hin.queue.idle_read (by decide)
      rw [Nat.mod_eq_of_lt hin.position_lt, hframe] at hidle
      exact absurd hidle (Option.some_ne_none frame)
    | cons first waiting =>
      rw [hw] at hin
      have hread := hin.queue.slot_read
      rw [Nat.mod_eq_of_lt hin.position_lt, hframe, Option.some.injEq] at hread
      subst hread
      refine ⟨{ p with waiting, sent := p.sent ++ [frame] }, ?_, hin.release, ?_, h.results⟩
      · rw [TxPipe.step, hw]
      · rw [h.sent]
        rfl

theorem refines_start (memory : ℕ → UInt32) (buffers : ℕ → List UInt8) :
    (start memory buffers).Refines ⟨[], [], []⟩ := by
  refine ⟨.nothing_waits (fun i hi => ?_) rfl, rfl, rfl⟩
  rw [TxRing.frame_eq_none_iff]
  simp only [start, TxRing.start, if_pos hi, UInt32.zero_and]

/-- What goes out on the cable, and what `outputPacket` answers, is what a queue of
`NUM_TX_DESC` frames would do, whenever the chip takes its frames and the handler its turns,
if the chip is reset only where it is at the first descriptor or the ring is cleared. -/
theorem run_refines_pipe (memory : ℕ → UInt32) (buffers : ℕ → List UInt8) (as : List TxAction)
    (hok : Transition.Guarded step ResetInPlace (start memory buffers) as)
    (hrun : Transition.run step (start memory buffers) as = some s) :
    ∃ p, Transition.run TxPipe.step ⟨[], [], []⟩ as = some p ∧ p.sent = s.sent ∧
      p.results = s.results ∧
      SlotRing.Holds NUM_TX_DESC (· = none) s.ring.frame s.position s.ring.cur_tx.toNat
        p.waiting := by
  have hstep : ∀ (s : TxSystem) a t (p : TxPipe), s.Refines p → s.ResetInPlace a →
      s.step a = some t → ∃ p', p.step a = some p' ∧ t.Refines p' :=
    fun _ _ _ _ h hok hst => h.step hok hst
  obtain ⟨p, hp, href⟩ :=
    Transition.guarded_run_simulation hstep (refines_start memory buffers) hok hrun
  exact ⟨p, hp, href.sent, href.results, href.inStep.queue⟩

/-- A packet in two buffers is sent while the handler runs that another interrupt called. -/
def onePacket : List TxAction :=
  [.R1000OpenAdapter, .outputPacket ⟨0, [1, 2], [[3]], 3, rfl⟩, .R1000Interrupt, .poll TxErr,
    .transmit, .turn, .turn, .poll 0, .turn, .poll 0, .R1000CloseAdapter]

theorem onePacket_refines_pipe :
    ∃ s, Transition.run step (start (fun _ => 0) fun _ => []) onePacket = some s ∧
      ∃ p, Transition.run TxPipe.step ⟨[], [], []⟩ onePacket = some p ∧ p.sent = s.sent ∧
        p.results = s.results ∧
        SlotRing.Holds NUM_TX_DESC (· = none) s.ring.frame s.position s.ring.cur_tx.toNat
          p.waiting :=
  ⟨_, rfl, run_refines_pipe (fun _ => 0) (fun _ => []) onePacket (by decide) rfl⟩

end TxSystem

end Ethernet
