import NetbookInstaller.Crc.Remainder
import Mathlib.Data.Nat.Bitwise

/-! The receive filter of `RealtekR1000`: the checksum that places an address in the chip's
table of 64 bits, and which frames the chip lets through after the calls that set the table
and the modes. -/
namespace Ethernet

open Polynomial

def ethernet_polynomial : BitVec 32 := 0x04c11db7#32

/-- `bit` turns of the inner loop of `ether_crc`. -/
def crcOctet (crc : BitVec 32) (current_octet : UInt8) : ℕ → BitVec 32
  | 0 => crc
  | bit + 1 =>
    crcOctet ((crc <<< 1) ^^^
      (if crc.msb ^^ (current_octet &&& 1 != 0) then ethernet_polynomial else 0#32))
      (current_octet >>> 1) bit

def ether_crc (data : List UInt8) : BitVec 32 :=
  data.foldl (fun crc current_octet => crcOctet crc current_octet 8) (-1#32)

/-- The bits of an octet in the order in which they are sent. -/
def octetBits (octet : UInt8) : ℕ → List Bool
  | 0 => []
  | bit + 1 => (octet &&& 1 != 0) :: octetBits (octet >>> 1) bit

def wireBits (data : List UInt8) : List Bool := data.flatMap fun octet => octetBits octet 8

theorem wireBits_cons (octet : UInt8) (data : List UInt8) :
    wireBits (octet :: data) = octetBits octet 8 ++ wireBits data := List.flatMap_cons

theorem crcOctet_eq_feed (bit : ℕ) : ∀ (crc : BitVec 32) (octet : UInt8),
    crcOctet crc octet bit = Crc.feed ethernet_polynomial crc (octetBits octet bit) := by
  induction bit with
  | zero => exact fun _ _ => rfl
  | succ bit ih =>
    intro crc octet
    rw [crcOctet, ih]
    rfl

theorem ether_crc_eq_feed (data : List UInt8) :
    ether_crc data = Crc.feed ethernet_polynomial (-1#32) (wireBits data) := by
  have hfold : ∀ (data : List UInt8) (crc : BitVec 32),
      data.foldl (fun crc current_octet => crcOctet crc current_octet 8) crc =
        Crc.feed ethernet_polynomial crc (wireBits data) := by
    intro data
    induction data with
    | nil => exact fun _ => rfl
    | cons octet data ih =>
      intro crc
      rw [List.foldl_cons, ih, crcOctet_eq_feed, wireBits_cons, Crc.feed_append]
  exact hfold data (-1#32)

theorem length_octetBits (bit : ℕ) : ∀ octet : UInt8, (octetBits octet bit).length = bit := by
  induction bit with
  | zero => exact fun _ => rfl
  | succ bit ih =>
    intro octet
    rw [octetBits, List.length_cons, ih]

theorem length_wireBits (data : List UInt8) : (wireBits data).length = 8 * data.length := by
  induction data with
  | nil => rfl
  | cons octet data ih =>
    rw [wireBits_cons, List.length_append, length_octetBits, ih, List.length_cons]
    omega

/-- The remainder that the standard defines: of the message, moved up by the width of the
checksum, with ones added to its first bits. -/
noncomputable def frameCheck (data : List UInt8) : (ZMod 2)[X] :=
  (Crc.ofBits (-1#32) * X ^ (8 * data.length) + Crc.message (wireBits data) * X ^ 32) %ₘ
    Crc.generator ethernet_polynomial

/-- The loops of `ether_crc` compute the remainder, for data of every length. -/
theorem ether_crc_eq_frameCheck (data : List UInt8) :
    Crc.ofBits (ether_crc data) = frameCheck data := by
  rw [ether_crc_eq_feed, Crc.ofBits_feed, length_wireBits, frameCheck]

/-- Six octets. -/
abbrev EthernetAddress := { bytes : List UInt8 // bytes.length = 6 }

/-- The place of an address in the table that `setMulticastList` fills. -/
def multicastBit (addr : EthernetAddress) : ℕ := (ether_crc addr.1 >>> 26).toNat

def multicast_filter_limit : ℕ := 32

/-- The two words of a table. -/
abbrev Table := BitVec 32 × BitVec 32

def Table.mark (filter : Table) (bit : ℕ) : Table :=
  if bit < 32 then (filter.1 ||| (1#32 <<< bit), filter.2)
  else (filter.1, filter.2 ||| (1#32 <<< (bit - 32)))

/-- A bit of the table. -/
def Table.bit (filter : Table) (bit : ℕ) : Bool :=
  if bit < 32 then filter.1.getLsbD bit else filter.2.getLsbD (bit - 32)

def Table.ones : Table := (0xffffffff#32, 0xffffffff#32)

/-- The two words that `setMulticastList` computes; `stack` is what its array holds before,
which it does not clear. -/
def mc_filter (stack : Table) (addrs : List EthernetAddress) : Table :=
  if multicast_filter_limit < addrs.length then .ones
  else addrs.foldl (fun filter addr => filter.mark (multicastBit addr)) stack

def AcceptAllPhys : UInt32 := 0x01

def AcceptMyPhys : UInt32 := 0x02

def AcceptMulticast : UInt32 := 0x04

def AcceptBroadcast : UInt32 := 0x08

/-- `(RX_FIFO_THRESH << RxCfgFIFOShift) | (RX_DMA_BURST << RxCfgDMAShift) | 0x0000000E`. -/
def r1000_rx_config : UInt32 := ((7 : UInt32) <<< 13) ||| ((7 : UInt32) <<< 8) ||| 0x0000000E

/-- The same for every chip of `rtl_chip_info`. -/
def RxConfigMask : UInt32 := 0xff7e1880

/-- The chip's filter, and what the driver knows about it. -/
structure RxFilter where
  mcfg : ℕ
  mc_filter0 : BitVec 32
  mc_filter1 : BitVec 32
  RxConfig : UInt32
  MAR : Table
  deriving DecidableEq, Repr

inductive FilterCall where
  | setMulticastList (stack : Table) (addrs : List EthernetAddress)
  | setPromiscuousMode (enabled : Bool)
  | setMulticastMode (enabled : Bool)
  deriving DecidableEq

namespace RxFilter

/-- `MCFG_METHOD_11` to `MCFG_METHOD_15`. -/
def acceptsEvery (s : RxFilter) : Bool := s.mcfg ∈ [0x0B, 0x0C, 0x0D, 0x0E, 0x0F]

/-- The chips of some kinds are made to accept everything. -/
def writeMAR (s : RxFilter) (filter : Table) : RxFilter :=
  { s with MAR := if s.acceptsEvery then .ones else filter }

def setPromiscuousMode (s : RxFilter) (enabled : Bool) : RxFilter :=
  if enabled then
    { s with
      RxConfig := r1000_rx_config ||| AcceptBroadcast ||| AcceptMulticast ||| AcceptMyPhys |||
        AcceptAllPhys ||| (s.RxConfig &&& RxConfigMask) }.writeMAR .ones
  else
    { s with
      RxConfig := r1000_rx_config ||| AcceptBroadcast ||| AcceptMulticast ||| AcceptMyPhys |||
        (s.RxConfig &&& RxConfigMask) }.writeMAR (s.mc_filter0, s.mc_filter1)

def setMulticastMode (s : RxFilter) (enabled : Bool) : RxFilter :=
  if enabled then
    { s with
      RxConfig := r1000_rx_config ||| AcceptBroadcast ||| AcceptMulticast ||| AcceptMyPhys |||
        (s.RxConfig &&& RxConfigMask) }
  else
    { s with
      RxConfig := (r1000_rx_config ||| (s.RxConfig &&& RxConfigMask)) &&& ~~~AcceptMulticast }

def call (s : RxFilter) : FilterCall → RxFilter
  | .setMulticastList stack addrs => s.writeMAR (mc_filter stack addrs)
  | .setPromiscuousMode enabled => s.setPromiscuousMode enabled
  | .setMulticastMode enabled => s.setMulticastMode enabled

/-- The chip accepts a frame for a group if it listens to groups and the bit is set that the
upper six coefficients of the remainder give. -/
def Accepts (s : RxFilter) (addr : EthernetAddress) : Prop :=
  s.RxConfig &&& AcceptMulticast ≠ 0 ∧ ∃ bit < 64, s.MAR.bit bit ∧
    ∀ i < 6, Crc.coefficient (bit.testBit i) = (frameCheck addr.1).coeff (26 + i)

end RxFilter

/-- What the calls made so far ask for: the groups that have been joined, and whether the table
still covers them, the chip listens to groups, and it listens to everything. -/
structure Asked where
  joined : List EthernetAddress
  covered : Bool
  listens : Bool
  promiscuous : Bool
  deriving DecidableEq

def Asked.next (r : Asked) : FilterCall → Asked
  | .setMulticastList _ addrs => { r with joined := addrs, covered := true }
  | .setPromiscuousMode enabled =>
    { r with covered := enabled, listens := true, promiscuous := enabled }
  | .setMulticastMode enabled => { r with listens := enabled, promiscuous := false }

theorem multicastBit_lt (addr : EthernetAddress) : multicastBit addr < 64 := by
  have hlt := (ether_crc addr.1).isLt
  rw [multicastBit, BitVec.toNat_ushiftRight, Nat.shiftRight_eq_div_pow]
  omega

theorem testBit_multicastBit (addr : EthernetAddress) (i : ℕ) :
    (multicastBit addr).testBit i = (ether_crc addr.1).getLsbD (26 + i) := by
  rw [multicastBit, BitVec.testBit_toNat, BitVec.getLsbD_ushiftRight]

theorem coefficient_injective : Function.Injective Crc.coefficient := by
  intro a b h
  cases a <;> cases b <;> first | rfl | exact absurd h (by decide)

/-- The driver finds the place in the table that the chip looks at. -/
theorem eq_multicastBit_iff {addr : EthernetAddress} {bit : ℕ} (hbit : bit < 64) :
    (∀ i < 6, Crc.coefficient (bit.testBit i) = (frameCheck addr.1).coeff (26 + i)) ↔
      bit = multicastBit addr := by
  simp only [← ether_crc_eq_frameCheck, Crc.coeff_ofBits, ← testBit_multicastBit,
    coefficient_injective.eq_iff]
  constructor
  · intro h
    refine Nat.eq_of_testBit_eq fun i => ?_
    by_cases hi : i < 6
    · exact h i hi
    · have hpow : 2 ^ 6 ≤ 2 ^ i := Nat.pow_le_pow_right (by decide) (not_lt.mp hi)
      rw [Nat.testBit_lt_two_pow (hbit.trans_le hpow),
        Nat.testBit_lt_two_pow ((multicastBit_lt addr).trans_le hpow)]
  · rintro rfl i -
    rfl

namespace Table

theorem bit_mark (filter : Table) {place bit : ℕ} (hplace : place < 64) (hbit : bit < 64) :
    (filter.mark place).bit bit = (filter.bit bit || decide (place = bit)) := by
  have hword : ∀ (word : BitVec 32) {i j : ℕ}, i < 32 →
      (word ||| 1#32 <<< i).getLsbD j = (word.getLsbD j || decide (i = j)) := by
    intro word i j hi
    rw [BitVec.getLsbD_or, ← BitVec.twoPow_eq, BitVec.getLsbD_twoPow, decide_eq_true hi,
      Bool.true_and]
  unfold mark Table.bit
  by_cases hp : place < 32
  · rw [if_pos hp]
    by_cases hb : bit < 32
    · rw [if_pos hb, if_pos hb, hword _ hp]
    · rw [if_neg hb, if_neg hb, decide_eq_false (by omega), Bool.or_false]
  · rw [if_neg hp]
    by_cases hb : bit < 32
    · rw [if_pos hb, if_pos hb, decide_eq_false (by omega), Bool.or_false]
    · rw [if_neg hb, if_neg hb, hword _ (by omega)]
      congr 1
      exact decide_eq_decide.mpr (by omega)

theorem bit_ones {bit : ℕ} (h : bit < 64) : ones.bit bit = true := by
  have hword : ∀ {i : ℕ}, i < 32 → (0xffffffff#32).getLsbD i = true := by
    intro i hi
    rw [show 0xffffffff#32 = BitVec.allOnes 32 from rfl, BitVec.getLsbD_allOnes]
    exact decide_eq_true hi
  unfold ones Table.bit
  split_ifs with hlow
  · exact hword hlow
  · exact hword (by omega)

theorem bit_zero (bit : ℕ) : Table.bit (0#32, 0#32) bit = false := by
  unfold Table.bit
  split_ifs
  · exact BitVec.getLsbD_zero
  · exact BitVec.getLsbD_zero

end Table

/-- The table has the bit of every address in the list, whatever it held before. -/
theorem bit_mc_filter (stack : Table) {addrs : List EthernetAddress} {addr : EthernetAddress}
    (h : addr ∈ addrs) : (mc_filter stack addrs).bit (multicastBit addr) = true := by
  have hfold : ∀ (addrs : List EthernetAddress) (filter : Table),
      (addrs.foldl (fun filter addr => filter.mark (multicastBit addr)) filter).bit
          (multicastBit addr) =
        (filter.bit (multicastBit addr) ||
          addrs.any fun a => decide (multicastBit a = multicastBit addr)) := by
    intro addrs
    induction addrs with
    | nil => exact fun filter => (Bool.or_false _).symm
    | cons a addrs ih =>
      intro filter
      rw [List.foldl_cons, ih, Table.bit_mark _ (multicastBit_lt a) (multicastBit_lt addr),
        List.any_cons, Bool.or_assoc]
  unfold mc_filter
  split_ifs
  · exact Table.bit_ones (multicastBit_lt addr)
  · rw [hfold, Bool.or_eq_true]
    exact .inr (List.any_eq_true.mpr ⟨addr, h, decide_eq_true rfl⟩)

namespace RxFilter

theorem accepts_iff (s : RxFilter) (addr : EthernetAddress) :
    s.Accepts addr ↔
      s.RxConfig &&& AcceptMulticast ≠ 0 ∧ s.MAR.bit (multicastBit addr) = true := by
  refine and_congr_right fun _ => ?_
  constructor
  · rintro ⟨bit, hlt, hbit, hplace⟩
    rwa [← (eq_multicastBit_iff hlt).mp hplace]
  · intro h
    exact ⟨multicastBit addr, multicastBit_lt addr, h,
      (eq_multicastBit_iff (multicastBit_lt addr)).mpr rfl⟩

/-- A mode bit that the mask leaves out is the one that is written. -/
theorem or_masked_and {config old bit : UInt32} (h : RxConfigMask &&& bit = 0) :
    (config ||| (old &&& RxConfigMask)) &&& bit = config &&& bit := by
  have hsplit : (config ||| (old &&& RxConfigMask)) &&& bit =
      (config &&& bit) ||| ((old &&& RxConfigMask) &&& bit) := by
    rw [← UInt32.toBitVec_inj]
    exact BitVec.and_or_distrib_right
  rw [hsplit, UInt32.and_assoc, h, UInt32.and_zero, UInt32.or_zero]

/-- What the chip has been told is what was asked for, except that the driver forgets the table
when everything is to be accepted. -/
structure Serves (s : RxFilter) (r : Asked) : Prop where
  mc_filter : s.mc_filter0 = 0#32 ∧ s.mc_filter1 = 0#32
  listens : s.RxConfig &&& AcceptMulticast ≠ 0 ↔ r.listens = true
  promiscuous : s.RxConfig &&& AcceptAllPhys ≠ 0 ↔ r.promiscuous = true
  covered : r.covered = true ∨ s.acceptsEvery = true →
    ∀ addr ∈ r.joined, s.MAR.bit (multicastBit addr) = true
  forgotten : r.covered = false → s.acceptsEvery = false → s.MAR = (0#32, 0#32)

theorem Serves.writeMAR {s : RxFilter} {r : Asked} (h : s.Serves r) (filter : Table)
    (joined : List EthernetAddress) (covered : Bool)
    (hcovered : covered = true → ∀ addr ∈ joined, filter.bit (multicastBit addr) = true)
    (hforgotten : covered = false → filter = (0#32, 0#32)) :
    (s.writeMAR filter).Serves { r with joined, covered } := by
  refine ⟨h.mc_filter, h.listens, h.promiscuous, fun hor addr haddr => ?_, fun hno hevery => ?_⟩
  · by_cases hevery : s.acceptsEvery = true
    · rw [RxFilter.writeMAR, if_pos hevery]
      exact Table.bit_ones (multicastBit_lt addr)
    · rw [RxFilter.writeMAR, if_neg hevery]
      exact hcovered (hor.resolve_right hevery) addr haddr
  · have hevery' : s.acceptsEvery = false := hevery
    rw [RxFilter.writeMAR, hevery', if_neg Bool.false_ne_true]
    exact hforgotten hno

theorem Serves.config {s : RxFilter} {r : Asked} (h : s.Serves r) (config : UInt32)
    (listens promiscuous : Bool) (hlistens : config &&& AcceptMulticast ≠ 0 ↔ listens = true)
    (hpromiscuous : config &&& AcceptAllPhys ≠ 0 ↔ promiscuous = true) :
    { s with RxConfig := config }.Serves { r with listens, promiscuous } :=
  ⟨h.mc_filter, hlistens, hpromiscuous, h.covered, h.forgotten⟩

/-- Every call does to the chip what it asks for. -/
theorem Serves.call {s : RxFilter} {r : Asked} (h : s.Serves r) (c : FilterCall) :
    (s.call c).Serves (r.next c) := by
  cases c with
  | setMulticastList stack addrs =>
    exact h.writeMAR (Ethernet.mc_filter stack addrs) addrs true
      (fun _ addr haddr => bit_mc_filter stack haddr) fun hno => Bool.noConfusion hno
  | setPromiscuousMode enabled =>
    cases enabled with
    | true =>
      refine (h.config _ true true ?_ ?_).writeMAR .ones r.joined true
        (fun _ addr _ => Table.bit_ones (multicastBit_lt addr)) fun hno => Bool.noConfusion hno
      all_goals
        rw [or_masked_and (by decide)]
        decide
    | false =>
      refine (h.config _ true false ?_ ?_).writeMAR (s.mc_filter0, s.mc_filter1) r.joined false
        (fun hno => Bool.noConfusion hno) fun _ => by rw [h.mc_filter.1, h.mc_filter.2]
      all_goals
        rw [or_masked_and (by decide)]
        decide
  | setMulticastMode enabled =>
    cases enabled with
    | true =>
      refine h.config _ true false ?_ ?_
      all_goals
        rw [or_masked_and (by decide)]
        decide
    | false =>
      refine h.config _ false false ?_ ?_
      · rw [UInt32.and_assoc, UInt32.not_and_self, UInt32.and_zero]
        decide
      · rw [UInt32.and_assoc, show ~~~AcceptMulticast &&& AcceptAllPhys = AcceptAllPhys by decide,
          or_masked_and (by decide)]
        decide

theorem Serves.calls {s : RxFilter} {r : Asked} (cs : List FilterCall) (h : s.Serves r) :
    (cs.foldl RxFilter.call s).Serves (cs.foldl Asked.next r) := by
  induction cs generalizing s r with
  | nil => exact h
  | cons c cs ih => exact ih (h.call c)

/-- The driver does not write the words that it restores when everything is no longer to be
accepted, so they stay as they were created. After any calls the chip accepts frames for the
groups that have been joined exactly when the last mode call turned groups on and the table has
not been overwritten with these words since the groups were joined, or the chip is of a kind
that accepts every group; and it accepts everything exactly when the last mode call asked for
that. -/
theorem accepts_joined_iff (mcfg : ℕ) (RxConfig : UInt32) (MAR : Table) (cs : List FilterCall) :
    let s : RxFilter := cs.foldl call ⟨mcfg, 0, 0, RxConfig, MAR⟩
    let r := cs.foldl Asked.next
      ⟨[], true, RxConfig &&& AcceptMulticast ≠ 0, RxConfig &&& AcceptAllPhys ≠ 0⟩
    (r.joined ≠ [] → ((∀ addr ∈ r.joined, s.Accepts addr) ↔
      r.listens = true ∧ (r.covered = true ∨ s.acceptsEvery = true))) ∧
    (s.RxConfig &&& AcceptAllPhys ≠ 0 ↔ r.promiscuous = true) := by
  intro s r
  have hserves : s.Serves r := by
    refine Serves.calls cs ⟨⟨rfl, rfl⟩, decide_eq_true_iff.symm, decide_eq_true_iff.symm, ?_, ?_⟩
    · exact fun _ addr haddr => absurd haddr List.not_mem_nil
    · exact fun hno => Bool.noConfusion hno
  refine ⟨fun hjoined => ?_, hserves.promiscuous⟩
  simp only [accepts_iff]
  constructor
  · intro hall
    obtain ⟨addr, haddr⟩ := List.exists_mem_of_ne_nil _ hjoined
    refine ⟨hserves.listens.mp (hall addr haddr).1, ?_⟩
    by_contra hnot
    rw [not_or, Bool.not_eq_true, Bool.not_eq_true] at hnot
    have hbit := (hall addr haddr).2
    rw [hserves.forgotten hnot.1 hnot.2, Table.bit_zero] at hbit
    exact Bool.noConfusion hbit
  · rintro ⟨hlistens, hcovered⟩ addr haddr
    exact ⟨hserves.listens.mpr hlistens, hserves.covered hcovered addr haddr⟩

/-- A group is joined, and everything is accepted for a while. -/
def acceptAllForAWhile : List FilterCall :=
  [.setMulticastList (0, 0) [⟨[0x01, 0x00, 0x5e, 0x00, 0x00, 0x01], rfl⟩],
    .setPromiscuousMode true, .setPromiscuousMode false]

theorem not_accepts_after_a_while :
    ¬∀ addr ∈ [(⟨[0x01, 0x00, 0x5e, 0x00, 0x00, 0x01], rfl⟩ : EthernetAddress)],
      (acceptAllForAWhile.foldl call ⟨1, 0, 0, r1000_rx_config, (0, 0)⟩).Accepts addr := by
  have hiff := (accepts_joined_iff 1 r1000_rx_config (0, 0) acceptAllForAWhile).1 (by decide)
  exact fun hall => absurd (hiff.mp hall) (by decide)

end RxFilter

end Ethernet
