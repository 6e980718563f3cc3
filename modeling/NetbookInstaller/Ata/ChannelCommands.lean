import NetbookInstaller.Transition.Loops
import Mathlib.Data.UInt
import Mathlib.Data.Nat.Bitwise

/-! The table of descriptors by which the disk controller transfers a buffer: how the driver
fills it from the segments of the buffer, and what a bus master does with it. -/
namespace Ata

open Transition

def kATAMaxDMADesc : ℕ := 512

inductive PRDFlags
  | kContinue_PRD
  | kLast_PRD
  deriving DecidableEq

/-- A physical region descriptor. -/
structure PRD where
  bufferPtr : UInt32
  byteCount : UInt16
  flags : PRDFlags

/-- The descriptors that a command has written, over those of the commands before it. -/
structure PRDTable where
  written : List PRD
  old : ℕ → PRD

def PRDTable.index (table : PRDTable) : ℕ := table.written.length

def PRDTable.get (table : PRDTable) (i : ℕ) : PRD := table.written.getD i (table.old i)

def PRDTable.setPRD (table : PRDTable) (prd : PRD) : Option PRDTable :=
  if table.index < kATAMaxDMADesc then some { table with written := table.written ++ [prd] }
  else none

/-- A run of physical memory, as `gen32IOVMSegments` gives it. -/
structure Segment32 where
  fIOVMAddr : UInt32
  fLength : UInt32
  inMemory : fIOVMAddr.toNat + fLength.toNat ≤ 2 ^ 32

/-- What `createChannelCommands` ends with; `exhausted` stands for its -1. -/
inductive IOReturn
  | kATANoErr
  | kATADeviceError
  | kIOReturnNotAligned
  | exhausted
  | panicked
  deriving DecidableEq

/-- `createChannelCommands` at the head of its loops, or when it returns. -/
inductive ChannelCommands
  | segments (table : PRDTable) (bytesRemaining : UInt32) (rest : List Segment32)
  | splitting (table : PRDTable)
      (xferDataPtr xferCount ptr2EndData next64KBlock bytesRemaining : UInt32)
      (rest : List Segment32)
  | returned (result : IOReturn) (table : PRDTable)

namespace ChannelCommands

/-- Another segment is looked at. -/
def openSegment (table : PRDTable) (bytesRemaining : UInt32) (segment : Segment32)
    (rest : List Segment32) : ChannelCommands :=
  if segment.fLength = 0 then .returned .panicked table
  else if segment.fIOVMAddr &&& 1 ≠ 0 then .returned .kIOReturnNotAligned table
  else
    let xferCount := if segment.fLength > bytesRemaining then bytesRemaining else segment.fLength
    .splitting table segment.fIOVMAddr xferCount (segment.fIOVMAddr + xferCount)
      ((segment.fIOVMAddr &&& 0xffff0000) + 0x10000) (bytesRemaining - xferCount) rest

/-- A turn of the inner loop. A segment behind the end of the next block is split there. -/
def split (table : PRDTable)
    (xferDataPtr xferCount ptr2EndData next64KBlock bytesRemaining : UInt32)
    (rest : List Segment32) : ChannelCommands :=
  if ptr2EndData > next64KBlock then
    let count2Next64KBlock := next64KBlock - xferDataPtr
    match table.setPRD ⟨xferDataPtr, count2Next64KBlock.toUInt16, .kContinue_PRD⟩ with
    | some table' =>
      .splitting table' next64KBlock (xferCount - count2Next64KBlock) ptr2EndData
        (next64KBlock + 0x10000) bytesRemaining rest
    | none => .returned .exhausted table
  else
    match table.setPRD ⟨xferDataPtr, xferCount.toUInt16,
        if bytesRemaining = 0 then .kLast_PRD else .kContinue_PRD⟩ with
    | some table' =>
      .splitting table' xferDataPtr 0 ptr2EndData next64KBlock bytesRemaining rest
    | none => .returned .exhausted table

def step : ChannelCommands → Option ChannelCommands
  | .segments table bytesRemaining rest =>
    if bytesRemaining = 0 then
      some (.returned (if table.index = 0 then .kATADeviceError else .kATANoErr) table)
    else
      match rest with
      -- `gen32IOVMSegments` fails behind the end of the buffer, and the driver panics
      | [] => some (.returned .panicked table)
      | segment :: rest => some (openSegment table bytesRemaining segment rest)
  | .splitting table xferDataPtr xferCount ptr2EndData next64KBlock bytesRemaining rest =>
    if 0 < xferCount then
      some (split table xferDataPtr xferCount ptr2EndData next64KBlock bytesRemaining rest)
    else some (.segments table bytesRemaining rest)
  | .returned _ _ => none

/-- The descriptors of the commands before this one are still in the table. -/
def start (old : ℕ → PRD) (byteCount : UInt32) (rest : List Segment32) : ChannelCommands :=
  .segments ⟨[], old⟩ byteCount rest

end ChannelCommands

/-- The addresses that a bus master visits for a descriptor. A count of zero is one of 64K, and
the low half of the address wraps around. -/
def PRD.addresses (prd : PRD) : List ℕ :=
  (List.range (if prd.byteCount = 0 then 2 ^ 16 else prd.byteCount.toNat)).map fun i =>
    prd.bufferPtr.toNat / 2 ^ 16 * 2 ^ 16 + (prd.bufferPtr.toNat + i) % 2 ^ 16

/-- The bus master goes on to the next descriptor until one is marked as the last. -/
def PRDTable.transferredFrom (table : PRDTable) : ℕ → ℕ → List ℕ
  | 0, _ => []
  | room + 1, i =>
    (table.get i).addresses ++
      if (table.get i).flags = .kLast_PRD then [] else table.transferredFrom room (i + 1)

def PRDTable.transferred (table : PRDTable) : List ℕ := table.transferredFrom kATAMaxDMADesc 0

/-- The runs of memory that hold so many bytes of the buffer. -/
def bufferRuns : ℕ → List Segment32 → List (ℕ × ℕ)
  | 0, _ => []
  | _ + 1, [] => []
  | bytes + 1, segment :: rest =>
    (segment.fIOVMAddr.toNat, min segment.fLength.toNat (bytes + 1)) ::
      bufferRuns (bytes + 1 - segment.fLength.toNat) rest

def runAddresses (run : ℕ × ℕ) : List ℕ := List.range' run.1 run.2

/-- The addresses of the buffer, in order. -/
def bufferAddresses (bytes : ℕ) (segments : List Segment32) : List ℕ :=
  (bufferRuns bytes segments).flatMap runAddresses

/-- The descriptors that are written for a run. One that ends with the memory is taken for one that
ends at address zero, and is not split. -/
def descriptors (run : ℕ × ℕ) : ℕ :=
  if run.1 + run.2 = 2 ^ 32 then 1 else (run.1 + run.2 - 1) / 2 ^ 16 - run.1 / 2 ^ 16 + 1

/-- The runs of the buffer fit into the rest of the table, and none is of a kind that is
rejected. -/
structure Fits (index bytes : ℕ) (segments : List Segment32) : Prop where
  enough : ((bufferRuns bytes segments).map Prod.snd).sum = bytes
  nonempty : ∀ run ∈ bufferRuns bytes segments, run.2 ≠ 0
  aligned : ∀ run ∈ bufferRuns bytes segments, run.1 % 2 = 0
  below : ∀ run ∈ bufferRuns bytes segments,
    run.1 + run.2 ≤ 2 ^ 32 - 2 ^ 16 ∨ run.1 + run.2 = 2 ^ 32
  room : index + ((bufferRuns bytes segments).map descriptors).sum ≤ kATAMaxDMADesc

/-- A run that ends with the memory lies in the last block. -/
def Whole (run : ℕ × ℕ) : Prop := run.1 + run.2 = 2 ^ 32 → 2 ^ 32 - 2 ^ 16 ≤ run.1

theorem bufferRuns_cons {bytes : ℕ} (h : bytes ≠ 0) (segment : Segment32) (rest : List Segment32) :
    bufferRuns bytes (segment :: rest) =
      (segment.fIOVMAddr.toNat, min segment.fLength.toNat bytes) ::
        bufferRuns (bytes - segment.fLength.toNat) rest := by
  obtain ⟨n, rfl⟩ := Nat.exists_eq_succ_of_ne_zero h
  rfl

theorem bufferRuns_zero (segments : List Segment32) : bufferRuns 0 segments = [] := by
  rw [bufferRuns]

theorem fits_zero {index : ℕ} (h : index ≤ kATAMaxDMADesc) (segments : List Segment32) :
    Fits index 0 segments := by
  have hnone := bufferRuns_zero segments
  have hall : ∀ P : ℕ × ℕ → Prop, ∀ run ∈ bufferRuns 0 segments, P run := by
    intro P run hrun
    rw [hnone] at hrun
    exact absurd hrun List.not_mem_nil
  exact ⟨by rw [hnone]; rfl, hall _, hall _, hall _, by rwa [hnone]⟩

theorem not_fits_nil {index bytes : ℕ} (h : bytes ≠ 0) : ¬Fits index bytes [] := by
  obtain ⟨n, rfl⟩ := Nat.exists_eq_succ_of_ne_zero h
  exact fun hfits => absurd hfits.enough.symm h

theorem fits_cons_iff {index bytes : ℕ} (h : bytes ≠ 0) (segment : Segment32)
    (rest : List Segment32) :
    let run := (segment.fIOVMAddr.toNat, min segment.fLength.toNat bytes)
    Fits index bytes (segment :: rest) ↔ segment.fLength.toNat ≠ 0 ∧ run.1 % 2 = 0 ∧
      (run.1 + run.2 ≤ 2 ^ 32 - 2 ^ 16 ∨ run.1 + run.2 = 2 ^ 32) ∧
      Fits (index + descriptors run) (bytes - segment.fLength.toNat) rest := by
  intro run
  have hcons := bufferRuns_cons h segment rest
  have hsum : ((bufferRuns (bytes - segment.fLength.toNat) rest).map Prod.snd).sum =
      bytes - segment.fLength.toNat ↔
      min segment.fLength.toNat bytes +
        ((bufferRuns (bytes - segment.fLength.toNat) rest).map Prod.snd).sum = bytes := by
    rcases Nat.le_total segment.fLength.toNat bytes with hle | hle
    · rw [Nat.min_eq_left hle]
      omega
    · rw [Nat.min_eq_right hle, Nat.sub_eq_zero_of_le hle, bufferRuns_zero]
      simp
  constructor
  · rintro ⟨henough, hnonempty, haligned, hbelow, hroom⟩
    rw [hcons] at henough hnonempty haligned hbelow hroom
    rw [List.forall_mem_cons] at hnonempty haligned hbelow
    rw [List.map_cons, List.sum_cons] at henough hroom
    have hlength : segment.fLength.toNat ≠ 0 := fun hzero =>
      hnonempty.1 (by rw [hzero, Nat.zero_min])
    exact ⟨hlength, haligned.1, hbelow.1, hsum.mpr henough, hnonempty.2, haligned.2, hbelow.2,
      by rwa [Nat.add_assoc]⟩
  · rintro ⟨hlength, haligned, hbelow, hrest⟩
    refine ⟨?_, ?_, ?_, ?_, ?_⟩ <;> rw [hcons]
    · rw [List.map_cons, List.sum_cons]
      exact hsum.mp hrest.enough
    · exact List.forall_mem_cons.mpr ⟨by omega, hrest.nonempty⟩
    · exact List.forall_mem_cons.mpr ⟨haligned, hrest.aligned⟩
    · exact List.forall_mem_cons.mpr ⟨hbelow, hrest.below⟩
    · rw [List.map_cons, List.sum_cons, ← Nat.add_assoc]
      exact hrest.room

/-- The addresses of the runs are visited, or too few where a run is not whole. -/
structure Visits (visited : List ℕ) (runs : List (ℕ × ℕ)) : Prop where
  whole : (∀ run ∈ runs, Whole run) → visited = runs.flatMap runAddresses
  short : ¬(∀ run ∈ runs, Whole run) → visited.length < (runs.flatMap runAddresses).length

theorem Visits.length_le {visited : List ℕ} {runs : List (ℕ × ℕ)} (h : Visits visited runs) :
    visited.length ≤ (runs.flatMap runAddresses).length := by
  by_cases hall : ∀ run ∈ runs, Whole run
  · rw [h.whole hall]
  · exact (h.short hall).le

theorem Visits.eq_iff {visited : List ℕ} {runs : List (ℕ × ℕ)} (h : Visits visited runs) :
    visited = runs.flatMap runAddresses ↔ ∀ run ∈ runs, Whole run := by
  refine ⟨fun heq => ?_, h.whole⟩
  by_contra hnot
  have hlt := h.short hnot
  rw [heq] at hlt
  exact lt_irrefl _ hlt

theorem visits_nil : Visits [] [] :=
  ⟨fun _ => rfl, fun h => absurd (fun _ hrun => absurd hrun List.not_mem_nil) h⟩

theorem Visits.cons {visited more : List ℕ} {run : ℕ × ℕ} {runs : List (ℕ × ℕ)}
    (h : Visits visited [run]) (hmore : Visits more runs) :
    Visits (visited ++ more) (run :: runs) := by
  have hle := h.length_le
  have hmorele := hmore.length_le
  have hone : ((run :: runs).flatMap runAddresses).length =
      ([run].flatMap runAddresses).length + (runs.flatMap runAddresses).length := by
    rw [List.flatMap_cons, List.flatMap_singleton, List.length_append]
  refine ⟨fun hall => ?_, fun hnot => ?_⟩
  · rw [List.forall_mem_cons] at hall
    rw [h.whole (List.forall_mem_singleton.mpr hall.1), hmore.whole hall.2, List.flatMap_singleton,
      List.flatMap_cons]
  · rw [List.length_append, hone]
    rw [List.forall_mem_cons, not_and_or] at hnot
    rcases hnot with hrun | hruns
    · have hlt := h.short fun hall => hrun (List.forall_mem_singleton.mp hall)
      omega
    · have hlt := hmore.short hruns
      omega

theorem visits_whole {run : ℕ × ℕ} (h : Whole run) : Visits (runAddresses run) [run] :=
  ⟨fun _ => (List.flatMap_singleton ..).symm,
    fun hnot => absurd (List.forall_mem_singleton.mpr h) hnot⟩

theorem visits_short {visited : List ℕ} {run : ℕ × ℕ} (h : ¬Whole run)
    (hlt : visited.length < run.2) : Visits visited [run] := by
  refine ⟨fun hall => absurd (List.forall_mem_singleton.mp hall) h, fun _ => ?_⟩
  rwa [List.flatMap_singleton, runAddresses, List.length_range']

theorem block_start (p : UInt32) : (p &&& 0xffff0000).toNat = p.toNat / 2 ^ 16 * 2 ^ 16 := by
  have hmask : (0xffff0000 : UInt32).toNat = (2 ^ 16 - 1) * 2 ^ 16 := rfl
  rw [UInt32.toNat_and, hmask]
  refine Nat.eq_of_testBit_eq fun i => ?_
  rw [Nat.testBit_and, Nat.testBit_mul_two_pow, Nat.testBit_mul_two_pow,
    Nat.testBit_two_pow_sub_one, Nat.testBit_div_two_pow]
  by_cases hi : 16 ≤ i
  · have hback : i - 16 + 16 = i := Nat.sub_add_cancel hi
    by_cases hlow : i < 32
    · simp [hi, hback, show i - 16 < 16 by omega]
    · have hlt : p.toNat < 2 ^ i :=
        lt_of_lt_of_le p.toNat_lt (Nat.pow_le_pow_right (by decide) (Nat.le_of_not_lt hlow))
      simp [Nat.testBit_lt_two_pow hlt, hback]
  · simp [hi]

theorem toNat_add_of_lt {a b : UInt32} (h : a.toNat + b.toNat < 2 ^ 32) :
    (a + b).toNat = a.toNat + b.toNat := by
  rw [UInt32.toNat_add, Nat.mod_eq_of_lt h]

/-- A run that goes on behind `next` is left from there on. -/
theorem split_at_next {ptr count next : UInt32}
    (hend : ptr.toNat + count.toNat ≤ 2 ^ 32 - 2 ^ 16)
    (hnext : next.toNat = (ptr.toNat / 2 ^ 16 + 1) * 2 ^ 16)
    (hgt : next.toNat < ptr.toNat + count.toNat) :
    (next - ptr).toNat = next.toNat - ptr.toNat ∧
      (count - (next - ptr)).toNat = count.toNat - (next.toNat - ptr.toNat) ∧
      next + (count - (next - ptr)) = ptr + count ∧
      (next + 0x10000).toNat = (next.toNat / 2 ^ 16 + 1) * 2 ^ 16 := by
  have hle : ptr ≤ next := UInt32.le_iff_toNat_le.mpr (by omega)
  have hgap : (next - ptr).toNat = next.toNat - ptr.toNat := UInt32.toNat_sub_of_le _ _ hle
  have hgaple : next - ptr ≤ count := UInt32.le_iff_toNat_le.mpr (by omega)
  have hleft : (count - (next - ptr)).toNat = count.toNat - (next.toNat - ptr.toNat) := by
    rw [UInt32.toNat_sub_of_le _ _ hgaple, hgap]
  have hblock : (0x10000 : UInt32).toNat = 2 ^ 16 := rfl
  refine ⟨hgap, hleft, ?_, ?_⟩
  · rw [← UInt32.toNat_inj, toNat_add_of_lt (by omega), toNat_add_of_lt (by omega), hleft]
    omega
  · rw [toNat_add_of_lt (by omega)]
    omega

theorem runAddresses_append {a b m n : ℕ} (hb : b = a + m) (hm : m ≤ n) :
    runAddresses (a, m) ++ runAddresses (b, n - m) = runAddresses (a, n) := by
  rw [runAddresses, runAddresses, runAddresses, hb, List.range'_append_1, Nat.add_sub_cancel' hm]

/-- The count of a descriptor that is written for so many bytes, up to 64K. -/
theorem count_of_toUInt16 {count : UInt32} (hpos : count ≠ 0) (hle : count.toNat ≤ 2 ^ 16) :
    (if count.toUInt16 = 0 then 2 ^ 16 else count.toUInt16.toNat) = count.toNat := by
  have hne : count.toNat ≠ 0 := fun h => hpos (UInt32.toNat_inj.mp h)
  have hcount : count.toUInt16.toNat = count.toNat % 2 ^ 16 := UInt32.toNat_toUInt16 count
  split
  next h =>
    have hzero : count.toUInt16.toNat = 0 := by rw [h]; rfl
    omega
  next h =>
    have hnonzero : count.toUInt16.toNat ≠ 0 := fun h0 => h (UInt16.toNat_inj.mp h0)
    omega

/-- A descriptor inside a block is visited from its first to its last address. -/
theorem addresses_of_inside {ptr count : UInt32} {flags : PRDFlags} (hpos : count ≠ 0)
    (hinside : ptr.toNat % 2 ^ 16 + count.toNat ≤ 2 ^ 16) :
    PRD.addresses ⟨ptr, count.toUInt16, flags⟩ = runAddresses (ptr.toNat, count.toNat) := by
  rw [PRD.addresses, count_of_toUInt16 hpos (by omega), runAddresses, List.range'_eq_map_range]
  refine List.map_congr_left fun i hi => ?_
  have hlt := List.mem_range.mp hi
  change ptr.toNat / 2 ^ 16 * 2 ^ 16 + (ptr.toNat + i) % 2 ^ 16 = ptr.toNat + i
  omega

theorem length_addresses_le (prd : PRD) : prd.addresses.length ≤ 2 ^ 16 := by
  rw [PRD.addresses, List.length_map, List.length_range]
  split
  · exact le_rfl
  · exact prd.byteCount.toNat_lt.le

/-- Only the last of the descriptors carries the flag; the bus master visits these addresses. -/
structure Covers (entries : List PRD) (flag : PRDFlags) (visited : List ℕ) : Prop where
  shape : ∃ front last, entries = front ++ [last] ∧ (∀ prd ∈ front, prd.flags = .kContinue_PRD) ∧
    last.flags = flag
  visits : entries.flatMap PRD.addresses = visited

theorem covers_singleton (prd : PRD) : Covers [prd] prd.flags prd.addresses :=
  ⟨⟨[], prd, rfl, fun _ h => absurd h List.not_mem_nil, rfl⟩, List.flatMap_singleton ..⟩

theorem Covers.cons {prd : PRD} {entries : List PRD} {flag : PRDFlags} {visited : List ℕ}
    (h : Covers entries flag visited) (hprd : prd.flags = .kContinue_PRD) :
    Covers (prd :: entries) flag (prd.addresses ++ visited) := by
  obtain ⟨⟨front, last, rfl, hfront, hlast⟩, hvisits⟩ := h
  refine ⟨⟨prd :: front, last, rfl, ?_, hlast⟩, ?_⟩
  · exact List.forall_mem_cons.mpr ⟨hprd, hfront⟩
  · rw [List.flatMap_cons, hvisits]

theorem Covers.append {entries more : List PRD} {flag : PRDFlags} {visited others : List ℕ}
    (h : Covers entries .kContinue_PRD visited) (hmore : Covers more flag others) :
    Covers (entries ++ more) flag (visited ++ others) := by
  obtain ⟨⟨front, last, rfl, hfront, hlast⟩, hvisits⟩ := h
  obtain ⟨⟨front', last', rfl, hfront', hlast'⟩, hvisits'⟩ := hmore
  refine ⟨⟨front ++ [last] ++ front', last', (List.append_assoc ..).symm, ?_, hlast'⟩, ?_⟩
  · intro prd hprd
    rw [List.mem_append, List.mem_append, List.mem_singleton] at hprd
    obtain (hin | rfl) | hin := hprd
    · exact hfront prd hin
    · exact hlast
    · exact hfront' prd hin
  · rw [List.flatMap_append, hvisits, hvisits']

def PRDTable.write (table : PRDTable) (entries : List PRD) : PRDTable :=
  { table with written := table.written ++ entries }

theorem PRDTable.setPRD_of_lt {table : PRDTable} (prd : PRD) (h : table.index < kATAMaxDMADesc) :
    table.setPRD prd = some (table.write [prd]) := if_pos h

theorem PRDTable.setPRD_of_le {table : PRDTable} (prd : PRD) (h : kATAMaxDMADesc ≤ table.index) :
    table.setPRD prd = none := if_neg (Nat.not_lt.mpr h)

@[simp] theorem PRDTable.index_write (table : PRDTable) (entries : List PRD) :
    (table.write entries).index = table.index + entries.length := List.length_append

@[simp] theorem PRDTable.write_nil (table : PRDTable) : table.write [] = table := by
  rw [write, List.append_nil]

theorem PRDTable.write_write (table : PRDTable) (entries more : List PRD) :
    (table.write entries).write more = table.write (entries ++ more) := by
  rw [write, write, write, List.append_assoc]

namespace ChannelCommands

variable {table : PRDTable} {ptr count e next remaining : UInt32} {rest : List Segment32}

/-- The end of a run of descriptors is reached. -/
theorem reaches_last (hpos : 0 < count) (hend : ¬e > next) (hroom : table.index < kATAMaxDMADesc) :
    Reaches step (.splitting table ptr count e next remaining rest)
      (.segments (table.write [⟨ptr, count.toUInt16,
        if remaining = 0 then .kLast_PRD else .kContinue_PRD⟩]) remaining rest) := by
  refine Reaches.head (if_pos hpos) ?_
  simp only [split, if_neg hend, PRDTable.setPRD_of_lt _ hroom]
  refine reaches_step ?_
  rw [step, if_neg (UInt32.lt_irrefl 0)]

theorem reaches_split (hpos : 0 < count) (hend : e > next) (hroom : table.index < kATAMaxDMADesc) :
    Reaches step (.splitting table ptr count e next remaining rest)
      (.splitting (table.write [⟨ptr, (next - ptr).toUInt16, .kContinue_PRD⟩]) next
        (count - (next - ptr)) e (next + 0x10000) remaining rest) := by
  refine reaches_step ((if_pos hpos).trans ?_)
  simp only [split, if_pos hend, PRDTable.setPRD_of_lt _ hroom]

theorem reaches_exhausted (hpos : 0 < count) (hroom : kATAMaxDMADesc ≤ table.index) :
    Reaches step (.splitting table ptr count e next remaining rest)
      (.returned .exhausted table) := by
  refine reaches_step ((if_pos hpos).trans ?_)
  simp only [split, PRDTable.setPRD_of_le _ hroom, ite_self]

/-- A segment that ends below the last block of the memory: each block that it touches takes a
descriptor, and the table is exhausted when they are too many. -/
theorem reaches_below (remaining : UInt32) (rest : List Segment32) (blocks : ℕ) :
    ∀ (table : PRDTable) (ptr count next : UInt32), count ≠ 0 →
      ptr.toNat + count.toNat ≤ 2 ^ 32 - 2 ^ 16 → next.toNat = (ptr.toNat / 2 ^ 16 + 1) * 2 ^ 16 →
      (ptr.toNat + count.toNat - 1) / 2 ^ 16 = ptr.toNat / 2 ^ 16 + blocks →
      if table.index + (blocks + 1) ≤ kATAMaxDMADesc then
        ∃ entries, entries.length = blocks + 1 ∧
          Covers entries (if remaining = 0 then .kLast_PRD else .kContinue_PRD)
            (runAddresses (ptr.toNat, count.toNat)) ∧
          Reaches step (.splitting table ptr count (ptr + count) next remaining rest)
            (.segments (table.write entries) remaining rest)
      else ∃ table', Reaches step (.splitting table ptr count (ptr + count) next remaining rest)
        (.returned .exhausted table') := by
  induction blocks with
  | zero =>
    intro table ptr count next hne hend hnext hblock
    have hpos : 0 < count := UInt32.pos_iff_ne_zero.mpr hne
    have hsum : (ptr + count).toNat = ptr.toNat + count.toNat :=
      toNat_add_of_lt (by omega)
    split
    next hroom =>
      have hnot : ¬ptr + count > next := by
        rw [gt_iff_lt, UInt32.lt_iff_toNat_lt, hsum]
        omega
      refine ⟨_, rfl, ?_, reaches_last hpos hnot (by omega)⟩
      have hcovers := covers_singleton ⟨ptr, count.toUInt16,
        if remaining = 0 then .kLast_PRD else .kContinue_PRD⟩
      rwa [addresses_of_inside hne (by omega)] at hcovers
    next hroom => exact ⟨table, reaches_exhausted hpos (by omega)⟩
  | succ blocks ih =>
    intro table ptr count next hne hend hnext hblock
    have hpos : 0 < count := UInt32.pos_iff_ne_zero.mpr hne
    have hsum : (ptr + count).toNat = ptr.toNat + count.toNat :=
      toNat_add_of_lt (by omega)
    have hgt : next.toNat < ptr.toNat + count.toNat := by omega
    have hsplit : ptr + count > next := by
      rwa [gt_iff_lt, UInt32.lt_iff_toNat_lt, hsum]
    obtain ⟨hgap, hleft, hsame, hnext'⟩ := split_at_next hend hnext hgt
    have hgapne : next - ptr ≠ 0 := by
      rw [Ne, ← UInt32.toNat_inj, hgap]
      exact Nat.sub_ne_zero_of_lt (by omega)
    have hleftne : count - (next - ptr) ≠ 0 := by
      rw [Ne, ← UInt32.toNat_inj, hleft]
      exact Nat.sub_ne_zero_of_lt (by omega)
    split
    next hroom =>
      have htable : (table.write [⟨ptr, (next - ptr).toUInt16, .kContinue_PRD⟩]).index =
          table.index + 1 := PRDTable.index_write ..
      have hrest := ih (table.write [⟨ptr, (next - ptr).toUInt16, .kContinue_PRD⟩]) next
        (count - (next - ptr)) (next + 0x10000) hleftne (by omega) hnext' (by omega)
      rw [if_pos (by omega), hsame] at hrest
      obtain ⟨entries, hlength, hcovers, hreach⟩ := hrest
      refine ⟨⟨ptr, (next - ptr).toUInt16, .kContinue_PRD⟩ :: entries, ?_, ?_, ?_⟩
      · rw [List.length_cons, hlength]
      · have hall := hcovers.cons (show PRD.flags ⟨ptr, (next - ptr).toUInt16, .kContinue_PRD⟩ =
          .kContinue_PRD from rfl)
        rwa [addresses_of_inside hgapne (by omega), hgap, hleft,
          runAddresses_append (by omega) (by omega)] at hall
      · rw [PRDTable.write_write] at hreach
        exact (reaches_split hpos hsplit (by omega)).trans hreach
    next hroom =>
      by_cases hfull : kATAMaxDMADesc ≤ table.index
      · exact ⟨table, reaches_exhausted hpos hfull⟩
      · have htable : (table.write [⟨ptr, (next - ptr).toUInt16, .kContinue_PRD⟩]).index =
            table.index + 1 := PRDTable.index_write ..
        have hrest := ih (table.write [⟨ptr, (next - ptr).toUInt16, .kContinue_PRD⟩]) next
          (count - (next - ptr)) (next + 0x10000) hleftne (by omega) hnext' (by omega)
        rw [if_neg (by omega), hsame] at hrest
        obtain ⟨table', hreach⟩ := hrest
        exact ⟨table', (reaches_split hpos hsplit (by omega)).trans hreach⟩

/-- A segment that ends inside the last block is taken for one without an end: the block behind it
starts at address zero, and the table is exhausted. -/
theorem reaches_endless (remaining : UInt32) (rest : List Segment32) {e : UInt32}
    (hlast : 2 ^ 32 - 2 ^ 16 < e.toNat) (room : ℕ) :
    ∀ (table : PRDTable) (ptr count next : UInt32), count ≠ 0 → ptr + count = e →
      2 ^ 16 ∣ next.toNat → table.index + room = kATAMaxDMADesc →
      ∃ table', Reaches step (.splitting table ptr count e next remaining rest)
        (.returned .exhausted table') := by
  induction room with
  | zero =>
    intro table ptr count next hne _ _ hroom
    exact ⟨table, reaches_exhausted (UInt32.pos_iff_ne_zero.mpr hne) hroom.ge⟩
  | succ room ih =>
    intro table ptr count next hne hend hnext hroom
    have hlt : next.toNat < 2 ^ 32 := next.toNat_lt
    have hsplit : e > next := by
      rw [gt_iff_lt, UInt32.lt_iff_toNat_lt]
      omega
    have hsame : next + (count - (next - ptr)) = e := by
      rw [← hend, ← UInt32.toNat_inj]
      have hptr : ptr.toNat < 2 ^ 32 := ptr.toNat_lt
      have hcount : count.toNat < 2 ^ 32 := count.toNat_lt
      simp only [UInt32.toNat_add, UInt32.toNat_sub]
      omega
    have hleftne : count - (next - ptr) ≠ 0 := by
      intro hzero
      rw [hzero, UInt32.add_zero] at hsame
      exact absurd (hsame ▸ hsplit) (UInt32.lt_irrefl e)
    have hnext' : 2 ^ 16 ∣ (next + 0x10000).toNat := by
      have hblock : (0x10000 : UInt32).toNat = 2 ^ 16 := rfl
      rw [UInt32.toNat_add, hblock]
      omega
    obtain ⟨table', hreach⟩ := ih (table.write [⟨ptr, (next - ptr).toUInt16, .kContinue_PRD⟩])
      next _ _ hleftne hsame hnext' (by rw [PRDTable.index_write, List.length_singleton]; omega)
    exact ⟨table', (reaches_split (UInt32.pos_iff_ne_zero.mpr hne) hsplit (by omega)).trans hreach⟩

/-- What a segment contributes to the table. One that ends with the memory takes one descriptor,
which is too short for it unless it lies in the last block. -/
theorem splitting_reaches (remaining : UInt32) (rest : List Segment32)
    (hindex : table.index ≤ kATAMaxDMADesc) (hne : count ≠ 0)
    (hmemory : ptr.toNat + count.toNat ≤ 2 ^ 32) :
    if (ptr.toNat + count.toNat ≤ 2 ^ 32 - 2 ^ 16 ∨ ptr.toNat + count.toNat = 2 ^ 32) ∧
        table.index + descriptors (ptr.toNat, count.toNat) ≤ kATAMaxDMADesc then
      ∃ entries visited, entries.length = descriptors (ptr.toNat, count.toNat) ∧
        Covers entries (if remaining = 0 then .kLast_PRD else .kContinue_PRD) visited ∧
        Visits visited [(ptr.toNat, count.toNat)] ∧
        Reaches step (.splitting table ptr count (ptr + count) ((ptr &&& 0xffff0000) + 0x10000)
          remaining rest) (.segments (table.write entries) remaining rest)
    else ∃ table', Reaches step (.splitting table ptr count (ptr + count)
        ((ptr &&& 0xffff0000) + 0x10000) remaining rest) (.returned .exhausted table') := by
  have hpos : 0 < count := UInt32.pos_iff_ne_zero.mpr hne
  have hposNat : count.toNat ≠ 0 := fun h => hne (UInt32.toNat_inj.mp h)
  have hblock : (0x10000 : UInt32).toNat = 2 ^ 16 := rfl
  have hstart := block_start ptr
  rcases Nat.lt_or_ge (2 ^ 32 - 2 ^ 16) (ptr.toNat + count.toNat) with hlast | hbelow
  · by_cases hend : ptr.toNat + count.toNat = 2 ^ 32
    · have hdescriptors : descriptors (ptr.toNat, count.toNat) = 1 := if_pos hend
      have hzero : ptr + count = 0 := by
        rw [← UInt32.toNat_inj, UInt32.toNat_add, hend]
        rfl
      rw [hdescriptors]
      split
      next h =>
        have hnot : ¬ptr + count > (ptr &&& 0xffff0000) + 0x10000 := by
          rw [hzero]
          exact UInt32.not_lt.mpr UInt32.zero_le
        refine ⟨_, _, rfl, covers_singleton ⟨ptr, count.toUInt16,
          if remaining = 0 then .kLast_PRD else .kContinue_PRD⟩, ?_,
          reaches_last hpos hnot (by omega)⟩
        by_cases hwhole : Whole (ptr.toNat, count.toNat)
        · have hin : 2 ^ 32 - 2 ^ 16 ≤ ptr.toNat := hwhole hend
          rw [addresses_of_inside hne (by omega)]
          exact visits_whole hwhole
        · have hlt : ptr.toNat < 2 ^ 32 - 2 ^ 16 :=
            Nat.lt_of_not_le fun hin => hwhole fun _ => hin
          refine visits_short hwhole (lt_of_le_of_lt (length_addresses_le _) ?_)
          change 2 ^ 16 < count.toNat
          omega
      next h =>
        exact ⟨table, reaches_exhausted hpos (by omega)⟩
    · have hnot : ¬((ptr.toNat + count.toNat ≤ 2 ^ 32 - 2 ^ 16 ∨ ptr.toNat + count.toNat = 2 ^ 32) ∧
          table.index + descriptors (ptr.toNat, count.toNat) ≤ kATAMaxDMADesc) := by
        omega
      rw [if_neg hnot]
      have hsum := toNat_add_of_lt (show ptr.toNat + count.toNat < 2 ^ 32 by omega)
      refine reaches_endless remaining rest (by rwa [hsum]) (kATAMaxDMADesc - table.index) table ptr
        count _ hne rfl ?_ (Nat.add_sub_cancel' hindex)
      rw [UInt32.toNat_add, hstart, hblock]
      omega
  · have hdescriptors : descriptors (ptr.toNat, count.toNat) =
        (ptr.toNat + count.toNat - 1) / 2 ^ 16 - ptr.toNat / 2 ^ 16 + 1 :=
      if_neg (by change ptr.toNat + count.toNat ≠ 2 ^ 32; omega)
    have hnext : ((ptr &&& 0xffff0000) + 0x10000).toNat = (ptr.toNat / 2 ^ 16 + 1) * 2 ^ 16 := by
      rw [toNat_add_of_lt (by omega), hstart, hblock]
      omega
    have hspec := reaches_below remaining rest
      ((ptr.toNat + count.toNat - 1) / 2 ^ 16 - ptr.toNat / 2 ^ 16) table ptr count _ hne hbelow
      hnext (by omega)
    rw [← hdescriptors] at hspec
    by_cases hroom : table.index + descriptors (ptr.toNat, count.toNat) ≤ kATAMaxDMADesc
    · rw [if_pos hroom] at hspec
      rw [if_pos ⟨.inl hbelow, hroom⟩]
      obtain ⟨entries, hlength, hcovers, hreach⟩ := hspec
      have hwhole : Whole (ptr.toNat, count.toNat) := fun hend => by
        change ptr.toNat + count.toNat = 2 ^ 32 at hend
        omega
      exact ⟨entries, _, hlength, hcovers, visits_whole hwhole, hreach⟩
    · rw [if_neg hroom] at hspec
      rw [if_neg fun h => hroom h.2]
      exact hspec

theorem and_one_eq_zero_iff (p : UInt32) : p &&& 1 = 0 ↔ p.toNat % 2 = 0 := by
  rw [← UInt32.toNat_inj, UInt32.toNat_and]
  exact iff_of_eq (congrArg (· = 0) (Nat.and_one_is_mod p.toNat))

theorem toNat_used (length remaining : UInt32) :
    (if length > remaining then remaining else length).toNat =
      min length.toNat remaining.toNat := by
  split
  next h => exact (Nat.min_eq_right (UInt32.lt_iff_toNat_lt.mp h).le).symm
  next h => exact (Nat.min_eq_left (UInt32.le_iff_toNat_le.mp (UInt32.not_lt.mp h))).symm

theorem used_ne_zero {length remaining : UInt32} (hlength : length ≠ 0)
    (hremaining : remaining ≠ 0) :
    (if length > remaining then remaining else length) ≠ 0 := by
  split
  · exact hremaining
  · exact hlength

theorem toNat_left (length remaining : UInt32) :
    (remaining - if length > remaining then remaining else length).toNat =
      remaining.toNat - length.toNat := by
  have hused := toNat_used length remaining
  rw [UInt32.toNat_sub_of_le _ _ (UInt32.le_iff_toNat_le.mpr (by omega)), hused]
  omega

/-- What comes of the outer loop: the table is filled up to the last descriptor, or the command is
rejected. -/
structure Filled (table : PRDTable) (remaining : UInt32) (rest : List Segment32) : Prop where
  accepted : Fits table.index remaining.toNat rest → ∃ entries visited left,
    Visits visited (bufferRuns remaining.toNat rest) ∧
    (if remaining = 0 then entries = [] else Covers entries .kLast_PRD visited) ∧
    table.index + entries.length ≤ kATAMaxDMADesc ∧
    Reaches step (.segments table remaining rest) (.segments (table.write entries) 0 left)
  rejected : ¬Fits table.index remaining.toNat rest → ∃ r table', r ≠ .kATANoErr ∧
    Reaches step (.segments table remaining rest) (.returned r table')

theorem filled_zero (hindex : table.index ≤ kATAMaxDMADesc) : Filled table 0 rest := by
  refine ⟨fun _ => ⟨[], [], rest, ?_, rfl, hindex, ?_⟩, fun h => absurd (fits_zero hindex rest) h⟩
  · have hnone : bufferRuns (0 : UInt32).toNat rest = [] := bufferRuns_zero rest
    rw [hnone]
    exact visits_nil
  · rw [PRDTable.write_nil]
    exact Reaches.refl _

/-- The rest of the segments is filled in behind the first. -/
theorem filled_behind {segment : Segment32} {entries : List PRD} {visited : List ℕ}
    {left : UInt32} (hremaining : remaining ≠ 0)
    (hleft : left.toNat = remaining.toNat - segment.fLength.toNat)
    (hcovers : Covers entries (if left = 0 then .kLast_PRD else .kContinue_PRD) visited)
    (hvisits : Visits visited
      [(segment.fIOVMAddr.toNat, min segment.fLength.toNat remaining.toNat)])
    (hreach : Reaches step (.segments table remaining (segment :: rest))
      (.segments (table.write entries) left rest))
    (hrest : Filled (table.write entries) left rest)
    (hfits : Fits table.index remaining.toNat (segment :: rest) ↔
      Fits (table.write entries).index left.toNat rest) :
    Filled table remaining (segment :: rest) := by
  have hne : remaining.toNat ≠ 0 := fun h => hremaining (UInt32.toNat_inj.mp h)
  refine ⟨fun h => ?_, fun h => ?_⟩
  · obtain ⟨more, others, unused, hothers, hmore, hroom, hreach'⟩ := hrest.accepted (hfits.mp h)
    rw [PRDTable.index_write] at hroom
    rw [PRDTable.write_write] at hreach'
    refine ⟨entries ++ more, visited ++ others, unused, ?_, ?_, ?_, hreach.trans hreach'⟩
    · rw [bufferRuns_cons hne, ← hleft]
      exact hvisits.cons hothers
    · rw [if_neg hremaining]
      by_cases hdone : left = 0
      · rw [if_pos hdone] at hmore hcovers
        have hnone : others = [] := by
          rw [hdone] at hothers
          have hnil : bufferRuns (0 : UInt32).toNat rest = [] := bufferRuns_zero rest
          rw [hnil] at hothers
          exact hothers.whole fun _ hrun => absurd hrun List.not_mem_nil
        rwa [hmore, hnone, List.append_nil, List.append_nil]
      · rw [if_neg hdone] at hmore hcovers
        exact hcovers.append hmore
    · rw [List.length_append]
      omega
  · obtain ⟨r, table', hr, hreach'⟩ := hrest.rejected fun hin => h (hfits.mpr hin)
    exact ⟨r, table', hr, hreach.trans hreach'⟩

theorem filled_cons {segment : Segment32} (hindex : table.index ≤ kATAMaxDMADesc)
    (hremaining : remaining ≠ 0)
    (ih : ∀ (table : PRDTable) (remaining : UInt32), table.index ≤ kATAMaxDMADesc →
      Filled table remaining rest) : Filled table remaining (segment :: rest) := by
  have hne : remaining.toNat ≠ 0 := fun h => hremaining (UInt32.toNat_inj.mp h)
  have hfirst : Reaches step (.segments table remaining (segment :: rest))
      (openSegment table remaining segment rest) := reaches_step (if_neg hremaining)
  have hrejected : ∀ r table', r ≠ .kATANoErr →
      Reaches step (openSegment table remaining segment rest) (.returned r table') →
      ¬Fits table.index remaining.toNat (segment :: rest) →
      Filled table remaining (segment :: rest) :=
    fun r table' hr hreach hnot =>
      ⟨fun h => absurd h hnot, fun _ => ⟨r, table', hr, hfirst.trans hreach⟩⟩
  have hfits := @fits_cons_iff table.index _ hne segment rest
  by_cases hlength : segment.fLength = 0
  · refine hrejected .panicked table (by decide) ?_ fun h => (hfits.mp h).1 ?_
    · rw [openSegment, if_pos hlength]
      exact Reaches.refl _
    · rw [hlength]
      rfl
  by_cases haligned : segment.fIOVMAddr &&& 1 = 0
  · have heven := (and_one_eq_zero_iff _).mp haligned
    have hlengthNat : segment.fLength.toNat ≠ 0 := fun h => hlength (UInt32.toNat_inj.mp h)
    obtain ⟨count, hcount⟩ :
        ∃ count, count = if segment.fLength > remaining then remaining else segment.fLength :=
      ⟨_, rfl⟩
    have hopen : openSegment table remaining segment rest =
        .splitting table segment.fIOVMAddr count (segment.fIOVMAddr + count)
          ((segment.fIOVMAddr &&& 0xffff0000) + 0x10000) (remaining - count) rest := by
      rw [openSegment, if_neg hlength, if_neg (not_not.mpr haligned), hcount]
    have hused : count.toNat = min segment.fLength.toNat remaining.toNat := hcount ▸ toNat_used ..
    have hleft : (remaining - count).toNat = remaining.toNat - segment.fLength.toNat :=
      hcount ▸ toNat_left ..
    have hmemory : segment.fIOVMAddr.toNat + count.toNat ≤ 2 ^ 32 := by
      have hin := segment.inMemory
      omega
    have hspec := splitting_reaches (remaining - count) rest hindex
      (hcount ▸ used_ne_zero hlength hremaining) hmemory
    rw [← hopen, hused] at hspec
    split at hspec
    next hin =>
      obtain ⟨entries, visited, hentries, hcovers, hvisits, hreach⟩ := hspec
      have hwritten : (table.write entries).index = table.index +
          descriptors (segment.fIOVMAddr.toNat, min segment.fLength.toNat remaining.toNat) := by
        rw [PRDTable.index_write, hentries]
      refine filled_behind hremaining hleft hcovers hvisits (hfirst.trans hreach)
        (ih _ _ (by omega)) ?_
      refine hfits.trans ?_
      rw [hwritten, hleft]
      exact ⟨fun h => h.2.2.2, fun h => ⟨hlengthNat, heven, hin.1, h⟩⟩
    next hout =>
      obtain ⟨table', hreach⟩ := hspec
      refine hrejected .exhausted table' (by decide) hreach fun h => hout ?_
      obtain ⟨-, -, hbelow, hroom⟩ := hfits.mp h
      have hle := hroom.room
      exact ⟨hbelow, by omega⟩
  · refine hrejected .kIOReturnNotAligned table (by decide) ?_ fun h => haligned ?_
    · rw [openSegment, if_neg hlength, if_pos haligned]
      exact Reaches.refl _
    · exact (and_one_eq_zero_iff _).mpr (hfits.mp h).2.1

theorem filled (rest : List Segment32) :
    ∀ (table : PRDTable) (remaining : UInt32), table.index ≤ kATAMaxDMADesc →
      Filled table remaining rest := by
  induction rest with
  | nil =>
    intro table remaining hindex
    by_cases hremaining : remaining = 0
    · exact hremaining ▸ filled_zero hindex
    · have hne : remaining.toNat ≠ 0 := fun h => hremaining (UInt32.toNat_inj.mp h)
      refine ⟨fun h => absurd h (not_fits_nil hne), fun _ => ⟨.panicked, table, by decide, ?_⟩⟩
      exact reaches_step (if_neg hremaining)
  | cons segment rest ih =>
    intro table remaining hindex
    by_cases hremaining : remaining = 0
    · exact hremaining ▸ filled_zero hindex
    · exact filled_cons hindex hremaining ih

end ChannelCommands

theorem transferredFrom_covers {table : PRDTable} {front : List PRD} {last : PRD}
    (hfront : ∀ prd ∈ front, prd.flags = .kContinue_PRD) (hlast : last.flags = .kLast_PRD) :
    ∀ (skipped : List PRD) (room : ℕ), table.written = skipped ++ (front ++ [last]) →
      front.length < room →
      table.transferredFrom room skipped.length = (front ++ [last]).flatMap PRD.addresses := by
  induction front with
  | nil =>
    intro skipped room hwritten hroom
    obtain ⟨room, rfl⟩ := Nat.exists_eq_succ_of_ne_zero (Nat.ne_zero_of_lt hroom)
    have hget : table.get skipped.length = last := by
      rw [PRDTable.get, hwritten, List.getD_append_right _ _ _ _ le_rfl, Nat.sub_self]
      rfl
    rw [PRDTable.transferredFrom, hget, if_pos hlast, List.append_nil, List.nil_append,
      List.flatMap_singleton]
  | cons prd front ih =>
    intro skipped room hwritten hroom
    obtain ⟨room, rfl⟩ := Nat.exists_eq_succ_of_ne_zero (Nat.ne_zero_of_lt hroom)
    have hget : table.get skipped.length = prd := by
      rw [PRDTable.get, hwritten, List.getD_append_right _ _ _ _ le_rfl, Nat.sub_self]
      rfl
    have hcontinue := hfront prd List.mem_cons_self
    have hrest := ih (fun p hp => hfront p (List.mem_cons_of_mem _ hp)) (skipped ++ [prd]) room
      (by rw [hwritten, List.append_assoc]; rfl) (Nat.lt_of_succ_lt_succ hroom)
    rw [List.length_append, List.length_singleton] at hrest
    rw [PRDTable.transferredFrom, hget, if_neg (by rw [hcontinue]; decide), hrest, List.cons_append,
      List.flatMap_cons]

theorem transferred_covers {table : PRDTable} {entries : List PRD} {visited : List ℕ}
    (hwritten : table.written = entries) (h : Covers entries .kLast_PRD visited)
    (hroom : entries.length ≤ kATAMaxDMADesc) : table.transferred = visited := by
  obtain ⟨⟨front, last, rfl, hfront, hlast⟩, rfl⟩ := h
  rw [List.length_append, List.length_singleton] at hroom
  exact transferredFrom_covers hfront hlast [] kATAMaxDMADesc hwritten hroom

/-- `createChannelCommands` always returns. It accepts a command exactly when the buffer has bytes,
its segments are aligned, none ends inside the last block of the memory and the descriptors fit into
the table. The bus master then visits the addresses of the buffer, each once and in their order,
exactly when no segment crosses into the last block: one that does and ends with the memory is cut
off without an error. -/
theorem createChannelCommands_transfers (old : ℕ → PRD) (byteCount : UInt32)
    (segments : List Segment32) :
    ∃ r table, Evaluates ChannelCommands.step (.start old byteCount segments) (.returned r table) ∧
      (r = .kATANoErr ↔ byteCount ≠ 0 ∧ Fits 0 byteCount.toNat segments) ∧
      (r = .kATANoErr → (table.transferred = bufferAddresses byteCount.toNat segments ↔
        ∀ run ∈ bufferRuns byteCount.toNat segments, Whole run)) := by
  have hfilled := ChannelCommands.filled segments ⟨[], old⟩ byteCount (Nat.zero_le _)
  by_cases hfits : Fits 0 byteCount.toNat segments
  · obtain ⟨entries, visited, left, hvisits, hcovers, hroom, hreach⟩ := hfilled.accepted hfits
    obtain ⟨table, htable⟩ : ∃ table, table = PRDTable.write ⟨[], old⟩ entries := ⟨_, rfl⟩
    have hwritten : table.written = entries := htable ▸ List.nil_append entries
    have hdone : ChannelCommands.step (.segments table 0 left) = some (.returned
        (if table.index = 0 then .kATADeviceError else .kATANoErr) table) := by
      cases left <;> rw [ChannelCommands.step, if_pos rfl]
    rw [← htable] at hreach
    refine ⟨_, _, (hreach.trans (reaches_step hdone)).evaluates.mpr (.halt rfl), ?_⟩
    by_cases hbytes : byteCount = 0
    · rw [if_pos hbytes] at hcovers
      have hempty : table.index = 0 := by rw [PRDTable.index, hwritten, hcovers, List.length_nil]
      rw [if_pos hempty]
      exact ⟨⟨fun h => IOReturn.noConfusion h, fun h => absurd hbytes h.1⟩,
        fun h => IOReturn.noConfusion h⟩
    · rw [if_neg hbytes] at hcovers
      have hsome : table.index ≠ 0 := by
        obtain ⟨front, last, rfl, -⟩ := hcovers.shape
        rw [PRDTable.index, hwritten, List.length_append, List.length_singleton]
        exact Nat.succ_ne_zero _
      rw [if_neg hsome]
      refine ⟨⟨fun _ => ⟨hbytes, hfits⟩, fun _ => rfl⟩, fun _ => ?_⟩
      rw [PRDTable.index, List.length_nil, Nat.zero_add] at hroom
      rw [transferred_covers hwritten hcovers hroom]
      exact hvisits.eq_iff
  · obtain ⟨r, table, hr, hreach⟩ := hfilled.rejected hfits
    exact ⟨r, table, hreach.evaluates.mpr (.halt rfl),
      ⟨fun h => absurd h hr, fun h => absurd h.2 hfits⟩, fun h => absurd h hr⟩

end Ata
