import NetbookInstaller.Mouse.Packet
import NetbookInstaller.Transition.Reentry

/-! How many resets the mouse driver makes in a row, and that its packet buffer is never
overrun, however the bytes that come in during a reset are interleaved with it. -/
namespace Mouse

open Transition

section Consecutive
variable {α : Type*} {x : α} {bound n : ℕ} {as : List α}

/-- The list ends in at most `n` times `x`, and has it at most `bound` times in a row. -/
structure Limited (x : α) (bound n : ℕ) (as : List α) : Prop where
  last_le : ∀ k, List.replicate k x <:+ as → k ≤ n
  row_le : ∀ k, List.replicate k x <:+: as → k ≤ bound
  le : n ≤ bound

theorem limited_nil (x : α) (bound : ℕ) : Limited x bound 0 [] := by
  have hle (k : ℕ) (h : List.replicate k x = []) : k ≤ 0 := by
    rw [← List.length_replicate (n := k) (a := x), h]
    exact Nat.le_refl 0
  exact ⟨fun k h => hle k (List.suffix_nil.mp h),
    fun k h => (hle k (List.infix_nil.mp h)).trans (Nat.zero_le bound), Nat.zero_le bound⟩

theorem replicate_suffix_concat {k : ℕ} {a : α} (h : List.replicate (k + 1) x <:+ as ++ [a]) :
    x = a ∧ List.replicate k x <:+ as := by
  rcases List.suffix_concat_iff.mp h with hnil | ⟨t, ht, hsuffix⟩
  · exact absurd hnil (List.cons_ne_nil _ _)
  · rw [List.replicate_succ'] at ht
    obtain ⟨hinit, hlast⟩ := List.append_inj' ht rfl
    exact ⟨List.singleton_inj.mp hlast, hinit ▸ hsuffix⟩

/-- One more at the end. -/
theorem Limited.concat (h : Limited x bound n as) (hn : n < bound) :
    Limited x bound (n + 1) (as ++ [x]) := by
  have hlast (k : ℕ) (hk : List.replicate k x <:+ as ++ [x]) : k ≤ n + 1 := by
    cases k with
    | zero => exact Nat.zero_le _
    | succ k => exact Nat.succ_le_succ (h.last_le k (replicate_suffix_concat hk).2)
  refine ⟨hlast, fun k hk => ?_, hn⟩
  rcases List.infix_concat_iff.mp hk with hk | hk
  · exact (hlast k hk).trans hn
  · exact h.row_le k hk

/-- Something else at the end. -/
theorem Limited.interrupt (h : Limited x bound n as) {a : α} (ha : a ≠ x) :
    Limited x bound 0 (as ++ [a]) := by
  have hlast (k : ℕ) (hk : List.replicate k x <:+ as ++ [a]) : k ≤ 0 := by
    cases k with
    | zero => exact Nat.le_refl 0
    | succ k => exact absurd (replicate_suffix_concat hk).1.symm ha
  refine ⟨hlast, fun k hk => ?_, Nat.zero_le bound⟩
  rcases List.infix_concat_iff.mp hk with hk | hk
  · exact (hlast k hk).trans (Nat.zero_le bound)
  · exact h.row_le k hk

theorem Limited.interrupts (h : Limited x bound n as) {bs : List α} (hne : bs ≠ [])
    (hbs : x ∉ bs) : Limited x bound 0 (as ++ bs) := by
  induction bs generalizing as n with
  | nil => exact absurd rfl hne
  | cons b bs ih =>
    rw [List.mem_cons, not_or] at hbs
    have hfirst := h.interrupt (a := b) (fun hb => hbs.1 hb.symm)
    cases bs with
    | nil => exact hfirst
    | cons c bs =>
      rw [List.append_cons]
      exact ih hfirst (List.cons_ne_nil c bs) hbs.2

end Consecutive

/-- The resets since the last packet are those that the driver counts. -/
def Counted (s : ApplePS2Mouse) : Prop := Limited .mouseReset 5 s.mouseResetCount s.outputs

/-- No byte comes second behind `0xAA`. -/
def Unbroken (s : Reentrant.State ApplePS2Mouse Stage)
    (e : Reentrant.Event UInt8 PS2.PS2Request) : Prop :=
  ∀ data, e = .input data → ¬ s.core.ResetDue

instance (s : Reentrant.State ApplePS2Mouse Stage) : ∀ e, Decidable (Unbroken s e)
  | .input data =>
    decidable_of_iff (¬ s.core.ResetDue) ⟨fun h _ _ => h, fun h => h data rfl⟩
  | .reply _ => .isTrue fun _ h => nomatch h

theorem counted_interruptOccurred {s : ApplePS2Mouse} (hs : Counted s) (data : UInt8)
    (hunbroken : ¬ s.ResetDue) :
    Counted (s.interruptOccurred data).1 := by
  have hhandled := s.handled data
  generalize s.interruptOccurred data = r at hhandled
  cases hhandled with
  | resetCounted hfirst hdata hcount => exact hs.concat hcount
  | skipped hfirst hdata hcount => exact hs
  | dispatched hlength =>
    obtain ⟨events, hne, hnot, hevents⟩ := (s.addByte data).dispatch_outputs
    rw [hevents]
    exact hs.interrupts hne hnot
  | resetUncounted hsecond hlength hheader => exact absurd ⟨hsecond, hheader⟩ hunbroken
  | stored hdata hlength hheader => exact hs

theorem counted_resetMouse {s : ApplePS2Mouse} (hs : Counted s) (stage : Stage)
    (request : PS2.PS2Request) : Counted (s.resetMouse stage request).1 := by
  rcases resetMouse_cases s stage request with h | ⟨information, h⟩ | ⟨type, h⟩ <;> rw [h]
  · exact hs
  · obtain ⟨resolution, hinformation⟩ := setInformation_eq s information
    rw [hinformation]
    exact hs
  · exact hs

/-- The driver behind `start`, with no reset running. -/
def started (information : UInt32) (type : PS2MouseId) : Reentrant.State ApplePS2Mouse Stage :=
  ⟨.start information type, []⟩

/-- In every state of every run there is room for the next byte; and if no byte comes
second behind `0xAA`, there are never more than 5 resets without a packet between them. -/
theorem resets_le (information : UInt32) (type : PS2MouseId)
    (es : List (Reentrant.Event UInt8 PS2.PS2Request)) (t : Reentrant.State ApplePS2Mouse Stage)
    (ht : run driver.step (started information type) es = some t) :
    (t.core.packetByteCount < t.core.packetLength ∧ t.core.packetLength ≤ kPacketLengthMax) ∧
      (Guarded driver.step Unbroken (started information type) es →
        ∀ k, List.replicate k .mouseReset <:+: t.core.outputs → k ≤ 5) := by
  constructor
  · have hready := ready_run (ready_start information type) ht
    refine ⟨hready.packetByteCount, ?_⟩
    rcases hready.packetLength with hlength | hlength <;> rw [hlength] <;> decide
  · intro hguarded
    have hstep (u : Reentrant.State ApplePS2Mouse Stage) (e : Reentrant.Event UInt8 PS2.PS2Request)
        (v : Reentrant.State ApplePS2Mouse Stage) (hu : Counted u.core) (he : Unbroken u e)
        (hv : driver.step u e = some v) : Counted v.core := by
      cases e with
      | input data =>
        rw [(Reentrant.step_input_iff.mp hv).1]
        exact counted_interruptOccurred hu data (he data rfl)
      | reply request =>
        obtain ⟨stage, rest, -, hcore, -⟩ := Reentrant.step_reply_iff.mp hv
        rw [hcore]
        exact counted_resetMouse hu stage request
    have hstart : Counted (started information type).core := limited_nil _ 5
    exact (guarded_run_invariant hstep hstart hguarded ht).row_le

/-- The requests of a reset as a standard mouse answers them. -/
def replies : List PS2.PS2Request :=
  [PS2.setMouseEnable false,
    .ofCommands [⟨.sendMouseCommandAndCompareAck, 0xF6⟩],
    .ofCommands [⟨.writeCommandPort, PS2.kCPTransmitToMouse⟩, ⟨.writeDataPort, 0xF2⟩,
      ⟨.readDataPortAndCompare, PS2.kSCAcknowledge⟩, ⟨.readDataPort, 0x00⟩],
    PS2.readCommandByte, PS2.testAndSetCommandByte 0 kCBEnableMouseIRQ, PS2.setMouseEnable true]

/-- The mouse is plugged in anew: it sends `0xAA` and `0x00`, and the reset runs to its end. -/
def pluggedIn : List (Reentrant.Event UInt8 PS2.PS2Request) :=
  [.input 0xAA, .input 0x00] ++ replies.map .reply

/-- A mouse that is plugged in six times without being moved. -/
theorem pluggedIn_resets :
    ∃ t, run driver.step (started 0 .standard) (List.replicate 6 pluggedIn).flatten = some t ∧
      t.core.outputs = List.replicate 6 .mouseReset :=
  ⟨_, rfl, by decide⟩

/-- Bytes that cannot start a packet, all but the first of them during resets. -/
theorem noise_resets :
    ∃ t, run driver.step (started 0 .standard) (List.replicate 7 (.input 0x00)) = some t ∧
      (t.core.packetByteCount < t.core.packetLength ∧ t.core.packetLength ≤ kPacketLengthMax) ∧
        ∀ k, List.replicate k .mouseReset <:+: t.core.outputs → k ≤ 5 := by
  have h := resets_le 0 .standard (List.replicate 7 (.input 0x00)) _ rfl
  exact ⟨_, rfl, h.1, h.2 (by decide)⟩

end Mouse
