import NetbookInstaller.PS2.ProcessRequest
import Mathlib.Data.List.Basic

/-! A request as it completes when each of its reads gets a given byte. -/
namespace PS2

/-- The byte that the command must read to succeed. -/
def PS2Command.expected (c : PS2Command) : Option UInt8 :=
  match c.command with
  | .readDataPortAndCompare => some c.inOrOut
  | .sendMouseCommandAndCompareAck => some kSCAcknowledge
  | _ => none

/-- The command once its read has got `byte`. -/
def PS2Command.filled (c : PS2Command) (byte : UInt8) : PS2Command :=
  match c.command with
  | .readDataPort => ⟨.readDataPort, byte⟩
  | _ => c

/-- One command of the loop of `processRequest`. -/
def ProcessFrame.next (f : ProcessFrame) (c : PS2Command) (byte : UInt8) : ProcessFrame :=
  { f with
    deviceMode := (f.start c).deviceMode
    transmitToMouse := (f.start c).transmitToMouse }.finish c byte

/-- `n` commands of the loop, the read of command `i` getting the byte `answers i`. -/
def ProcessFrame.answered (answers : ℕ → UInt8) : ℕ → ProcessFrame → ProcessFrame
  | 0, f => f
  | n + 1, f =>
    match f.current with
    | none => f
    | some c => (f.next c (answers f.index)).answered answers n

/-- The request as its completion routine sees it. -/
def completed (answers : ℕ → UInt8) (request : PS2Request) : PS2Request :=
  ((ProcessFrame.enter request false).answered answers request.commandsCount).complete

/-- Every command gets the byte that it expects, the first one the byte `answers i`. -/
def Accepts (answers : ℕ → UInt8) : ℕ → List PS2Command → Prop
  | _, [] => True
  | i, c :: rest => (∀ byte ∈ c.expected, answers i = byte) ∧ Accepts answers (i + 1) rest

/-- The commands with what they have read. -/
def filledFrom (answers : ℕ → UInt8) : ℕ → List PS2Command → List PS2Command
  | _, [] => []
  | i, c :: rest => c.filled (answers i) :: filledFrom answers (i + 1) rest

/-- What a completed request has read at `index`. -/
def PS2Request.readAt (request : PS2Request) (index : ℕ) : UInt8 :=
  (request.commands[index]?.map PS2Command.inOrOut).getD 0

theorem next_accepted {f : ProcessFrame} {c : PS2Command} (byte : UInt8)
    {pre post : List PS2Command}
    (hcommands : f.request.commands = pre ++ c :: post) (hindex : f.index = pre.length)
    (h : ∀ b ∈ c.expected, byte = b) :
    (f.next c byte).request = ⟨f.request.commandsCount, pre ++ c.filled byte :: post⟩ ∧
      (f.next c byte).index = f.index + 1 ∧ (f.next c byte).failed = f.failed := by
  obtain ⟨command, inOrOut⟩ := c
  have hset : f.request.commands.set f.index ⟨command, byte⟩ = pre ++ ⟨command, byte⟩ :: post := by
    rw [hcommands, hindex]
    simp
  have hsame : f.request = ⟨f.request.commandsCount, pre ++ ⟨command, inOrOut⟩ :: post⟩ := by
    rw [← hcommands]
  cases command with
  | readDataPort => exact ⟨congrArg (PS2Request.mk f.request.commandsCount) hset, rfl, rfl⟩
  | readDataPortAndCompare =>
    have hbyte : byte = inOrOut := h _ rfl
    unfold ProcessFrame.next ProcessFrame.finish
    dsimp only
    rw [if_pos hbyte]
    exact ⟨hsame, rfl, rfl⟩
  | writeDataPort => exact ⟨hsame, rfl, rfl⟩
  | writeCommandPort => exact ⟨hsame, rfl, rfl⟩
  | sendMouseCommandAndCompareAck =>
    have hbyte : byte = kSCAcknowledge := h _ rfl
    unfold ProcessFrame.next ProcessFrame.finish
    dsimp only
    rw [if_pos hbyte]
    exact ⟨hsame, rfl, rfl⟩

theorem next_refused {f : ProcessFrame} {c : PS2Command} {byte : UInt8}
    (h : ¬ ∀ b ∈ c.expected, byte = b) :
    (f.next c byte).failed = true ∧ (f.next c byte).index = f.index := by
  obtain ⟨command, inOrOut⟩ := c
  cases command with
  | readDataPort | writeDataPort | writeCommandPort => exact absurd (fun b hb => by cases hb) h
  | readDataPortAndCompare =>
    have hbyte : byte ≠ inOrOut := fun hbyte => h fun b hb => by cases hb; exact hbyte
    unfold ProcessFrame.next ProcessFrame.finish
    dsimp only
    rw [if_neg hbyte]
    exact ⟨rfl, rfl⟩
  | sendMouseCommandAndCompareAck =>
    have hbyte : byte ≠ kSCAcknowledge := fun hbyte => h fun b hb => by cases hb; exact hbyte
    unfold ProcessFrame.next ProcessFrame.finish
    dsimp only
    rw [if_neg hbyte]
    exact ⟨rfl, rfl⟩

theorem answered_failed {answers : ℕ → UInt8} {f : ProcessFrame} (h : f.failed = true) (n : ℕ) :
    f.answered answers n = f := by
  cases n with
  | zero => rfl
  | succ n => simp [ProcessFrame.answered, ProcessFrame.current, h]

theorem answered_accepted {answers : ℕ → UInt8} {post : List PS2Command} :
    ∀ (pre : List PS2Command) {f : ProcessFrame},
      f.request = .ofCommands (pre ++ post) → f.index = pre.length → f.failed = false →
      Accepts answers f.index post →
      (f.answered answers post.length).complete =
        .ofCommands (pre ++ filledFrom answers f.index post) := by
  induction post with
  | nil =>
    intro pre f hrequest _ hfailed _
    simp [ProcessFrame.answered, ProcessFrame.complete, hfailed, hrequest, filledFrom]
  | cons c post ih =>
    intro pre f hrequest hindex hfailed haccepts
    have hcurrent : f.current = some c := by
      simp [ProcessFrame.current, hfailed, hrequest, hindex, PS2Request.ofCommands]
    obtain ⟨hnext, hnextIndex, hnextFailed⟩ := next_accepted
      (answers f.index) (by rw [hrequest]; rfl) hindex haccepts.1
    simp only [List.length_cons, ProcessFrame.answered, hcurrent, filledFrom]
    rw [← hnextIndex]
    have hrest := ih (pre ++ [c.filled (answers f.index)])
      (f := f.next c (answers f.index))
      (by rw [hnext, hrequest]; simp [PS2Request.ofCommands])
      (by rw [hnextIndex, hindex]; simp) (hnextFailed.trans hfailed)
      (by rw [hnextIndex]; exact haccepts.2)
    rw [hrest]
    simp

theorem answered_refused {answers : ℕ → UInt8} {post : List PS2Command} :
    ∀ (pre : List PS2Command) {f : ProcessFrame},
      f.request = .ofCommands (pre ++ post) → f.index = pre.length → f.failed = false →
      ¬ Accepts answers f.index post →
      (f.answered answers post.length).complete.commandsCount < (pre ++ post).length := by
  induction post with
  | nil => exact fun _ _ _ _ _ h => absurd trivial h
  | cons c post ih =>
    intro pre f hrequest hindex hfailed hrefused
    have hcurrent : f.current = some c := by
      simp [ProcessFrame.current, hfailed, hrequest, hindex, PS2Request.ofCommands]
    simp only [List.length_cons, ProcessFrame.answered, hcurrent]
    by_cases hc : ∀ b ∈ c.expected, answers f.index = b
    · obtain ⟨hnext, hnextIndex, hnextFailed⟩ := next_accepted
        (answers f.index) (by rw [hrequest]; rfl) hindex hc
      have hrest := ih (pre ++ [c.filled (answers f.index)])
        (f := f.next c (answers f.index))
        (by rw [hnext, hrequest]; simp [PS2Request.ofCommands])
        (by rw [hnextIndex, hindex]; simp) (hnextFailed.trans hfailed)
        (by rw [hnextIndex]; exact fun hpost => hrefused ⟨hc, hpost⟩)
      simpa using hrest
    · obtain ⟨hnextFailed, hnextIndex⟩ := next_refused (f := f) hc
      rw [answered_failed hnextFailed, ProcessFrame.complete, if_pos hnextFailed]
      show (f.next c (answers f.index)).index < _
      rw [hnextIndex, hindex]
      simp

theorem completed_of_accepts {answers : ℕ → UInt8} {commands : List PS2Command}
    (h : Accepts answers 0 commands) :
    completed answers (.ofCommands commands) = .ofCommands (filledFrom answers 0 commands) :=
  answered_accepted [] rfl rfl rfl h

/-- The count of a request that a command has stopped is less than the number of commands. -/
theorem completed_of_not_accepts {answers : ℕ → UInt8} {commands : List PS2Command}
    (h : ¬ Accepts answers 0 commands) :
    (completed answers (.ofCommands commands)).commandsCount < commands.length :=
  answered_refused [] rfl rfl rfl h

end PS2
