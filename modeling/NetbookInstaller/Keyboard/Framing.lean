import NetbookInstaller.Keyboard.Scancode

/-! How the prefixes frame the bytes of the keyboard into scan codes, for every order of
the codes. The pair of codes of the `Pause` key is dropped by the table of the extended
codes, although the parser is said to make two events of it. -/
namespace Keyboard

/-- A byte that is no prefix. -/
abbrev PlainByte := { b : UInt8 // b ≠ kSCExtend ∧ b ≠ kSCPause }

/-- The shapes of a scan code. `Pause` has one code for its press and one for its
release, and the keyboard sends both when the key is pressed. -/
inductive ScanCode where
  | single (b : PlainByte)
  | extended (b : PlainByte)
  | pause (down : Bool)
  deriving DecidableEq

def ScanCode.bytes : ScanCode → List UInt8
  | .single b => [b.1]
  | .extended b => [kSCExtend, b.1]
  | .pause true => [kSCPause, 0x1D, 0x45]
  | .pause false => [kSCPause, 0x9D, 0xC5]

def streamOf (codes : List ScanCode) : List UInt8 := codes.flatMap ScanCode.bytes

/-- The key code that the table of ADB codes has for `Pause`. -/
def pauseKeyCode : KeyCode := 0x6f

namespace ApplePS2Keyboard

/-- The parser takes the byte as a scan code of its own. -/
def TakenAlone (k : ApplePS2Keyboard) (scanCode : UInt8) : Prop :=
  scanCode ≠ kSCExtend ∧ scanCode ≠ kSCPause ∧ k.extendCount = 0

/-- What the parser makes of a sequence of scan codes. -/
structure Parses (k : ApplePS2Keyboard) (codes : List ScanCode) : Prop where
  complete : ∀ pre post, codes = pre ++ post → (k.receive (streamOf pre)).extendCount = 0
  alone : ∀ pre c post, codes = pre ++ c :: post → 1 < c.bytes.length →
    ∀ xs b ys, c.bytes = xs ++ b :: ys → ¬ (k.receive (streamOf pre ++ xs)).TakenAlone b
  pause : ∀ pre post, codes = pre ++ .pause true :: .pause false :: post → ∀ down,
    (k.receive (streamOf (pre ++ [.pause true, .pause false]))).sent.count
        (.keyboardEvent pauseKeyCode.adbKeyCode down) =
      (k.receive (streamOf pre)).sent.count (.keyboardEvent pauseKeyCode.adbKeyCode down) + 1

variable {k : ApplePS2Keyboard}

theorem receive_append (xs ys : List UInt8) : k.receive (xs ++ ys) = (k.receive xs).receive ys :=
  List.foldl_append

theorem dispatchExtended_extendCount (b : UInt8) :
    (k.dispatchExtended b).1.extendCount = k.extendCount := by
  rw [dispatchExtended_eq, foldl_drive_extendCount]

/-- No extended code converts the last byte of `Pause`, pressed or released. -/
theorem receive_pause (hcount : k.extendCount = 0) (down : Bool) :
    k.receive (ScanCode.pause down).bytes = k := by
  have hbytes : (ScanCode.pause down).bytes = KeyEvent.scanCodes ⟨pauseKey, down⟩ := by
    cases down <;> rfl
  rw [hbytes, receive_scanCodes hcount]
  rfl

/-- A complete scan code leaves no byte outstanding. -/
theorem receive_bytes_extendCount (hcount : k.extendCount = 0) (c : ScanCode) :
    (k.receive c.bytes).extendCount = 0 := by
  cases c with
  | single b =>
    show (k.dispatchKeyboardEventWithScancode b).1.extendCount = 0
    simp only [dispatchKeyboardEventWithScancode, if_neg b.2.1, if_neg b.2.2, if_pos hcount]
    rw [dispatchSingle_eq, foldl_drive_extendCount, hcount]
  | extended b =>
    rw [ScanCode.bytes, receive_extended k b.1 b.2, dispatchExtended_extendCount]
  | pause down => rw [receive_pause hcount, hcount]

theorem receive_streamOf_extendCount (hcount : k.extendCount = 0) (codes : List ScanCode) :
    (k.receive (streamOf codes)).extendCount = 0 := by
  induction codes generalizing k with
  | nil => exact hcount
  | cons c codes ih =>
    rw [streamOf, List.flatMap_cons, receive_append]
    exact ih (receive_bytes_extendCount hcount c)

/-- A code with a prefix has its other bytes taken for what the prefix announces. -/
theorem not_takenAlone {c : ScanCode} (hlength : 1 < c.bytes.length) {xs ys : List UInt8}
    {b : UInt8} (hbytes : c.bytes = xs ++ b :: ys) : ¬ (k.receive xs).TakenAlone b := by
  rintro ⟨hextend, hpause, hcount⟩
  cases c with
  | single b => simp [ScanCode.bytes] at hlength
  | extended x =>
    match xs, hbytes with
    | [], hbytes => exact hextend (List.cons.inj hbytes).1.symm
    | [_], hbytes =>
      obtain ⟨rfl, -⟩ := List.cons.inj hbytes
      cases hcount
    | _ :: _ :: _, hbytes => simp [ScanCode.bytes] at hbytes
  | pause down =>
    cases down <;>
      match xs, hbytes with
      | [], hbytes => exact hpause (List.cons.inj hbytes).1.symm
      | [_], hbytes =>
        rw [← (List.cons.inj hbytes).1] at hcount
        cases hcount
      | [_, _], hbytes =>
        obtain ⟨hfirst, hbytes⟩ := List.cons.inj hbytes
        rw [← hfirst, ← (List.cons.inj hbytes).1] at hcount
        cases hcount
      | _ :: _ :: _ :: _, hbytes => simp [ScanCode.bytes] at hbytes

/-- From the start of a scan code the bytes are framed in every order of the codes, and
the parser does what it is said to do as long as `Pause` is not pressed. -/
theorem parses_iff (hcount : k.extendCount = 0) (codes : List ScanCode) :
    k.Parses codes ↔ ¬ [.pause true, .pause false] <:+: codes := by
  constructor
  · rintro hparses ⟨pre, post, rfl⟩
    have hpre := receive_streamOf_extendCount hcount pre
    have hcounted := hparses.pause pre post (by simp) true
    have hpress : k.receive (streamOf (pre ++ [.pause true, .pause false])) =
        k.receive (streamOf pre) := by
      have hstream : streamOf (pre ++ [.pause true, .pause false]) =
          streamOf pre ++ ((ScanCode.pause true).bytes ++ (ScanCode.pause false).bytes) := by
        simp [streamOf]
      rw [hstream, receive_append, receive_append, receive_pause hpre, receive_pause hpre]
    rw [hpress] at hcounted
    omega
  · intro hnone
    refine ⟨?_, ?_, ?_⟩
    · intro pre _ _
      exact receive_streamOf_extendCount hcount pre
    · intro pre c _ _ hlength xs b ys hbytes
      rw [receive_append]
      exact not_takenAlone hlength hbytes
    · intro pre post hcodes
      exact absurd ⟨pre, post, by rw [hcodes]; simp⟩ hnone

/-- The right control key held over the single bytes of `A`. -/
theorem rightCtrlA_parses :
    (init ⟨false, false, true⟩).Parses
      [.extended ⟨0x1D, by decide⟩, .single ⟨0x1E, by decide⟩, .single ⟨0x9E, by decide⟩,
        .extended ⟨0x9D, by decide⟩] :=
  (parses_iff rfl _).mpr (by decide)

/-- A press of `Pause` at the start sends nothing. -/
theorem pausePress_not_parses :
    ¬ (init ⟨false, false, true⟩).Parses [.pause true, .pause false] := by
  intro hparses
  exact absurd (hparses.pause [] [] rfl true) (by decide)

end ApplePS2Keyboard
end Keyboard
