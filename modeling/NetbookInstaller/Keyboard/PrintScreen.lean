import NetbookInstaller.Keyboard.StuckKeys

/-! A press of `PrintScreen` and its release. The chord it stands for is filtered by the
autorepeat test when it goes down, and by nothing when it goes up. -/
namespace Keyboard

open Transition

namespace ApplePS2Keyboard

/-- The press and the release cancel in the bit vector, and no key goes up that did not
go down. -/
def CancelsOut (k pressed released : ApplePS2Keyboard) : Prop :=
  released.keyBitVector = k.keyBitVector ∧
    ∃ downs ups, keyEvents pressed.sent = keyEvents k.sent ++ downs ∧
      keyEvents released.sent = keyEvents pressed.sent ++ ups ∧
      ∀ adb, ⟨adb, false⟩ ∈ ups → ⟨adb, true⟩ ∈ downs

variable {k : ApplePS2Keyboard}

/-- Lines that go down and up again cancel out exactly when none of them was down. -/
theorem foldl_drive_cancelsOut {ls : List Line} (hkeyed : ∀ l ∈ ls, ∃ n, l = .keyed n) :
    k.CancelsOut (ls.foldl (drive true) k) (ls.foldl (drive false) (ls.foldl (drive true) k)) ↔
      ∀ n, .keyed n ∈ ls → ¬ k.IsKeydown n := by
  constructor
  · rintro ⟨hbits, -⟩ n hn hdown
    have hreleased : ¬ (ls.foldl (drive false) (ls.foldl (drive true) k)).IsKeydown n := by
      rw [foldl_drive_isKeydown, if_pos hn]
      simp
    apply hreleased
    rw [IsKeydown, hbits]
    exact hdown
  · intro hup
    refine ⟨?_, ?_⟩
    · apply keyBitVector_ext
      intro n
      rw [Bool.eq_iff_iff]
      show ApplePS2Keyboard.IsKeydown _ n ↔ k.IsKeydown n
      rw [foldl_drive_isKeydown, foldl_drive_isKeydown]
      by_cases hn : .keyed n ∈ ls
      · simp [hn, hup n hn]
      · simp [hn]
    · obtain ⟨downs, hdowns, -⟩ := foldl_drive_keyEvents k true ls
      obtain ⟨ups, hups, hfrom⟩ := foldl_drive_keyEvents (ls.foldl (drive true) k) false ls
      refine ⟨downs, ups, hdowns, hups, ?_⟩
      intro adb hmem
      obtain ⟨l, hl, hadb⟩ := hfrom _ hmem
      obtain ⟨n, rfl⟩ := hkeyed l hl
      obtain rfl : n.adbKeyCode = adb := Option.some.inj hadb
      obtain ⟨es, hes, hdown⟩ := foldl_drive_reports hl rfl fun m hm => by
        rw [← Line.keyed.inj hm]
        exact hup n hl
      rw [← List.append_cancel_left (hes.symm.trans hdowns)]
      exact hdown

/-- The key codes of the chord, as the parser converts them. -/
def chordKeyCodes (settings : Settings) : List KeyCode :=
  (printScreenKeys settings.saveSS).map (singleKeyCode settings)

theorem chord_lines : ∀ settings : Settings,
    extendedLines settings 0x37 = (chordKeyCodes settings).map .keyed := by
  rintro ⟨emacsMode, macintoshMode, saveSS⟩
  cases emacsMode <;> cases macintoshMode <;> cases saveSS <;> decide

theorem receive_printScreen (down : Bool) :
    k.receive [kSCExtend, KeyCode.scanCode 0x37 down] =
      ((chordKeyCodes k.settings).map .keyed).foldl (drive down) { k with extendCount := 0 } := by
  rw [receive_extended _ _ (by cases down <;> decide), dispatchExtended_eq, keyCodeOf_scanCode,
    goingDown_scanCode, chord_lines]

/-- `PrintScreen` pressed and released, whatever is held and set, cancels out exactly
when no key of its chord is held. -/
theorem printScreen_cancelsOut_iff (k : ApplePS2Keyboard) :
    k.CancelsOut (k.receive [0xE0, 0x37]) ((k.receive [0xE0, 0x37]).receive [0xE0, 0xB7]) ↔
      ∀ keyCode ∈ chordKeyCodes k.settings, kbvIsKeydown keyCode k.keyBitVector = false := by
  have hpress : k.receive [0xE0, 0x37] =
      ((chordKeyCodes k.settings).map .keyed).foldl (drive true) { k with extendCount := 0 } :=
    receive_printScreen true
  have hcount : (k.receive [0xE0, 0x37]).extendCount = 0 := by
    rw [hpress, foldl_drive_extendCount]
  have hsettings : (k.receive [0xE0, 0x37]).settings = k.settings := by
    rw [hpress, foldl_drive_settings]
  have hrelease : (k.receive [0xE0, 0x37]).receive [0xE0, 0xB7] =
      ((chordKeyCodes k.settings).map .keyed).foldl (drive false) (k.receive [0xE0, 0x37]) := by
    have hpassed : { k.receive [0xE0, 0x37] with extendCount := 0 } = k.receive [0xE0, 0x37] := by
      rw [← hcount]
    rw [← hsettings, ← hpassed]
    exact receive_printScreen false
  rw [hrelease, hpress]
  refine (foldl_drive_cancelsOut (k := { k with extendCount := 0 }) (by simp)).trans ?_
  simp [IsKeydown]

/-- The left shift key is held over a press and a release of `PrintScreen`. -/
theorem shiftHeld_not_cancelsOut :
    ¬ ((init ⟨false, false, true⟩).receive [0x2A]).CancelsOut
      ((init ⟨false, false, true⟩).receive [0x2A, 0xE0, 0x37])
      ((init ⟨false, false, true⟩).receive [0x2A, 0xE0, 0x37, 0xE0, 0xB7]) := by
  rintro ⟨hbits, -⟩
  exact absurd (congrFun hbits 1) (by decide)

end ApplePS2Keyboard
end Keyboard
