import NetbookInstaller.Keyboard.Scancode

/-! A key code of the bit vector, and an ADB key code, is down only as long as one of
the keys that drive it is. -/
namespace Keyboard

open Transition

/-- The key events dispatched, as edges of their ADB key codes. -/
def keyEvents (sent : List Sent) : List (Edge UInt8) :=
  sent.filterMap fun
    | .keyboardEvent adbKeyCode goingDown => some ⟨adbKeyCode, goingDown⟩
    | .sleepNow => none

theorem keyEvents_append (xs ys : List Sent) :
    keyEvents (xs ++ ys) = keyEvents xs ++ keyEvents ys := List.filterMap_append

namespace ApplePS2Keyboard

/-- The last event of an ADB key code was a down one. -/
def IsDown (k : ApplePS2Keyboard) (adbKeyCode : UInt8) : Prop :=
  level adbKeyCode (keyEvents k.sent) = true

def IsKeydown (k : ApplePS2Keyboard) (n : KeyCode) : Prop := kbvIsKeydown n k.keyBitVector = true

theorem drive_isKeydown (k : ApplePS2Keyboard) (down : Bool) (l : Line) (n : KeyCode) :
    (k.drive down l).IsKeydown n ↔ if l = .keyed n then down = true else k.IsKeydown n := by
  cases l with
  | keyed m =>
    simp only [drive, changeKey, IsKeydown, dispatchKeyboardEvent, Line.keyed.injEq]
    split
    next h =>
      simp only [Bool.and_eq_true] at h
      split
      next heq => simp [h.1, ← heq, h.2]
      next => exact Iff.rfl
    next =>
      by_cases heq : m = n
      · cases down <;> simp [heq]
      · cases down <;> simp [heq, Ne.symm heq]
  | direct adbKeyCode => exact Iff.rfl
  | sleep => cases down <;> exact Iff.rfl

theorem foldl_drive_isKeydown (k : ApplePS2Keyboard) (down : Bool) (ls : List Line) (n : KeyCode) :
    (ls.foldl (drive down) k).IsKeydown n ↔
      if .keyed n ∈ ls then down = true else k.IsKeydown n := by
  induction ls generalizing k with
  | nil => exact Iff.rfl
  | cons l ls ih =>
    rw [List.foldl_cons, ih, drive_isKeydown]
    by_cases hl : l = .keyed n
    · simp [hl]
    · simp [hl, Ne.symm hl]

/-- A line sends one event of its ADB key code, or none when a key is autorepeated. -/
def emitted (k : ApplePS2Keyboard) (down : Bool) : Line → List (Edge UInt8)
  | .keyed keyCode =>
    if down && kbvIsKeydown keyCode k.keyBitVector then [] else [⟨keyCode.adbKeyCode, down⟩]
  | .direct adbKeyCode => [⟨adbKeyCode, down⟩]
  | .sleep => []

theorem drive_keyEvents (k : ApplePS2Keyboard) (down : Bool) (l : Line) :
    keyEvents (k.drive down l).sent = keyEvents k.sent ++ k.emitted down l := by
  cases l with
  | keyed n =>
    simp only [drive, changeKey, emitted]
    split
    · rw [List.append_nil]
    · exact keyEvents_append _ _
  | direct adbKeyCode => exact keyEvents_append _ _
  | sleep =>
    cases down with
    | false => exact (List.append_nil _).symm
    | true => exact keyEvents_append _ _

theorem source_of_emitted {k : ApplePS2Keyboard} {down : Bool} {l : Line} {e : Edge UInt8} (he : e ∈ k.emitted down l) :
    l.adbKeyCode = some e.source := by
  cases l with
  | keyed n =>
    rw [emitted] at he
    split at he
    · cases he
    · rw [List.mem_singleton.mp he]
      rfl
  | direct adb =>
    rw [List.mem_singleton.mp he]
    rfl
  | sleep => cases he

/-- Driven lines send events of their own ADB key codes. -/
theorem foldl_drive_keyEvents (k : ApplePS2Keyboard) (down : Bool) (ls : List Line) :
    ∃ es, keyEvents (ls.foldl (drive down) k).sent = keyEvents k.sent ++ es ∧
      ∀ e ∈ es, ∃ l ∈ ls, l.adbKeyCode = some e.source := by
  induction ls generalizing k with
  | nil => exact ⟨[], (List.append_nil _).symm, nofun⟩
  | cons l ls ih =>
    obtain ⟨es, hes, hfrom⟩ := ih (k.drive down l)
    refine ⟨k.emitted down l ++ es, ?_, ?_⟩
    · rw [List.foldl_cons, hes, drive_keyEvents, List.append_assoc]
    · intro e he
      rcases List.mem_append.mp he with he | he
      · exact ⟨l, List.mem_cons_self, source_of_emitted he⟩
      · obtain ⟨l', hl', hsource⟩ := hfrom e he
        exact ⟨l', List.mem_cons_of_mem l hl', hsource⟩

/-- A line that the bit vector does not hold back is reported down. -/
theorem foldl_drive_reports {k : ApplePS2Keyboard} {ls : List Line} {l : Line} {adb : UInt8}
    (hl : l ∈ ls) (hadb : l.adbKeyCode = some adb)
    (hfree : ∀ n, l = .keyed n → ¬ k.IsKeydown n) :
    ∃ es, keyEvents (ls.foldl (drive true) k).sent = keyEvents k.sent ++ es ∧
      ⟨adb, true⟩ ∈ es := by
  induction ls generalizing k with
  | nil => cases hl
  | cons l' ls ih =>
    rw [List.foldl_cons]
    by_cases hsame : l = l'
    · subst hsame
      have hemitted : k.emitted true l = [⟨adb, true⟩] := by
        cases l with
        | keyed n =>
          have hn : n.adbKeyCode = adb := Option.some.inj hadb
          have hup : kbvIsKeydown n k.keyBitVector = false := by
            rw [← Bool.not_eq_true]
            exact hfree n rfl
          simp [emitted, hup, hn]
        | direct a =>
          have ha : a = adb := Option.some.inj hadb
          rw [emitted, ha]
        | sleep => cases hadb
      obtain ⟨es, hes, -⟩ := foldl_drive_keyEvents (k.drive true l) true ls
      refine ⟨⟨adb, true⟩ :: es, ?_, List.mem_cons_self⟩
      rw [hes, drive_keyEvents, hemitted, List.append_assoc]
      rfl
    · have hrest : l ∈ ls := (List.mem_cons.mp hl).resolve_left hsame
      have hfree' : ∀ n, l = .keyed n → ¬ (k.drive true l').IsKeydown n := by
        rintro n rfl
        rw [drive_isKeydown, if_neg (Ne.symm hsame)]
        exact hfree n rfl
      obtain ⟨es, hes, hmem⟩ := ih hrest hfree'
      refine ⟨k.emitted true l' ++ es, ?_, List.mem_append_right _ hmem⟩
      rw [hes, drive_keyEvents, List.append_assoc]

theorem drive_rise {k : ApplePS2Keyboard} {l : Line} {adb : UInt8}
    (h : (k.drive true l).IsDown adb) : k.IsDown adb ∨ l.adbKeyCode = some adb := by
  rw [IsDown, drive_keyEvents] at h
  have hsent : ∀ a, level adb (keyEvents k.sent ++ [⟨a, true⟩]) = true → k.IsDown adb ∨ a = adb := by
    intro a ha
    rw [level_append_singleton] at ha
    split at ha
    next heq => exact .inr heq
    next => exact .inl ha
  cases l with
  | keyed n =>
    simp only [emitted] at h
    split at h
    next =>
      rw [List.append_nil] at h
      exact .inl h
    next => exact (hsent _ h).imp_right (congrArg some)
  | direct a => exact (hsent a h).imp_right (congrArg some)
  | sleep =>
    rw [emitted, List.append_nil] at h
    exact .inl h

theorem drive_fall {k : ApplePS2Keyboard} {l : Line} {adb : UInt8}
    (h : (k.drive false l).IsDown adb) : k.IsDown adb ∧ l.adbKeyCode ≠ some adb := by
  rw [IsDown, drive_keyEvents] at h
  have hsent : ∀ a, level adb (keyEvents k.sent ++ [⟨a, false⟩]) = true → k.IsDown adb ∧ a ≠ adb := by
    intro a ha
    rw [level_append_singleton] at ha
    split at ha
    next => cases ha
    next hne => exact ⟨ha, hne⟩
  cases l with
  | keyed n => exact (hsent _ h).imp_right fun hne => by simpa [Line.adbKeyCode] using hne
  | direct a => exact (hsent a h).imp_right fun hne => by simpa [Line.adbKeyCode] using hne
  | sleep =>
    rw [emitted, List.append_nil] at h
    exact ⟨h, by simp [Line.adbKeyCode]⟩

section Lines
variable {k : ApplePS2Keyboard} {p : ApplePS2Keyboard → Prop} {feeds : Line → Prop} {ls : List Line}

/-- What a line that goes down does to one signal, all lines of a key do. -/
theorem foldl_rise (hrise : ∀ k l, p (ApplePS2Keyboard.drive true k l) → p k ∨ feeds l)
    (h : p (ls.foldl (drive true) k)) : p k ∨ ∃ l ∈ ls, feeds l := by
  induction ls generalizing k with
  | nil => exact .inl h
  | cons l ls ih =>
    rcases ih h with hk | ⟨l', hl', hfeeds⟩
    · exact (hrise k l hk).imp_right fun hl => ⟨l, List.mem_cons_self, hl⟩
    · exact .inr ⟨l', List.mem_cons_of_mem l hl', hfeeds⟩

theorem foldl_fall (hfall : ∀ k l, p (ApplePS2Keyboard.drive false k l) → p k ∧ ¬ feeds l)
    (h : p (ls.foldl (drive false) k)) : p k ∧ ¬ ∃ l ∈ ls, feeds l := by
  induction ls generalizing k with
  | nil => exact ⟨h, by simp⟩
  | cons l ls ih =>
    obtain ⟨hk, hls⟩ := ih h
    obtain ⟨hk', hl⟩ := hfall k l hk
    refine ⟨hk', ?_⟩
    rintro ⟨l', hl', hfeeds⟩
    rcases List.mem_cons.mp hl' with rfl | hmem
    · exact hl hfeeds
    · exact hls ⟨l', hmem, hfeeds⟩

end Lines

variable (settings : Settings)

/-- The bit of a key code belongs to the keys with that key code. -/
theorem isKeydown_drives : Drives (keyStep settings) IsKeydown
    fun key => { n | ∃ l ∈ key.lines settings, l = .keyed n } where
  rise k key n h := by
    rw [keyStep, foldl_drive_isKeydown] at h
    split at h
    next hmem => exact .inr ⟨_, hmem, rfl⟩
    next => exact .inl h
  fall k key n h := by
    rw [keyStep, foldl_drive_isKeydown] at h
    split at h
    next => cases h
    next hmem =>
      refine ⟨h, ?_⟩
      rintro ⟨_, hl, rfl⟩
      exact hmem hl

/-- An ADB key code belongs to the keys that send it. -/
theorem isDown_drives : Drives (keyStep settings) IsDown
    fun key => { adb | ∃ l ∈ key.lines settings, l.adbKeyCode = some adb } where
  rise _ _ adb h := foldl_rise (p := (IsDown · adb)) (fun _ _ => drive_rise) h
  fall _ _ adb h := foldl_fall (p := (IsDown · adb)) (fun _ _ => drive_fall) h

/-- Once all keys of a stream of complete scan codes are released, no key is down, for
the driver and for its superclass. -/
theorem no_stuck_key (es : List KeyEvent) (hreleased : ∀ e ∈ es, level e.source es = false) :
    ((init settings).receive (es.flatMap KeyEvent.scanCodes)).keyBitVector = noKeys ∧
      ∀ adb, level adb
        (keyEvents ((init settings).receive (es.flatMap KeyEvent.scanCodes)).sent) = false := by
  rw [receive_stream rfl]
  constructor
  · apply eq_noKeys
    intro n
    rw [← Bool.not_eq_true]
    exact (isKeydown_drives settings).all_off (fun n => by simp [IsKeydown, init]) hreleased
  · intro adb
    rw [← Bool.not_eq_true]
    exact (isDown_drives settings).all_off (fun adb => by simp [IsDown, init, keyEvents]) hreleased

end ApplePS2Keyboard

/-- `PrintScreen` goes down and up while the left alt key is held. -/
theorem printScreenOverAlt_no_stuck_key :
    ((ApplePS2Keyboard.init ⟨false, false, false⟩).receive
      [0x38, 0xE0, 0x37, 0xE0, 0xB7, 0xB8]).keyBitVector = noKeys ∧
    level 0x3a (keyEvents ((ApplePS2Keyboard.init ⟨false, false, false⟩).receive
      [0x38, 0xE0, 0x37, 0xE0, 0xB7, 0xB8]).sent) = false := by
  have h := ApplePS2Keyboard.no_stuck_key ⟨false, false, false⟩
    [⟨leftAlt, true⟩, ⟨printScreen, true⟩, ⟨printScreen, false⟩, ⟨leftAlt, false⟩] (by decide)
  exact ⟨h.1, h.2 0x3a⟩

end Keyboard
