import NetbookInstaller.Keyboard.StuckKeys
import NetbookInstaller.PS2.PowerState

/-! The keyboard driver across a sleep: what it keeps from before `kPS2C_DisableDevice`,
and when the scan codes after `kPS2C_EnableDevice` are understood. -/
namespace Keyboard

open Transition PS2

def kCBTranslateMode : UInt8 := 0x40
def kSCResend : UInt8 := 0xFE

/-- What the driver asks of the controller. -/
inductive KeyboardCommand where
  | setKeyboardEnable (enable : Bool)
  | setCommandByte (setBits clearBits : UInt8)
  | setLEDs (ledState : UInt8)
  deriving DecidableEq, Repr

structure PoweredKeyboard extends ApplePS2Keyboard where
  interruptHandlerInstalled : Bool
  ledState : UInt8
  commands : List KeyboardCommand

/-- A byte that the keyboard sends, or a call of the power-control handler. -/
inductive PowerAction where
  | scanCode (byte : UInt8)
  | powerControl (whatToDo : WhatToDo)
  deriving DecidableEq, Repr

/-- Acknowledges and resend requests are only logged. -/
def ApplePS2Keyboard.interruptOccurred (k : ApplePS2Keyboard) (scanCode : UInt8) :
    ApplePS2Keyboard :=
  if scanCode = kSCAcknowledge then k
  else if scanCode = kSCResend then k
  else (k.dispatchKeyboardEventWithScancode scanCode).1

def ApplePS2Keyboard.interrupts (k : ApplePS2Keyboard) (scanCodes : List UInt8) :
    ApplePS2Keyboard :=
  scanCodes.foldl ApplePS2Keyboard.interruptOccurred k

namespace PoweredKeyboard

/-- The driver behind `start`. -/
def start (settings : Settings) (ledState : UInt8) : PoweredKeyboard where
  toApplePS2Keyboard := .init settings
  interruptHandlerInstalled := true
  ledState
  commands := []

def setDevicePowerState (k : PoweredKeyboard) : WhatToDo → PoweredKeyboard
  | .disableDevice =>
    { k with
      commands := k.commands ++ [.setKeyboardEnable false,
        .setCommandByte kCBDisableKeyboardClock kCBEnableKeyboardIRQ]
      interruptHandlerInstalled := false }
  | .enableDevice =>
    { k with
      commands := k.commands ++ [.setLEDs k.ledState,
        .setCommandByte (kCBEnableKeyboardIRQ ||| kCBTranslateMode) kCBDisableKeyboardClock,
        .setKeyboardEnable true]
      interruptHandlerInstalled := true }

/-- Without a handler the controller drops the byte. -/
def step (k : PoweredKeyboard) : PowerAction → PoweredKeyboard
  | .scanCode byte =>
    if k.interruptHandlerInstalled then
      { k with toApplePS2Keyboard := k.toApplePS2Keyboard.interruptOccurred byte }
    else k
  | .powerControl whatToDo => k.setDevicePowerState whatToDo

def after (settings : Settings) (ledState : UInt8) (as : List PowerAction) : PoweredKeyboard :=
  as.foldl step (start settings ledState)

/-- A sleep, and the bytes that are lost in it. -/
def sleepCycle (lost : List UInt8) : List PowerAction :=
  .powerControl .disableDevice :: lost.map .scanCode ++ [.powerControl .enableDevice]

theorem foldl_lost {k : PoweredKeyboard} (h : k.interruptHandlerInstalled = false)
    (lost : List UInt8) : (lost.map PowerAction.scanCode).foldl step k = k := by
  induction lost with
  | nil => rfl
  | cons byte lost ih =>
    rw [List.map_cons, List.foldl_cons, step, if_neg (by simp [h])]
    exact ih

/-- The parser comes out of a sleep as it went in. -/
theorem after_sleepCycle (settings : Settings) (ledState : UInt8) (as : List PowerAction)
    (lost : List UInt8) :
    (after settings ledState (as ++ sleepCycle lost)).toApplePS2Keyboard =
      (after settings ledState as).toApplePS2Keyboard := by
  have happend : after settings ledState (as ++ sleepCycle lost) =
      ((lost.map PowerAction.scanCode).foldl step
        ((after settings ledState as).setDevicePowerState .disableDevice)).setDevicePowerState
          .enableDevice := by
    simp [after, sleepCycle, step]
  rw [happend, foldl_lost rfl]
  rfl

end PoweredKeyboard

/-- A line that some key stands for alone, or one of the eject key. -/
def Line.Known (settings : Settings) : Line → Prop
  | .keyed n => ∃ q : Key, q.lines settings = [.keyed n]
  | .direct adb => .direct adb ∈ eject.lines settings
  | .sleep => True

theorem keyedLines_known {settings : Settings} {code : KeyCode} {q : Key}
    (hq : q.lines settings = keyedLines code) : ∀ l ∈ keyedLines code, l.Known settings := by
  intro l hl
  unfold keyedLines at hl hq
  split at hl
  next => cases hl
  next hcode =>
    rw [List.mem_singleton] at hl
    rw [if_neg hcode] at hq
    exact hl ▸ ⟨q, hq⟩

/-- Two codes are prefixes, and these are the key codes of extended keys. -/
theorem known_single (settings : Settings) (code : KeyCode) :
    ∀ l ∈ singleLines settings code, l.Known settings := by
  unfold singleLines
  by_cases hright : code = 0x60
  · subst hright
    exact keyedLines_known (q := .extended ⟨0x1D, by decide⟩) rfl
  · by_cases halt : code = 0x61
    · subst halt
      cases hmac : settings.macintoshMode with
      | true =>
        apply keyedLines_known (q := .extended ⟨0x5c, by decide⟩)
        simp [Key.lines, extendedLines, extendedKeyCode, singleKeyCode, hmac]
      | false =>
        apply keyedLines_known (q := .extended ⟨0x38, by decide⟩)
        simp [Key.lines, extendedLines, extendedKeyCode, singleKeyCode, hmac]
    · exact keyedLines_known (q := .single ⟨code, hright, halt⟩) rfl

theorem known_extended (settings : Settings) (code : KeyCode) :
    ∀ l ∈ extendedLines settings code, l.Known settings := by
  intro l hl
  by_cases heject : code = 0x34
  · subst heject
    simp only [extendedLines, if_true, List.mem_cons, List.not_mem_nil, or_false] at hl
    rcases hl with rfl | rfl <;> simp [Line.Known, eject, Key.lines, extendedLines]
  · by_cases hprint : code = 0x37
    · rw [extendedLines, if_neg heject, if_pos hprint, List.mem_flatMap] at hl
      obtain ⟨c, -, hl⟩ := hl
      exact known_single settings c l hl
    · by_cases hsleep : code = 0x5f
      · subst hsleep
        have hlines : extendedLines settings 0x5f = [.sleep] := rfl
        rw [hlines, List.mem_singleton] at hl
        exact hl ▸ trivial
      · have hlines : extendedLines settings code =
            (extendedKeyCode settings code).toList.flatMap keyedLines := by
          rw [extendedLines, if_neg heject, if_neg hprint, if_neg hsleep, List.nil_append]
        have hprefix : code ≠ 0x60 ∧ code ≠ 0x61 := by
          constructor
          all_goals
            rintro rfl
            rw [hlines] at hl
            cases hl
        cases hcode : extendedKeyCode settings code with
        | none =>
          rw [hlines, hcode] at hl
          cases hl
        | some n =>
          have hone : extendedLines settings code = keyedLines n := by
            rw [hlines, hcode]
            exact List.flatMap_singleton _ _
          rw [hone] at hl
          exact keyedLines_known (q := .extended ⟨code, hprefix⟩) hone l hl

namespace ApplePS2Keyboard

/-- What can be said of the driver after any bytes. -/
structure Explained (settings : Settings) (k : ApplePS2Keyboard) : Prop where
  settings_eq : k.settings = settings
  keydown : ∀ n, k.IsKeydown n → (Line.keyed n).Known settings
  down : ∀ adb, k.IsDown adb →
    (∃ n : KeyCode, n.adbKeyCode = adb ∧ k.IsKeydown n) ∨ (Line.direct adb).Known settings

theorem Explained.drive {settings : Settings} {k : ApplePS2Keyboard} (h : Explained settings k)
    {l : Line} (hl : l.Known settings) (down : Bool) : Explained settings (k.drive down l) where
  settings_eq := by rw [drive_settings, h.settings_eq]
  keydown := by
    intro n hn
    rw [drive_isKeydown] at hn
    split at hn
    next heq => exact heq ▸ hl
    next => exact h.keydown n hn
  down := by
    intro adb hadb
    cases down with
    | false =>
      obtain ⟨hk, hne⟩ := drive_fall hadb
      rcases h.down adb hk with ⟨n, hn, hbit⟩ | hdirect
      · left
        refine ⟨n, hn, ?_⟩
        rw [drive_isKeydown, if_neg]
        · exact hbit
        · rintro rfl
          exact hne (congrArg some hn)
      · exact .inr hdirect
    | true =>
      rcases drive_rise hadb with hk | hline
      · rcases h.down adb hk with ⟨n, hn, hbit⟩ | hdirect
        · left
          refine ⟨n, hn, ?_⟩
          rw [drive_isKeydown]
          split
          · rfl
          · exact hbit
        · exact .inr hdirect
      · cases l with
        | keyed n =>
          left
          refine ⟨n, Option.some.inj hline, ?_⟩
          rw [drive_isKeydown, if_pos rfl]
        | direct a =>
          right
          have ha : a = adb := Option.some.inj hline
          exact ha ▸ hl
        | sleep => cases hline

theorem Explained.foldl_drive {settings : Settings} {down : Bool} {ls : List Line}
    (hls : ∀ l ∈ ls, l.Known settings) {k : ApplePS2Keyboard} (h : Explained settings k) :
    Explained settings (ls.foldl (ApplePS2Keyboard.drive down) k) := by
  induction ls generalizing k with
  | nil => exact h
  | cons l ls ih =>
    apply ih (fun l' hl' => hls l' (List.mem_cons_of_mem l hl'))
    exact h.drive (hls l List.mem_cons_self) down

theorem Explained.extendCount {settings : Settings} {k : ApplePS2Keyboard}
    (h : Explained settings k) (n : ℕ) : Explained settings { k with extendCount := n } :=
  ⟨h.settings_eq, h.keydown, h.down⟩

theorem Explained.interruptOccurred {settings : Settings} {k : ApplePS2Keyboard}
    (h : Explained settings k) (scanCode : UInt8) :
    Explained settings (k.interruptOccurred scanCode) := by
  unfold ApplePS2Keyboard.interruptOccurred dispatchKeyboardEventWithScancode
  dsimp only
  split_ifs
  · exact h
  · exact h
  · exact h.extendCount 1
  · exact h.extendCount 2
  · rw [dispatchSingle_eq, h.settings_eq]
    exact h.foldl_drive (known_single settings _)
  · exact h.extendCount _
  · rw [dispatchExtended_eq]
    apply (h.extendCount _).foldl_drive
    rw [← h.settings_eq]
    exact known_extended _ _

theorem explained_init (settings : Settings) : Explained settings (init settings) where
  settings_eq := rfl
  keydown := by
    intro n hn
    rw [IsKeydown, init, kbvIsKeydown_noKeys] at hn
    cases hn
  down := by
    intro adb hadb
    cases hadb

end ApplePS2Keyboard

theorem PoweredKeyboard.after_explained (settings : Settings) (ledState : UInt8)
    (as : List PowerAction) :
    (after settings ledState as).toApplePS2Keyboard.Explained settings := by
  induction as using List.reverseRecOn with
  | nil => exact ApplePS2Keyboard.explained_init settings
  | append_singleton as a ih =>
    rw [after, List.foldl_append]
    show (step (after settings ledState as) a).toApplePS2Keyboard.Explained settings
    cases a with
    | scanCode byte =>
      rw [step]
      split
      · exact ih.interruptOccurred byte
      · exact ih
    | powerControl whatToDo => cases whatToDo <;> exact ih

/-- No prefix is pending, no bit is set and no key is reported down. -/
structure ApplePS2Keyboard.Clean (k : ApplePS2Keyboard) : Prop where
  extendCount : k.extendCount = 0
  keyBitVector : k.keyBitVector = noKeys
  up : ∀ adb, ¬ k.IsDown adb

/-- The `i`th event of a stream is the first make code of its key. -/
def FirstMake (es : List KeyEvent) (i : Fin es.length) : Prop :=
  (es.get i).rising = true ∧ es.get i ∉ es.take i

/-- Of the key codes that a key stands for, one is not that of another key held. -/
def FreeLine (settings : Settings) (es : List KeyEvent) (key : Key) : Prop :=
  ∃ l ∈ key.lines settings, l.adbKeyCode.isSome = true ∧
    ∀ q, q ≠ key → level q es = true → l ∉ q.lines settings

/-- No byte of the stream is taken for an answer to a command. -/
def NoAnswers (es : List KeyEvent) : Prop :=
  ∀ b ∈ es.flatMap KeyEvent.scanCodes, b ≠ kSCAcknowledge ∧ b ≠ kSCResend

/-- The streams of keys that do not get in each other's way: with its first make code, a
key that the driver knows stands for a key code that no other key holds. -/
structure Undisturbed (settings : Settings) (es : List KeyEvent) : Prop where
  noAnswers : NoAnswers es
  free : ∀ i : Fin es.length, FirstMake es i →
    (∃ l ∈ (es.get i).source.lines settings, l.adbKeyCode.isSome = true) →
    FreeLine settings (es.take i) (es.get i).source

/-- The key events that the driver dispatches for some bytes. -/
def ApplePS2Keyboard.keyEventsFor (k : ApplePS2Keyboard) (bytes : List UInt8) :
    List (Edge UInt8) :=
  (keyEvents (k.interrupts bytes).sent).drop (keyEvents k.sent).length

/-- What is wanted of the driver `k` for the scan codes after a sleep. -/
structure Resynchronised (k : ApplePS2Keyboard) (es : List KeyEvent) : Prop where
  framed : ∀ e, es.head? = some e →
    k.interrupts e.scanCodes = keyStep k.settings { k with extendCount := 0 } e
  pressed : ∀ i : Fin es.length, FirstMake es i →
    (∃ l ∈ (es.get i).source.lines k.settings, l.adbKeyCode.isSome = true) →
    ∃ l ∈ (es.get i).source.lines k.settings, ∃ adb, l.adbKeyCode = some adb ∧
      ⟨adb, true⟩ ∈ (k.interrupts ((es.take i).flatMap KeyEvent.scanCodes)).keyEventsFor
        (es.get i).scanCodes
  released : ∀ adb, k.IsDown adb →
    (k.keyEventsFor (es.flatMap KeyEvent.scanCodes)).find? (·.source = adb) ≠ some ⟨adb, true⟩

namespace ApplePS2Keyboard

theorem interrupts_eq_receive (k : ApplePS2Keyboard) {bytes : List UInt8}
    (h : ∀ b ∈ bytes, b ≠ kSCAcknowledge ∧ b ≠ kSCResend) :
    k.interrupts bytes = k.receive bytes := by
  induction bytes generalizing k with
  | nil => rfl
  | cons b bytes ih =>
    obtain ⟨hack, hresend⟩ := h b List.mem_cons_self
    have hb : k.interruptOccurred b = (k.dispatchKeyboardEventWithScancode b).1 := by
      rw [interruptOccurred, if_neg hack, if_neg hresend]
    show (k.interruptOccurred b).interrupts bytes = _
    rw [hb]
    exact ih _ fun c hc => h c (List.mem_cons_of_mem b hc)

theorem keyEventsFor_eq {k : ApplePS2Keyboard} {bytes : List UInt8} {es : List (Edge UInt8)}
    (h : keyEvents (k.interrupts bytes).sent = keyEvents k.sent ++ es) :
    k.keyEventsFor bytes = es := by
  rw [keyEventsFor, h, List.drop_left]

theorem Clean.eq {k : ApplePS2Keyboard} (h : k.Clean) : { k with extendCount := 0 } = k := by
  rw [← h.extendCount]

theorem interrupts_stream {k : ApplePS2Keyboard} (h : k.Clean) (es : List KeyEvent)
    (hanswers : NoAnswers es) :
    k.interrupts (es.flatMap KeyEvent.scanCodes) = es.foldl (keyStep k.settings) k := by
  rw [interrupts_eq_receive k hanswers, receive_stream h.extendCount]

/-- On a clean driver the first make code of a key is reported. -/
theorem Clean.pressed {k : ApplePS2Keyboard} (h : k.Clean) {es : List KeyEvent}
    (hes : Undisturbed k.settings es) (i : Fin es.length) (hfirst : FirstMake es i)
    (hknown : ∃ l ∈ (es.get i).source.lines k.settings, l.adbKeyCode.isSome = true) :
    ∃ l ∈ (es.get i).source.lines k.settings, ∃ adb, l.adbKeyCode = some adb ∧
      ⟨adb, true⟩ ∈ (k.interrupts ((es.take i).flatMap KeyEvent.scanCodes)).keyEventsFor
        (es.get i).scanCodes := by
  obtain ⟨hdown, hnew⟩ := hfirst
  obtain ⟨l, hl, hadb, hfree⟩ := hes.free i ⟨hdown, hnew⟩ hknown
  obtain ⟨adb, hadb⟩ := Option.isSome_iff_exists.mp hadb
  refine ⟨l, hl, adb, hadb, ?_⟩
  have hbefore : k.interrupts ((es.take i).flatMap KeyEvent.scanCodes) =
      (es.take i).foldl (keyStep k.settings) k := by
    apply interrupts_stream h
    intro b hb
    obtain ⟨e, he, hb⟩ := List.mem_flatMap.mp hb
    exact hes.noAnswers b (List.mem_flatMap.mpr ⟨e, List.mem_of_mem_take he, hb⟩)
  have hsettings : ((es.take i).foldl (keyStep k.settings) k).settings = k.settings :=
    foldl_keyStep_settings k _ _
  have hcount : ((es.take i).foldl (keyStep k.settings) k).extendCount = 0 := by
    rw [foldl_keyStep_extendCount, h.extendCount]
  have hcodes : ((es.take i).foldl (keyStep k.settings) k).interrupts (es.get i).scanCodes =
      ((es.get i).source.lines k.settings).foldl (drive true)
        ((es.take i).foldl (keyStep k.settings) k) := by
    rw [interrupts_eq_receive, receive_scanCodes hcount, hsettings, keyStep, hdown]
    intro b hb
    exact hes.noAnswers b (List.mem_flatMap.mpr ⟨es.get i, List.get_mem es i, hb⟩)
  obtain ⟨new, hsent, hmem⟩ := foldl_drive_reports hl hadb (k := (es.take i).foldl _ k) (by
    -- a bit that is set belongs to a key that is held, and the key itself is not held yet
    rintro n rfl hbit
    obtain ⟨q, hq, hline⟩ := (isKeydown_drives k.settings).exists_level
      (fun m => by simp [IsKeydown, h.keyBitVector]) hbit
    obtain ⟨l', hl', rfl⟩ := hline
    by_cases hqi : q = (es.get i).source
    · subst hqi
      apply hnew
      have hrise := exists_rising_of_level hq
      have hevent : es.get i = ⟨(es.get i).source, true⟩ := by
        rw [← hdown]
      rw [hevent]
      exact hrise
    · exact hfree q hqi hq hl')
  rw [hbefore, keyEventsFor_eq (hcodes ▸ hsent)]
  exact hmem

theorem Clean.resynchronised {k : ApplePS2Keyboard} (h : k.Clean) {es : List KeyEvent}
    (hes : Undisturbed k.settings es) : Resynchronised k es where
  framed := by
    intro e he
    have hmem := List.mem_of_mem_head? he
    rw [interrupts_eq_receive, receive_scanCodes h.extendCount, h.eq]
    intro b hb
    exact hes.noAnswers b (List.mem_flatMap.mpr ⟨e, hmem, hb⟩)
  pressed := fun i hfirst hknown => h.pressed hes i hfirst hknown
  released := fun adb hdown => absurd hdown (h.up adb)

theorem scanCodes_true_noAnswers (q : Key) : NoAnswers [⟨q, true⟩] := by
  have hmake : ∀ c : KeyCode, c.scanCode true ≠ kSCAcknowledge ∧ c.scanCode true ≠ kSCResend := by
    decide
  intro b hb
  rw [List.flatMap_singleton] at hb
  cases q with
  | single c =>
    simp only [KeyEvent.scanCodes, Key.scanCodes, List.mem_singleton] at hb
    exact hb ▸ hmake c.code
  | extended c =>
    simp only [KeyEvent.scanCodes, Key.scanCodes, List.mem_cons, List.not_mem_nil, or_false] at hb
    rcases hb with rfl | rfl
    · decide
    · exact hmake c.code
  | pause useless c =>
    simp only [KeyEvent.scanCodes, Key.scanCodes, List.mem_cons, List.not_mem_nil, or_false] at hb
    rcases hb with rfl | rfl | rfl
    · decide
    · exact hmake useless.code
    · exact hmake c.code

/-- One key that goes down is in nobody's way. -/
theorem undisturbed_one (settings : Settings) (q : Key) : Undisturbed settings [⟨q, true⟩] where
  noAnswers := scanCodes_true_noAnswers q
  free := by
    rintro ⟨i, hi⟩ - ⟨l, hl, hadb⟩
    have hzero : i = 0 := by simpa using hi
    subst hzero
    exact ⟨l, hl, hadb, fun q' _ hq' => by cases hq'⟩

/-- If one key after the sleep is always understood, no bit is set. -/
theorem noKeys_of_resynchronised {settings : Settings} {k : ApplePS2Keyboard}
    (hk : Explained settings k) (h : ∀ q : Key, Resynchronised k [⟨q, true⟩]) :
    k.keyBitVector = noKeys := by
  apply eq_noKeys
  intro n
  rw [← Bool.not_eq_true]
  intro hbit
  obtain ⟨q, hq⟩ := hk.keydown n hbit
  rw [← hk.settings_eq] at hq
  have hframed := (h q).framed ⟨q, true⟩ rfl
  obtain ⟨l, hl, adb, hadb, hmem⟩ := (h q).pressed ⟨0, by simp⟩ ⟨rfl, by simp⟩
    ⟨.keyed n, by simp [hq], rfl⟩
  have hsame : keyStep k.settings { k with extendCount := 0 } ⟨q, true⟩ =
      { k with extendCount := 0 } := by
    have hbit' : kbvIsKeydown n k.keyBitVector = true := hbit
    simp [keyStep, hq, drive, changeKey, hbit']
  have hnone : k.keyEventsFor (KeyEvent.scanCodes ⟨q, true⟩) = [] := by
    apply keyEventsFor_eq
    rw [hframed, hsame, List.append_nil]
  have hmem' : ⟨adb, true⟩ ∈ k.keyEventsFor (KeyEvent.scanCodes ⟨q, true⟩) := hmem
  rw [hnone] at hmem'
  cases hmem'

/-- A pending prefix is taken for that of the `A` key. -/
theorem extendCount_of_resynchronised {k : ApplePS2Keyboard} (hbits : k.keyBitVector = noKeys)
    (h : Resynchronised k [⟨aKey, true⟩]) : k.extendCount = 0 := by
  by_contra hcount
  have hframed := h.framed ⟨aKey, true⟩ rfl
  have hcode : KeyEvent.scanCodes ⟨aKey, true⟩ = [0x1e] := by decide
  have hown : (keyStep k.settings { k with extendCount := 0 } ⟨aKey, true⟩).IsKeydown 0x1e := by
    show (drive true { k with extendCount := 0 } (.keyed 0x1e)).IsKeydown 0x1e
    rw [drive_isKeydown, if_pos rfl]
  have hother : ¬ (k.interrupts [0x1e]).IsKeydown 0x1e := by
    have hbyte : k.interrupts [0x1e] = (if k.extendCount - 1 ≠ 0 then
        ({ k with extendCount := k.extendCount - 1 }, false)
        else { k with extendCount := k.extendCount - 1 }.dispatchExtended 0x1e).1 := by
      rw [interrupts_eq_receive k (by simp [kSCAcknowledge, kSCResend])]
      simp [receive, dispatchKeyboardEventWithScancode, hcount, kSCExtend, kSCPause]
    rw [hbyte]
    split
    · simp [IsKeydown, hbits]
    · rw [dispatchExtended_eq]
      show ¬ IsKeydown { k with extendCount := k.extendCount - 1 } 0x1e
      simp [IsKeydown, hbits]
  rw [hcode] at hframed
  exact hother (hframed ▸ hown)

theorem up_of_resynchronised {settings : Settings} {k : ApplePS2Keyboard}
    (hk : Explained settings k) (hbits : k.keyBitVector = noKeys)
    (h : Resynchronised k [⟨eject, true⟩]) (adb : UInt8) : ¬ k.IsDown adb := by
  intro hdown
  rcases hk.down adb hdown with ⟨n, -, hbit⟩ | hdirect
  · rw [IsKeydown, hbits, kbvIsKeydown_noKeys] at hbit
    cases hbit
  · have hframed := h.framed ⟨eject, true⟩ rfl
    have hsent : k.keyEventsFor (KeyEvent.scanCodes ⟨eject, true⟩) =
        [⟨KeyCode.adbKeyCode 0x38, true⟩, ⟨KeyCode.adbKeyCode 0x10, true⟩] := by
      apply keyEventsFor_eq
      rw [hframed]
      show keyEvents ((k.sent ++ [_]) ++ [_]) = _
      rw [keyEvents_append, keyEvents_append, List.append_assoc]
      rfl
    have hreleased := h.released adb hdown
    rw [List.flatMap_singleton, hsent] at hreleased
    apply hreleased
    have hlines : eject.lines settings =
        [.direct (KeyCode.adbKeyCode 0x38), .direct (KeyCode.adbKeyCode 0x10)] := rfl
    rw [Line.Known, hlines] at hdirect
    simp only [List.mem_cons, Line.direct.injEq, List.not_mem_nil, or_false] at hdirect
    rcases hdirect with rfl | rfl <;> decide

end ApplePS2Keyboard

namespace PoweredKeyboard

/-- After any history and a sleep, the driver understands all streams of undisturbed keys
exactly if the sleep began with no prefix pending, no bit set and no key reported down. -/
theorem resynchronised_iff (settings : Settings) (ledState : UInt8) (as : List PowerAction)
    (lost : List UInt8) :
    (∀ es, Undisturbed settings es →
      Resynchronised (after settings ledState (as ++ sleepCycle lost)).toApplePS2Keyboard es) ↔
    (after settings ledState as).toApplePS2Keyboard.Clean := by
  have hk := after_explained settings ledState as
  rw [after_sleepCycle]
  constructor
  · intro h
    have hone (q : Key) := h [⟨q, true⟩] (ApplePS2Keyboard.undisturbed_one settings q)
    have hbits := ApplePS2Keyboard.noKeys_of_resynchronised hk hone
    have hcount := ApplePS2Keyboard.extendCount_of_resynchronised hbits (hone _)
    exact ⟨hcount, hbits, ApplePS2Keyboard.up_of_resynchronised hk hbits (hone eject)⟩
  · intro hclean es hes
    exact hclean.resynchronised (by rwa [hk.settings_eq])

/-- What the driver has seen before the sleep, and the keys after it. -/
def wakeUp (before lost : List UInt8) : ApplePS2Keyboard :=
  (after ⟨false, false, false⟩ 0 (before.map .scanCode ++ sleepCycle lost)).toApplePS2Keyboard

/-- The sleep cuts the up arrow's code behind `E0`; the `A` key, or the eject key, is held
when the sleep begins. -/
theorem wakeUp_not_resynchronised :
    ¬ Resynchronised (wakeUp [0xE0] [0x48, 0xE0, 0xC8]) [⟨aKey, true⟩] ∧
    ¬ Resynchronised (wakeUp [0x1E] [0x9E]) [⟨aKey, true⟩] ∧
    ¬ Resynchronised (wakeUp [0xE0, 0x34] [0xE0, 0xB4]) [⟨eject, true⟩] := by
  refine ⟨?_, ?_, ?_⟩
  · intro h
    have hframed := congrArg (fun k => kbvIsKeydown 0x1e k.keyBitVector)
      (h.framed ⟨aKey, true⟩ rfl)
    revert hframed
    decide +kernel
  · intro h
    obtain ⟨l, -, adb, -, hmem⟩ := h.pressed ⟨0, by decide⟩ ⟨rfl, by simp⟩
      ⟨.keyed 0x1e, by decide, rfl⟩
    have hnone : (wakeUp [0x1E] [0x9E]).keyEventsFor [0x1E] = [] := by decide +kernel
    have hmem' : ⟨adb, true⟩ ∈ (wakeUp [0x1E] [0x9E]).keyEventsFor [0x1E] := hmem
    rw [hnone] at hmem'
    cases hmem'
  · intro h
    have hdown : (wakeUp [0xE0, 0x34] [0xE0, 0xB4]).IsDown 0x3a := by
      unfold ApplePS2Keyboard.IsDown
      decide +kernel
    exact h.released 0x3a hdown (by decide +kernel)

end PoweredKeyboard
end Keyboard
