import NetbookInstaller.Keyboard.KeyBitVector
import NetbookInstaller.Transition.Edges

/-! The scan code parser of the keyboard driver, and the keys whose scan codes it
receives: what a key does is a list of lines that it drives. -/
namespace Keyboard

def kSCExtend : UInt8 := 0xE0
def kSCPause : UInt8 := 0xE1
def kSCUpBit : UInt8 := 0x80

structure Settings where
  emacsMode : Bool
  macintoshMode : Bool
  saveSS : Bool
  deriving DecidableEq, Repr

/-- The calls of the driver: a key event for the superclass, and
`receivePowerNotification(kIOPMSleepNow)`. -/
inductive Sent where
  | keyboardEvent (adbKeyCode : UInt8) (goingDown : Bool)
  | sleepNow
  deriving DecidableEq, Repr

structure ApplePS2Keyboard where
  settings : Settings
  extendCount : ℕ
  keyBitVector : KeyBitVector
  sent : List Sent

def keyCodeOf (scanCode : UInt8) : KeyCode :=
  ⟨(scanCode &&& ~~~kSCUpBit).toNat, Nat.lt_succ_of_le Nat.and_le_right⟩

def goingDown (scanCode : UInt8) : Bool := scanCode &&& kSCUpBit == 0

/-- The conversion of a single byte. -/
def singleKeyCode (settings : Settings) (code : KeyCode) : KeyCode :=
  if code = 0x3A then if settings.emacsMode then 0x60 else code
  else if code = 0x38 then if settings.macintoshMode then 0x70 else code
  else code

/-- The conversion of an extended code. Two codes are not converted: `0x34` and
`0x37` of `PrintScreen`. -/
def extendedKeyCode (settings : Settings) (code : KeyCode) : Option KeyCode :=
  match code with
  | 0x30 => some 0x7d
  | 0x2e => some 0x7e
  | 0x20 => some 0x7f
  | 0x5f => some 0
  | 0x1D => some 0x60
  | 0x38 => some (if settings.macintoshMode then 0x71 else 0x61)
  | 0x1C => some 0x62
  | 0x35 => some 0x63
  | 0x48 => some 0x64
  | 0x50 => some 0x65
  | 0x4B => some 0x66
  | 0x4D => some 0x67
  | 0x52 => some 0x68
  | 0x53 => some 0x69
  | 0x49 => some 0x6A
  | 0x51 => some 0x6B
  | 0x47 => some 0x6C
  | 0x4F => some 0x6D
  | 0x5B => some (if settings.macintoshMode then 0x38 else 0x70)
  | 0x5c => some (if settings.macintoshMode then 0x61 else 0x71)
  | 0x5D => some 0x71
  | _ => none

namespace ApplePS2Keyboard

def init (settings : Settings) : ApplePS2Keyboard := ⟨settings, 0, noKeys, []⟩

def dispatchKeyboardEvent (k : ApplePS2Keyboard) (adbKeyCode : UInt8) (goingDown : Bool) :
    ApplePS2Keyboard :=
  { k with sent := k.sent ++ [.keyboardEvent adbKeyCode goingDown] }

def receivePowerNotification (k : ApplePS2Keyboard) : ApplePS2Keyboard :=
  { k with sent := k.sent ++ [.sleepNow] }

/-- The update of the bit vector and the dispatch at the end of the parser. An
autorepeated key is discarded. -/
def changeKey (k : ApplePS2Keyboard) (keyCode : KeyCode) (goingDown : Bool) :
    ApplePS2Keyboard × Bool :=
  if goingDown && kbvIsKeydown keyCode k.keyBitVector then (k, false)
  else
    let bits :=
      if goingDown then kbvKeydown keyCode k.keyBitVector else kbvKeyup keyCode k.keyBitVector
    ({ k with keyBitVector := bits }.dispatchKeyboardEvent keyCode.adbKeyCode goingDown, true)

def finish (k : ApplePS2Keyboard) (keyCode : KeyCode) (goingDown : Bool) :
    ApplePS2Keyboard × Bool :=
  if keyCode = 0 then (k, false) else k.changeKey keyCode goingDown

/-- The parser on a single byte, and on the bytes it hands to itself. -/
def dispatchSingle (k : ApplePS2Keyboard) (scanCode : UInt8) : ApplePS2Keyboard × Bool :=
  k.finish (singleKeyCode k.settings (keyCodeOf scanCode)) (goingDown scanCode)

def printScreenCodes (saveSS goingDown : Bool) : List UInt8 :=
  if goingDown then (if saveSS then [] else [0x1d]) ++ [0x38, 0x2a, 0x05]
  else (if saveSS then [] else [0x9d]) ++ [0xb8, 0xaa, 0x85]

def dispatchExtended (k : ApplePS2Keyboard) (scanCode : UInt8) : ApplePS2Keyboard × Bool :=
  let code := keyCodeOf scanCode
  let goingDown := goingDown scanCode
  if code = 0x34 then
    ((k.dispatchKeyboardEvent (KeyCode.adbKeyCode 0x38) goingDown).dispatchKeyboardEvent
      (KeyCode.adbKeyCode 0x10) goingDown, true)
  else if code = 0x37 then
    ((printScreenCodes k.settings.saveSS goingDown).foldl (fun k c => (k.dispatchSingle c).1) k,
      true)
  else
    let k := if code = 0x5f ∧ goingDown then k.receivePowerNotification else k
    match extendedKeyCode k.settings code with
    | some keyCode => k.finish keyCode goingDown
    | none => (k, false)

/-- Returns whether a key event was dispatched. -/
def dispatchKeyboardEventWithScancode (k : ApplePS2Keyboard) (scanCode : UInt8) :
    ApplePS2Keyboard × Bool :=
  if scanCode = kSCExtend then ({ k with extendCount := 1 }, false)
  else if scanCode = kSCPause then ({ k with extendCount := 2 }, false)
  else if k.extendCount = 0 then k.dispatchSingle scanCode
  else
    let k := { k with extendCount := k.extendCount - 1 }
    if k.extendCount ≠ 0 then (k, false) else k.dispatchExtended scanCode

def receive (k : ApplePS2Keyboard) (scanCodes : List UInt8) : ApplePS2Keyboard :=
  scanCodes.foldl (fun k c => (k.dispatchKeyboardEventWithScancode c).1) k

end ApplePS2Keyboard

/-- A code whose make and break bytes are no prefixes. -/
structure MakeCode where
  code : KeyCode
  noPrefix : code ≠ 0x60 ∧ code ≠ 0x61
  deriving DecidableEq, Repr

/-- The byte of a code going down, and going up. -/
def KeyCode.scanCode (code : KeyCode) (down : Bool) : UInt8 :=
  if down then UInt8.ofNat code else UInt8.ofNat code ||| kSCUpBit

def MakeCode.byte (c : MakeCode) (down : Bool) : UInt8 := c.code.scanCode down

/-- The keys of a keyboard by their scan codes. -/
inductive Key where
  | single (c : MakeCode)
  | extended (c : MakeCode)
  | pause (useless c : MakeCode)
  deriving DecidableEq, Repr

def aKey : Key := .single ⟨0x1e, by decide⟩
def leftAlt : Key := .single ⟨0x38, by decide⟩
def rightAlt : Key := .extended ⟨0x38, by decide⟩
def leftCtrl : Key := .single ⟨0x1d, by decide⟩
def rightCtrl : Key := .extended ⟨0x1d, by decide⟩
def leftShift : Key := .single ⟨0x2a, by decide⟩
def rightShift : Key := .single ⟨0x36, by decide⟩
def leftWindows : Key := .extended ⟨0x5b, by decide⟩
def rightWindows : Key := .extended ⟨0x5c, by decide⟩
def deleteKey : Key := .single ⟨0x53, by decide⟩
def grayDelete : Key := .extended ⟨0x53, by decide⟩
def capsLock : Key := .single ⟨0x3a, by decide⟩
def printScreen : Key := .extended ⟨0x37, by decide⟩
def eject : Key := .extended ⟨0x34, by decide⟩
def pauseKey : Key := .pause ⟨0x1d, by decide⟩ ⟨0x45, by decide⟩

/-- The scan codes of a key that goes down (once more, if it autorepeats) or up. -/
def Key.scanCodes (down : Bool) : Key → List UInt8
  | .single c => [c.byte down]
  | .extended c => [kSCExtend, c.byte down]
  | .pause useless c => [kSCPause, useless.byte down, c.byte down]

abbrev KeyEvent := Transition.Edge Key

def KeyEvent.scanCodes (e : KeyEvent) : List UInt8 := e.source.scanCodes e.rising

/-- What a key acts on: a key code of the bit vector, an ADB key code past the bit
vector, and the sleep notification. -/
inductive Line where
  | keyed (keyCode : KeyCode)
  | direct (adbKeyCode : UInt8)
  | sleep
  deriving DecidableEq, Repr

def Line.adbKeyCode : Line → Option UInt8
  | .keyed keyCode => some keyCode.adbKeyCode
  | .direct adbKeyCode => some adbKeyCode
  | .sleep => none

def keyedLines (keyCode : KeyCode) : List Line := if keyCode = 0 then [] else [.keyed keyCode]

def singleLines (settings : Settings) (code : KeyCode) : List Line :=
  keyedLines (singleKeyCode settings code)

/-- The keys that `PrintScreen` stands for. -/
def printScreenKeys (saveSS : Bool) : List KeyCode :=
  (if saveSS then [] else [0x1d]) ++ [0x38, 0x2a, 0x05]

def extendedLines (settings : Settings) (code : KeyCode) : List Line :=
  if code = 0x34 then [.direct (KeyCode.adbKeyCode 0x38), .direct (KeyCode.adbKeyCode 0x10)]
  else if code = 0x37 then (printScreenKeys settings.saveSS).flatMap (singleLines settings)
  else
    (if code = 0x5f then [.sleep] else []) ++
      (extendedKeyCode settings code).toList.flatMap keyedLines

def Key.lines (settings : Settings) : Key → List Line
  | .single c => singleLines settings c.code
  | .extended c => extendedLines settings c.code
  | .pause _ c => extendedLines settings c.code

/-- A line that goes down or up. -/
def ApplePS2Keyboard.drive (down : Bool) (k : ApplePS2Keyboard) : Line → ApplePS2Keyboard
  | .keyed keyCode => (k.changeKey keyCode down).1
  | .direct adbKeyCode => k.dispatchKeyboardEvent adbKeyCode down
  | .sleep => if down then k.receivePowerNotification else k

/-- What a key does, its lines being driven one after the other. -/
def keyStep (settings : Settings) (k : ApplePS2Keyboard) (e : KeyEvent) : ApplePS2Keyboard :=
  (e.source.lines settings).foldl (ApplePS2Keyboard.drive e.rising) k

@[simp] theorem keyCodeOf_scanCode :
    ∀ (code : KeyCode) (down : Bool), keyCodeOf (code.scanCode down) = code := by decide

@[simp] theorem goingDown_scanCode :
    ∀ (code : KeyCode) (down : Bool), goingDown (code.scanCode down) = down := by decide

theorem MakeCode.byte_ne_extend (c : MakeCode) (down : Bool) :
    c.byte down ≠ kSCExtend ∧ c.byte down ≠ kSCPause := by
  have h : ∀ (code : KeyCode) (d : Bool), code ≠ 0x60 ∧ code ≠ 0x61 →
    code.scanCode d ≠ kSCExtend ∧ code.scanCode d ≠ kSCPause := by decide
  exact h c.code down c.noPrefix

namespace ApplePS2Keyboard

variable (k : ApplePS2Keyboard)

@[simp] theorem changeKey_settings (keyCode : KeyCode) (down : Bool) :
    (k.changeKey keyCode down).1.settings = k.settings := by
  unfold changeKey
  split <;> rfl

@[simp] theorem changeKey_extendCount (keyCode : KeyCode) (down : Bool) :
    (k.changeKey keyCode down).1.extendCount = k.extendCount := by
  unfold changeKey
  split <;> rfl

theorem finish_eq (keyCode : KeyCode) (down : Bool) :
    (k.finish keyCode down).1 = (keyedLines keyCode).foldl (drive down) k := by
  unfold finish keyedLines
  split <;> rfl

@[simp] theorem drive_settings (down : Bool) (l : Line) : (k.drive down l).settings = k.settings := by
  cases l with
  | keyed keyCode => exact changeKey_settings k keyCode down
  | direct adbKeyCode => rfl
  | sleep => cases down <;> rfl

@[simp] theorem drive_extendCount (down : Bool) (l : Line) :
    (k.drive down l).extendCount = k.extendCount := by
  cases l with
  | keyed keyCode => exact changeKey_extendCount k keyCode down
  | direct adbKeyCode => rfl
  | sleep => cases down <;> rfl

theorem foldl_drive_settings (down : Bool) (ls : List Line) :
    (ls.foldl (drive down) k).settings = k.settings := by
  induction ls generalizing k with
  | nil => rfl
  | cons l ls ih => rw [List.foldl_cons, ih, drive_settings]

theorem foldl_drive_extendCount (down : Bool) (ls : List Line) :
    (ls.foldl (drive down) k).extendCount = k.extendCount := by
  induction ls generalizing k with
  | nil => rfl
  | cons l ls ih => rw [List.foldl_cons, ih, drive_extendCount]

theorem dispatchSingle_eq (scanCode : UInt8) :
    (k.dispatchSingle scanCode).1 =
      (singleLines k.settings (keyCodeOf scanCode)).foldl (drive (goingDown scanCode)) k :=
  finish_eq k _ _

theorem dispatchSingles_eq {settings : Settings} (hk : k.settings = settings)
    (codes : List KeyCode) (down : Bool) :
    (codes.map (·.scanCode down)).foldl (fun k c => (k.dispatchSingle c).1) k =
      (codes.flatMap (singleLines settings)).foldl (drive down) k := by
  induction codes generalizing k with
  | nil => rfl
  | cons c codes ih =>
    rw [List.map_cons, List.foldl_cons, dispatchSingle_eq, keyCodeOf_scanCode, goingDown_scanCode,
      hk, List.flatMap_cons, List.foldl_append]
    exact ih _ (by rw [foldl_drive_settings, hk])

theorem printScreenCodes_eq : ∀ saveSS down,
    printScreenCodes saveSS down = (printScreenKeys saveSS).map (·.scanCode down) := by
  decide

theorem dispatchExtended_eq (scanCode : UInt8) :
    (k.dispatchExtended scanCode).1 =
      (extendedLines k.settings (keyCodeOf scanCode)).foldl (drive (goingDown scanCode)) k := by
  unfold dispatchExtended extendedLines
  dsimp only
  split
  next => rfl
  next =>
    split
    next =>
      dsimp only
      rw [printScreenCodes_eq, dispatchSingles_eq k rfl]
    next =>
      have hsleep : (if keyCodeOf scanCode = 0x5f ∧ goingDown scanCode = true then
          k.receivePowerNotification else k) =
          (if keyCodeOf scanCode = 0x5f then [Line.sleep] else []).foldl
            (drive (goingDown scanCode)) k := by
        by_cases hcode : keyCodeOf scanCode = 0x5f
        · cases goingDown scanCode <;> simp [hcode, drive]
        · simp [hcode]
      have hsettings := foldl_drive_settings k (goingDown scanCode)
        (if keyCodeOf scanCode = 0x5f then [Line.sleep] else [])
      rw [hsleep, hsettings, List.foldl_append]
      cases extendedKeyCode k.settings (keyCodeOf scanCode) with
      | none => rfl
      | some keyCode => simp [finish_eq]

/-- A prefix makes the next byte an extended code, whatever was outstanding. -/
theorem receive_extended (b : UInt8) (hb : b ≠ kSCExtend ∧ b ≠ kSCPause) :
    k.receive [kSCExtend, b] = ({ k with extendCount := 0 }.dispatchExtended b).1 := by
  simp [receive, dispatchKeyboardEventWithScancode, hb.1, hb.2]

/-- The bytes of one key make the driver drive the lines of that key. -/
theorem receive_scanCodes {k : ApplePS2Keyboard} (hcount : k.extendCount = 0) (e : KeyEvent) :
    k.receive e.scanCodes = keyStep k.settings k e := by
  obtain ⟨key, down⟩ := e
  cases key with
  | single c =>
    have hne := c.byte_ne_extend down
    simp only [receive, KeyEvent.scanCodes, Key.scanCodes, List.foldl_cons, List.foldl_nil,
      dispatchKeyboardEventWithScancode, if_neg hne.1, if_neg hne.2, if_pos hcount,
      dispatchSingle_eq]
    simp [keyStep, Key.lines, MakeCode.byte]
  | extended c =>
    have hne := c.byte_ne_extend down
    have hpassed : { k with extendCount := 0 } = k := by
      rw [← hcount]
    simp only [receive, KeyEvent.scanCodes, Key.scanCodes, List.foldl_cons, List.foldl_nil,
      dispatchKeyboardEventWithScancode, if_neg hne.1, if_neg hne.2, if_true]
    simp [hpassed, dispatchExtended_eq, keyStep, Key.lines, MakeCode.byte]
  | pause useless c =>
    have huseless := useless.byte_ne_extend down
    have hne := c.byte_ne_extend down
    have hpassed : { k with extendCount := 0 } = k := by
      rw [← hcount]
    have hpause : kSCPause ≠ kSCExtend := by decide
    simp only [receive, KeyEvent.scanCodes, Key.scanCodes, List.foldl_cons, List.foldl_nil,
      dispatchKeyboardEventWithScancode, if_neg hne.1, if_neg hne.2, if_neg huseless.1,
      if_neg huseless.2, if_neg hpause, if_true]
    simp [hpassed, dispatchExtended_eq, keyStep, Key.lines, MakeCode.byte]

theorem keyStep_settings (settings : Settings) (e : KeyEvent) :
    (keyStep settings k e).settings = k.settings :=
  foldl_drive_settings k _ _

theorem foldl_keyStep_settings (settings : Settings) (es : List KeyEvent) :
    (es.foldl (keyStep settings) k).settings = k.settings := by
  induction es generalizing k with
  | nil => rfl
  | cons e es ih => rw [List.foldl_cons, ih, keyStep_settings]

theorem foldl_keyStep_extendCount (settings : Settings) (es : List KeyEvent) :
    (es.foldl (keyStep settings) k).extendCount = k.extendCount := by
  induction es generalizing k with
  | nil => rfl
  | cons e es ih => rw [List.foldl_cons, ih, keyStep, foldl_drive_extendCount]

/-- A stream of complete scan codes is a run of keys. -/
theorem receive_stream {k : ApplePS2Keyboard} (hcount : k.extendCount = 0) (es : List KeyEvent) :
    k.receive (es.flatMap KeyEvent.scanCodes) = es.foldl (keyStep k.settings) k := by
  induction es generalizing k with
  | nil => rfl
  | cons e es ih =>
    have hcount' : (keyStep k.settings k e).extendCount = 0 := by
      rw [keyStep, foldl_drive_extendCount, hcount]
    have happend : k.receive (e.scanCodes ++ es.flatMap KeyEvent.scanCodes) =
        (k.receive e.scanCodes).receive (es.flatMap KeyEvent.scanCodes) := List.foldl_append
    rw [List.flatMap_cons, happend, receive_scanCodes hcount, ih hcount', keyStep_settings,
      List.foldl_cons]

end ApplePS2Keyboard
end Keyboard
