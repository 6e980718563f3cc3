import NetbookInstaller.PS2.WorkLoop

/-! The debugger escape of the keyboard interrupt: the modifier keys that the controller
follows by itself, and the work loop with a keyboard interrupt that looks for it. -/
namespace PS2

def kSCExtend : UInt8 := 0xE0
def kSCUpBit : UInt8 := 0x80
def kSCAlt : UInt8 := 0x38
def kSCCtrl : UInt8 := 0x1D
def kSCShiftLeft : UInt8 := 0x2A
def kSCShiftRight : UInt8 := 0x36
def kSCWindowsLeft : UInt8 := 0x5B
def kSCWindowsRight : UInt8 := 0x5C
def kSCDelete : UInt8 := 0x53
def kCPDisableMouseClock : UInt8 := 0xA7
def kCPEnableMouseClock : UInt8 := 0xA8
def kModifierShiftLeft : UInt16 := 0x01
def kModifierShiftRight : UInt16 := 0x02
def kModifierCtrlLeft : UInt16 := 0x04
def kModifierCtrlRight : UInt16 := 0x08
def kModifierAltLeft : UInt16 := 0x10
def kModifierAltRight : UInt16 := 0x20
def kModifierWindowsLeft : UInt16 := 0x40
def kModifierWindowsRight : UInt16 := 0x80

/-- An entry of `modifierTable`. -/
structure ModifierEntry where
  scancode : UInt8
  extended : Bool
  modifier : UInt16
  deriving DecidableEq, Repr

/-- The table up to its terminator. -/
def modifierTable : List ModifierEntry :=
  [⟨kSCAlt, false, kModifierAltLeft⟩, ⟨kSCAlt, true, kModifierAltRight⟩,
    ⟨kSCCtrl, false, kModifierCtrlLeft⟩, ⟨kSCCtrl, true, kModifierCtrlRight⟩,
    ⟨kSCShiftLeft, false, kModifierShiftLeft⟩, ⟨kSCShiftRight, false, kModifierShiftRight⟩,
    ⟨kSCWindowsLeft, true, kModifierWindowsLeft⟩, ⟨kSCWindowsRight, true, kModifierWindowsRight⟩]

/-- What the controller follows of the keyboard. -/
structure Escape where
  debuggingEnabled : Bool
  modifierState : UInt16
  extendedState : Bool
  deriving DecidableEq, Repr

/-- What the interrupt handler does besides. -/
inductive EscapeEffect where
  | write (w : PortWrite)
  | debugger
  | enqueueKeyboardData (key : UInt8)
  deriving DecidableEq, Repr

/-- The result of `doEscape`; `drop` is what it returns. -/
structure Escaped where
  escape : Escape
  effects : List EscapeEffect
  drop : Bool
  deriving DecidableEq, Repr

namespace Escape

/-- The controller behind `start`. -/
def start (debugFlag : Bool) : Escape := ⟨debugFlag, 0, false⟩

/-- The codes that release the modifier keys in `modifierState`. -/
def releaseCodes (e : Escape) : List UInt8 :=
  modifierTable.flatMap fun entry =>
    if e.modifierState &&& entry.modifier != 0 then
      (if entry.extended then [kSCExtend] else []) ++ [entry.scancode ||| kSCUpBit]
    else []

def doEscape (e : Escape) (scancode : UInt8) : Escaped :=
  let upBit := scancode &&& kSCUpBit != 0
  if scancode = kSCExtend then ⟨{ e with extendedState := true }, [], false⟩
  else
    let scancode := scancode &&& ~~~kSCUpBit
    match modifierTable.find? fun entry =>
        entry.scancode == scancode && entry.extended == e.extendedState with
    | some entry =>
      let modifierState :=
        if upBit then e.modifierState &&& ~~~entry.modifier else e.modifierState ||| entry.modifier
      ⟨{ e with modifierState, extendedState := false }, [], false⟩
    | none =>
      if scancode = kSCDelete ∧ e.modifierState = (kModifierAltLeft ||| kModifierAltRight) then
        -- the debugger is called with the mouse's clock line forced low
        ⟨{ e with modifierState := 0x00, extendedState := false },
          [.write (.command kCPDisableMouseClock), .debugger,
            .write (.command kCPEnableMouseClock)] ++
              e.releaseCodes.map .enqueueKeyboardData, true⟩
      else ⟨{ e with extendedState := false }, [], false⟩

/-- The part of `interruptHandlerKeyboard` behind the read of the data port. -/
def interruptHandlerKeyboard (e : Escape) (key : UInt8) : Escape × List EscapeEffect :=
  if e.debuggingEnabled then
    let escaped := e.doEscape key
    (escaped.escape,
      escaped.effects ++ if escaped.drop then [] else [.enqueueKeyboardData key])
  else (e, [.enqueueKeyboardData key])

end Escape

/-- The bytes that the handler puts on the keyboard queue. -/
def enqueued (effects : List EscapeEffect) : List UInt8 :=
  effects.filterMap fun
    | .enqueueKeyboardData key => some key
    | _ => none

/-- The work loop with the state of the debugger escape. -/
structure DebugLoop where
  loop : WorkLoop
  escape : Escape
  deriving DecidableEq, Repr

namespace DebugLoop

def start (debugFlag : Bool) : DebugLoop := ⟨.initial, .start debugFlag⟩

def keyboardInterrupt (s : DebugLoop) (key : UInt8) : DebugLoop :=
  let (escape, effects) := s.escape.interruptHandlerKeyboard key
  let queue := (enqueued effects).foldl
    (fun queue key => enqueueKeyboardData queue ⟨.keyboard, key, s.loop.portReads⟩)
    s.loop.keyboardQueue
  { escape
    loop := { s.loop with keyboardQueue := queue, portReads := s.loop.portReads + 1 } }

/-- All other actions are those of the work loop. -/
def step (s : DebugLoop) : Action → Option DebugLoop
  | .keyboardInterrupt key => some (s.keyboardInterrupt key)
  | a => (s.loop.step a).map fun loop => { s with loop }

end DebugLoop

/-- How a keyboard byte is read off the data port. -/
inductive Way where
  | interrupt | polled
  deriving DecidableEq, Repr

/-- The keyboard bytes that an action reads. -/
def Action.keyboardRead : Action → Option (UInt8 × Way)
  | .keyboardInterrupt key => some (key, .interrupt)
  | .readPort _ .keyboard data => some (data, .polled)
  | _ => none

def keyboardReads (as : List Action) : List (UInt8 × Way) := as.filterMap Action.keyboardRead

/-- `doEscape` sees only what is read at interrupt time. -/
def Escape.read (e : Escape) (r : UInt8 × Way) : Escape :=
  match r.2 with
  | .interrupt => (e.interruptHandlerKeyboard r.1).1
  | .polled => e

namespace DebugLoop

theorem step_escape {s t : DebugLoop} {a : Action} (h : s.step a = some t) :
    t.escape = a.keyboardRead.toList.foldl Escape.read s.escape := by
  cases a with
  | keyboardInterrupt key =>
    rw [step, Option.some.injEq] at h
    subst h
    rfl
  | readPort polls stream data =>
    obtain ⟨loop, -, rfl⟩ := Option.map_eq_some_iff.mp h
    cases stream <;> rfl
  | _ =>
    simp only [step, Option.map_eq_some_iff] at h
    obtain ⟨loop, -, rfl⟩ := h
    rfl

/-- Whatever else the work loop does, the escape state follows from the reads. -/
theorem run_escape {as : List Action} {s t : DebugLoop} (h : Transition.run step s as = some t) :
    t.escape = (keyboardReads as).foldl Escape.read s.escape := by
  induction as generalizing s with
  | nil =>
    rw [Transition.run_nil, Option.some.injEq] at h
    rw [h]
    rfl
  | cons a as ih =>
    obtain ⟨u, hu, h⟩ := Transition.run_cons.mp h
    rw [ih h, step_escape hu, keyboardReads, keyboardReads, List.filterMap_cons]
    cases a.keyboardRead <;> rfl

end DebugLoop
end PS2
