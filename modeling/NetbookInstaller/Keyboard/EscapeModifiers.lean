import NetbookInstaller.Keyboard.Scancode
import NetbookInstaller.PS2.Escape

/-! The modifier keys that the debugger escape follows, and those that are held. -/
namespace Keyboard

open Transition PS2

/-- The bit of a modifier key, and 0 for every other key. -/
def modifierOf : Key → UInt16
  | .single c =>
    if c.code = 0x38 then kModifierAltLeft else if c.code = 0x1d then kModifierCtrlLeft
    else if c.code = 0x2a then kModifierShiftLeft else if c.code = 0x36 then kModifierShiftRight
    else 0
  | .extended c =>
    if c.code = 0x38 then kModifierAltRight else if c.code = 0x1d then kModifierCtrlRight
    else if c.code = 0x5b then kModifierWindowsLeft
    else if c.code = 0x5c then kModifierWindowsRight
    else 0
  | .pause _ _ => 0

def modifierKeys : List Key :=
  [leftShift, rightShift, leftCtrl, rightCtrl, leftAlt, rightAlt, leftWindows, rightWindows]

/-- The bits of the modifier keys whose last code was a make code. -/
def heldModifiers (es : List KeyEvent) : UInt16 :=
  modifierKeys.foldl (fun bits k => if level k es then bits ||| modifierOf k else bits) 0

/-- What a modifier key that goes down or up does to the bits. -/
def modify (bits : UInt16) (e : KeyEvent) : UInt16 :=
  if e.rising then bits ||| modifierOf e.source else bits &&& ~~~modifierOf e.source

theorem modifierOf_eq_zero {k : Key} (h : k ∉ modifierKeys) : modifierOf k = 0 := by
  cases k with
  | single c =>
    obtain ⟨code, hcode⟩ := c
    simp only [modifierOf]
    split_ifs
    · next halt =>
      subst halt
      exact absurd (show leftAlt ∈ modifierKeys by decide) h
    · next hctrl =>
      subst hctrl
      exact absurd (show leftCtrl ∈ modifierKeys by decide) h
    · next hshift =>
      subst hshift
      exact absurd (show leftShift ∈ modifierKeys by decide) h
    · next hshift =>
      subst hshift
      exact absurd (show rightShift ∈ modifierKeys by decide) h
    · rfl
  | extended c =>
    obtain ⟨code, hcode⟩ := c
    simp only [modifierOf]
    split_ifs
    · next halt =>
      subst halt
      exact absurd (show rightAlt ∈ modifierKeys by decide) h
    · next hctrl =>
      subst hctrl
      exact absurd (show rightCtrl ∈ modifierKeys by decide) h
    · next hwindows =>
      subst hwindows
      exact absurd (show leftWindows ∈ modifierKeys by decide) h
    · next hwindows =>
      subst hwindows
      exact absurd (show rightWindows ∈ modifierKeys by decide) h
    · rfl
  | pause useless c => rfl

/-- The bits of the keys for which `held` is true, in the order of `modifierKeys`. -/
def modifierBits (held : Key → Bool) : UInt16 :=
  modifierKeys.foldl (fun bits k => if held k then bits ||| modifierOf k else bits) 0

theorem modifierBits_eq (held : Key → Bool) :
    modifierBits held =
      [(leftShift, held leftShift), (rightShift, held rightShift), (leftCtrl, held leftCtrl),
        (rightCtrl, held rightCtrl), (leftAlt, held leftAlt), (rightAlt, held rightAlt),
        (leftWindows, held leftWindows), (rightWindows, held rightWindows)].foldl
        (fun bits k => if k.2 then bits ||| modifierOf k.1 else bits) 0 := rfl

theorem modifierBits_update (held : Key → Bool) (rising : Bool) :
    ∀ k ∈ modifierKeys, modifierBits (fun q => if k = q then rising else held q) =
      modify (modifierBits held) ⟨k, rising⟩ := by
  have hbits : ∀ a b c d e f g h : Bool, ∀ k ∈ modifierKeys,
      [(leftShift, if k = leftShift then rising else a),
        (rightShift, if k = rightShift then rising else b),
        (leftCtrl, if k = leftCtrl then rising else c),
        (rightCtrl, if k = rightCtrl then rising else d),
        (leftAlt, if k = leftAlt then rising else e),
        (rightAlt, if k = rightAlt then rising else f),
        (leftWindows, if k = leftWindows then rising else g),
        (rightWindows, if k = rightWindows then rising else h)].foldl
          (fun bits k => if k.2 then bits ||| modifierOf k.1 else bits) 0 =
      modify ([(leftShift, a), (rightShift, b), (leftCtrl, c), (rightCtrl, d), (leftAlt, e),
        (rightAlt, f), (leftWindows, g), (rightWindows, h)].foldl
          (fun bits k => if k.2 then bits ||| modifierOf k.1 else bits) 0) ⟨k, rising⟩ := by
    cases rising <;> decide +kernel
  intro k hk
  rw [modifierBits_eq, modifierBits_eq]
  exact hbits _ _ _ _ _ _ _ _ k hk

theorem heldModifiers_append (es : List KeyEvent) (e : KeyEvent) :
    heldModifiers (es ++ [e]) = modify (heldModifiers es) e := by
  have hheld (es : List KeyEvent) : heldModifiers es = modifierBits fun k => level k es := rfl
  by_cases hk : e.source ∈ modifierKeys
  · rw [hheld, hheld, ← modifierBits_update _ _ _ hk]
    simp only [level_append_singleton]
  · have hsame : ∀ k ∈ modifierKeys, level k (es ++ [e]) = level k es := by
      intro k hmem
      rw [level_append_singleton, if_neg]
      rintro rfl
      exact hk hmem
    have hbits : modify (heldModifiers es) e = heldModifiers es := by
      rw [modify, modifierOf_eq_zero hk]
      split <;> simp
    rw [hbits]
    exact List.foldl_ext _ _ _ fun bits k hmem => by rw [hsame k hmem]

/-- The key that `doEscape` takes a code for. -/
def escapeKey (extended : Bool) (c : MakeCode) : Key := if extended then .extended c else .single c

theorem find_modifierTable (extended : Bool) (c : MakeCode) :
    (modifierTable.find? fun entry =>
        entry.scancode == UInt8.ofNat c.code && entry.extended == extended).map
      ModifierEntry.modifier =
    if modifierOf (escapeKey extended c) = 0 then none
    else some (modifierOf (escapeKey extended c)) := by
  have h : ∀ (extended : Bool) (code : KeyCode) (hcode : code ≠ 0x60 ∧ code ≠ 0x61),
      (modifierTable.find? fun entry =>
          entry.scancode == UInt8.ofNat code && entry.extended == extended).map
        ModifierEntry.modifier =
      if modifierOf (escapeKey extended ⟨code, hcode⟩) = 0 then none
      else some (modifierOf (escapeKey extended ⟨code, hcode⟩)) := by
    decide +kernel
  exact h extended c.code c.noPrefix

theorem byte_bits (c : MakeCode) (down : Bool) :
    c.byte down ≠ PS2.kSCExtend ∧ c.byte down &&& ~~~PS2.kSCUpBit = UInt8.ofNat c.code ∧
      (c.byte down &&& PS2.kSCUpBit != 0) = !down := by
  have h : ∀ (code : KeyCode) (down : Bool), code ≠ 0x60 ∧ code ≠ 0x61 →
      code.scanCode down ≠ PS2.kSCExtend ∧
        code.scanCode down &&& ~~~PS2.kSCUpBit = UInt8.ofNat code ∧
        (code.scanCode down &&& PS2.kSCUpBit != 0) = !down := by
    decide
  exact h c.code down c.noPrefix

/-- A call of the debugger, and the release codes behind it. -/
def debuggerCall (e : Escape) : List EscapeEffect :=
  [.write (.command kCPDisableMouseClock), .debugger, .write (.command kCPEnableMouseClock)] ++
    e.releaseCodes.map .enqueueKeyboardData

/-- Whether the code makes `doEscape` call the debugger. -/
def CallsDebugger (e : Escape) (c : MakeCode) : Prop :=
  c.code = 0x53 ∧ e.modifierState = (kModifierAltLeft ||| kModifierAltRight)

instance (e : Escape) (c : MakeCode) : Decidable (CallsDebugger e c) :=
  inferInstanceAs (Decidable (_ ∧ _))

/-- What `doEscape` makes of the last byte of a code: the code of a modifier key, a call of
the debugger, or nothing. -/
theorem doEscape_byte (e : Escape) (c : MakeCode) (down : Bool) :
    e.doEscape (c.byte down) =
      if CallsDebugger e c then
        ⟨{ e with modifierState := 0, extendedState := false }, debuggerCall e, true⟩
      else
        ⟨{ e with
          modifierState := modify e.modifierState ⟨escapeKey e.extendedState c, down⟩
          extendedState := false }, [], false⟩ := by
  obtain ⟨hextend, hcode, hup⟩ := byte_bits c down
  have hdelete : UInt8.ofNat c.code = kSCDelete ↔ c.code = 0x53 := by
    have h : ∀ code : KeyCode, UInt8.ofNat code = kSCDelete ↔ code = 0x53 := by decide
    exact h c.code
  have hnone : c.code = 0x53 → modifierOf (escapeKey e.extendedState c) = 0 := by
    intro h
    cases e.extendedState <;> simp [escapeKey, modifierOf, h]
  have hfind := find_modifierTable e.extendedState c
  unfold Escape.doEscape
  rw [hcode, hup]
  simp only [if_neg hextend]
  split
  next entry hentry =>
    rw [hentry, Option.map_some] at hfind
    split at hfind
    · cases hfind
    · next hmodifier =>
      have hcall : ¬ CallsDebugger e c := fun h => hmodifier (hnone h.1)
      rw [if_neg hcall]
      cases down <;> simp [modify, Option.some.inj hfind]
  next hentry =>
    rw [hentry, Option.map_none] at hfind
    have hzero : modifierOf (escapeKey e.extendedState c) = 0 := by
      by_contra hmodifier
      rw [if_neg hmodifier] at hfind
      cases hfind
    have hsame : modify e.modifierState ⟨escapeKey e.extendedState c, down⟩ = e.modifierState := by
      simp [modify, hzero]
    rw [hsame]
    by_cases hcall : CallsDebugger e c
    · rw [if_pos hcall, if_pos ⟨hdelete.mpr hcall.1, hcall.2⟩]
      rfl
    · rw [if_neg hcall, if_neg fun h => hcall ⟨hdelete.mp h.1, h.2⟩]

/-- A code with the way in which each of its bytes is read. -/
structure ReadCode where
  event : KeyEvent
  ways : ℕ → Way

def ReadCode.reads (c : ReadCode) : List (UInt8 × Way) :=
  c.event.scanCodes.mapIdx fun i byte => (byte, c.ways i)

/-- Whether the debugger is called while the bytes are read. -/
def calls : Escape → List (UInt8 × Way) → Bool
  | _, [] => false
  | e, r :: rs =>
    r.2 == .interrupt && (e.interruptHandlerKeyboard r.1).2.contains .debugger ||
      calls (e.read r) rs

/-- The escape state with the codes since the last call of the debugger. While the
debugger runs it reads the keyboard by itself, and the release codes of all keys go to it. -/
structure Traced where
  escape : Escape
  codes : List KeyEvent

def Traced.next (t : Traced) (c : ReadCode) : Traced where
  escape := c.reads.foldl Escape.read t.escape
  codes := if calls t.escape c.reads then [] else t.codes ++ [c.event]

def Traced.start : Traced := ⟨.start true, []⟩

def Traced.step (t : Traced) (c : ReadCode) : Option Traced := some (t.next c)

/-- The byte of a single code changes no modifier and does not call the debugger. -/
def Inert (e : Escape) (c : MakeCode) (down : Bool) : Prop :=
  modify e.modifierState ⟨.single c, down⟩ = e.modifierState ∧ ¬ CallsDebugger e c

/-- The reads of a code, or of its first bytes, are ones that `doEscape` can follow: a
polled single code changes no modifier, an extended code is read at interrupt time, and the
bytes behind `E1` that `doEscape` sees are nothing to it. -/
def Seen (e : Escape) (event : KeyEvent) (rs : List (UInt8 × Way)) : Prop :=
  match event.source with
  | .single _ => ∀ r ∈ rs, r.2 = .polled → modify e.modifierState event = e.modifierState
  | .extended _ => ∀ r ∈ rs, r.2 = .interrupt
  | .pause useless c =>
    ∀ r ∈ rs, r.2 = .interrupt → ∀ x ∈ [useless, c], r.1 = x.byte event.rising →
      Inert e x event.rising

instance (e : Escape) (c : MakeCode) (down : Bool) : Decidable (Inert e c down) :=
  inferInstanceAs (Decidable (_ ∧ _))

instance (e : Escape) (event : KeyEvent) (rs : List (UInt8 × Way)) :
    Decidable (Seen e event rs) :=
  match event with
  | ⟨.single c, down⟩ => inferInstanceAs (Decidable (∀ r ∈ rs, r.2 = .polled →
      modify e.modifierState ⟨.single c, down⟩ = e.modifierState))
  | ⟨.extended _, _⟩ => inferInstanceAs (Decidable (∀ r ∈ rs, r.2 = .interrupt))
  | ⟨.pause useless c, down⟩ => inferInstanceAs (Decidable (∀ r ∈ rs, r.2 = .interrupt →
      ∀ x ∈ [useless, c], r.1 = x.byte down → Inert e x down))

/-- All bytes of the code can be followed. -/
def Traced.CanFollow (t : Traced) (c : ReadCode) : Prop := Seen t.escape c.event c.reads

instance (t : Traced) (c : ReadCode) : Decidable (t.CanFollow c) :=
  inferInstanceAs (Decidable (Seen _ _ _))

/-- What holds between two codes. -/
structure Traced.Follows (t : Traced) : Prop where
  debuggingEnabled : t.escape.debuggingEnabled = true
  extendedState : t.escape.extendedState = false
  modifierState : t.escape.modifierState = heldModifiers t.codes

theorem doEscape_pause {e : Escape} (hextended : e.extendedState = false) :
    e.doEscape kSCPause = ⟨e, [], false⟩ := by
  have hfind : (modifierTable.find? fun entry =>
      entry.scancode == Keyboard.kSCPause &&& ~~~PS2.kSCUpBit && entry.extended == false) = none := by
    decide
  unfold Escape.doEscape
  rw [hextended]
  simp only [hfind]
  obtain ⟨debuggingEnabled, modifierState, extendedState⟩ := e
  subst hextended
  rfl

theorem idle_inert {e : Escape} (hextended : e.extendedState = false) {c : MakeCode} {down : Bool}
    (hinert : Inert e c down) :
    (e.doEscape (c.byte down)).escape = e ∧ (e.doEscape (c.byte down)).effects = [] := by
  rw [doEscape_byte, if_neg hinert.2, hextended]
  refine ⟨?_, rfl⟩
  obtain ⟨debuggingEnabled, modifierState, extendedState⟩ := e
  subst hextended
  simp only [escapeKey, Bool.false_eq_true, if_false]
  exact congrArg (Escape.mk debuggingEnabled · false) hinert.1

section Reads
variable {e : Escape} (hdebug : e.debuggingEnabled = true)
include hdebug

theorem read_interrupt (key : UInt8) : e.read (key, .interrupt) = (e.doEscape key).escape := by
  rw [Escape.read, Escape.interruptHandlerKeyboard, if_pos hdebug]

theorem debugger_mem_interrupt (key : UInt8) :
    .debugger ∈ (e.interruptHandlerKeyboard key).2 ↔ .debugger ∈ (e.doEscape key).effects := by
  rw [Escape.interruptHandlerKeyboard, if_pos hdebug]
  cases (e.doEscape key).drop <;> simp

theorem read_byte (c : MakeCode) (down : Bool) :
    e.read (c.byte down, .interrupt) =
      { e with
        modifierState :=
          if CallsDebugger e c then 0
          else modify e.modifierState ⟨escapeKey e.extendedState c, down⟩
        extendedState := false } := by
  rw [read_interrupt hdebug, doEscape_byte]
  split <;> rfl

theorem debugger_mem_byte (c : MakeCode) (down : Bool) :
    .debugger ∈ (e.interruptHandlerKeyboard (c.byte down)).2 ↔ CallsDebugger e c := by
  rw [debugger_mem_interrupt hdebug, doEscape_byte]
  split
  next hcall => simp [debuggerCall, hcall]
  next hcall => simp [hcall]

theorem read_extend : e.read (kSCExtend, .interrupt) = { e with extendedState := true } := by
  rw [read_interrupt hdebug]
  rfl

theorem calls_cons_interrupt (key : UInt8) (rs : List (UInt8 × Way)) :
    calls e ((key, .interrupt) :: rs) = true ↔
      .debugger ∈ (e.doEscape key).effects ∨ calls (e.read (key, .interrupt)) rs = true := by
  rw [← debugger_mem_interrupt hdebug]
  simp [calls]

theorem calls_byte (c : MakeCode) (down : Bool) :
    calls e [(c.byte down, .interrupt)] = true ↔ CallsDebugger e c := by
  rw [calls_cons_interrupt hdebug, ← debugger_mem_interrupt hdebug, debugger_mem_byte hdebug]
  simp [calls]

/-- A byte that the escape does not see, or that is nothing to it. -/
theorem idle_read {r : UInt8 × Way}
    (hidle : r.2 = .interrupt → (e.doEscape r.1).escape = e ∧ (e.doEscape r.1).effects = []) :
    e.read r = e ∧ ∀ rs, calls e (r :: rs) = calls e rs := by
  obtain ⟨key, way⟩ := r
  cases way with
  | polled => exact ⟨rfl, fun _ => by simp [calls, Escape.read]⟩
  | interrupt =>
    obtain ⟨hescape, heffects⟩ := hidle rfl
    have hread : e.read (key, .interrupt) = e := by
      rw [read_interrupt hdebug, hescape]
    refine ⟨hread, fun rs => ?_⟩
    rw [Bool.eq_iff_iff, calls_cons_interrupt hdebug, heffects, hread]
    simp

theorem idle_reads {rs : List (UInt8 × Way)}
    (hidle : ∀ r ∈ rs, r.2 = .interrupt →
      (e.doEscape r.1).escape = e ∧ (e.doEscape r.1).effects = []) :
    rs.foldl Escape.read e = e ∧ calls e rs = false := by
  induction rs with
  | nil => exact ⟨rfl, rfl⟩
  | cons r rs ih =>
    obtain ⟨hread, hcalls⟩ := idle_read hdebug (hidle r List.mem_cons_self)
    obtain ⟨hrest, hrestCalls⟩ := ih fun x hx => hidle x (List.mem_cons_of_mem r hx)
    rw [List.foldl_cons, hread, hcalls]
    exact ⟨hrest, hrestCalls⟩

end Reads

theorem reads_single (c : MakeCode) (down : Bool) (ways : ℕ → Way) :
    ReadCode.reads ⟨⟨.single c, down⟩, ways⟩ = [(c.byte down, ways 0)] := rfl

theorem reads_extended (c : MakeCode) (down : Bool) (ways : ℕ → Way) :
    ReadCode.reads ⟨⟨.extended c, down⟩, ways⟩ =
      [(kSCExtend, ways 0), (c.byte down, ways 1)] := rfl

theorem reads_pause (useless c : MakeCode) (down : Bool) (ways : ℕ → Way) :
    ReadCode.reads ⟨⟨.pause useless c, down⟩, ways⟩ =
      [(kSCPause, ways 0), (useless.byte down, ways 1), (c.byte down, ways 2)] := rfl

/-- The bytes of a pause code, or the first of them, are nothing to the escape. -/
theorem idle_pause {e : Escape} (hextended : e.extendedState = false) {useless c : MakeCode}
    {down : Bool} {rs : List (UInt8 × Way)} (hseen : Seen e ⟨.pause useless c, down⟩ rs)
    (hbytes : ∀ r ∈ rs, r.1 ∈ [kSCPause, useless.byte down, c.byte down]) :
    ∀ r ∈ rs, r.2 = .interrupt →
      (e.doEscape r.1).escape = e ∧ (e.doEscape r.1).effects = [] := by
  intro r hr hway
  have hinert := hseen r hr hway
  rcases List.mem_cons.mp (hbytes r hr) with hpause | hbyte
  · rw [hpause, doEscape_pause hextended]
    exact ⟨rfl, rfl⟩
  · have hmem : ∃ x ∈ [useless, c], r.1 = x.byte down := by
      simpa using hbyte
    obtain ⟨x, hx, hkey⟩ := hmem
    rw [hkey]
    exact idle_inert hextended (hinert x hx hkey)

namespace Traced.Follows

variable {t : Traced}

theorem next_of_calls {c : ReadCode}
    (hcalls : calls t.escape c.reads = true)
    (hread : c.reads.foldl Escape.read t.escape = ⟨true, 0, false⟩) : (t.next c).Follows := by
  constructor
  · simp [next, hread]
  · simp [next, hread]
  · simp [next, hread, hcalls, heldModifiers]

theorem next_of_modify (hf : t.Follows) {c : ReadCode}
    (hcalls : calls t.escape c.reads = false)
    (hread : c.reads.foldl Escape.read t.escape =
      ⟨true, modify t.escape.modifierState c.event, false⟩) : (t.next c).Follows := by
  constructor
  · simp [next, hread]
  · simp [next, hread]
  · simp [next, hread, hcalls, heldModifiers_append, hf.modifierState]

/-- What one complete code preserves. -/
theorem next (hf : t.Follows) {c : ReadCode} (hseen : Seen t.escape c.event c.reads) :
    (t.next c).Follows := by
  obtain ⟨⟨key, down⟩, ways⟩ := c
  obtain ⟨⟨debuggingEnabled, modifierState, extendedState⟩, codes⟩ := t
  have hdebug := hf.debuggingEnabled
  have hextended := hf.extendedState
  simp only at hdebug hextended
  subst hdebug hextended
  cases key with
  | single c =>
    rw [reads_single] at hseen
    cases hway : ways 0 with
    | polled =>
      apply hf.next_of_modify
      · simp [reads_single, hway, calls]
      · have hsame := hseen _ List.mem_cons_self hway
        simp [reads_single, hway, Escape.read, hsame]
    | interrupt =>
      have hread := read_byte (e := ⟨true, modifierState, false⟩) rfl c down
      by_cases hcall : CallsDebugger ⟨true, modifierState, false⟩ c
      · apply next_of_calls
        · rw [reads_single, hway]
          exact (calls_byte rfl c down).mpr hcall
        · rw [reads_single, hway, List.foldl_cons, hread, if_pos hcall]
          rfl
      · apply hf.next_of_modify
        · rw [reads_single, hway, ← Bool.not_eq_true, calls_byte rfl]
          exact hcall
        · rw [reads_single, hway, List.foldl_cons, hread, if_neg hcall]
          rfl
  | extended c =>
    have hways : ways 0 = .interrupt ∧ ways 1 = .interrupt := by
      simpa [Seen, reads_extended] using hseen
    have hfirst := read_extend (e := ⟨true, modifierState, false⟩) rfl
    have hread := read_byte (e := ⟨true, modifierState, true⟩) rfl c down
    have hcalls (b : Bool) : calls ⟨true, modifierState, false⟩
        [(kSCExtend, .interrupt), (c.byte down, .interrupt)] = b ↔
        calls ⟨true, modifierState, true⟩ [(c.byte down, .interrupt)] = b := by
      rw [calls, hfirst]
      rfl
    by_cases hcall : CallsDebugger ⟨true, modifierState, true⟩ c
    · apply next_of_calls
      · rw [reads_extended, hways.1, hways.2, hcalls]
        exact (calls_byte rfl c down).mpr hcall
      · rw [reads_extended, hways.1, hways.2, List.foldl_cons, hfirst, List.foldl_cons, hread,
          if_pos hcall]
        rfl
    · apply hf.next_of_modify
      · rw [reads_extended, hways.1, hways.2, hcalls, ← Bool.not_eq_true, calls_byte rfl]
        exact hcall
      · rw [reads_extended, hways.1, hways.2, List.foldl_cons, hfirst, List.foldl_cons, hread,
          if_neg hcall]
        rfl
  | pause useless c =>
    obtain ⟨hread, hcalls⟩ := idle_reads (e := ⟨true, modifierState, false⟩) rfl
      (idle_pause rfl hseen (by simp [reads_pause]))
    apply hf.next_of_modify hcalls
    rw [hread]
    simp [modify, modifierOf]

theorem of_run {cs : List ReadCode} (hrun : run step start cs = some t)
    (hseen : Guarded step CanFollow start cs) : t.Follows := by
  have hstep : ∀ s c u, Traced.Follows s → CanFollow s c → step s c = some u →
      Traced.Follows u := by
    intro s c u hf hs hu
    rw [step, Option.some.injEq] at hu
    exact hu ▸ hf.next hs
  exact guarded_run_invariant hstep ⟨rfl, rfl, rfl⟩ hseen hrun

/-- In the middle of a code the modifiers are still those of the complete codes. -/
theorem take (hf : t.Follows) {c : ReadCode} {n : ℕ} (hn : n < c.reads.length)
    (hseen : Seen t.escape c.event (c.reads.take n)) :
    (c.reads.take n).foldl Escape.read t.escape =
      { t.escape with
        extendedState := (c.reads.take n).getLast?.map Prod.fst == some kSCExtend } := by
  obtain ⟨⟨key, down⟩, ways⟩ := c
  obtain ⟨⟨debuggingEnabled, modifierState, extendedState⟩, codes⟩ := t
  have hdebug := hf.debuggingEnabled
  have hextended := hf.extendedState
  simp only at hdebug hextended
  subst hdebug hextended
  cases key with
  | single c =>
    have hzero : n = 0 := by
      simpa [reads_single] using hn
    subst hzero
    rfl
  | extended c =>
    have hlt : n < 2 := by
      simpa [reads_extended] using hn
    rcases n with - | - | n
    · rfl
    · have hway : ways 0 = .interrupt := by
        simpa [Seen, reads_extended] using hseen
      simp [reads_extended, hway, read_extend]
    · omega
  | pause useless c =>
    have hsub : ∀ r ∈ (ReadCode.reads ⟨⟨.pause useless c, down⟩, ways⟩).take n,
        r.1 ∈ [kSCPause, useless.byte down, c.byte down] := by
      intro r hr
      have hmem := List.mem_of_mem_take hr
      rw [reads_pause] at hmem
      simp at hmem
      rcases hmem with rfl | rfl | rfl <;> simp
    obtain ⟨hread, -⟩ := idle_reads (e := ⟨true, modifierState, false⟩) rfl
      (idle_pause rfl hseen hsub)
    rw [hread]
    have hlast : (((ReadCode.reads ⟨⟨.pause useless c, down⟩, ways⟩).take n).getLast?.map
        Prod.fst == some kSCExtend) = false := by
      have hlt : n < 3 := by
        simpa [reads_pause] using hn
      have huseless := useless.byte_ne_extend down
      rcases n with - | - | - | n
      · rfl
      · rfl
      · simpa [reads_pause] using huseless.1
      · omega
    rw [hlast]

end Traced.Follows

theorem Traced.run_escape {cs : List ReadCode} {s t : Traced} (hrun : run step s cs = some t) :
    t.escape = (cs.flatMap ReadCode.reads).foldl Escape.read s.escape := by
  induction cs generalizing s with
  | nil =>
    rw [run_nil, Option.some.injEq] at hrun
    rw [hrun]
    rfl
  | cons c cs ih =>
    obtain ⟨u, hu, hrun⟩ := run_cons.mp hrun
    rw [step, Option.some.injEq] at hu
    rw [ih hrun, ← hu, next, List.flatMap_cons, List.foldl_append]

/-- A complete code does not end in a prefix. -/
theorem last_ne_extend (cs : List ReadCode) :
    (cs.flatMap ReadCode.reads).getLast?.map Prod.fst ≠ some kSCExtend := by
  induction cs using List.reverseRecOn with
  | nil => simp
  | append_singleton cs c ih =>
    obtain ⟨⟨key, down⟩, ways⟩ := c
    have hbyte (c : MakeCode) : c.byte down ≠ kSCExtend := (c.byte_ne_extend down).1
    cases key with
    | single c => simp [reads_single, hbyte]
    | extended c => simp [reads_extended, hbyte]
    | pause useless c => simp [reads_pause, hbyte]

/-- The modifier bits are those of the keys that are held, the prefix is that of the bytes
read so far, and no byte calls the debugger unless both Alt keys are held. -/
structure FollowsKeyboard (e : Escape) (bytes : List UInt8) (codes : List KeyEvent) : Prop where
  modifierState : e.modifierState = heldModifiers codes
  extendedState : e.extendedState = true ↔ bytes.getLast? = some kSCExtend
  debugger : ∀ key, .debugger ∈ (e.interruptHandlerKeyboard key).2 →
    level leftAlt codes = true ∧ level rightAlt codes = true

theorem debugger_mem_doEscape {e : Escape} {key : UInt8}
    (h : .debugger ∈ (e.doEscape key).effects) :
    e.modifierState = (kModifierAltLeft ||| kModifierAltRight) := by
  unfold Escape.doEscape at h
  dsimp only at h
  split at h
  · simp at h
  · split at h
    · simp at h
    · split at h
      next hcall => exact hcall.2
      next => simp at h

theorem alts_of_heldModifiers {es : List KeyEvent}
    (h : heldModifiers es = (kModifierAltLeft ||| kModifierAltRight)) :
    level leftAlt es = true ∧ level rightAlt es = true := by
  have hbits : ∀ a b c d e f g h : Bool,
      [(leftShift, a), (rightShift, b), (leftCtrl, c), (rightCtrl, d), (leftAlt, e),
        (rightAlt, f), (leftWindows, g), (rightWindows, h)].foldl
          (fun bits k => if k.2 then bits ||| modifierOf k.1 else bits) 0 =
        (kModifierAltLeft ||| kModifierAltRight) → e = true ∧ f = true := by
    decide
  exact hbits _ _ _ _ _ _ _ _ h

namespace DebugLoop

variable {as : List Action} {s : DebugLoop} {t : Traced} {codes : List ReadCode}
  {last : ReadCode} {n : ℕ}

/-- Whenever the bytes read so far are complete codes and the first bytes of one more, all of
which the escape can follow, its state is that of the keyboard. -/
theorem run_followsKeyboard (hrun : run DebugLoop.step (.start true) as = some s)
    (hreads : keyboardReads as = codes.flatMap ReadCode.reads ++ last.reads.take n)
    (hn : n < last.reads.length) (ht : run Traced.step .start codes = some t)
    (hseen : Guarded Traced.step Traced.CanFollow .start codes)
    (hlast : Seen t.escape last.event (last.reads.take n)) :
    FollowsKeyboard s.escape ((keyboardReads as).map Prod.fst) t.codes := by
  have hf := Traced.Follows.of_run ht hseen
  have hstate := hf.take hn hlast
  have hescape : s.escape = { t.escape with
      extendedState := (last.reads.take n).getLast?.map Prod.fst == some kSCExtend } := by
    rw [DebugLoop.run_escape hrun, hreads, List.foldl_append, ← hstate, Traced.run_escape ht]
    rfl
  constructor
  · rw [hescape]
    exact hf.modifierState
  · have hcodes := last_ne_extend codes
    rw [hescape, hreads, List.getLast?_map, List.getLast?_append]
    cases (last.reads.take n).getLast? with
    | none => simpa using hcodes
    | some r => simp
  · intro key hkey
    have hdebug : s.escape.debuggingEnabled = true := by
      rw [hescape]
      exact hf.debuggingEnabled
    have hboth := debugger_mem_doEscape ((debugger_mem_interrupt hdebug key).mp hkey)
    rw [hescape] at hboth
    exact alts_of_heldModifiers (hf.modifierState.symm.trans hboth)

/-- The left Alt key goes down, then A while a request of the mouse driver waits for its answer,
and half of the code of the right Alt key follows. -/
def polledLetter : List Action :=
  [.keyboardInterrupt 0x38, .runGated, .submitRequestAndBlock (setMouseEnable true), .advance,
    .advance, .advance, .advance, .advance, .readPort 0 .keyboard 0x1E, .keyboardInterrupt 0xE0]

theorem altKeys_followsKeyboard :
    keyboardReads polledLetter = [(0x38, .interrupt), (0x1E, .polled), (0xE0, .interrupt)] ∧
      FollowsKeyboard ⟨true, 0x10, true⟩ [0x38, 0x1E, 0xE0] [⟨leftAlt, true⟩, ⟨aKey, true⟩] :=
  ⟨rfl, @run_followsKeyboard polledLetter _ _
    [⟨⟨leftAlt, true⟩, fun _ => .interrupt⟩, ⟨⟨aKey, true⟩, fun _ => .polled⟩]
    ⟨⟨rightAlt, true⟩, fun _ => .interrupt⟩ 1 rfl rfl (by decide) rfl (by decide) (by decide)⟩

/-- The left Alt key goes up while a request of the mouse driver waits for its answer. -/
def polledRelease : List Action :=
  [.keyboardInterrupt 0x38, .keyboardInterrupt 0xE0, .keyboardInterrupt 0x38, .runGated,
    .submitRequestAndBlock (setMouseEnable true), .advance, .advance, .advance, .advance, .advance,
    .readPort 0 .keyboard 0xB8]

def polledReleaseCodes : List ReadCode :=
  [⟨⟨leftAlt, true⟩, fun _ => .interrupt⟩, ⟨⟨rightAlt, true⟩, fun _ => .interrupt⟩,
    ⟨⟨leftAlt, false⟩, fun _ => .polled⟩]

/-- The escape misses a release that is polled: Delete then calls the debugger with one Alt
key held. -/
theorem polledRelease_not_followsKeyboard :
    ∃ s t, run DebugLoop.step (.start true) polledRelease = some s ∧
      run Traced.step .start polledReleaseCodes = some t ∧
      keyboardReads polledRelease = polledReleaseCodes.flatMap ReadCode.reads ∧
      ¬ FollowsKeyboard s.escape ((keyboardReads polledRelease).map Prod.fst) t.codes ∧
      .debugger ∈ (s.escape.interruptHandlerKeyboard 0x53).2 ∧
      level leftAlt t.codes = false := by
  refine ⟨_, _, rfl, rfl, rfl, ?_, by decide, by decide⟩
  intro h
  exact absurd h.modifierState (by decide)

end DebugLoop
end Keyboard
