import NetbookInstaller.Keyboard.EscapeModifiers
import NetbookInstaller.Keyboard.StuckKeys

/-! What the keyboard interrupt leaves on the keyboard queue around a call of the
debugger, and what the driver makes of it. -/
namespace Keyboard

open Transition PS2

/-- A code, and how many elements of the keyboard queue are unused when each of its bytes
arrives. -/
structure QueuedCode where
  event : KeyEvent
  unused : ℕ → ℕ

def QueuedCode.bytes (c : QueuedCode) : List (UInt8 × ℕ) :=
  c.event.scanCodes.mapIdx fun i byte => (byte, c.unused i)

/-- The escape state, the bytes left on the keyboard queue so far, and the codes since the last
call of the debugger. -/
structure Relay where
  escape : Escape
  left : List UInt8
  codes : List KeyEvent

namespace Relay

def start : Relay := ⟨.start true, [], []⟩

def interrupt (s : Relay) (byte : UInt8 × ℕ) : Relay :=
  let (escape, effects) := s.escape.interruptHandlerKeyboard byte.1
  { s with escape, left := s.left ++ (enqueued effects).take byte.2 }

/-- Whether the debugger is called while the bytes arrive. -/
def Calls (s : Relay) (c : QueuedCode) : Prop :=
  calls s.escape (c.event.scanCodes.map (·, .interrupt)) = true

instance (s : Relay) (c : QueuedCode) : Decidable (s.Calls c) :=
  inferInstanceAs (Decidable (_ = true))

def next (s : Relay) (c : QueuedCode) : Relay :=
  { c.bytes.foldl interrupt s with codes := if s.Calls c then [] else s.codes ++ [c.event] }

def step (s : Relay) (c : QueuedCode) : Option Relay := some (s.next c)

/-- The driver that has been fed the bytes left on the queue. -/
def driver (s : Relay) (settings : Settings) : ApplePS2Keyboard :=
  (ApplePS2Keyboard.init settings).receive s.left

end Relay

theorem foldl_enqueueKeyboardData (queue bytes : List PortByte) :
    bytes.foldl enqueueKeyboardData queue =
      queue ++ bytes.take (kKeyboardQueueSize - queue.length) := by
  induction bytes generalizing queue with
  | nil => simp
  | cons byte bytes ih =>
    rw [List.foldl_cons, ih, enqueueKeyboardData]
    split
    next hroom =>
      have hunused : kKeyboardQueueSize - queue.length =
          (kKeyboardQueueSize - (queue ++ [byte]).length) + 1 := by
        rw [List.length_append, List.length_singleton]
        omega
      rw [hunused, List.take_succ_cons, List.append_assoc]
      rfl
    next hfull =>
      have hunused : kKeyboardQueueSize - queue.length = 0 := by omega
      rw [hunused]
      simp

/-- The interrupt on the queue of the work loop. -/
theorem keyboardInterrupt_relay (s : DebugLoop) (r : Relay) (key : UInt8)
    (hescape : r.escape = s.escape) :
    (s.keyboardInterrupt key).escape =
        (r.interrupt (key, kKeyboardQueueSize - s.loop.keyboardQueue.length)).escape ∧
      r.left ++ ((s.keyboardInterrupt key).loop.keyboardQueue.drop
          s.loop.keyboardQueue.length).map PortByte.data =
        (r.interrupt (key, kKeyboardQueueSize - s.loop.keyboardQueue.length)).left := by
  constructor
  · rw [Relay.interrupt, hescape]
    rfl
  · have hqueue (bytes : List UInt8) : bytes.foldl
        (fun queue key => enqueueKeyboardData queue ⟨.keyboard, key, s.loop.portReads⟩)
        s.loop.keyboardQueue = s.loop.keyboardQueue ++ (bytes.map fun key =>
          ⟨.keyboard, key, s.loop.portReads⟩).take
            (kKeyboardQueueSize - s.loop.keyboardQueue.length) := by
      rw [← foldl_enqueueKeyboardData, List.foldl_map]
    rw [Relay.interrupt, hescape, DebugLoop.keyboardInterrupt]
    simp only [hqueue]
    rw [List.drop_left, List.map_take, List.map_map]
    simp [Function.comp_def]

namespace Relay

/-- The code is passed on whole, or it is the single Delete that calls the debugger with no
modifier held but the Alt keys; its bytes find room on the queue. -/
def CanRelay (s : Relay) (c : QueuedCode) : Prop :=
  match c.event.source with
  | .single x =>
    if CallsDebugger s.escape x then
      (∀ k ∈ modifierKeys, level k s.codes = true → k = leftAlt ∨ k = rightAlt) ∧ 3 ≤ c.unused 0
    else 1 ≤ c.unused 0
  | .extended x => ¬ CallsDebugger s.escape x ∧ 1 ≤ c.unused 0 ∧ 1 ≤ c.unused 1
  | .pause useless x =>
    ¬ CallsDebugger s.escape useless ∧
      ¬ CallsDebugger { s.escape with
        modifierState := modify s.escape.modifierState ⟨.single useless, c.event.rising⟩ } x ∧
      1 ≤ c.unused 0 ∧ 1 ≤ c.unused 1 ∧ 1 ≤ c.unused 2

instance (s : Relay) (c : QueuedCode) : Decidable (s.CanRelay c) :=
  match c with
  | ⟨⟨.single x, _⟩, unused⟩ => inferInstanceAs (Decidable (if CallsDebugger s.escape x then
      (∀ k ∈ modifierKeys, level k s.codes = true → k = leftAlt ∨ k = rightAlt) ∧ 3 ≤ unused 0
    else 1 ≤ unused 0))
  | ⟨⟨.extended x, _⟩, unused⟩ => inferInstanceAs (Decidable
      (¬ CallsDebugger s.escape x ∧ 1 ≤ unused 0 ∧ 1 ≤ unused 1))
  | ⟨⟨.pause useless x, down⟩, unused⟩ => inferInstanceAs (Decidable
      (¬ CallsDebugger s.escape useless ∧
        ¬ CallsDebugger { s.escape with
          modifierState := modify s.escape.modifierState ⟨.single useless, down⟩ } x ∧
        1 ≤ unused 0 ∧ 1 ≤ unused 1 ∧ 1 ≤ unused 2))

/-- The codes whose bytes are left on the queue for a code that is relayed. -/
def relayed (s : Relay) (c : QueuedCode) : List KeyEvent :=
  if s.Calls c then [⟨leftAlt, false⟩, ⟨rightAlt, false⟩] else [c.event]

/-- What holds between two codes. -/
structure Framed (s : Relay) : Prop where
  debuggingEnabled : s.escape.debuggingEnabled = true
  extendedState : s.escape.extendedState = false
  left : ∃ es : List KeyEvent, s.left = es.flatMap KeyEvent.scanCodes

section Bytes
variable {s : Relay} (hdebug : s.escape.debuggingEnabled = true)
include hdebug

/-- A byte that the escape lets pass. -/
theorem interrupt_passed {key : UInt8} {escape : Escape}
    (hpass : s.escape.doEscape key = ⟨escape, [], false⟩) {unused : ℕ} (hroom : 1 ≤ unused) :
    s.interrupt (key, unused) = { s with escape, left := s.left ++ [key] } := by
  have htake : [key].take unused = [key] := List.take_of_length_le hroom
  rw [interrupt, Escape.interruptHandlerKeyboard, if_pos hdebug, hpass]
  simp [enqueued, htake]

theorem interrupt_called {c : MakeCode} {down : Bool} (hcall : CallsDebugger s.escape c)
    {unused : ℕ} (hroom : 3 ≤ unused) :
    s.interrupt (c.byte down, unused) =
      { s with
        escape := { s.escape with modifierState := 0, extendedState := false }
        left := s.left ++ [0xB8, 0xE0, 0xB8] } := by
  have hcodes : s.escape.releaseCodes = [0xB8, 0xE0, 0xB8] := by
    rw [Escape.releaseCodes, hcall.2]
    decide
  have htake : ([0xB8, 0xE0, 0xB8] : List UInt8).take unused = [0xB8, 0xE0, 0xB8] :=
    List.take_of_length_le hroom
  rw [interrupt, Escape.interruptHandlerKeyboard, if_pos hdebug, doEscape_byte, if_pos hcall]
  simp [debuggerCall, hcodes, enqueued, htake]

theorem calls_single (x : MakeCode) (down : Bool) (unused : ℕ → ℕ) :
    s.Calls ⟨⟨.single x, down⟩, unused⟩ ↔ CallsDebugger s.escape x := calls_byte hdebug x down

theorem not_calls_extended {x : MakeCode} {down : Bool} {unused : ℕ → ℕ}
    (hcall : ¬ CallsDebugger s.escape x) : ¬ s.Calls ⟨⟨.extended x, down⟩, unused⟩ := by
  intro h
  change calls s.escape [(kSCExtend, .interrupt), (x.byte down, .interrupt)] = true at h
  rw [calls_cons_interrupt hdebug, read_extend hdebug] at h
  rcases h with hextend | hbyte
  · exact absurd hextend List.not_mem_nil
  · have hcalled := (calls_byte (by exact hdebug) x down).mp hbyte
    exact hcall hcalled

theorem not_calls_pause (hextended : s.escape.extendedState = false) {useless x : MakeCode}
    {down : Bool} {unused : ℕ → ℕ} (huseless : ¬ CallsDebugger s.escape useless)
    (hcall : ¬ CallsDebugger { s.escape with
      modifierState := modify s.escape.modifierState ⟨.single useless, down⟩ } x) :
    ¬ s.Calls ⟨⟨.pause useless x, down⟩, unused⟩ := by
  intro h
  change calls s.escape [(kSCPause, .interrupt), (useless.byte down, .interrupt),
    (x.byte down, .interrupt)] = true at h
  rw [calls_cons_interrupt hdebug, read_interrupt hdebug, doEscape_pause hextended,
    calls_cons_interrupt hdebug, read_byte hdebug, doEscape_byte, if_neg huseless,
    if_neg huseless, hextended] at h
  rcases h with hpause | hskip | hbyte
  · exact absurd hpause List.not_mem_nil
  · exact absurd hskip List.not_mem_nil
  · have hcalled := (calls_byte (by exact hdebug) x down).mp hbyte
    exact hcall hcalled

end Bytes

/-- The bytes of a code, or in place of a call of the debugger those that release the
Alt keys, are left on the queue. -/
theorem Framed.relays {s : Relay} (hf : s.Framed) {c : QueuedCode} (hc : s.CanRelay c) :
    ∃ modifierState, c.bytes.foldl interrupt s =
      { s with
        escape := ⟨true, modifierState, false⟩
        left := s.left ++ (s.relayed c).flatMap KeyEvent.scanCodes } := by
  obtain ⟨⟨key, down⟩, unused⟩ := c
  obtain ⟨⟨debuggingEnabled, modifierState, extendedState⟩, left, codes⟩ := s
  have hdebug := hf.debuggingEnabled
  have hextended := hf.extendedState
  simp only at hdebug hextended
  subst hdebug hextended
  cases key with
  | single x =>
    have hbytes : QueuedCode.bytes ⟨⟨.single x, down⟩, unused⟩ = [(x.byte down, unused 0)] := rfl
    have hcalls := calls_single (s := ⟨⟨true, modifierState, false⟩, left, codes⟩) rfl x down unused
    have hroom : if CallsDebugger ⟨true, modifierState, false⟩ x then
        (∀ k ∈ modifierKeys, level k codes = true → k = leftAlt ∨ k = rightAlt) ∧ 3 ≤ unused 0
      else 1 ≤ unused 0 := hc
    by_cases hcall : CallsDebugger ⟨true, modifierState, false⟩ x
    · rw [if_pos hcall] at hroom
      have hlast : interrupt _ (x.byte down, unused 0) = _ :=
        interrupt_called (s := ⟨⟨true, modifierState, false⟩, left, codes⟩) rfl hcall hroom.2
      rw [relayed, if_pos (hcalls.mpr hcall), hbytes, List.foldl_cons, hlast]
      exact ⟨_, rfl⟩
    · rw [if_neg hcall] at hroom
      have hlast := interrupt_passed (s := ⟨⟨true, modifierState, false⟩, left, codes⟩) rfl
        ((doEscape_byte _ x down).trans (if_neg hcall)) hroom
      rw [relayed, if_neg fun h => hcall (hcalls.mp h), List.flatMap_singleton, hbytes,
        List.foldl_cons, hlast]
      exact ⟨_, rfl⟩
  | extended x =>
    obtain ⟨hcall, hfirst, hroom⟩ := hc
    have hbytes : QueuedCode.bytes ⟨⟨.extended x, down⟩, unused⟩ =
        [(kSCExtend, unused 0), (x.byte down, unused 1)] := rfl
    have hprefixed : ¬ CallsDebugger ⟨true, modifierState, true⟩ x := hcall
    have hextend : interrupt _ (kSCExtend, unused 0) = _ :=
      interrupt_passed (s := ⟨⟨true, modifierState, false⟩, left, codes⟩) rfl rfl hfirst
    have hlast := interrupt_passed (s := ⟨⟨true, modifierState, true⟩, left ++ [kSCExtend], codes⟩)
      rfl ((doEscape_byte _ x down).trans (if_neg hprefixed)) hroom
    rw [relayed, if_neg (not_calls_extended rfl hcall), List.flatMap_singleton, hbytes,
      List.foldl_cons, hextend,
      List.foldl_cons, hlast, List.append_assoc]
    exact ⟨_, rfl⟩
  | pause useless x =>
    obtain ⟨huseless, hcall, hfirst, hsecond, hroom⟩ := hc
    have hbytes : QueuedCode.bytes ⟨⟨.pause useless x, down⟩, unused⟩ =
        [(kSCPause, unused 0), (useless.byte down, unused 1), (x.byte down, unused 2)] := rfl
    have hskip := (doEscape_byte ⟨true, modifierState, false⟩ useless down).trans
      (if_neg huseless)
    have hend := (doEscape_byte ⟨true, modify modifierState ⟨.single useless, down⟩, false⟩ x
      down).trans (if_neg hcall)
    rw [relayed, if_neg (not_calls_pause rfl rfl huseless hcall), List.flatMap_singleton, hbytes,
      List.foldl_cons, interrupt_passed rfl (doEscape_pause rfl) hfirst, List.foldl_cons,
      interrupt_passed rfl hskip hsecond, List.foldl_cons, interrupt_passed rfl hend hroom,
      List.append_assoc, List.append_assoc]
    exact ⟨_, rfl⟩

/-- Only the Alt keys are held when the debugger is called. -/
theorem Framed.alts_of_calls {s : Relay} (hf : s.Framed) {c : QueuedCode} (hc : s.CanRelay c)
    (hcalls : s.Calls c) {k : Key} (hk : k ∈ modifierKeys) (hheld : level k s.codes = true) :
    k = leftAlt ∨ k = rightAlt := by
  obtain ⟨⟨key, down⟩, unused⟩ := c
  cases key with
  | single x =>
    have hcall := (calls_single hf.debuggingEnabled x down unused).mp hcalls
    have hroom : if CallsDebugger s.escape x then
        (∀ k ∈ modifierKeys, level k s.codes = true → k = leftAlt ∨ k = rightAlt) ∧ 3 ≤ unused 0
      else 1 ≤ unused 0 := hc
    rw [if_pos hcall] at hroom
    exact hroom.1 k hk hheld
  | extended x => exact absurd hcalls (not_calls_extended hf.debuggingEnabled hc.1)
  | pause useless x =>
    exact absurd hcalls (not_calls_pause hf.debuggingEnabled hf.extendedState hc.1 hc.2.1)

theorem Framed.next {s : Relay} (hf : s.Framed) {c : QueuedCode} (hc : s.CanRelay c) :
    (s.next c).Framed := by
  obtain ⟨modifierState, hbytes⟩ := hf.relays hc
  obtain ⟨es, hes⟩ := hf.left
  constructor
  · rw [Relay.next, hbytes]
  · rw [Relay.next, hbytes]
  · refine ⟨es ++ s.relayed c, ?_⟩
    rw [Relay.next, hbytes, hes, List.flatMap_append]

theorem Framed.of_run {cs : List QueuedCode} {s : Relay} (hrun : run step start cs = some s)
    (hrelay : Guarded step CanRelay start cs) : s.Framed := by
  have hstep : ∀ s c t, Framed s → CanRelay s c → step s c = some t → Framed t := by
    intro s c t hf hc ht
    rw [step, Option.some.injEq] at ht
    exact ht ▸ hf.next hc
  exact guarded_run_invariant hstep ⟨rfl, rfl, [], rfl⟩ hrelay hrun

theorem Framed.driver_extendCount {s : Relay} (hf : s.Framed) (settings : Settings) :
    (s.driver settings).extendCount = 0 := by
  obtain ⟨es, hes⟩ := hf.left
  rw [driver, hes, ApplePS2Keyboard.receive_stream rfl, ApplePS2Keyboard.foldl_keyStep_extendCount]
  rfl

theorem Framed.driver_next {s : Relay} (hf : s.Framed) {c : QueuedCode} (hc : s.CanRelay c)
    (settings : Settings) : (s.next c).driver settings =
      (s.relayed c).foldl (keyStep settings) (s.driver settings) := by
  obtain ⟨modifierState, hbytes⟩ := hf.relays hc
  obtain ⟨es, hes⟩ := hf.left
  have hsettings : (s.driver settings).settings = settings := by
    rw [driver, hes, ApplePS2Keyboard.receive_stream rfl, ApplePS2Keyboard.foldl_keyStep_settings]
    rfl
  have happend : (s.next c).driver settings =
      (s.driver settings).receive ((s.relayed c).flatMap KeyEvent.scanCodes) := by
    rw [driver, Relay.next, hbytes]
    exact List.foldl_append
  rw [happend, ApplePS2Keyboard.receive_stream (hf.driver_extendCount settings), hsettings]

/-- What the driver makes of the bytes left on the queue for one code: it goes on with the
framing of the keyboard, a code that is passed on is the keyboard's, and behind a call of the
debugger every modifier key that was held is up. -/
structure Kept (s : Relay) (c : QueuedCode) (settings : Settings) : Prop where
  framing : ((s.next c).driver settings).extendCount = 0
  passed : ¬ s.Calls c →
    (s.next c).driver settings = keyStep settings (s.driver settings) c.event
  released : s.Calls c → ∀ k ∈ modifierKeys, level k s.codes = true → ∀ l ∈ k.lines settings,
    (∀ keyCode, l = .keyed keyCode → ¬ ((s.next c).driver settings).IsKeydown keyCode) ∧
      ∀ adbKeyCode, l.adbKeyCode = some adbKeyCode →
        ¬ ((s.next c).driver settings).IsDown adbKeyCode

/-- A signal of one of two keys that go up is off. -/
theorem Framed.released_alts {s : Relay} (hf : s.Framed) {c : QueuedCode} (hc : s.CanRelay c)
    (hcalls : s.Calls c) {settings : Settings} {ι : Type} {on : ApplePS2Keyboard → ι → Prop}
    {signals : Key → Set ι} (hdrives : Drives (keyStep settings) on signals) {k : Key}
    (hk : k = leftAlt ∨ k = rightAlt) {i : ι} (hi : i ∈ signals k) :
    ¬ on ((s.next c).driver settings) i := by
  rw [hf.driver_next hc, relayed, if_pos hcalls]
  intro h
  obtain ⟨hfirst, hright⟩ := hdrives.fall _ _ _ h
  obtain ⟨-, hleft⟩ := hdrives.fall _ _ _ hfirst
  rcases hk with rfl | rfl
  · exact hleft hi
  · exact hright hi

/-- In every run of codes that can be relayed, the driver keeps in step with the keyboard and
every call of the debugger releases the modifier keys. -/
theorem run_kept {cs : List QueuedCode} {s : Relay} (hrun : run step start cs = some s)
    (hrelay : Guarded step CanRelay start cs) {c : QueuedCode} (hc : s.CanRelay c)
    (settings : Settings) : s.Kept c settings := by
  have hf := Framed.of_run hrun hrelay
  constructor
  · exact (hf.next hc).driver_extendCount settings
  · intro hcalls
    rw [hf.driver_next hc, relayed, if_neg hcalls]
    rfl
  · intro hcalls k hk hheld l hl
    have halt := hf.alts_of_calls hc hcalls hk hheld
    constructor
    · intro keyCode hkeyed
      exact hf.released_alts hc hcalls (ApplePS2Keyboard.isKeydown_drives settings) halt
        ⟨l, hl, hkeyed⟩
    · intro adbKeyCode hadb
      exact hf.released_alts hc hcalls (ApplePS2Keyboard.isDown_drives settings) halt
        ⟨l, hl, hadb⟩

/-- A key goes down while the keyboard queue is empty. -/
def pressed (k : Key) : QueuedCode := ⟨⟨k, true⟩, fun _ => kKeyboardQueueSize⟩

theorem deleteKey_kept : ((start.next (pressed leftAlt)).next (pressed rightAlt)).Kept
    (pressed deleteKey) ⟨false, false, false⟩ :=
  @run_kept [pressed leftAlt, pressed rightAlt] _ rfl (by decide) _ (by decide) _

/-- The `E0` of the gray Delete key is on the queue already: the release of the left Alt key
becomes one of the right Alt key. -/
theorem grayDelete_not_kept :
    ((start.next (pressed leftAlt)).next (pressed rightAlt)).Calls (pressed grayDelete) ∧
    ¬ ((start.next (pressed leftAlt)).next (pressed rightAlt)).Kept (pressed grayDelete)
      ⟨false, false, false⟩ := by
  refine ⟨by decide, fun h => ?_⟩
  have hleft := h.released (by decide) leftAlt (by decide) (by decide) (.keyed 0x38) (by decide)
  apply hleft.1 0x38 rfl
  show kbvIsKeydown _ _ = true
  decide

end Relay
end Keyboard
