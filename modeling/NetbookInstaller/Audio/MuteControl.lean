import NetbookInstaller.Transition.Runs
import Mathlib.Logic.Function.Basic

/-! The mute control of the patched audio driver: it selects the speakers or the headphones
by what the jack senses, and mutes the amplifier of the output that is selected. -/
namespace Audio

open Transition

def widgetLineOut : UInt8 := 0x14
def widgetHeaphones : UInt8 := 0x15
def hdaGetPinsence : UInt16 := 0xF09
def hdaSetEapd : UInt16 := 0x70C
def hdaPinCtrl : UInt16 := 0x707

def verb4Bit (codec node : UInt8) (verb payload : UInt16) : UInt32 :=
  (codec.toUInt32 &&& 0xF) <<< 28 ||| (node.toUInt32 &&& 0xFF) <<< 20 |||
    (verb.toUInt32 &&& 0xF) <<< 16 ||| (payload.toUInt32 &&& 0xFFFF)

def verb16Bit (codec node : UInt8) (verb payload : UInt16) : UInt32 :=
  (codec.toUInt32 &&& 0xF) <<< 28 ||| (node.toUInt32 &&& 0xFF) <<< 20 |||
    (verb.toUInt32 &&& 0xFFF) <<< 8 ||| (payload.toUInt32 &&& 0xFF)

def command (codec node : UInt8) (verb payload : UInt16) : UInt32 :=
  if verb &&& 0xFF0 ≠ 0 then verb16Bit codec node verb payload
  else verb4Bit codec node verb payload

/-- The output amplifiers of the codec: gain and, in bit 7, mute of each widget. -/
structure Codec where
  amplifier : UInt8 → UInt8

/-- The codec carries a command out. Of the commands that the driver sends, `0x3B0` alone
sets an amplifier: both channels of the output amplifier of the widget. -/
def Codec.execute (c : Codec) (cmd : UInt32) : Codec :=
  if cmd &&& 0xFFF00 = 0x3B000 then
    { c with amplifier := Function.update c.amplifier (cmd >>> 20).toUInt8 cmd.toUInt8 }
  else c

def Codec.muted (c : Codec) (node : UInt8) : Bool :=
  c.amplifier node &&& 0x80 != 0

/-- What becomes of a verb that is sent: the status register shows a response, or it does
not within the thousand readings. Then nobody knows whether the codec has carried the verb
out, and `runVerb` returns what its variable happens to hold. -/
inductive Answer where
  | answered (response : UInt32)
  | timedOut (executed : Bool) (returnVal : UInt32)

def Answer.isAnswered : Answer → Bool
  | .answered _ => true
  | .timedOut _ _ => false

/-- What `runVerb` returns. -/
def Answer.value : Answer → UInt32
  | .answered response => response
  | .timedOut _ returnVal => returnVal

/-- The answers to the verbs that a call sends, in their order. -/
def Answered (answers : ℕ → Answer) : Prop :=
  ∀ i, (answers i).isAnswered = true

inductive IOReturn where
  | kIOReturnSuccess | kIOReturnError
  deriving DecidableEq, Repr

/-- The control and the codec behind it. `ioreg` says whether the device memory is mapped,
`pollTimeout` whether the timer is there. -/
structure Mini9MuteControl where
  ioreg : Bool
  mute : Bool
  output : UInt8
  pollTimeout : Bool
  codec : Codec

namespace Mini9MuteControl

def init (codec : Codec) : Mini9MuteControl :=
  ⟨false, true, 0, false, codec⟩

def runVerb (s : Mini9MuteControl) (codec node : UInt8) (verb payload : UInt16) (a : Answer) :
    Mini9MuteControl × UInt32 :=
  if s.ioreg = false then (s, 0)
  else
    let cmd := command codec node verb payload
    match a with
    | .answered _ => ({ s with codec := s.codec.execute cmd }, a.value)
    | .timedOut executed _ =>
      (if executed then { s with codec := s.codec.execute cmd } else s, a.value)

/-- A verb whose response is not used. -/
def send (s : Mini9MuteControl) (node : UInt8) (verb payload : UInt16) (a : Answer) :
    Mini9MuteControl :=
  (s.runVerb 0 node verb payload a).1

/-- `setCorb` returns at once, so the CORB stays as it is here and in what follows. -/
def setOutput (s : Mini9MuteControl) (output : UInt8) (answers : ℕ → Answer) :
    Mini9MuteControl :=
  let s := { s with output }
  if output = widgetHeaphones then
    let s := s.send widgetHeaphones 0x3B0 0x64 (answers 0)
    let s := s.send widgetHeaphones hdaSetEapd 0x02 (answers 1)
    let s := s.send widgetHeaphones hdaPinCtrl 0xC0 (answers 2)
    s.send widgetLineOut 0x3B0 0x80 (answers 3)
  else if output = widgetLineOut then
    let s := s.send 0x23 0x701 0x05 (answers 0)
    let s := s.send widgetLineOut 0x3B0 0x00 (answers 1)
    let s := s.send widgetLineOut hdaSetEapd 0x02 (answers 2)
    let s := s.send widgetLineOut hdaPinCtrl 0xC0 (answers 3)
    s.send widgetHeaphones 0x3B0 0x80 (answers 4)
  else s

def setMute (s : Mini9MuteControl) (mute : Bool) (answers : ℕ → Answer) : Mini9MuteControl :=
  let s := { s with mute }
  -- the two cases of the switch send the same verbs
  if s.output = widgetHeaphones ∨ s.output = widgetLineOut then
    let s := s.send s.output 0x3B0 (if mute then 0x80 else 0x00) (answers 0)
    let s := if mute then s else s.send s.output hdaSetEapd 0x02 (answers 1)
    if mute then s else s.send s.output hdaPinCtrl 0xC0 (answers 2)
  else s

/-- The output that a response to the sense verb stands for. -/
def outputFor (response : UInt32) : UInt8 :=
  if response ≠ 0 then widgetHeaphones else widgetLineOut

def determineOutput (s : Mini9MuteControl) (a : Answer) : Mini9MuteControl × UInt8 :=
  let (s, response) := s.runVerb 0 widgetHeaphones hdaGetPinsence 0x00 a
  (s, outputFor response)

/-- The timer is armed again behind it. -/
def outputPoller (s : Mini9MuteControl) (answers : ℕ → Answer) : Mini9MuteControl :=
  let (s, currentOutput) := s.determineOutput (answers 0)
  if s.output ^^^ currentOutput ≠ 0 then s.setOutput currentOutput fun i => answers (i + 1) else s

def updateMuteControl (s : Mini9MuteControl) (answers : ℕ → Answer) : Mini9MuteControl :=
  s.setMute s.mute answers

/-- `newValue` is `none` when the object is no number. -/
def performValueChange (s : Mini9MuteControl) (newValue : Option UInt32) (answers : ℕ → Answer) :
    Mini9MuteControl × IOReturn :=
  match newValue with
  | none => (s, .kIOReturnError)
  | some v => (s.setMute (v != 0) answers, .kIOReturnSuccess)

/-- `hdaDeviceEntry` says whether the registry has the device, `memory` whether it is a
service with a device memory. -/
def startUpdate (s : Mini9MuteControl) (hdaDeviceEntry memory : Bool) (answers : ℕ → Answer) :
    Mini9MuteControl :=
  if hdaDeviceEntry then
    let s := { s with ioreg := memory }
    let s := s.setOutput widgetLineOut answers
    let s := s.setMute s.mute fun i => answers (i + 5)
    { s with pollTimeout := true }
  else s

end Mini9MuteControl

/-- The control, and what the last poll sensed. -/
structure State where
  control : Mini9MuteControl
  sensed : Option UInt8

inductive Event where
  | performValueChange (newValue : Option UInt32) (answers : ℕ → Answer)
  | setMute (mute : Bool) (answers : ℕ → Answer)
  | updateMuteControl (answers : ℕ → Answer)
  | outputPoller (answers : ℕ → Answer)

def Event.answers : Event → ℕ → Answer
  | .performValueChange _ answers | .setMute _ answers | .updateMuteControl answers
  | .outputPoller answers => answers

/-- A sense verb that times out senses nothing. -/
def Answer.sensed : Answer → Option UInt8
  | .answered response => some (Mini9MuteControl.outputFor response)
  | .timedOut _ _ => none

/-- The poller runs only once its timer is there. -/
def step (s : State) : Event → Option State
  | .performValueChange newValue answers =>
    some { s with control := (s.control.performValueChange newValue answers).1 }
  | .setMute mute answers => some { s with control := s.control.setMute mute answers }
  | .updateMuteControl answers => some { s with control := s.control.updateMuteControl answers }
  | .outputPoller answers =>
    if s.control.pollTimeout then
      some ⟨s.control.outputPoller answers, (answers 0).sensed.or s.sensed⟩
    else none

/-- The control behind `startUpdate`. -/
def started (codec : Codec) (hdaDeviceEntry memory : Bool) (answers : ℕ → Answer) : State :=
  ⟨(Mini9MuteControl.init codec).startUpdate hdaDeviceEntry memory answers, none⟩

/-- The widgets that the switches of the driver know. -/
def IsOutput (node : UInt8) : Prop :=
  node = widgetHeaphones ∨ node = widgetLineOut

def otherOutput (output : UInt8) : UInt8 :=
  if output = widgetHeaphones then widgetLineOut else widgetHeaphones

/-- The amplifier of the selected output follows the mute setting, the other one is muted,
and what is selected is what the last poll sensed. -/
structure Settled (s : State) : Prop where
  selected : IsOutput s.control.output
  mute : s.control.codec.muted s.control.output = s.control.mute
  other : s.control.codec.muted (otherOutput s.control.output) = true
  sensed : ∀ output, s.sensed = some output → s.control.output = output

/-- The sense verb of the event is sent and times out. -/
def SenseTimesOut (s : State) (e : Event) : Prop :=
  s.control.ioreg = true ∧ ∃ answers, e = .outputPoller answers ∧ (answers 0).isAnswered = false

/-- A poll whose sense verb times out changes neither the output nor an amplifier. -/
def TimeOutKeeps (s : State) (e : Event) : Prop :=
  SenseTimesOut s e → ∀ t, step s e = some t →
    t.control.output = s.control.output ∧ t.control.codec = s.control.codec

/-- A poll that senses another output than the selected one finds the control unmuted. -/
def SwitchesUnmuted (s : State) (e : Event) : Prop :=
  ∀ answers output, e = .outputPoller answers → (answers 0).sensed = some output →
    output ≠ s.control.output → s.control.mute = false

/-- What the variable of `runVerb` holds when the sense verb times out stands for the output
that is selected. -/
def ReadsSelected (s : State) (e : Event) : Prop :=
  s.control.ioreg = true → ∀ answers, e = .outputPoller answers →
    (answers 0).isAnswered = false →
      Mini9MuteControl.outputFor (answers 0).value = s.control.output

namespace Codec
variable (c : Codec)

theorem execute_amplifier {node : UInt8} {payload : UInt16} (hnode : IsOutput node)
    (hpayload : payload = 0x00 ∨ payload = 0x64 ∨ payload = 0x80) :
    c.execute (command 0 node 0x3B0 payload) =
      ⟨Function.update c.amplifier node payload.toUInt8⟩ := by
  rcases hnode with rfl | rfl <;> rcases hpayload with rfl | rfl | rfl <;> rfl

/-- The other commands leave the amplifiers alone. -/
theorem execute_eapd {node : UInt8} (hnode : IsOutput node) :
    c.execute (command 0 node hdaSetEapd 0x02) = c := by
  rcases hnode with rfl | rfl <;> rfl

theorem execute_pinCtrl {node : UInt8} (hnode : IsOutput node) :
    c.execute (command 0 node hdaPinCtrl 0xC0) = c := by
  rcases hnode with rfl | rfl <;> rfl

theorem execute_multiplexer : c.execute (command 0 0x23 0x701 0x05) = c := rfl

theorem muted_update (amplifier : UInt8 → UInt8) (node other payload : UInt8) :
    (⟨Function.update amplifier node payload⟩ : Codec).muted other =
      if other = node then payload &&& 0x80 != 0 else (⟨amplifier⟩ : Codec).muted other := by
  show (Function.update amplifier node payload other &&& 0x80 != 0) = _
  rw [Function.update_apply]
  split <;> rfl

end Codec

namespace Mini9MuteControl
variable {s : Mini9MuteControl} {answers : ℕ → Answer}

theorem send_answered (hioreg : s.ioreg = true) (node : UInt8) (verb payload : UInt16)
    {a : Answer} (ha : a.isAnswered = true) :
    s.send node verb payload a =
      { s with codec := s.codec.execute (command 0 node verb payload) } := by
  cases a with
  | answered response => simp [send, runVerb, hioreg]
  | timedOut executed returnVal => cases ha

theorem send_eq (s : Mini9MuteControl) (node : UInt8) (verb payload : UInt16) (a : Answer) :
    ∃ codec, s.send node verb payload a = { s with codec } := by
  unfold send runVerb
  split
  · exact ⟨s.codec, rfl⟩
  · cases a with
    | answered response => exact ⟨_, rfl⟩
    | timedOut executed returnVal =>
      cases executed with
      | true => exact ⟨_, rfl⟩
      | false => exact ⟨s.codec, rfl⟩

@[simp] theorem send_kept (s : Mini9MuteControl) (node : UInt8) (verb payload : UInt16)
    (a : Answer) :
    (s.send node verb payload a).ioreg = s.ioreg ∧
      (s.send node verb payload a).pollTimeout = s.pollTimeout ∧
        (s.send node verb payload a).output = s.output := by
  obtain ⟨codec, h⟩ := s.send_eq node verb payload a
  rw [h]
  exact ⟨rfl, rfl, rfl⟩

theorem setOutput_output (s : Mini9MuteControl) (output : UInt8) (answers : ℕ → Answer) :
    (s.setOutput output answers).output = output := by
  unfold setOutput
  split_ifs <;> simp

/-- Neither the registers nor the timer go away. -/
theorem setOutput_mapped (s : Mini9MuteControl) (output : UInt8) (answers : ℕ → Answer) :
    (s.setOutput output answers).ioreg = s.ioreg ∧
      (s.setOutput output answers).pollTimeout = s.pollTimeout := by
  unfold setOutput
  split_ifs <;> simp

theorem setMute_mapped (s : Mini9MuteControl) (mute : Bool) (answers : ℕ → Answer) :
    (s.setMute mute answers).ioreg = s.ioreg ∧
      (s.setMute mute answers).pollTimeout = s.pollTimeout := by
  rw [setMute]
  split
  · cases mute <;> simp
  · exact ⟨rfl, rfl⟩

theorem outputPoller_mapped (s : Mini9MuteControl) (answers : ℕ → Answer) :
    (s.outputPoller answers).ioreg = s.ioreg ∧
      (s.outputPoller answers).pollTimeout = s.pollTimeout := by
  have hsend : (s.determineOutput (answers 0)).1.ioreg = s.ioreg ∧
      (s.determineOutput (answers 0)).1.pollTimeout = s.pollTimeout := by
    have h := s.send_kept widgetHeaphones hdaGetPinsence 0x00 (answers 0)
    exact ⟨h.1, h.2.1⟩
  unfold outputPoller
  generalize s.determineOutput (answers 0) = r at hsend
  obtain ⟨u, currentOutput⟩ := r
  dsimp only at hsend ⊢
  rw [← hsend.1, ← hsend.2]
  split
  · exact u.setOutput_mapped currentOutput _
  · exact ⟨rfl, rfl⟩

/-- What a switch leaves behind when its verbs are answered. -/
structure Switched (s : Mini9MuteControl) (output : UInt8) (t : Mini9MuteControl) : Prop where
  selected : t.output = output
  unmuted : t.codec.muted output = false
  other : t.codec.muted (otherOutput output) = true
  mute : t.mute = s.mute
  ioreg : t.ioreg = s.ioreg
  pollTimeout : t.pollTimeout = s.pollTimeout

theorem switched_setOutput (hioreg : s.ioreg = true) (hanswers : Answered answers) {output : UInt8}
    (houtput : IsOutput output) : Switched s output (s.setOutput output answers) := by
  have hheaphones : IsOutput widgetHeaphones := .inl rfl
  have hlineOut : IsOutput widgetLineOut := .inr rfl
  rcases houtput with rfl | rfl
  · have h : s.setOutput widgetHeaphones answers =
        { s with
          output := widgetHeaphones
          codec := ⟨Function.update (Function.update s.codec.amplifier widgetHeaphones 0x64)
            widgetLineOut 0x80⟩ } := by
      simp [setOutput, send_answered, hioreg, hanswers _, Codec.execute_eapd, Codec.execute_pinCtrl,
        Codec.execute_amplifier, hheaphones, hlineOut]
    rw [h]
    refine ⟨rfl, ?_, ?_, rfl, rfl, rfl⟩
    · rw [Codec.muted_update, Codec.muted_update]
      rfl
    · rw [Codec.muted_update]
      rfl
  · have h : s.setOutput widgetLineOut answers =
        { s with
          output := widgetLineOut
          codec := ⟨Function.update (Function.update s.codec.amplifier widgetLineOut 0x00)
            widgetHeaphones 0x80⟩ } := by
      have hne : widgetLineOut ≠ widgetHeaphones := by decide
      simp [setOutput, send_answered, hioreg, hanswers _, Codec.execute_eapd, Codec.execute_pinCtrl,
        Codec.execute_amplifier, Codec.execute_multiplexer, hheaphones, hlineOut, hne]
    rw [h]
    refine ⟨rfl, ?_, ?_, rfl, rfl, rfl⟩
    · rw [Codec.muted_update, Codec.muted_update]
      rfl
    · rw [Codec.muted_update]
      rfl

/-- What a change of the mute setting leaves behind when its verbs are answered. -/
theorem setMute_answered (hioreg : s.ioreg = true) (hanswers : Answered answers)
    (houtput : IsOutput s.output) (mute : Bool) :
    s.setMute mute answers =
      { s with
        mute
        codec := ⟨Function.update s.codec.amplifier s.output (if mute then 0x80 else 0x00)⟩ } := by
  have hcase : s.output = widgetHeaphones ∨ s.output = widgetLineOut := houtput
  rw [setMute]
  cases mute <;>
    simp [send_answered, hioreg, hanswers _, Codec.execute_eapd, Codec.execute_pinCtrl,
      Codec.execute_amplifier, hcase, houtput]

theorem isOutput_outputFor (response : UInt32) : IsOutput (outputFor response) := by
  unfold outputFor
  split
  · exact .inl rfl
  · exact .inr rfl

theorem determineOutput_eq (hioreg : s.ioreg = true) (a : Answer) :
    s.determineOutput a = (s, outputFor a.value) := by
  unfold determineOutput runVerb
  rw [if_neg (by rw [hioreg]; decide)]
  cases a with
  | answered response => rfl
  | timedOut executed returnVal => cases executed <;> rfl

/-- A poll is a switch when it reads another output, and nothing else. -/
theorem outputPoller_eq (hioreg : s.ioreg = true) (answers : ℕ → Answer) :
    s.outputPoller answers =
      if outputFor (answers 0).value = s.output then s
      else s.setOutput (outputFor (answers 0).value) fun i => answers (i + 1) := by
  have hxor (output : UInt8) : s.output ^^^ output ≠ 0 ↔ ¬ output = s.output := by
    rw [ne_eq, UInt8.xor_eq_zero_iff, eq_comm]
  simp only [outputPoller, determineOutput_eq hioreg, hxor, ite_not]

end Mini9MuteControl

variable {s t : State} {e : Event}

theorem settled_setMute {c : Mini9MuteControl} (sensed : Option UInt8) (hioreg : c.ioreg = true)
    (hselected : IsOutput c.output) (hother : c.codec.muted (otherOutput c.output) = true)
    (hsensed : ∀ output, sensed = some output → c.output = output) {answers : ℕ → Answer}
    (hanswers : Answered answers) (mute : Bool) : Settled ⟨c.setMute mute answers, sensed⟩ := by
  rw [Mini9MuteControl.setMute_answered hioreg hanswers hselected]
  refine ⟨hselected, ?_, ?_, hsensed⟩
  · rw [Codec.muted_update, if_pos rfl]
    cases mute <;> rfl
  · have hne : otherOutput c.output ≠ c.output := by
      rcases hselected with h | h <;> rw [h] <;> decide
    rw [Codec.muted_update, if_neg hne]
    exact hother

/-- A timer that is there stays there. -/
def Armed (s : State) : Prop :=
  s.control.ioreg = true → s.control.pollTimeout = true

theorem mapped_step (ht : step s e = some t) :
    t.control.ioreg = s.control.ioreg ∧ t.control.pollTimeout = s.control.pollTimeout := by
  cases e with
  | performValueChange newValue answers =>
    obtain rfl := Option.some.inj ht
    cases newValue with
    | none => exact ⟨rfl, rfl⟩
    | some v => exact s.control.setMute_mapped _ answers
  | setMute mute answers =>
    obtain rfl := Option.some.inj ht
    exact s.control.setMute_mapped mute answers
  | updateMuteControl answers =>
    obtain rfl := Option.some.inj ht
    exact s.control.setMute_mapped _ answers
  | outputPoller answers =>
    obtain ⟨-, h⟩ := Option.ite_none_right_eq_some.mp ht
    obtain rfl := Option.some.inj h
    exact s.control.outputPoller_mapped answers

/-- A poll keeps the control settled if it does not switch, or switches while nothing is
muted. -/
theorem settled_poll_iff (hioreg : s.control.ioreg = true) (hs : Settled s)
    {answers : ℕ → Answer} (hanswers : Answered answers) :
    Settled ⟨s.control.outputPoller answers, (answers 0).sensed.or s.sensed⟩ ↔
      SwitchesUnmuted s (.outputPoller answers) := by
  obtain ⟨response, hresponse⟩ : ∃ response, answers 0 = .answered response := by
    cases h : answers 0 with
    | answered response => exact ⟨response, rfl⟩
    | timedOut executed returnVal => simpa [h, Answer.isAnswered] using hanswers 0
  rw [Mini9MuteControl.outputPoller_eq hioreg, hresponse]
  show Settled ⟨if Mini9MuteControl.outputFor response = s.control.output then _ else _,
    some (Mini9MuteControl.outputFor response)⟩ ↔ _
  by_cases hsame : Mini9MuteControl.outputFor response = s.control.output
  · rw [if_pos hsame]
    refine iff_of_true ⟨hs.selected, hs.mute, hs.other, ?_⟩ ?_
    · intro output houtput
      rw [← hsame]
      exact Option.some.inj houtput
    · rintro answers' output h hsensed hne
      obtain rfl := Event.outputPoller.inj h
      rw [hresponse] at hsensed
      exact absurd (Option.some.inj hsensed ▸ hsame) hne
  · rw [if_neg hsame]
    have hswitched := Mini9MuteControl.switched_setOutput hioreg (fun i => hanswers (i + 1))
      (Mini9MuteControl.isOutput_outputFor response)
    show Settled ⟨s.control.setOutput (Mini9MuteControl.outputFor response)
      fun i => answers (i + 1), some (Mini9MuteControl.outputFor response)⟩ ↔ _
    generalize s.control.setOutput _ _ = switched at hswitched
    constructor
    · intro ht answers' output h hsensed hne
      have hmute := ht.mute
      rw [hswitched.selected, hswitched.unmuted, hswitched.mute] at hmute
      exact hmute.symm
    · intro hunmuted
      have hmute := hunmuted answers _ rfl (by rw [hresponse]; rfl) hsame
      refine ⟨?_, ?_, ?_, ?_⟩
      · exact hswitched.selected ▸ Mini9MuteControl.isOutput_outputFor response
      · rw [hswitched.selected, hswitched.unmuted, hswitched.mute, hmute]
      · rw [hswitched.selected, hswitched.other]
      · intro output houtput
        exact hswitched.selected.trans (Option.some.inj houtput)

/-- For the events whose verbs are all answered. -/
theorem settled_step_iff (hioreg : s.control.ioreg = true) (harmed : Armed s) (hs : Settled s)
    (e : Event) (he : Answered e.answers) :
    SwitchesUnmuted s e ↔ ∀ t, step s e = some t → Settled t := by
  cases e with
  | performValueChange newValue answers =>
    refine iff_of_true nofun fun t ht => ?_
    obtain rfl := Option.some.inj ht
    cases newValue with
    | none => exact hs
    | some v => exact settled_setMute s.sensed hioreg hs.selected hs.other hs.sensed he _
  | setMute mute answers =>
    refine iff_of_true nofun fun t ht => ?_
    obtain rfl := Option.some.inj ht
    exact settled_setMute s.sensed hioreg hs.selected hs.other hs.sensed he mute
  | updateMuteControl answers =>
    refine iff_of_true nofun fun t ht => ?_
    obtain rfl := Option.some.inj ht
    exact settled_setMute s.sensed hioreg hs.selected hs.other hs.sensed he _
  | outputPoller answers =>
    have hanswers : Answered answers := he
    rw [← settled_poll_iff hioreg hs hanswers, step, if_pos (harmed hioreg)]
    exact ⟨fun h t ht => Option.some.inj ht ▸ h, fun h => h _ rfl⟩

theorem timeOutKeeps_iff (harmed : Armed s) (e : Event) :
    TimeOutKeeps s e ↔ ReadsSelected s e := by
  constructor
  · rintro hkeeps hioreg answers rfl hanswer
    have hstep : step s (.outputPoller answers) =
        some ⟨s.control.outputPoller answers, (answers 0).sensed.or s.sensed⟩ :=
      if_pos (harmed hioreg)
    have houtput : (s.control.outputPoller answers).output = s.control.output :=
      (hkeeps ⟨hioreg, answers, rfl, hanswer⟩ _ hstep).1
    by_contra hne
    rw [Mini9MuteControl.outputPoller_eq hioreg, if_neg hne,
      Mini9MuteControl.setOutput_output] at houtput
    exact hne houtput
  · rintro hreads ⟨hioreg, answers, rfl, hanswer⟩ t ht
    obtain ⟨-, h⟩ := Option.ite_none_right_eq_some.mp ht
    obtain rfl := Option.some.inj h
    have hsame : s.control.outputPoller answers = s.control := by
      rw [Mini9MuteControl.outputPoller_eq hioreg, if_pos (hreads hioreg answers rfl hanswer)]
    exact ⟨congrArg _ hsame, congrArg _ hsame⟩

theorem armed_started (codec : Codec) (hdaDeviceEntry memory : Bool) (answers : ℕ → Answer) :
    Armed (started codec hdaDeviceEntry memory answers) := by
  cases hdaDeviceEntry with
  | true => exact fun _ => rfl
  | false => exact fun h => h

theorem armed_step (harmed : Armed s) (ht : step s e = some t) : Armed t := by
  have hmapped := mapped_step ht
  intro hioreg
  rw [hmapped.2]
  exact harmed (hmapped.1 ▸ hioreg)

theorem ioreg_started (codec : Codec) (answers : ℕ → Answer) :
    (started codec true true answers).control.ioreg = true :=
  (Mini9MuteControl.setMute_mapped _ _ _).1.trans (Mini9MuteControl.setOutput_mapped _ _ _).1

theorem settled_started (codec : Codec) {answers : ℕ → Answer} (hanswers : Answered answers) :
    Settled (started codec true true answers) := by
  have hswitched := Mini9MuteControl.switched_setOutput
    (s := { Mini9MuteControl.init codec with ioreg := true }) rfl hanswers (.inr rfl)
  have hstarted : started codec true true answers =
      ⟨{ (Mini9MuteControl.setOutput { Mini9MuteControl.init codec with ioreg := true }
          widgetLineOut answers).setMute
            (Mini9MuteControl.setOutput { Mini9MuteControl.init codec with ioreg := true }
              widgetLineOut answers).mute fun i => answers (i + 5) with pollTimeout := true },
        none⟩ := rfl
  rw [hstarted]
  generalize Mini9MuteControl.setOutput _ widgetLineOut answers = u at hswitched
  have hselected : IsOutput u.output := hswitched.selected ▸ .inr rfl
  have hother : u.codec.muted (otherOutput u.output) = true := by
    rw [hswitched.selected]
    exact hswitched.other
  have hsettled := settled_setMute none hswitched.ioreg hselected hother nofun
    (fun i => hanswers (i + 5)) u.mute
  exact ⟨hsettled.selected, hsettled.mute, hsettled.other, nofun⟩

/-- The run does what the control is for: settled in every state as long as every verb is
answered, and no change by a poll that times out. -/
def Reliable (codec : Codec) (hdaDeviceEntry memory : Bool) (answers : ℕ → Answer)
    (es : List Event) : Prop :=
  (hdaDeviceEntry = true → memory = true → Answered answers → (∀ e ∈ es, Answered e.answers) →
      Throughout step Settled (started codec hdaDeviceEntry memory answers) es) ∧
    Guarded step TimeOutKeeps (started codec hdaDeviceEntry memory answers) es

/-- The control is reliable in just those runs in which it switches only while nothing is
muted, and in which a sense verb that times out leaves the selected output in the variable. -/
theorem reliable_iff (codec : Codec) (hdaDeviceEntry memory : Bool) (answers : ℕ → Answer)
    (es : List Event) :
    Reliable codec hdaDeviceEntry memory answers es ↔
      (hdaDeviceEntry = true → memory = true → Answered answers → (∀ e ∈ es, Answered e.answers) →
          Guarded step SwitchesUnmuted (started codec hdaDeviceEntry memory answers) es) ∧
        Guarded step ReadsSelected (started codec hdaDeviceEntry memory answers) es := by
  have harmed := armed_started codec hdaDeviceEntry memory answers
  refine and_congr ?_ (guarded_congr (fun _ e hs => timeOutKeeps_iff hs e)
    (fun _ _ _ hs _ ht => armed_step hs ht) harmed es)
  refine forall_congr' fun hentry => forall_congr' fun hmemory => forall_congr' fun hanswers =>
    forall_congr' fun hes => ?_
  subst hentry hmemory
  refine throughout_iff_guarded_of_forall (fun s => s.control.ioreg = true ∧ Armed s)
    (fun e => Answered e.answers) ?_ ?_ ⟨ioreg_started codec answers, harmed⟩
    (settled_started codec hanswers) hes
  · exact fun s e hinv hs he => settled_step_iff hinv.1 hinv.2 hs e he
  · exact fun s e t hinv ht => ⟨(mapped_step ht).1.trans hinv.1, armed_step hinv.2 ht⟩

/-- The headphones are plugged in while the control is muted: they play. -/
def pluggedWhileMuted : List Event :=
  [.outputPoller fun _ => .answered 0x80000000]

theorem pluggedWhileMuted_not_reliable :
    ¬ Reliable ⟨fun _ => 0⟩ true true (fun _ => .answered 0) pluggedWhileMuted := by
  intro h
  have hsettled := (h.1 rfl rfl (fun _ => rfl) (by simp [pluggedWhileMuted, Event.answers,
    Answered, Answer.isAnswered])).2 _ rfl
  exact absurd hsettled.mute (by decide)

end Audio
