import NetbookInstaller.Dsdt.DevicePasses

/-! `patchRTC` as a transducer over the lines of the text. -/
namespace Dsdt

open Transition DevicePass

namespace patchRTC

/-- What the pass does with the next line. In mode `entry` the line read last is an IRQ line of
the device, in mode `value` it is the one behind that. -/
inductive Mode where
  | outer (found : Bool) (openBrackets : Count)
  | device (openBrackets : Count)
  | entry (openBrackets : Count)
  | value (openBrackets : Count)
  deriving DecidableEq, Repr

/-- The IRQ line and the line behind it are left out. At the end of the file the last line is
written once behind an IRQ line, and else until it brings the count to zero. -/
def modes : Transducer Mode Line where
  next
    | .outer found openBrackets, line =>
      match foundName RTCDevice RTCDevice2 found line with
      | some opened => .device (openBrackets + opened)
      | none => .outer found openBrackets
    | .device openBrackets, line =>
      if openBrackets + bracketDelta line = 0 then .outer true 0
      else if cmpStr line IRQ then .entry (openBrackets + bracketDelta line)
      else .device (openBrackets + bracketDelta line)
    | .entry openBrackets, _ => .value openBrackets
    | .value openBrackets, _ => .outer true openBrackets
  copy
    | .device openBrackets, line =>
      if openBrackets + bracketDelta line ≠ 0 ∧ cmpStr line IRQ then none else some line
    | .entry _, _ => none
    | .outer .., line | .value _, line => some line
  adds _ _ := []
  last
    | .outer .., _ => some []
    | .device openBrackets, line =>
      if cmpStr line IRQ then some [line]
      else (spins openBrackets (bracketDelta line)).map fun n => List.replicate (n + 1) line
    | .entry _, line | .value _, line => some [line]

/-- The states of the pass between two lines. -/
def Sees : Mode → Line → List Line → DevicePass → Prop
  | .outer found openBrackets, buffer, rest, s => ∃ text output,
    s = ⟨.outer, text, rest, buffer, openBrackets, found, false, false, output⟩
  | .device openBrackets, buffer, rest, s => ∃ text output,
    s = ⟨.device, text, rest, buffer, openBrackets, true, false, false, output⟩
  | .entry _, _, _, _ | .value _, _, _, _ => False

theorem step_found {text rest output : List Line} {line buffer : Line}
    {openBrackets opened : Count} {found : Bool}
    (h : foundName RTCDevice RTCDevice2 found line = some opened) :
    patchRTC.step ⟨.outer, text, line :: rest, buffer, openBrackets, found, false, false, output⟩ =
      some ⟨.device, text, rest, line, openBrackets + opened, true, false, false,
        output ++ [line]⟩ := by
  simp [patchRTC.step, outerStep, fgets, fprintf, foundRTCDevice, h]

theorem step_copy {text rest output : List Line} {line buffer : Line} {openBrackets : Count}
    {found : Bool} (h : foundName RTCDevice RTCDevice2 found line = none) :
    patchRTC.step ⟨.outer, text, line :: rest, buffer, openBrackets, found, false, false, output⟩ =
      some ⟨.outer, text, rest, line, openBrackets, found, false, false, output ++ [line]⟩ := by
  simp [patchRTC.step, outerStep, fgets, fprintf, foundRTCDevice, h]

/-- The device goes on at the end of the file. -/
theorem computes_deviceEnd (text : List Line) (buffer : Line) (openBrackets : Count)
    (output : List Line) :
    Computes patchRTC.step DevicePass.output
      ⟨.device, text, [], buffer, openBrackets, true, false, false, output⟩
      (modes.last (.device openBrackets) buffer) := by
  have hclose : ∀ openBrackets output,
      openBrackets + bracketDelta buffer = 0 ∨ cmpStr buffer IRQ = true →
      Computes patchRTC.step DevicePass.output
        ⟨.device, text, [], buffer, openBrackets, true, false, false, output⟩ (some [buffer]) := by
    intro openBrackets output h
    refine ⟨⟨.outer, text, [], buffer, openBrackets + bracketDelta buffer, true, false, false,
      output ++ [buffer]⟩, .next ?_ (.halt rfl), rfl⟩
    rw [step_device _ rfl]
    rcases h with h | h <;> simp [deviceStep, fgets, fprintf, count, h]
  by_cases hirq : cmpStr buffer IRQ = true
  · simp only [modes, hirq, if_true]
    exact hclose openBrackets output (.inr hirq)
  · have hspins := computes_spins patchRTC.step DevicePass.output
      (fun openBrackets output =>
        ⟨.device, text, [], buffer, openBrackets, true, false, false, output⟩)
      [buffer] [buffer] (bracketDelta_cases buffer) (fun _ _ => rfl)
      (fun openBrackets output hne => by
        rw [step_device _ rfl]
        simp [deviceStep, fgets, fprintf, count, hne, hirq])
      (fun openBrackets output hzero => hclose openBrackets output (.inl hzero))
      openBrackets output
    simpa [modes, hirq, List.replicate_succ'] using hspins

/-- The pass writes what the transducer says. -/
theorem computes_modes (lines : List Line) :
    Computes patchRTC.step DevicePass.output (patchRTC.startOn lines)
      (modes.output (.outer false 0) [] lines) := by
  refine computes_items Sees ?_ ⟨lines, [], rfl⟩
  intro m buffer rest s hs
  cases m with
  | entry openBrackets => exact hs.elim
  | value openBrackets => exact hs.elim
  | outer found openBrackets =>
    obtain ⟨text, output, rfl⟩ := hs
    cases rest with
    | nil => exact .done (computes_halted rfl)
    | cons line rest =>
      cases hfound : foundName RTCDevice RTCDevice2 found line with
      | some opened =>
        refine .read [] rest (step_found hfound) ?_ ?_ <;> simp [modes, Sees, hfound]
      | none =>
        refine .read [] rest (step_copy hfound) ?_ ?_ <;> simp [modes, Sees, hfound]
  | device openBrackets =>
    obtain ⟨text, output, rfl⟩ := hs
    cases rest with
    | nil =>
      have hend := computes_deviceEnd text buffer openBrackets output
      exact .done (by simpa using hend)
    | cons line rest =>
      have hstep := step_device
        ⟨.device, text, line :: rest, buffer, openBrackets, true, false, false, output⟩ rfl
      by_cases hzero : openBrackets + bracketDelta line = 0
      · refine .read [] rest hstep ?_ ?_ <;>
          simp [modes, Sees, deviceStep, fgets, fprintf, count, hzero]
      by_cases hirq : cmpStr line IRQ = true
      · -- the lines that are skipped behind the IRQ line, as far as there are any
        rcases rest with - | ⟨value, - | ⟨behind, rest⟩⟩
        · refine .done (Evaluates.computes (v := [line]) (.next hstep (.halt ?_)) ?_ ?_) <;>
            simp [deviceStep, patchRTC.step, fgets, fprintf, count, hzero, hirq,
              Transducer.output, Transducer.ending, modes]
        · refine .done (Evaluates.computes (v := [value]) (.next hstep (.halt ?_)) ?_ ?_) <;>
            simp [deviceStep, patchRTC.step, fgets, fprintf, count, hzero, hirq,
              Transducer.output, Transducer.ending, modes]
        · refine .read [value, behind] rest hstep ?_ ?_ <;>
            simp [modes, Sees, deviceStep, fgets, fprintf, count, hzero, hirq]
      · refine .read [] rest hstep ?_ ?_ <;>
          simp [modes, Sees, deviceStep, fgets, fprintf, count, hzero, hirq]

/-- The last line of a file ends the loop that the file leaves the pass in. -/
def Mode.Ends : Mode → Line → Prop
  | .device openBrackets, line => cmpStr line IRQ = false → bracketDelta line = 0 → openBrackets = 0
  | .outer .., _ | .entry _, _ | .value _, _ => True

theorem last_isSome (m : Mode) (line : Line) : (modes.last m line).isSome ↔ m.Ends line := by
  cases m with
  | device openBrackets =>
    cases hirq : cmpStr line IRQ <;>
      simp [modes, Mode.Ends, hirq, spins_isSome (bracketDelta_cases line)]
  | outer => exact iff_of_true rfl trivial
  | entry => exact iff_of_true rfl trivial
  | value => exact iff_of_true rfl trivial

theorem halts_iff (lines : List Line) :
    Halts patchRTC.step (patchRTC.startOn lines) ↔
      (modes.after (.outer false 0) lines).Ends (lines.getLastD []) := by
  rw [(computes_modes lines).halts_iff, Transducer.output_isSome, Transducer.ending, last_isSome]

end patchRTC
end Dsdt
