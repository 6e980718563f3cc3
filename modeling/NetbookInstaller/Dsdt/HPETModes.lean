import NetbookInstaller.Dsdt.OverwrittenHPET

/-! `patchHPET` as a transducer over the lines of the text. Its three parts, which add IRQ
entries to the HPET device, overwrite it, or write one behind the RTC device, have modes of
their own. -/
namespace Dsdt.patchHPET

open Transition DevicePass

/-- What the pass does with the next line: copy it up to a device (`outer`), look for a
resource template in the device, copy the line behind the template, test the line behind that,
or skip the one behind an IRQ line; then the same for the other parts, `overwritten` and `added`
being the modes behind the new device. -/
inductive Mode where
  | outer (found : Bool)
  | device (openBrackets : Count)
  | template
  | tested
  | irq
  | overwriteOuter (written : Bool) (openBrackets : Count)
  | overwriteDevice (written : Bool) (openBrackets : Count)
  | overwritten
  | addOuter (found : Bool)
  | addDevice (written : Bool) (openBrackets : Count)
  | added
  deriving DecidableEq, Repr

/-- What is written at the end of a file inside the HPET device. A resource template is
taken for one again and again, unless the count behind it is zero. -/
def deviceEnd (openBrackets : Count) (line : Line) : Option (List Line) :=
  if openBrackets + bracketElse line = 0 then some [line]
  else if cmpStr line RESOURCETEMP then
    if cmpStr line IRQ ∨ bracketElse line ≠ 0 then none
    else some [line, line, HPETIRQ, line, line]
  else (spins openBrackets (bracketElse line)).map fun n => List.replicate (n + 1) line

/-- Left out are the IRQ entries that follow the line behind a resource template, the lines of
the HPET devices that are overwritten (but for the closing ones, from the second device on). The
closing line of an RTC device from the second on is added. -/
def modes : Transducer Mode Line where
  next
    | .outer found, line =>
      match foundName HPETDevice HPETDevice2 found line with
      | some opened => .device opened
      | none => .outer found
    | .device openBrackets, line =>
      if openBrackets + bracketElse line = 0 then .outer true
      else if cmpStr line RESOURCETEMP then .template
      else .device (openBrackets + bracketElse line)
    | .template, _ | .irq, _ => .tested
    | .tested, line => if cmpStr line IRQ then .irq else .device 0
    | .overwriteOuter written openBrackets, line =>
      if cmpStr line HPETDevice then .overwriteDevice written openBrackets
      else .overwriteOuter written openBrackets
    | .overwriteDevice written openBrackets, line =>
      if openBrackets + bracketDelta line ≠ 0 then
        .overwriteDevice written (openBrackets + bracketDelta line)
      else if written then .overwriteOuter true 0 else .overwritten
    | .overwritten, _ => .overwriteOuter true 0
    | .addOuter found, line =>
      match foundName RTCDevice RTCDevice2 found line with
      | some opened => .addDevice found opened
      | none => .addOuter found
    | .addDevice written openBrackets, line =>
      if openBrackets + bracketDelta line ≠ 0 then
        .addDevice written (openBrackets + bracketDelta line)
      else if written then .addOuter true else .added
    | .added, _ => .addOuter true
  copy
    | .tested, line => if cmpStr line IRQ then none else some line
    | .irq, _ => none
    | .overwriteOuter .., line => if cmpStr line HPETDevice then none else some line
    | .overwriteDevice written openBrackets, line =>
      if openBrackets + bracketDelta line = 0 ∧ written then some line else none
    | .outer _, line | .device _, line | .template, line | .overwritten, line | .addOuter _, line
    | .addDevice .., line | .added, line => some line
  adds
    | .template, _ => [HPETIRQ]
    | .overwriteDevice written openBrackets, line =>
      if openBrackets + bracketDelta line = 0 ∧ written = false then [fixedHPET] else []
    | .addDevice written openBrackets, line =>
      if openBrackets + bracketDelta line = 0 then [if written then line else fixedHPET] else []
    | _, _ => []
  last
    | .outer _, _ | .overwriteOuter .., _ | .addOuter _, _ => some []
    | .device openBrackets, line => deviceEnd openBrackets line
    | .template, line =>
      if cmpStr line IRQ then none else (deviceEnd 0 line).map ([line, HPETIRQ, line] ++ ·)
    | .tested, line => if cmpStr line IRQ then none else (deviceEnd 0 line).map (line :: ·)
    | .irq, _ => none
    | .overwriteDevice written openBrackets, line =>
      (spins openBrackets (bracketDelta line)).map fun _ =>
        if written then [line] else [fixedHPET, line]
    | .addDevice written openBrackets, line =>
      (spins openBrackets (bracketDelta line)).map fun n =>
        List.replicate (n + 1) line ++ if written then [line] else [fixedHPET, line]
    | .overwritten, line | .added, line => some [line]

/-- The part that the pass comes to, and the count that the first scan of the flag leaves. -/
def startMode (writeFixedHPET : Bool) (lines : List Line) : Mode :=
  match lines.findSome? (foundName HPETDevice HPETDevice2 false) with
  | none => .addOuter false
  | some opened => if writeFixedHPET then .overwriteOuter false opened else .outer false

/-- The states of the pass between two lines. The loop over IRQ entries has read the line that
it tests. -/
def Sees : Mode → Line → List Line → DevicePass → Prop
  | .outer found, _, rest, s =>
    (found = false → ∃ line ∈ rest, foundName HPETDevice HPETDevice2 false line ≠ none) ∧
      ∃ text buffer output, s = ⟨.outer, text, rest, buffer, 0, false, found, false, output⟩
  | .device openBrackets, buffer, rest, s => ∃ text output,
    s = ⟨.device, text, rest, buffer, openBrackets, false, true, false, output⟩
  | .tested, buffer, rest, s => ∃ text openBrackets output,
    s = ⟨.irqs, text, rest.tail, rest.head?.getD buffer, openBrackets, false, true, false, output⟩
  | .overwriteOuter written openBrackets, _, rest, s => ∃ text buffer output,
    s = ⟨.overwriteOuter, text, rest, buffer, openBrackets, false, true, written, output⟩
  | .overwriteDevice written openBrackets, buffer, rest, s => ∃ text output,
    s = ⟨.overwriteDevice, text, rest, buffer, openBrackets, false, true, written, output⟩
  | .addOuter found, _, rest, s => ∃ text buffer output,
    s = ⟨.addOuter, text, rest, buffer, 0, found, false, found, output⟩
  | .addDevice written openBrackets, buffer, rest, s => ∃ text output,
    s = ⟨.addDevice, text, rest, buffer, openBrackets, true, false, written, output⟩
  | .template, _, _, _ | .irq, _, _, _ | .overwritten, _, _, _ | .added, _, _, _ => False

section End
variable (text : List Line) (buffer : Line) (openBrackets : Count) (output : List Line)

theorem computes_closed {openBrackets : Count} {output : List Line}
    (hzero : openBrackets + bracketElse buffer = 0) :
    Computes patchHPET.step DevicePass.output
      ⟨.device, text, [], buffer, openBrackets, false, true, false, output⟩ (some [buffer]) := by
  refine ⟨⟨.outer, text, [], buffer, 0, false, true, false, output ++ [buffer]⟩,
    .next ?_ (.halt rfl), rfl⟩
  rw [step_device _ rfl]
  simp [deviceStep, fgets, fprintf, hzero]

/-- A stale resource template that the count is not zero behind. -/
theorem not_halts_of_template {s : DevicePass} (htemplate : cmpStr buffer RESOURCETEMP = true)
    (hstuck : cmpStr buffer IRQ = true ∨ bracketElse buffer ≠ 0)
    (hs : ∃ openBrackets output,
      s = ⟨.irqs, text, [], buffer, openBrackets, false, true, false, output⟩ ∨
        openBrackets + bracketElse buffer ≠ 0 ∧
          s = ⟨.device, text, [], buffer, openBrackets, false, true, false, output⟩) :
    ¬ Halts patchHPET.step s := by
  refine @not_halts_of_stuck _ patchHPET.step _ (fun s => ∃ openBrackets output,
    s = ⟨.irqs, text, [], buffer, openBrackets, false, true, false, output⟩ ∨
      openBrackets + bracketElse buffer ≠ 0 ∧
        s = ⟨.device, text, [], buffer, openBrackets, false, true, false, output⟩) ?_ hs
  rintro s ⟨openBrackets, output, rfl | ⟨hne, rfl⟩⟩
  · refine ⟨_, step_irqs _ rfl, ?_⟩
    by_cases hirq : cmpStr buffer IRQ = true
    · exact ⟨openBrackets, output, .inl (by simp [irqStep, fgets, hirq])⟩
    · refine ⟨0, output ++ [buffer], .inr ⟨?_, by simp [irqStep, fprintf, hirq]⟩⟩
      rw [zero_add]
      exact hstuck.resolve_left hirq
  · refine ⟨_, step_device _ rfl, openBrackets + bracketElse buffer,
      output ++ [buffer] ++ [buffer] ++ [HPETIRQ], .inl ?_⟩
    simp [deviceStep, fgets, fprintf, hne, htemplate]

/-- The loop over IRQ entries at the end of the file. -/
theorem computes_irqsEnd
    (hdevice : ∀ output, Computes patchHPET.step DevicePass.output
      ⟨.device, text, [], buffer, 0, false, true, false, output⟩ (deviceEnd 0 buffer)) :
    Computes patchHPET.step DevicePass.output
      ⟨.irqs, text, [], buffer, openBrackets, false, true, false, output⟩
      (modes.last .tested buffer) := by
  by_cases hirq : cmpStr buffer IRQ = true
  · simp only [modes, hirq, if_true]
    refine @not_halts_of_stuck _ patchHPET.step _ (fun s =>
      s = ⟨.irqs, text, [], buffer, openBrackets, false, true, false, output⟩) ?_ rfl
    rintro s rfl
    exact ⟨_, step_irqs _ rfl, by simp [irqStep, fgets, hirq]⟩
  · have hstep : patchHPET.step
        ⟨.irqs, text, [], buffer, openBrackets, false, true, false, output⟩ =
        some ⟨.device, text, [], buffer, 0, false, true, false, output ++ [buffer]⟩ := by
      rw [step_irqs _ rfl]
      simp [irqStep, fprintf, hirq]
    have hrest := (reaches_step hstep).computes rfl (hdevice (output ++ [buffer]))
    simpa [modes, hirq] using hrest

theorem computes_deviceEnd :
    Computes patchHPET.step DevicePass.output
      ⟨.device, text, [], buffer, openBrackets, false, true, false, output⟩
      (deviceEnd openBrackets buffer) := by
  unfold deviceEnd
  split
  next hzero => exact computes_closed text buffer hzero
  next hne =>
    split
    next htemplate =>
      split
      next hstuck =>
        exact not_halts_of_template text buffer htemplate hstuck
          ⟨openBrackets, output, .inr ⟨hne, rfl⟩⟩
      next hends =>
        rw [not_or, not_not] at hends
        have hstep : patchHPET.step
            ⟨.device, text, [], buffer, openBrackets, false, true, false, output⟩ =
            some ⟨.irqs, text, [], buffer, openBrackets + bracketElse buffer, false, true, false,
              output ++ [buffer, buffer, HPETIRQ]⟩ := by
          rw [step_device _ rfl]
          simp [deviceStep, fgets, fprintf, hne, htemplate]
        have hclosed (output : List Line) : Computes patchHPET.step DevicePass.output
            ⟨.device, text, [], buffer, 0, false, true, false, output⟩ (deviceEnd 0 buffer) := by
          have hzero : 0 + bracketElse buffer = 0 := by rw [zero_add, hends.2]
          rw [deviceEnd, if_pos hzero]
          exact computes_closed text buffer hzero
        have hrest := (reaches_step hstep).computes rfl
          (computes_irqsEnd text buffer (openBrackets + bracketElse buffer) _ hclosed)
        simpa [modes, deviceEnd, hends.1, hends.2] using hrest
    next htemplate =>
      have hspins := computes_spins patchHPET.step DevicePass.output
        (fun openBrackets output =>
          ⟨.device, text, [], buffer, openBrackets, false, true, false, output⟩)
        [buffer] [buffer] (bracketElse_cases buffer) (fun _ _ => rfl)
        (fun openBrackets output hne => by
          rw [step_device _ rfl]
          simp [deviceStep, fgets, fprintf, hne, htemplate])
        (fun openBrackets output hzero => computes_closed text buffer hzero)
        openBrackets output
      simpa [List.replicate_succ'] using hspins

theorem computes_overwriteEnd (written : Bool) :
    Computes patchHPET.step DevicePass.output
      ⟨.overwriteDevice, text, [], buffer, openBrackets, false, true, written, output⟩
      (modes.last (.overwriteDevice written openBrackets) buffer) := by
  have hspins := computes_spins patchHPET.step DevicePass.output
    (fun openBrackets output =>
      ⟨.overwriteDevice, text, [], buffer, openBrackets, false, true, written, output⟩)
    [] (if written then [buffer] else [fixedHPET, buffer]) (bracketDelta_cases buffer)
    (fun _ _ => rfl)
    (fun openBrackets output hne => by
      simp [patchHPET.step, overwriteDeviceStep, fgets, count, hne])
    (fun openBrackets output hzero => by
      refine Evaluates.computes (.next rfl (.halt ?_)) rfl ?_ <;>
        cases written <;> simp [patchHPET.step, overwriteDeviceStep, fgets, fprintf, count, hzero])
    openBrackets output
  simpa [modes] using hspins

theorem computes_addEnd (written : Bool) :
    Computes patchHPET.step DevicePass.output
      ⟨.addDevice, text, [], buffer, openBrackets, true, false, written, output⟩
      (modes.last (.addDevice written openBrackets) buffer) := by
  have hspins := computes_spins patchHPET.step DevicePass.output
    (fun openBrackets output =>
      ⟨.addDevice, text, [], buffer, openBrackets, true, false, written, output⟩)
    [buffer] (buffer :: if written then [buffer] else [fixedHPET, buffer])
    (bracketDelta_cases buffer) (fun _ _ => rfl)
    (fun openBrackets output hne => by
      simp [patchHPET.step, addDeviceStep, fgets, fprintf, count, hne])
    (fun openBrackets output hzero => by
      refine Evaluates.computes (.next rfl (.halt ?_)) rfl ?_ <;>
        cases written <;> simp [patchHPET.step, addDeviceStep, fgets, fprintf, count, hzero])
    openBrackets output
  simpa [modes, List.replicate_succ'] using hspins

end End

/-- The part that adds IRQ entries. -/
theorem follows_inserting {m : Mode} {buffer : Line} {rest : List Line} {s : DevicePass}
    (hm : (∃ found, m = .outer found) ∨ (∃ openBrackets, m = .device openBrackets) ∨ m = .tested)
    (hs : Sees m buffer rest s) :
    Follows patchHPET.step DevicePass.output modes id Sees m buffer rest s := by
  rcases hm with ⟨found, rfl⟩ | ⟨openBrackets, rfl⟩ | rfl
  · obtain ⟨hahead, text, stale, output, rfl⟩ := hs
    cases rest with
    | nil =>
      have hfound : found = true := by
        by_contra hnot
        obtain ⟨line, hl, -⟩ := hahead (by simpa using hnot)
        exact absurd hl List.not_mem_nil
      exact .done (computes_halted (step_halt _ rfl rfl hfound))
    | cons line rest =>
      have hstep := step_outer
        ⟨.outer, text, line :: rest, stale, 0, false, found, false, output⟩ rfl (by simp)
      cases hname : foundName HPETDevice HPETDevice2 found line with
      | some opened =>
        refine .read [] rest hstep ?_ ?_ <;>
          simp [modes, Sees, outerStep, fgets, fprintf, foundHPETDevice, hname]
      | none =>
        refine .read [] rest hstep ?_ ?_
        · simp [modes, outerStep, fgets, fprintf, foundHPETDevice, hname]
        · have hrest : found = false →
              ∃ line ∈ rest, foundName HPETDevice HPETDevice2 false line ≠ none := by
            rintro rfl
            obtain ⟨l, hl, hfound⟩ := hahead rfl
            rcases List.mem_cons.mp hl with rfl | hl
            · exact absurd hname hfound
            · exact ⟨l, hl, hfound⟩
          simpa [modes, Sees, outerStep, fgets, fprintf, foundHPETDevice, hname] using hrest
  · obtain ⟨text, output, rfl⟩ := hs
    cases rest with
    | nil =>
      have hend := computes_deviceEnd text buffer openBrackets output
      exact .done (by simpa [modes] using hend)
    | cons line rest =>
      have hstep := step_device
        ⟨.device, text, line :: rest, buffer, openBrackets, false, true, false, output⟩ rfl
      by_cases hzero : openBrackets + bracketElse line = 0
      · refine .read [] rest hstep ?_ ?_ <;> simp [modes, Sees, deviceStep, fgets, fprintf, hzero]
      by_cases htemplate : cmpStr line RESOURCETEMP = true
      · cases rest with
        | nil =>
          -- the template is the last line, which the loop over IRQ entries tests
          have hnext : patchHPET.step
              ⟨.device, text, [line], buffer, openBrackets, false, true, false, output⟩ =
              some ⟨.irqs, text, [], line, openBrackets + bracketElse line, false, true, false,
                output ++ [line, line, HPETIRQ]⟩ := by
            rw [hstep]
            simp [deviceStep, fgets, fprintf, hzero, htemplate]
          have hrest := (reaches_step hnext).computes rfl (computes_irqsEnd text line
            (openBrackets + bracketElse line) _ fun output => computes_deviceEnd text line 0 output)
          refine .done ?_
          by_cases hirq : cmpStr line IRQ = true
          · simpa [modes, Transducer.output, Transducer.ending, hzero, htemplate, hirq] using hrest
          · simpa [modes, Transducer.output, Transducer.ending, hzero, htemplate, hirq,
              Function.comp_def] using hrest
        | cons next rest =>
          refine .read [next] rest hstep ?_ ?_ <;>
            simp [modes, Sees, deviceStep, fgets, fprintf, hzero, htemplate]
      · refine .read [] rest hstep ?_ ?_ <;>
          simp [modes, Sees, deviceStep, fgets, fprintf, hzero, htemplate]
  · obtain ⟨text, openBrackets, output, rfl⟩ := hs
    cases rest with
    | nil =>
      have hend := computes_irqsEnd text buffer openBrackets output
        fun output => computes_deviceEnd text buffer 0 output
      exact .done (by simpa using hend)
    | cons line rest =>
      have hstep := step_irqs
        ⟨.irqs, text, rest, line, openBrackets, false, true, false, output⟩ rfl
      by_cases hirq : cmpStr line IRQ = true
      · cases rest with
        | nil =>
          have hend := computes_irqsEnd text line openBrackets output
            fun output => computes_deviceEnd text line 0 output
          refine .done ?_
          simpa [modes, Transducer.output, Transducer.ending, hirq] using hend
        | cons value rest =>
          refine .read [value] rest hstep ?_ ?_ <;> simp [modes, Sees, irqStep, fgets, hirq]
      · refine .read [] rest hstep ?_ ?_ <;> simp [modes, Sees, irqStep, fprintf, hirq]

/-- The part that overwrites the device. -/
theorem follows_overwriting {m : Mode} {buffer : Line} {rest : List Line} {s : DevicePass}
    (hm : ∃ written openBrackets,
      m = .overwriteOuter written openBrackets ∨ m = .overwriteDevice written openBrackets)
    (hs : Sees m buffer rest s) :
    Follows patchHPET.step DevicePass.output modes id Sees m buffer rest s := by
  obtain ⟨written, openBrackets, rfl | rfl⟩ := hm
  · obtain ⟨text, stale, output, rfl⟩ := hs
    cases rest with
    | nil => exact .done (computes_halted rfl)
    | cons line rest =>
      by_cases hname : cmpStr line HPETDevice = true
      · have hstep : patchHPET.step ⟨.overwriteOuter, text, line :: rest, stale, openBrackets,
            false, true, written, output⟩ = some ⟨.overwriteDevice, text, rest, line, openBrackets,
              false, true, written, output⟩ := by
          simp [patchHPET.step, fgets, foundHPETDevice, foundName, hname]
        refine .read [] rest hstep ?_ ?_ <;> simp [modes, Sees, hname]
      · refine .read [] rest (step_overwriteCopy text (by simpa using hname)) ?_ ?_ <;>
          simp [modes, Sees, hname]
  · obtain ⟨text, output, rfl⟩ := hs
    cases rest with
    | nil =>
      have hend := computes_overwriteEnd text buffer openBrackets output written
      exact .done (by simpa using hend)
    | cons line rest =>
      have hstep : patchHPET.step ⟨.overwriteDevice, text, line :: rest, buffer, openBrackets,
          false, true, written, output⟩ = some (overwriteDeviceStep ⟨.overwriteDevice, text,
            line :: rest, buffer, openBrackets, false, true, written, output⟩) := rfl
      by_cases hzero : openBrackets + bracketDelta line = 0
      · cases written with
        | true =>
          refine .read [] rest hstep ?_ ?_ <;>
            simp [modes, Sees, overwriteDeviceStep, fgets, fprintf, count, hzero]
        | false =>
          cases rest with
          | nil =>
            refine .done (Evaluates.computes (v := [fixedHPET, line]) (.next hstep (.halt ?_))
              ?_ ?_) <;>
              simp [patchHPET.step, overwriteDeviceStep, fgets, fprintf, count, hzero, modes,
                Transducer.output, Transducer.ending]
          | cons next rest =>
            refine .read [next] rest hstep ?_ ?_ <;>
              simp [modes, Sees, overwriteDeviceStep, fgets, fprintf, count, hzero]
      · refine .read [] rest hstep ?_ ?_ <;>
          simp [modes, Sees, overwriteDeviceStep, fgets, count, hzero]

/-- The part that writes a new device behind the RTC device. -/
theorem follows_adding {m : Mode} {buffer : Line} {rest : List Line} {s : DevicePass}
    (hm : (∃ found, m = .addOuter found) ∨
      ∃ written openBrackets, m = .addDevice written openBrackets)
    (hs : Sees m buffer rest s) :
    Follows patchHPET.step DevicePass.output modes id Sees m buffer rest s := by
  rcases hm with ⟨found, rfl⟩ | ⟨written, openBrackets, rfl⟩
  · obtain ⟨text, stale, output, rfl⟩ := hs
    cases rest with
    | nil => exact .done (computes_halted rfl)
    | cons line rest =>
      have hstep := step_addOuter
        ⟨.addOuter, text, line :: rest, stale, 0, found, false, found, output⟩ rfl (by simp)
      cases hname : foundName RTCDevice RTCDevice2 found line with
      | some opened =>
        refine .read [] rest hstep ?_ ?_ <;>
          simp [modes, Sees, outerStep, fgets, fprintf, foundRTCDevice, hname]
      | none =>
        refine .read [] rest hstep ?_ ?_ <;>
          simp [modes, Sees, outerStep, fgets, fprintf, foundRTCDevice, hname]
  · obtain ⟨text, output, rfl⟩ := hs
    cases rest with
    | nil =>
      have hend := computes_addEnd text buffer openBrackets output written
      exact .done (by simpa using hend)
    | cons line rest =>
      have hstep := step_addDevice
        ⟨.addDevice, text, line :: rest, buffer, openBrackets, true, false, written, output⟩ rfl
      by_cases hzero : openBrackets + bracketDelta line = 0
      · cases written with
        | true =>
          refine .read [] rest hstep ?_ ?_ <;>
            simp [modes, Sees, addDeviceStep, fgets, fprintf, count, hzero]
        | false =>
          cases rest with
          | nil =>
            refine .done (Evaluates.computes (v := [line, fixedHPET, line])
              (.next hstep (.halt ?_)) ?_ ?_) <;>
              simp [patchHPET.step, addDeviceStep, fgets, fprintf, count, hzero, modes,
                Transducer.output, Transducer.ending]
          | cons next rest =>
            refine .read [next] rest hstep ?_ ?_ <;>
              simp [modes, Sees, addDeviceStep, fgets, fprintf, count, hzero]
      · refine .read [] rest hstep ?_ ?_ <;>
          simp [modes, Sees, addDeviceStep, fgets, fprintf, count, hzero]

/-- The pass gets to the first state of the part that it comes to. -/
theorem reaches_startMode (writeFixedHPET : Bool) (lines : List Line) :
    ∃ s, Reaches patchHPET.step (patchHPET.startOn writeFixedHPET lines) s ∧ s.output = [] ∧
      Sees (startMode writeFixedHPET lines) [] lines s := by
  unfold startMode
  split
  next hnone =>
    have hdevices : NoDevice HPETDevice HPETDevice2 lines := fun line hl => by
      have hline := foundName_eq_none.mp (List.findSome?_eq_none_iff.mp hnone line hl)
      exact ⟨hline.1, hline.2.resolve_right Bool.false_ne_true⟩
    exact ⟨_, reaches_add lines writeFixedHPET hdevices, rfl, lines, _, [], rfl⟩
  next opened hsome =>
    obtain ⟨front, line, rest, rfl, hline, hfront⟩ := List.findSome?_eq_some_iff.mp hsome
    cases writeFixedHPET with
    | false =>
      refine ⟨_, .refl _, rfl, fun _ => ⟨line, by simp, by simp [hline]⟩, _, [], [], rfl⟩
    | true =>
      have hdevices : NoDevice HPETDevice HPETDevice2 front := fun l hl => by
        have hnone := foundName_eq_none.mp (hfront l hl)
        exact ⟨hnone.1, hnone.2.resolve_right Bool.false_ne_true⟩
      have hfind := reaches_find (front ++ line :: rest) hdevices (line :: rest) []
      have hfound : patchHPET.step ⟨.find, front ++ line :: rest, line :: rest, lastRead [] front,
          0, false, false, false, []⟩ = some ⟨.find, front ++ line :: rest, rest, line, opened,
            false, true, false, []⟩ := by
        simp [patchHPET.step, fgets, foundHPETDevice, hline]
      have hrest := reaches_findRest (front ++ line :: rest) opened rest line
      exact ⟨_, hfind.trans (.head hfound (hrest.trans (reaches_step rfl))), rfl,
        front ++ line :: rest, lastRead line rest, [], rfl⟩

/-- The pass writes what the transducer says. -/
theorem computes_modes (writeFixedHPET : Bool) (lines : List Line) :
    Computes patchHPET.step DevicePass.output (patchHPET.startOn writeFixedHPET lines)
      (modes.output (startMode writeFixedHPET lines) [] lines) := by
  obtain ⟨s, hreach, hout, hsees⟩ := reaches_startMode writeFixedHPET lines
  suffices hfollows : ∀ m buffer rest s, Sees m buffer rest s →
      Follows patchHPET.step DevicePass.output modes id Sees m buffer rest s by
    have hstart := hreach.computes (v := []) (by rw [hout]; rfl)
      (computes_items Sees hfollows hsees)
    simpa using hstart
  intro m buffer rest s hs
  cases m with
  | outer found => exact follows_inserting (.inl ⟨found, rfl⟩) hs
  | device openBrackets => exact follows_inserting (.inr (.inl ⟨openBrackets, rfl⟩)) hs
  | tested => exact follows_inserting (.inr (.inr rfl)) hs
  | overwriteOuter written openBrackets =>
    exact follows_overwriting ⟨written, openBrackets, .inl rfl⟩ hs
  | overwriteDevice written openBrackets =>
    exact follows_overwriting ⟨written, openBrackets, .inr rfl⟩ hs
  | addOuter found => exact follows_adding (.inl ⟨found, rfl⟩) hs
  | addDevice written openBrackets => exact follows_adding (.inr ⟨written, openBrackets, rfl⟩) hs
  | template => exact hs.elim
  | irq => exact hs.elim
  | overwritten => exact hs.elim
  | added => exact hs.elim

/-- The last line of a file ends the loop that the file leaves the pass in. -/
def Mode.Ends : Mode → Line → Prop
  | .device openBrackets, line =>
    if cmpStr line RESOURCETEMP then
      openBrackets + bracketElse line = 0 ∨ bracketElse line = 0 ∧ cmpStr line IRQ = false
    else bracketElse line = 0 → openBrackets = 0
  | .template, line | .tested, line =>
    cmpStr line IRQ = false ∧ (cmpStr line RESOURCETEMP = true → bracketElse line = 0)
  | .irq, _ => False
  | .overwriteDevice _ openBrackets, line | .addDevice _ openBrackets, line =>
    bracketDelta line = 0 → openBrackets = 0
  | .outer _, _ | .overwriteOuter .., _ | .overwritten, _ | .addOuter _, _ | .added, _ => True

theorem deviceEnd_isSome (openBrackets : Count) (line : Line) :
    (deviceEnd openBrackets line).isSome ↔ (Mode.device openBrackets).Ends line := by
  simp only [deviceEnd, Mode.Ends]
  by_cases hzero : openBrackets + bracketElse line = 0
  · rw [if_pos hzero]
    refine iff_of_true rfl ?_
    split
    · exact .inl hzero
    · intro hdelta
      rwa [hdelta, add_zero] at hzero
  · rw [if_neg hzero]
    split
    next htemplate => cases hirq : cmpStr line IRQ <;> simp [hzero]
    next htemplate => simp [spins_isSome (bracketElse_cases line)]

theorem last_isSome (m : Mode) (line : Line) : (modes.last m line).isSome ↔ m.Ends line := by
  have hbehind : (deviceEnd 0 line).isSome ↔
      (cmpStr line RESOURCETEMP = true → bracketElse line = 0) := by
    rw [deviceEnd_isSome, Mode.Ends, zero_add]
    split <;> simp_all
  cases m with
  | device openBrackets => exact deviceEnd_isSome openBrackets line
  | template => cases hirq : cmpStr line IRQ <;> simp [modes, Mode.Ends, hirq, hbehind]
  | tested => cases hirq : cmpStr line IRQ <;> simp [modes, Mode.Ends, hirq, hbehind]
  | irq => simp [modes, Mode.Ends]
  | overwriteDevice => simp [modes, Mode.Ends, spins_isSome (bracketDelta_cases line)]
  | addDevice => simp [modes, Mode.Ends, spins_isSome (bracketDelta_cases line)]
  | outer => exact iff_of_true rfl trivial
  | overwriteOuter => exact iff_of_true rfl trivial
  | overwritten => exact iff_of_true rfl trivial
  | addOuter => exact iff_of_true rfl trivial
  | added => exact iff_of_true rfl trivial

theorem halts_iff (writeFixedHPET : Bool) (lines : List Line) :
    Halts patchHPET.step (patchHPET.startOn writeFixedHPET lines) ↔
      (modes.after (startMode writeFixedHPET lines) lines).Ends (lines.getLastD []) := by
  rw [(computes_modes writeFixedHPET lines).halts_iff, Transducer.output_isSome,
    Transducer.ending, last_isSome]

end Dsdt.patchHPET
