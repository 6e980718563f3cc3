import NetbookInstaller.Dsdt.DeviceText
import NetbookInstaller.Dsdt.Balance

/-! The HPET device that `patchHPET` writes behind the RTC device of a text that has no HPET
device. -/
namespace Dsdt

open Transition DevicePass
open ConfigPass (isBlock_braces)

namespace patchHPET

variable (text : List Line) {lines output : List Line} {buffer : Line} {openBrackets : Count}

theorem foundHPETDevice_eq_none {s : DevicePass} (h : NoDevice HPETDevice HPETDevice2 lines)
    (hs : s.buffer ∈ lines) : foundHPETDevice s = none := by
  simp only [foundHPETDevice, Option.map_eq_none_iff, foundName_eq_none]
  exact ⟨(h _ hs).1, .inl (h _ hs).2⟩

/-- The first scan of `writeFixedHPET` over lines without the device. -/
theorem reaches_find (h : NoDevice HPETDevice HPETDevice2 lines) (rest : List Line)
    (buffer : Line) :
    Reaches patchHPET.step ⟨.find, text, lines ++ rest, buffer, 0, false, false, false, []⟩
      ⟨.find, text, rest, lastRead buffer lines, 0, false, false, false, []⟩ := by
  induction lines generalizing buffer with
  | nil => exact .refl _
  | cons line lines ih =>
    have hnone : foundHPETDevice
        ⟨.find, text, lines ++ rest, line, 0, false, false, false, []⟩ = none :=
      foundHPETDevice_eq_none h List.mem_cons_self
    refine .head ?_ (ih (fun l hl => h l (List.mem_cons_of_mem line hl)) line)
    simp [patchHPET.step, fgets, hnone]

/-- Without an HPET device the pass comes to the second part, whether with the flag or without. -/
theorem reaches_add (writeFixedHPET : Bool) (h : NoDevice HPETDevice HPETDevice2 text) :
    Reaches patchHPET.step (patchHPET.startOn writeFixedHPET text)
      ⟨.addOuter, text, text, lastRead [] text, 0, false, false, false, []⟩ := by
  cases writeFixedHPET with
  | true =>
    have hfind := reaches_find text h [] []
    rw [List.append_nil] at hfind
    exact hfind.trans (reaches_step (by simp [patchHPET.step, nextone]))
  | false =>
    have hcopy := DevicePass.reaches_copy step_outer
      (s := ⟨.outer, text, text, [], 0, false, false, false, []⟩) rfl (List.append_nil text).symm
      fun t ht _ _ => foundHPETDevice_eq_none h ht
    exact hcopy.trans (reaches_step (by simp [patchHPET.step, nextone]))

/-- Lines that name no RTC device are copied, once one has been found. -/
theorem evaluates_addRest (hname : ∀ line ∈ lines, cmpStr line RTCDevice = false)
    (buffer : Line) (openBrackets : Count) (output : List Line) :
    ∃ t, Evaluates patchHPET.step
        ⟨.addOuter, text, lines, buffer, openBrackets, true, false, true, output⟩ t ∧
      t.output = output ++ lines := by
  refine DevicePass.evaluates_copy (s := ⟨.addOuter, text, lines, buffer, openBrackets, true, false,
    true, output⟩) step_addOuter step_addHalt rfl ?_
  intro t ht hfound _
  simp only [foundRTCDevice, Option.map_eq_none_iff, foundName_eq_none]
  exact ⟨hname _ ht, .inr hfound⟩

/-- In the second part no line is lost, and the step that closes a device writes a line more
than it reads. -/
theorem addStep_length {s t : DevicePass} (h : patchHPET.step s = some t)
    (hpc : s.pc = .addOuter ∨ s.pc = .addDevice) :
    (t.pc = .addOuter ∨ t.pc = .addDevice) ∧
      s.output.length + s.rest.length ≤ t.output.length + t.rest.length ∧
      (s.pc = .addDevice → t.pc = .addOuter →
        s.output.length + s.rest.length < t.output.length + t.rest.length) := by
  rcases hpc with hpc | hpc
  · rcases eq_or_ne s.rest [] with hrest | hrest
    · rw [step_addHalt s hpc hrest] at h
      cases h
    · have hpos := List.length_pos_iff.mpr hrest
      rw [step_addOuter s hpc hrest, Option.some.injEq] at h
      subst h
      unfold outerStep
      dsimp only
      split
      next u hu =>
        simp only [foundRTCDevice, Option.map_eq_some_iff] at hu
        obtain ⟨opened, -, rfl⟩ := hu
        simp only [fprintf, fgets, List.length_append, List.length_tail, List.length_singleton, hpc]
        simp
        omega
      next =>
        simp only [fprintf, fgets, List.length_append, List.length_tail, List.length_singleton, hpc]
        simp
        omega
  · rw [step_addDevice s hpc, Option.some.injEq] at h
    subst h
    unfold patchHPET.addDeviceStep
    dsimp only
    split_ifs <;> simp [fprintf, fgets, count, hpc] <;> omega

/-- A run of the second part that ends writes no fewer lines than it has to read, and more if
it starts in a device. -/
theorem output_length {s t : DevicePass} (h : Evaluates patchHPET.step s t)
    (hpc : s.pc = .addOuter ∨ s.pc = .addDevice) :
    s.output.length + s.rest.length ≤ t.output.length ∧
      (s.pc = .addDevice → s.output.length + s.rest.length < t.output.length) := by
  induction h with
  | @halt s hs =>
    rcases hpc with hpc | hpc
    · rcases eq_or_ne s.rest [] with hrest | hrest
      · exact ⟨by simp [hrest], by simp [hpc]⟩
      · rw [step_addOuter s hpc hrest] at hs
        cases hs
    · rw [step_addDevice s hpc] at hs
      cases hs
  | @next s u t hstep _ ih =>
    obtain ⟨hu, hle, hless⟩ := addStep_length hstep hpc
    obtain ⟨hrest, hdevice⟩ := ih hu
    refine ⟨hle.trans hrest, fun hs => ?_⟩
    rcases hu with hu | hu
    · exact (hless hs hu).trans_le hrest
    · exact hle.trans_lt (hdevice hu)

/-- At the end of the file the stale line is written once more at least before it is written
behind the loop. -/
theorem output_length_of_end {t : DevicePass} {written : Bool}
    (h : Evaluates patchHPET.step
      ⟨.addDevice, text, [], buffer, openBrackets, true, false, written, output⟩ t) :
    output.length + 2 ≤ t.output.length := by
  have hstep := (evaluates_step (step_addDevice _ rfl)).mp h
  by_cases hzero : openBrackets + bracketDelta buffer = 0
  · have hrest := (output_length hstep (by simp [addDeviceStep, fgets, count, hzero])).1
    refine le_trans ?_ hrest
    cases written <;> simp [addDeviceStep, fgets, fprintf, count, hzero]
  · have hrest := (output_length hstep (by simp [addDeviceStep, fgets, fprintf, count, hzero])).2
    have hless := hrest (by simp [addDeviceStep, fgets, fprintf, count, hzero])
    simp only [addDeviceStep, fgets, fprintf, count, hzero, if_false, List.head?_nil,
      Option.getD_none, List.tail_nil, List.length_append, List.length_singleton,
      List.length_nil] at hless
    omega

/-- The lines of the first device up to where the count comes to zero, and what is written
there. -/
theorem reaches_close {rest : List Line} (buffer : Line) (openBrackets : Count) (output : List Line)
    (h : blockRest openBrackets lines = some rest) :
    ∃ copied closing, lines = copied ++ closing :: rest ∧
      Reaches patchHPET.step
        ⟨.addDevice, text, lines, buffer, openBrackets, true, false, false, output⟩
        ⟨.addOuter, text, rest.tail, rest.head?.getD closing, 0, true, false, true,
          output ++ copied ++ [closing, fixedHPET, rest.head?.getD closing]⟩ := by
  induction lines generalizing buffer openBrackets output with
  | nil => simp [blockRest] at h
  | cons line lines ih =>
    unfold blockRest at h
    split at h
    next hzero =>
      rw [Option.some.injEq] at h
      subst h
      refine ⟨[], line, rfl, reaches_step ?_⟩
      rw [step_addDevice _ rfl]
      simp [addDeviceStep, fgets, fprintf, count, hzero]
    next hzero =>
      obtain ⟨copied, closing, hlines, hreach⟩ := ih line _ (output ++ [line]) h
      refine ⟨line :: copied, closing, by rw [hlines]; rfl, .head ?_ (by simpa using hreach)⟩
      rw [step_addDevice _ rfl]
      simp [addDeviceStep, fgets, fprintf, count, hzero]

theorem reaches_addEnd (buffer : Line) (openBrackets : Count) (output : List Line)
    (h : blockRest openBrackets lines = none) :
    Reaches patchHPET.step
      ⟨.addDevice, text, lines, buffer, openBrackets, true, false, false, output⟩
      ⟨.addDevice, text, [], lastRead buffer lines, openBrackets + bracketSum lines, true, false,
        false, output ++ lines⟩ := by
  induction lines generalizing buffer openBrackets output with
  | nil =>
    rw [bracketSum_nil, add_zero, List.append_nil]
    exact .refl _
  | cons line lines ih =>
    unfold blockRest at h
    split at h
    next => cases h
    next hzero =>
      have hnext := ih line _ (output ++ [line]) h
      rw [add_assoc, ← bracketSum_cons, ← List.append_cons] at hnext
      refine .head ?_ hnext
      rw [step_addDevice _ rfl]
      simp [addDeviceStep, fgets, fprintf, count, hzero]

/-- A second RTC device by name makes the output longer than what is left to be read. -/
theorem output_length_of_named (buffer : Line) (openBrackets : Count) (output : List Line)
    (hname : ∃ line ∈ lines, cmpStr line RTCDevice = true) {t : DevicePass}
    (h : Evaluates patchHPET.step
      ⟨.addOuter, text, lines, buffer, openBrackets, true, false, true, output⟩ t) :
    output.length + lines.length < t.output.length := by
  obtain ⟨line, hfind⟩ := Option.isSome_iff_exists.mp (List.find?_isSome.mpr hname)
  obtain ⟨hline, front, rest, rfl, hfront⟩ := List.find?_eq_some_iff_append.mp hfind
  have hcopy := DevicePass.reaches_copy step_addOuter
    (s := ⟨.addOuter, text, front ++ line :: rest, buffer, openBrackets, true, false, true, output⟩)
    rfl rfl fun t ht hfound _ => by
      simp only [foundRTCDevice, Option.map_eq_none_iff, foundName_eq_none]
      exact ⟨by simpa using hfront _ ht, .inr hfound⟩
  have hfound : patchHPET.step ⟨.addOuter, text, line :: rest, lastRead buffer front,
      openBrackets, true, false, true, output ++ front⟩ =
      some ⟨.addDevice, text, rest, line, openBrackets, true, false, true,
        output ++ front ++ [line]⟩ := by
    rw [step_addOuter _ rfl (by simp), outerStep_of_some (t := ⟨.addOuter, text, rest, line,
      openBrackets, true, false, true, output ++ front⟩)]
    · rfl
    · simp [foundRTCDevice, foundName, fgets, hline]
  have hless := (output_length ((evaluates_step hfound).mp (hcopy.evaluates.mp h)) (.inr rfl)).2 rfl
  simp only [List.length_append, List.length_cons, List.length_nil] at hless ⊢
  omega

end patchHPET

theorem count_append_of_newlines {x y : String} (hx : 0 < x.toList.count '\n')
    (hy : 0 < y.toList.count '\n') : 2 ≤ (x ++ y).toList.count '\n' := by
  rw [String.toList_append, List.count_append]
  omega

/-- Text with more than one newline is no line. -/
theorem notMem_of_newlines {text : Line} {lines : List Line} (hmany : 2 ≤ text.count '\n')
    (h : LineStructured lines) : text ∉ lines := by
  have hnewline {line : Line} (hline : '\n' ∉ line) : text ≠ line ++ ['\n'] := by
    rintro rfl
    rw [List.count_append, List.count_eq_zero.mpr hline] at hmany
    exact absurd hmany (by decide)
  induction h with
  | nil => exact List.not_mem_nil
  | last hne hline hlength =>
    rw [List.mem_singleton]
    rintro rfl
    rw [List.count_eq_zero.mpr hline] at hmany
    exact absurd hmany (by decide)
  | cons line hline hlength _ ih => simpa using ⟨hnewline hline, ih⟩

theorem fixedHPET_notMem {lines : List Line} (h : LineStructured lines) : fixedHPET ∉ lines := by
  refine notMem_of_newlines (count_append_of_newlines ?_ (by decide)) h
  rw [String.toList_append, List.count_append]
  exact Nat.add_pos_right _ (by decide)

theorem HPETIRQ_notMem {lines : List Line} (h : LineStructured lines) : HPETIRQ ∉ lines := by
  refine notMem_of_newlines (count_append_of_newlines ?_ (by decide)) h
  rw [String.toList_append, List.count_append]
  exact Nat.add_pos_right _ (by decide)

/-- Two texts with the same line, which they do not have elsewhere, written into them. -/
theorem written_into_eq_iff {format : Line} {xs ys xs' ys' : List Line} (hxs : format ∉ xs)
    (hys : format ∉ ys) : xs ++ format :: ys = xs' ++ format :: ys' ↔ xs = xs' ∧ ys = ys' := by
  rw [List.append_cons_inj_of_notMem hxs hys]
  simp

namespace patchHPET

/-- What the second part comes to from the line of the first RTC device that is recognized. -/
theorem addDevice_writes_iff (text : List Line) (buffer : Line) (openBrackets : Count)
    {inside after output : List Line} (hlines : fixedHPET ∉ output ++ (inside ++ after))
    (hpercent : ∀ line ∈ output ++ (inside ++ after), '%' ∉ line) :
    (∃ t, Evaluates patchHPET.step ⟨.addDevice, text, inside ++ after, buffer, openBrackets, true,
        false, false, output⟩ t ∧ Written t.output (output ++ inside ++ fixedHPET :: after)) ↔
      blockRest openBrackets inside = some [] ∧ after ≠ [] ∧
        ∀ line ∈ after.tail, cmpStr line RTCDevice = false := by
  cases hrest : blockRest openBrackets (inside ++ after) with
  | none =>
    have hinside : blockRest openBrackets inside ≠ some [] := by
      intro hsome
      rw [blockRest_append, hsome] at hrest
      cases hrest
    refine iff_of_false ?_ fun h => hinside h.1
    rintro ⟨t, ht, hw⟩
    have hlength := output_length_of_end text
      ((reaches_addEnd text buffer openBrackets output hrest).evaluates.mp ht)
    rw [hw.length_eq] at hlength
    simp only [List.length_append, List.length_cons] at hlength
    omega
  | some rest =>
    obtain ⟨copied, closing, hsplit, hreach⟩ :=
      reaches_close text buffer openBrackets output hrest
    simp only [hreach.evaluates]
    cases rest with
    | nil =>
      -- the device is the last thing in the file
      have hafter : ¬ (blockRest openBrackets inside = some [] ∧ after ≠ []) := by
        rintro ⟨hsome, hne⟩
        rw [blockRest_append, hsome, Option.some.injEq, List.nil_append] at hrest
        exact hne hrest
      refine iff_of_false ?_ fun h => hafter ⟨h.1, h.2.1⟩
      rintro ⟨t, ht, hw⟩
      have hle := (output_length ht (.inl rfl)).1
      have hlength := congrArg List.length hsplit
      rw [hw.length_eq] at hle
      simp only [List.length_append, List.length_cons, List.length_nil, List.tail_nil] at hle hlength
      omega
    | cons next rest =>
      rw [List.head?_cons, Option.getD_some, List.tail_cons]
      have hnotMem := hlines
      rw [hsplit] at hnotMem
      by_cases hname : ∀ line ∈ rest, cmpStr line RTCDevice = false
      · have hrun := evaluates_addRest text hname next 0
          (output ++ copied ++ [closing, fixedHPET, next])
        rw [evaluates_written_iff hrun]
        · have hplaces : output ++ copied ++ [closing, fixedHPET, next] ++ rest =
              output ++ copied ++ [closing] ++ fixedHPET :: next :: rest := by simp
          rw [hplaces, written_into_eq_iff (by simp_all) (by simp_all)]
          constructor
          · rintro ⟨-, rfl⟩
            exact ⟨(ConfigPass.blockRest_eq_of_length hrest rfl).1, by simp, hname⟩
          · rintro ⟨hsome, -, -⟩
            rw [blockRest_append, hsome, Option.some.injEq, List.nil_append] at hrest
            subst hrest
            rw [List.append_cons copied, List.append_cancel_right_eq] at hsplit
            exact ⟨by rw [hsplit, List.append_assoc], rfl⟩
        · simp only [List.forall_mem_append, List.forall_mem_cons] at hpercent ⊢
          exact ⟨⟨hpercent.1, hpercent.2.1⟩, neutral_fixedHPET.2, hpercent.2.2⟩
      · push Not at hname
        refine iff_of_false ?_ ?_
        · rintro ⟨t, ht, hw⟩
          have hless := output_length_of_named text next 0 _ (by simpa using hname) ht
          have hlength := congrArg List.length hsplit
          rw [hw.length_eq] at hless
          simp only [List.length_append, List.length_cons, List.length_nil] at hless hlength
          omega
        · rintro ⟨hsome, -, hall⟩
          rw [blockRest_append, hsome, Option.some.injEq, List.nil_append] at hrest
          obtain ⟨line, hl, hne⟩ := hname
          exact hne (hall line (by rw [hrest]; exact hl))

end patchHPET

/-- For a text without an HPET device: one without an RTC device is left as it is; in one with
RTC devices the new device is written behind the first one, and nothing else is changed, exactly
if the count of braces comes to zero at the end of that device, a line follows it, and no line
behind that one names an RTC device. -/
theorem patchHPET_adds_iff (writeFixedHPET : Bool) (text : List Line)
    (hlines : LineStructured text) (hpercent : ∀ line ∈ text, '%' ∉ line)
    (hhpet : NoDevice HPETDevice HPETDevice2 text) :
    (NoDevice RTCDevice RTCDevice2 text →
      ∃ t, Evaluates patchHPET.step (patchHPET.start writeFixedHPET text.flatten) t ∧
        Written t.output text) ∧
    ∀ (front : List Line) (header : Line) (opened : Count) (upTo inside after : List Line),
      text = front ++ header :: (upTo ++ inside ++ after) →
      FirstDevice RTCDevice RTCDevice2 front header opened upTo inside →
      ((∃ t, Evaluates patchHPET.step (patchHPET.start writeFixedHPET text.flatten) t ∧
          Written t.output (front ++ header :: (upTo ++ inside) ++ fixedHPET :: after)) ↔
        blockRest opened inside = some [] ∧ after ≠ [] ∧
          ∀ line ∈ after.tail, cmpStr line RTCDevice = false) := by
  have hadd := patchHPET.reaches_add text writeFixedHPET hhpet
  simp only [patchHPET.start, hlines.buffers_flatten, hadd.evaluates]
  constructor
  · intro hrtc
    obtain ⟨t, ht, hout⟩ := DevicePass.evaluates_copy patchHPET.step_addOuter patchHPET.step_addHalt
      (s := ⟨.addOuter, text, text, lastRead [] text, 0, false, false, false, []⟩) rfl
      fun t ht _ _ => by
        simp only [foundRTCDevice, Option.map_eq_none_iff, foundName_eq_none]
        exact ⟨(hrtc _ ht).1, .inl (hrtc _ ht).2⟩
    exact ⟨t, ht, by rw [hout]; exact written_self_iff.mpr hpercent⟩
  · intro front header opened upTo inside after htext hdevice
    have hreach := DevicePass.reaches_device true false (inside ++ after) hdevice
      patchHPET.step_addOuter
      (s := ⟨.addOuter, text, text, lastRead [] text, 0, false, false, false, []⟩) rfl
      (by simp [htext]) fun t hrtc hhpet => by
        have hhpet : t.hpetDeviceFound = false := hhpet
        simp [foundRTCDevice, hrtc, ← hhpet]
    rw [zero_add, List.nil_append] at hreach
    have hsplit : text = (front ++ header :: upTo) ++ (inside ++ after) := by simp [htext]
    have hwrites := patchHPET.addDevice_writes_iff text (lastRead header upTo) opened
      (by rw [← hsplit]; exact fixedHPET_notMem hlines) (by rw [← hsplit]; exact hpercent)
    simpa [hreach.evaluates] using hwrites

def rtcDevice : List Line := ["Device (RTC)\n".toList, "\x7b\n".toList, "\x7d\n".toList]

/-- The RTC device is followed by the end of a scope. -/
theorem patchHPET_adds_behind_rtcDevice :
    (∃ t, Evaluates patchHPET.step (patchHPET.start false [['}', '\n']].flatten) t ∧
      Written t.output [['}', '\n']]) ∧
    ∃ t, Evaluates patchHPET.step
      (patchHPET.start false (rtcDevice ++ [['}', '\n']]).flatten) t ∧
      Written t.output (rtcDevice ++ fixedHPET :: [['}', '\n']]) :=
  ⟨(patchHPET_adds_iff false [['}', '\n']] (lineStructured_of_newlines (by decide)) (by decide)
    (by unfold NoDevice; decide)).1 (by unfold NoDevice; decide),
  ((patchHPET_adds_iff false (rtcDevice ++ [['}', '\n']]) (lineStructured_of_newlines (by decide))
    (by decide) (by unfold NoDevice; decide)).2 [] "Device (RTC)\n".toList 0 [] (rtcDevice.drop 1) [['}', '\n']] rfl
    ⟨by unfold NoDevice; decide, .name _ (by decide) (by decide), isBlock_braces⟩).mpr
      (by decide)⟩

/-- The line that closes an RTC device at the end of the file is written a second time. -/
theorem patchHPET_repeats_closing :
    LineStructured rtcDevice ∧ (∀ line ∈ rtcDevice, '%' ∉ line) ∧
      NoDevice HPETDevice HPETDevice2 rtcDevice ∧
      FirstDevice RTCDevice RTCDevice2 [] "Device (RTC)\n".toList 0 [] (rtcDevice.drop 1) ∧
      (∃ t, Evaluates patchHPET.step (patchHPET.start false rtcDevice.flatten) t ∧
        t.output = rtcDevice ++ [fixedHPET, ['}', '\n']]) ∧
      ¬ ∃ t, Evaluates patchHPET.step (patchHPET.start false rtcDevice.flatten) t ∧
        Written t.output (rtcDevice ++ fixedHPET :: []) := by
  have hrun : ∃ t, Evaluates patchHPET.step (patchHPET.start false rtcDevice.flatten) t ∧
      t.output = rtcDevice ++ [fixedHPET, ['}', '\n']] := by
    have hopen : Reaches patchHPET.step (patchHPET.start false rtcDevice.flatten)
        ⟨.addDevice, rtcDevice, [['}', '\n']], ['{', '\n'], 1, true, false, false,
          rtcDevice.take 2⟩ := reaches_of_steps (n := 6) rfl
    have hzero : (1 : Count) + bracketDelta ['}', '\n'] = 0 := by decide
    refine ⟨_, hopen.evaluates.mpr (.next (patchHPET.step_addDevice _ rfl) (.halt ?_)), ?_⟩
    · simp [patchHPET.addDeviceStep, fgets, fprintf, count, hzero, patchHPET.step]
    · simp [patchHPET.addDeviceStep, fgets, fprintf, count, hzero, rtcDevice]
  refine ⟨lineStructured_of_newlines (by decide), by decide, by unfold NoDevice; decide,
    ⟨by unfold NoDevice; decide, .name _ (by decide) (by decide), isBlock_braces⟩, hrun, ?_⟩
  rintro ⟨u, hu, hw⟩
  obtain ⟨t, ht, hout⟩ := hrun
  rw [hu.unique ht, hout] at hw
  exact absurd hw.length_eq (by decide)

end Dsdt
