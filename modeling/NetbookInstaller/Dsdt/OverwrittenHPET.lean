import NetbookInstaller.Dsdt.AddedHPET

/-! The HPET device that `patchHPET` overwrites with the flag `writeFixedHPET`: behind the header
of the device it does what the config pass does with an empty patch. -/
namespace Dsdt

open Transition DevicePass
open ConfigPass (Coincides isBlock_braces)

namespace patchHPET

variable (text : List Line) {lines : List Line}

/-- Once the device has been found, the rest of the first scan changes nothing. -/
theorem reaches_findRest (openBrackets : Count) (lines : List Line) (buffer : Line) :
    Reaches patchHPET.step ⟨.find, text, lines, buffer, openBrackets, false, true, false, []⟩
      ⟨.find, text, [], lastRead buffer lines, openBrackets, false, true, false, []⟩ := by
  induction lines generalizing buffer with
  | nil => exact .refl _
  | cons line lines ih =>
    refine .head ?_ (ih line)
    by_cases hname : cmpStr line HPETDevice = true
    · simp [patchHPET.step, fgets, foundHPETDevice, foundName, hname]
    · simp [patchHPET.step, fgets, foundHPETDevice, foundName, hname]

/-- The second scan starts with the flag set and what the first one has added to the count. -/
theorem reaches_overwrite (rest : List Line) {front upTo inside : List Line} {header : Line}
    {opened : Count} (hdevice : FirstDevice HPETDevice HPETDevice2 front header opened upTo inside) :
    ∃ buffer, Reaches patchHPET.step
      ⟨.find, text, front ++ header :: (upTo ++ rest), [], 0, false, false, false, []⟩
      ⟨.overwriteOuter, text, text, buffer, opened, false, true, false, []⟩ := by
  obtain ⟨lines, line, hlines, -, hnone, hline⟩ := hdevice.recognizedLine
  have hsplit : front ++ header :: (upTo ++ rest) = lines ++ line :: rest := by
    rw [← List.cons_append, ← List.append_assoc, hlines, List.append_assoc]
    rfl
  refine ⟨lastRead line rest, ?_⟩
  rw [hsplit]
  refine (reaches_find text hnone (line :: rest) []).trans (.head ?_
    ((reaches_findRest text opened rest line).trans (reaches_step (by simp [patchHPET.step]))))
  simp [patchHPET.step, fgets, foundHPETDevice, hline]

theorem step_overwriteCopy {line buffer : Line} {rest output : List Line} {openBrackets : Count}
    {written : Bool} (hname : cmpStr line HPETDevice = false) :
    patchHPET.step
        ⟨.overwriteOuter, text, line :: rest, buffer, openBrackets, false, true, written, output⟩ =
      some ⟨.overwriteOuter, text, rest, line, openBrackets, false, true, written,
        output ++ [line]⟩ := by
  have hnone : foundHPETDevice
      ⟨.overwriteOuter, text, rest, line, openBrackets, false, true, written, output⟩ = none := by
    simp [foundHPETDevice, foundName, hname]
  simp [patchHPET.step, fgets, fprintf, hnone]

/-- The second scan finds a device by its name only. -/
theorem reaches_overwriteCopy (rest : List Line) (openBrackets : Count) (written : Bool)
    (hname : ∀ line ∈ lines, cmpStr line HPETDevice = false) (buffer : Line) (output : List Line) :
    Reaches patchHPET.step
      ⟨.overwriteOuter, text, lines ++ rest, buffer, openBrackets, false, true, written, output⟩
      ⟨.overwriteOuter, text, rest, lastRead buffer lines, openBrackets, false, true, written,
        output ++ lines⟩ := by
  induction lines generalizing buffer output with
  | nil =>
    rw [List.append_nil]
    exact .refl _
  | cons line lines ih =>
    refine .head (step_overwriteCopy text (hname line List.mem_cons_self)) ?_
    rw [List.append_cons output line lines]
    exact ih (fun l hl => hname l (List.mem_cons_of_mem line hl)) line (output ++ [line])

/-- The states of the second scan from the header of the device on, with those of the config
pass: `front` has been written before them, and the new device behind `front` when the device has
been read. -/
inductive Overwrites (text front : List Line) : DevicePass → ConfigPass → Prop
  | block (rest : List Line) (buffer : Line) (openBrackets : Count)
      (hname : ∀ line ∈ rest, cmpStr line HPETDevice = false) :
      Overwrites text front
        ⟨.overwriteDevice, text, rest, buffer, openBrackets, false, true, false, front⟩
        ⟨rest, buffer, openBrackets, true, true, []⟩
  | behind (rest : List Line) (buffer : Line) (openBrackets : Count) (output : List Line)
      (hname : ∀ line ∈ rest, cmpStr line HPETDevice = false) :
      Overwrites text front
        ⟨.overwriteOuter, text, rest, buffer, openBrackets, false, true, true,
          front ++ fixedHPET :: output⟩
        ⟨rest, buffer, openBrackets, false, false, output⟩

theorem Overwrites.step {front : List Line} {s : DevicePass} {p : ConfigPass}
    (h : Overwrites text front s p) :
    patchHPET.step s = none ∧ ConfigPass.step HPETDevice [] p = none ∨
      ∃ t q, patchHPET.step s = some t ∧ ConfigPass.step HPETDevice [] p = some q ∧
        Overwrites text front t q := by
  cases h with
  | block rest buffer openBrackets hname =>
    have hrest (n : ℕ) : ∀ line ∈ rest.drop n, cmpStr line HPETDevice = false :=
      fun line hl => hname line (List.mem_of_mem_drop hl)
    refine .inr ?_
    -- what both read next: a line, or at the end of the file the stale buffer
    by_cases hzero : openBrackets + bracketDelta (rest.head?.getD buffer) = 0
    · refine ⟨_, _, rfl, rfl, ?_⟩
      rcases rest with - | ⟨line, - | ⟨next, rest⟩⟩
      · simp only [List.head?_nil, Option.getD_none] at hzero
        simpa [overwriteDeviceStep, fgets, fprintf, count, ConfigPass.blockStep, ConfigPass.fgets,
          ConfigPass.fprintf, ConfigPass.replace, lastRead, hzero] using
          Overwrites.behind [] buffer 0 [buffer] (by simp)
      · simp only [List.head?_cons, Option.getD_some] at hzero
        simpa [overwriteDeviceStep, fgets, fprintf, count, ConfigPass.blockStep, ConfigPass.fgets,
          ConfigPass.fprintf, ConfigPass.replace, lastRead, hzero] using
          Overwrites.behind [] line 0 [line] (by simp)
      · simp only [List.head?_cons, Option.getD_some] at hzero
        simpa [overwriteDeviceStep, fgets, fprintf, count, ConfigPass.blockStep, ConfigPass.fgets,
          ConfigPass.fprintf, ConfigPass.replace, lastRead, hzero] using
          Overwrites.behind rest next 0 [next] (hrest 2)
    · refine ⟨_, _, rfl, rfl, ?_⟩
      rcases rest with - | ⟨line, rest⟩
      · simp only [List.head?_nil, Option.getD_none] at hzero
        simpa [overwriteDeviceStep, fgets, count, ConfigPass.blockStep, ConfigPass.fgets, hzero]
          using Overwrites.block [] buffer (openBrackets + bracketDelta buffer) (by simp)
      · simp only [List.head?_cons, Option.getD_some] at hzero
        simpa [overwriteDeviceStep, fgets, count, ConfigPass.blockStep, ConfigPass.fgets, hzero]
          using Overwrites.block rest line (openBrackets + bracketDelta line) (hrest 1)
  | behind rest buffer openBrackets output hname =>
    cases rest with
    | nil => exact .inl ⟨rfl, rfl⟩
    | cons line rest =>
      refine .inr ⟨_, _, step_overwriteCopy text (hname line List.mem_cons_self),
        ConfigPass.step_copy fun _ => rfl, ?_⟩
      rw [List.append_assoc, List.cons_append]
      exact .behind rest line openBrackets (output ++ [line])
        fun l hl => hname l (List.mem_cons_of_mem line hl)

/-- The run of the second scan and that of the config pass end together, the new device being all
that they write differently. -/
theorem overwriteDevice_writes_iff {front : List Line} (buffer : Line) (openBrackets : Count)
    (hname : ∀ line ∈ lines, cmpStr line HPETDevice = false) (hfront : ∀ line ∈ front, '%' ∉ line)
    (after : List Line) :
    (∃ t, Evaluates patchHPET.step
        ⟨.overwriteDevice, text, lines, buffer, openBrackets, false, true, false, front⟩ t ∧
        Written t.output (front ++ fixedHPET :: after)) ↔
      ∃ q, Evaluates (ConfigPass.step HPETDevice []) ⟨lines, buffer, openBrackets, true, true, []⟩ q ∧
        Written q.output after := by
  have hstart : Overwrites text front
      ⟨.overwriteDevice, text, lines, buffer, openBrackets, false, true, false, front⟩
      ⟨lines, buffer, openBrackets, true, true, []⟩ := .block lines buffer openBrackets hname
  have hwritten (output : List Line) :
      Written (front ++ fixedHPET :: output) (front ++ fixedHPET :: after) ↔ Written output after := by
    rw [written_append rfl, and_iff_right (written_self_iff.mpr hfront)]
    exact List.forall₂_cons.trans (and_iff_right (formatted_eq_self_iff.mpr neutral_fixedHPET.2))
  constructor
  · rintro ⟨t, ht, hw⟩
    obtain ⟨q, hq, hview⟩ := ht.lockstep (fun _ _ h => h.step) hstart
    cases hview with
    | block rest buffer openBrackets =>
      have hlength := hw.length_eq
      simp at hlength
    | behind rest buffer openBrackets output => exact ⟨_, hq, (hwritten output).mp hw⟩
  · rintro ⟨q, hq, hw⟩
    obtain ⟨t, ht, hview⟩ := hq.lockstep (R := fun q s => Overwrites text front s q)
      (fun q s h => by
        obtain ⟨hs, hq⟩ | ⟨t, r, hs, hq, hview⟩ := h.step
        · exact .inl ⟨hq, hs⟩
        · exact .inr ⟨r, t, hq, hs, hview⟩) hstart
    have hhalt := hq.halted
    cases hview with
    | block rest buffer openBrackets => cases hhalt
    | behind rest buffer openBrackets output => exact ⟨_, ht, (hwritten output).mpr hw⟩

end patchHPET

/-- For a text with one HPET device: with the flag the whole device is replaced, and nothing else
is changed, exactly if the device has its name, and its block is one for the count of braces and
followed by a line (or its end is missed in the one way that does no harm). A text without an HPET
device comes out as it does without the flag. -/
theorem patchHPET_overwrites_iff (text : List Line) (hlines : LineStructured text)
    (hpercent : ∀ line ∈ text, '%' ∉ line) :
    (NoDevice HPETDevice HPETDevice2 text → ∀ output,
      (∃ t, Evaluates patchHPET.step (patchHPET.start true text.flatten) t ∧
        Written t.output output) ↔
      ∃ t, Evaluates patchHPET.step (patchHPET.start false text.flatten) t ∧
        Written t.output output) ∧
    ∀ (front : List Line) (header : Line) (opened : Count) (upTo inside after : List Line),
      text = front ++ header :: (upTo ++ inside ++ after) →
      OneDevice HPETDevice HPETDevice2 front header opened upTo inside after →
      ((∃ t, Evaluates patchHPET.step (patchHPET.start true text.flatten) t ∧
          Written t.output (front ++ fixedHPET :: after)) ↔
        cmpStr header HPETDevice = true ∧
          ((blockRest 0 (upTo ++ inside) = some [] ∧ after ≠ []) ∨
            Coincides [] (upTo ++ inside) after)) := by
  rw [patchHPET.start, patchHPET.start, hlines.buffers_flatten]
  constructor
  · intro hnone output
    have htrue := patchHPET.reaches_add text true hnone
    have hfalse := patchHPET.reaches_add text false hnone
    exact exists_congr fun t => and_congr_left fun _ => htrue.evaluates.trans hfalse.evaluates.symm
  · intro front header opened upTo inside after htext hdevice
    obtain ⟨buffer, hreach⟩ :=
      patchHPET.reaches_overwrite text (inside ++ after) hdevice.toFirstDevice
    rw [← List.append_assoc, ← htext] at hreach
    simp only [patchHPET.startOn, if_true, hreach.evaluates]
    have hfront (line : Line) (hl : line ∈ front) := (hdevice.before line hl).1
    have hafter (line : Line) (hl : line ∈ after) := (hdevice.behind line hl).1
    cases hdevice.recognized with
    | name block hname hblock =>
      have hcopy := patchHPET.reaches_overwriteCopy text (header :: (inside ++ after)) 0 false hfront
        buffer []
      have hstep : patchHPET.step ⟨.overwriteOuter, text, header :: (inside ++ after),
          lastRead buffer front, 0, false, true, false, front⟩ =
          some ⟨.overwriteDevice, text, inside ++ after, header, 0, false, true, false, front⟩ := by
        simp [patchHPET.step, fgets, foundHPETDevice, foundName, hname]
      have hstart := hcopy.trans (reaches_step hstep)
      rw [show front ++ header :: (inside ++ after) = text from htext.symm] at hstart
      have hrest : ∀ line ∈ inside ++ after, cmpStr line HPETDevice = false := by
        intro line hl
        rcases List.mem_append.mp hl with hl | hl
        · exact hblock line hl
        · exact hafter line hl
      have hfrontWritten (line : Line) (hl : line ∈ front) := hpercent line (by simp [htext, hl])
      have hafterWritten (line : Line) (hl : line ∈ after) := hpercent line (by simp [htext, hl])
      simp only [hstart.evaluates]
      rw [patchHPET.overwriteDevice_writes_iff text header 0 hrest hfrontWritten,
        and_iff_right hname]
      exact (ConfigPass.block_writes_iff (written_self_iff.mpr hafterWritten) .nil).trans
        (and_iff_right .nil)
    | identifier middle line inside hmiddle hname hid hinside =>
      have htextName : ∀ line ∈ text, cmpStr line HPETDevice = false := by
        intro l hl
        simp only [htext, List.mem_append, List.mem_cons, List.not_mem_nil, or_false] at hl
        rcases hl with hl | rfl | ((hl | rfl) | hl) | hl
        · exact hfront l hl
        · exact (hmiddle l List.mem_cons_self).1
        · exact (hmiddle l (List.mem_cons_of_mem header hl)).1
        · exact hname
        · exact hinside l hl
        · exact hafter l hl
      have hcopy := patchHPET.reaches_overwriteCopy text [] 1 false htextName buffer []
      rw [List.append_nil] at hcopy
      refine iff_of_false ?_ fun h => by simp [(hmiddle header List.mem_cons_self).1] at h
      rintro ⟨t, ht, hw⟩
      have hlength := hw.length_eq
      rw [(hcopy.evaluates.mp ht).unique (.halt rfl)] at hlength
      simp only [htext, List.nil_append, List.length_append, List.length_cons] at hlength
      omega

def hpetDevice : List Line := ["Device (HPET)\n".toList, "\x7b\n".toList, "\x7d\n".toList]

/-- The HPET device is followed by the end of a scope; the end of a scope alone has none. -/
theorem patchHPET_overwrites_hpetDevice :
    ((∃ t, Evaluates patchHPET.step (patchHPET.start true [['}', '\n']].flatten) t ∧
        Written t.output [['}', '\n']]) ↔
      ∃ t, Evaluates patchHPET.step (patchHPET.start false [['}', '\n']].flatten) t ∧
        Written t.output [['}', '\n']]) ∧
    ∃ t, Evaluates patchHPET.step
      (patchHPET.start true (hpetDevice ++ [['}', '\n']]).flatten) t ∧
      Written t.output ([] ++ fixedHPET :: [['}', '\n']]) :=
  ⟨(patchHPET_overwrites_iff [['}', '\n']] (lineStructured_of_newlines (by decide)) (by decide)).1
    (by unfold NoDevice; decide) _,
  ((patchHPET_overwrites_iff (hpetDevice ++ [['}', '\n']]) (lineStructured_of_newlines (by decide))
    (by decide)).2 [] "Device (HPET)\n".toList 0 [] (hpetDevice.drop 1) [['}', '\n']] rfl
    ⟨⟨by unfold NoDevice; decide, .name _ (by decide) (by decide), isBlock_braces⟩,
      by unfold NoDevice; decide⟩).mpr ⟨by decide, .inl (by decide)⟩⟩

def hpetById : List Line :=
  ["Device (TIMR)\n".toList, "\x7b\n".toList, "Name (_HID, EisaId (\"PNP0103\"))\n".toList,
    "\x7d\n".toList]

/-- A device that is recognized by its identifier is not replaced. -/
theorem patchHPET_keeps_hpetById :
    LineStructured (hpetById ++ [['}', '\n']]) ∧
      (∀ line ∈ hpetById ++ [['}', '\n']], '%' ∉ line) ∧
      OneDevice HPETDevice HPETDevice2 [] "Device (TIMR)\n".toList 1
        (["\x7b\n".toList] ++ ["Name (_HID, EisaId (\"PNP0103\"))\n".toList]) [['}', '\n']]
        [['}', '\n']] ∧
      (∃ t, Evaluates patchHPET.step
        (patchHPET.start true (hpetById ++ [['}', '\n']]).flatten) t ∧
        t.output = hpetById ++ [['}', '\n']]) ∧
      ¬ ∃ t, Evaluates patchHPET.step
        (patchHPET.start true (hpetById ++ [['}', '\n']]).flatten) t ∧
        Written t.output ([] ++ fixedHPET :: [['}', '\n']]) := by
  have hrun : ∃ t, Evaluates patchHPET.step
      (patchHPET.start true (hpetById ++ [['}', '\n']]).flatten) t ∧
      t.output = hpetById ++ [['}', '\n']] :=
    ⟨_, evaluates_of_evaluate (n := 11) rfl, rfl⟩
  refine ⟨lineStructured_of_newlines (by decide), by decide,
    ⟨⟨by unfold NoDevice; decide,
      .identifier _ _ _ (by decide) (by decide) (by decide) (by decide),
      isBlock_of_take (by decide) (by decide) (by decide)⟩, by unfold NoDevice; decide⟩, hrun, ?_⟩
  rintro ⟨u, hu, hw⟩
  obtain ⟨t, ht, hout⟩ := hrun
  rw [hu.unique ht, hout] at hw
  exact absurd hw.length_eq (by decide)

end Dsdt
