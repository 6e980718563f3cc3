import NetbookInstaller.Dsdt.AddedHPET

/-! Where `patchHPET` without `writeFixedHPET` writes the IRQ entries of the HPET device. -/
namespace Dsdt

open Transition DevicePass

/-- Lines without the IRQ entries that stand first, each an IRQ line and the line behind it. -/
def dropPairs : List Line → List Line
  | [] => []
  | [line] => if cmpStr line IRQ then [] else [line]
  | irq :: value :: lines => if cmpStr irq IRQ then dropPairs lines else irq :: value :: lines

/-- A line with a resource template and those up to its opening brace. -/
inductive Opening : List Line → Prop
  | same (template : Line) (htemplate : cmpStr template RESOURCETEMP = true)
      (hbrace : cmpStr template ['{'] = true) : Opening [template]
  | later (template : Line) (middle : List Line) (brace : Line)
      (htemplate : cmpStr template RESOURCETEMP = true)
      (hmiddle : ∀ line ∈ template :: middle, cmpStr line ['{'] = false)
      (hbrace : cmpStr brace ['{'] = true) : Opening (template :: middle ++ [brace])

/-- The first resource template of a device: what stands before it, the template up to its brace,
and the rest of the device. -/
structure FirstTemplate (block before opening rest : List Line) : Prop where
  split : block = before ++ opening ++ rest
  before : ∀ line ∈ before, cmpStr line RESOURCETEMP = false
  opening : Opening opening

/-- The lines behind the first resource template that the pass comes to before its count is
zero. -/
def findTemplate : Count → List Line → Option (List Line)
  | _, [] => none
  | openBrackets, line :: lines =>
    if openBrackets + bracketElse line = 0 then none
    else if cmpStr line RESOURCETEMP then some lines
    else findTemplate (openBrackets + bracketElse line) lines

/-- The pass leaves the device before a further resource template and before the end of the
file. -/
def leaves : Count → List Line → Bool
  | _, [] => false
  | openBrackets, line :: lines =>
    openBrackets + bracketElse line = 0 ∨
      cmpStr line RESOURCETEMP = false ∧ leaves (openBrackets + bracketElse line) lines

theorem dropPairs_suffix (lines : List Line) : dropPairs lines <:+ lines := by
  induction lines using dropPairs.induct with
  | case1 => exact List.suffix_rfl
  | case2 line hirq =>
    rw [dropPairs, if_pos hirq]
    exact List.nil_suffix
  | case3 line hirq => rw [dropPairs, if_neg hirq]
  | case4 irq value lines hirq ih =>
    rw [dropPairs, if_pos hirq]
    exact ih.trans ((List.suffix_cons value lines).trans (List.suffix_cons irq _))
  | case5 irq value lines hirq =>
    rw [dropPairs, if_neg hirq]

namespace patchHPET

variable (text : List Line) {lines output : List Line} {buffer : Line} {openBrackets : Count}

/-- The pass is in its first part and has found the device. -/
structure Inserting (s : DevicePass) : Prop where
  found : s.hpetDeviceFound = true
  pc : s.pc = .outer ∨ s.pc = .device ∨ s.pc = .irqs

theorem Inserting.deviceStep {s : DevicePass} (h : Inserting s) (hpc : s.pc = .device) :
    Inserting (patchHPET.deviceStep s) ∧
      s.output ++ [s.rest.head?.getD s.buffer] <+: (patchHPET.deviceStep s).output := by
  unfold patchHPET.deviceStep
  dsimp only
  split_ifs
  · exact ⟨⟨h.found, .inl rfl⟩, List.prefix_rfl⟩
  · refine ⟨⟨h.found, .inr (.inr rfl)⟩, ?_⟩
    simp [fprintf, fgets]
  · exact ⟨⟨h.found, .inr (.inl hpc)⟩, List.prefix_rfl⟩

/-- What has been written stays. -/
theorem Inserting.step {s t : DevicePass} (h : Inserting s) (hstep : patchHPET.step s = some t) :
    Inserting t ∧ s.output <+: t.output := by
  rcases h.pc with hpc | hpc | hpc
  · rcases eq_or_ne s.rest [] with hrest | hrest
    · rw [step_halt s hpc hrest h.found] at hstep
      cases hstep
    · rw [step_outer s hpc hrest, Option.some.injEq] at hstep
      subst hstep
      unfold outerStep
      dsimp only
      split
      next u hu =>
        simp only [foundHPETDevice, Option.map_eq_some_iff] at hu
        obtain ⟨opened, -, rfl⟩ := hu
        exact ⟨⟨rfl, .inr (.inl rfl)⟩, List.prefix_append _ _⟩
      next => exact ⟨⟨h.found, .inl hpc⟩, List.prefix_append _ _⟩
  · rw [step_device s hpc, Option.some.injEq] at hstep
    subst hstep
    obtain ⟨hnext, hstays⟩ := h.deviceStep hpc
    exact ⟨hnext, (List.prefix_append _ _).trans hstays⟩
  · rw [step_irqs s hpc, Option.some.injEq] at hstep
    subst hstep
    unfold patchHPET.irqStep
    split_ifs
    · exact ⟨⟨h.found, .inr (.inr hpc)⟩, List.prefix_rfl⟩
    · exact ⟨⟨h.found, .inr (.inl rfl)⟩, List.prefix_append _ _⟩

theorem Inserting.evaluates {s t : DevicePass} (h : Inserting s)
    (ht : Evaluates patchHPET.step s t) : s.output <+: t.output := by
  induction ht with
  | halt _ => exact List.prefix_rfl
  | next hstep _ ih =>
    obtain ⟨hnext, hstays⟩ := h.step hstep
    exact hstays.trans (ih hnext)

/-- In the device a line is read and written, or at the end of the file the stale one is written. -/
theorem device_writes {t : DevicePass} (h : Evaluates patchHPET.step
      ⟨.device, text, lines, buffer, openBrackets, false, true, false, output⟩ t) :
    output ++ [lines.head?.getD buffer] <+: t.output := by
  have hinserting : Inserting
      ⟨.device, text, lines, buffer, openBrackets, false, true, false, output⟩ :=
    ⟨rfl, .inr (.inl rfl)⟩
  obtain ⟨hnext, hstays⟩ := hinserting.deviceStep rfl
  exact hstays.trans (hnext.evaluates ((evaluates_step (step_device _ rfl)).mp h))

/-- The loop over the IRQ entries writes the line that ends it. -/
theorem irqs_output_lt {s t : DevicePass} (hs : Inserting s) (hpc : s.pc = .irqs)
    (h : Evaluates patchHPET.step s t) : s.output.length < t.output.length := by
  induction h with
  | @halt s hnone =>
    rw [step_irqs s hpc] at hnone
    cases hnone
  | @next s u t hstep ht ih =>
    have hnext := (hs.step hstep).1
    rw [step_irqs s hpc, Option.some.injEq] at hstep
    subst hstep
    by_cases hirq : cmpStr s.buffer IRQ = true
    · have hwrites := ih hnext (by simp [patchHPET.irqStep, hirq, hpc])
      simpa [patchHPET.irqStep, hirq, fgets] using hwrites
    · have hle := (hnext.evaluates ht).length_le
      rw [patchHPET.irqStep, if_neg hirq] at hle
      simp only [fprintf, List.length_append, List.length_singleton] at hle
      exact hle

theorem evaluates_insertRest (hname : ∀ line ∈ lines, cmpStr line HPETDevice = false)
    (buffer : Line) (openBrackets : Count) (output : List Line) :
    ∃ t, Evaluates patchHPET.step
        ⟨.outer, text, lines, buffer, openBrackets, false, true, false, output⟩ t ∧
      t.output = output ++ lines := by
  have hcopy := DevicePass.reaches_copy step_outer
    (s := ⟨.outer, text, lines, buffer, openBrackets, false, true, false, output⟩) rfl
    (List.append_nil lines).symm fun t ht _ hfound => by
      simp only [foundHPETDevice, Option.map_eq_none_iff, foundName_eq_none]
      exact ⟨hname _ ht, .inr hfound⟩
  exact ⟨_, hcopy.evaluates.mpr (.halt (step_halt _ rfl rfl rfl)), rfl⟩

/-- The loop over the IRQ entries up to the first line that is none. -/
theorem reaches_irqs {line : Line} {rest : List Line} (openBrackets : Count) (output : List Line)
    (h : dropPairs (buffer :: lines) = line :: rest) :
    Reaches patchHPET.step ⟨.irqs, text, lines, buffer, openBrackets, false, true, false, output⟩
      ⟨.device, text, rest, line, 0, false, true, false, output ++ [line]⟩ := by
  generalize hall : buffer :: lines = all at h
  induction all using dropPairs.induct generalizing buffer lines with
  | case1 => cases hall
  | case2 l hirq =>
    rw [dropPairs, if_pos hirq] at h
    cases h
  | case3 l hirq =>
    obtain ⟨rfl, rfl⟩ := List.cons.inj hall
    rw [dropPairs, if_neg hirq, List.cons.injEq] at h
    obtain ⟨rfl, rfl⟩ := h
    refine reaches_step ?_
    rw [step_irqs _ rfl]
    simp [irqStep, fprintf, hirq]
  | case4 irq value behind hirq ih =>
    obtain ⟨rfl, rfl⟩ := List.cons.inj hall
    rw [dropPairs, if_pos hirq] at h
    cases behind with
    | nil => cases h
    | cons next behind =>
      refine .head ?_ (ih rfl h)
      rw [step_irqs _ rfl]
      simp [irqStep, fgets, hirq]
  | case5 irq value behind hirq =>
    obtain ⟨rfl, rfl⟩ := List.cons.inj hall
    rw [dropPairs, if_neg hirq, List.cons.injEq] at h
    obtain ⟨rfl, rfl⟩ := h
    refine reaches_step ?_
    rw [step_irqs _ rfl]
    simp [irqStep, fprintf, hirq]

/-- Behind the entries: the rest is copied if the pass leaves the device, and no run writes just
that if it does not. -/
theorem evaluates_behind (hname : ∀ line ∈ lines, cmpStr line HPETDevice = false) (buffer : Line)
    (openBrackets : Count) (output : List Line) (hleaves : leaves openBrackets lines = true) :
    ∃ t, Evaluates patchHPET.step
        ⟨.device, text, lines, buffer, openBrackets, false, true, false, output⟩ t ∧
      t.output = output ++ lines := by
  induction lines generalizing buffer openBrackets output with
  | nil => cases hleaves
  | cons line lines ih =>
    have hrest : ∀ l ∈ lines, cmpStr l HPETDevice = false := fun l hl =>
      hname l (List.mem_cons_of_mem line hl)
    simp only [leaves, decide_eq_true_eq] at hleaves
    by_cases hzero : openBrackets + bracketElse line = 0
    · obtain ⟨t, ht, hout⟩ := evaluates_insertRest text hrest line 0 (output ++ [line])
      refine ⟨t, .next (step_device _ rfl) ?_, by simpa using hout⟩
      simpa [deviceStep, fgets, fprintf, hzero] using ht
    · obtain ⟨htemplate, hleaves⟩ := hleaves.resolve_left hzero
      obtain ⟨t, ht, hout⟩ := ih hrest line _ (output ++ [line]) hleaves
      refine ⟨t, .next (step_device _ rfl) ?_, by simpa using hout⟩
      simpa [deviceStep, fgets, fprintf, hzero, htemplate] using ht

theorem behind_output_ne (hlines : HPETIRQ ∉ lines) (buffer : Line) (openBrackets : Count)
    (output : List Line) (hleaves : leaves openBrackets lines = false) {t : DevicePass}
    (ht : Evaluates patchHPET.step
      ⟨.device, text, lines, buffer, openBrackets, false, true, false, output⟩ t) :
    t.output ≠ output ++ lines := by
  induction lines generalizing buffer openBrackets output with
  | nil =>
    intro heq
    have hlength := (device_writes text ht).length_le
    rw [heq] at hlength
    simp only [List.length_append, List.length_singleton, List.length_nil] at hlength
    omega
  | cons line lines ih =>
    simp only [leaves, decide_eq_false_iff_not, not_or, not_and, Bool.not_eq_true] at hleaves
    obtain ⟨hzero, hleaves⟩ := hleaves
    have hstep := (evaluates_step (step_device _ rfl)).mp ht
    by_cases htemplate : cmpStr line RESOURCETEMP = true
    · -- the entries are written once more
      intro heq
      have hinserting : Inserting (deviceStep
          ⟨.device, text, line :: lines, buffer, openBrackets, false, true, false, output⟩) := by
        refine ⟨?_, .inr (.inr ?_)⟩ <;> simp [deviceStep, fgets, fprintf, hzero, htemplate]
      have hstays := hinserting.evaluates hstep
      have hmem : HPETIRQ ∈ line :: lines := by
        rw [heq] at hstays
        simp only [deviceStep, fgets, fprintf, hzero, htemplate, if_false, if_true, List.head?_cons,
          Option.getD_some, List.append_assoc, List.prefix_append_right_inj] at hstays
        exact hstays.subset (by simp)
      exact hlines hmem
    · have hnext := ih (fun hl => hlines (List.mem_cons_of_mem line hl)) line
        (openBrackets + bracketElse line) (output ++ [line]) (hleaves (by simpa using htemplate))
        (by simpa [deviceStep, fgets, fprintf, hzero, htemplate] using hstep)
      simpa using hnext

/-- A run that has read the file to its end in the device writes a line of it once more. -/
def Overruns (s : DevicePass) (lines : List Line) : Prop :=
  ∀ t, Evaluates patchHPET.step s t → ∃ line ∈ s.buffer :: lines, s.output ++ lines ++ [line] <+: t.output

/-- What the loop makes of the lines behind the one that was recognized. -/
theorem device_output (hname : ∀ line ∈ lines, cmpStr line HPETDevice = false) (buffer : Line)
    (openBrackets : Count) (output : List Line) :
    match findTemplate openBrackets lines with
    | none => (∃ t, Evaluates patchHPET.step
          ⟨.device, text, lines, buffer, openBrackets, false, true, false, output⟩ t ∧
          t.output = output ++ lines) ∨
        Overruns ⟨.device, text, lines, buffer, openBrackets, false, true, false, output⟩ lines
    | some [] =>
      Overruns ⟨.device, text, lines, buffer, openBrackets, false, true, false, output⟩ lines
    | some (next :: behind) => ∃ front, lines = front ++ next :: behind ∧
        ∃ count, Reaches patchHPET.step
          ⟨.device, text, lines, buffer, openBrackets, false, true, false, output⟩
          ⟨.irqs, text, behind.tail, behind.head?.getD next, count, false, true, false,
            output ++ front ++ [next] ++ [HPETIRQ]⟩ := by
  induction lines generalizing buffer openBrackets output with
  | nil =>
    refine .inr fun t ht => ⟨buffer, by simp, ?_⟩
    simpa using device_writes text ht
  | cons line lines ih =>
    have hrest : ∀ l ∈ lines, cmpStr l HPETDevice = false := fun l hl =>
      hname l (List.mem_cons_of_mem line hl)
    unfold findTemplate
    by_cases hzero : openBrackets + bracketElse line = 0
    · rw [if_pos hzero]
      obtain ⟨t, ht, hout⟩ := evaluates_insertRest text hrest line 0 (output ++ [line])
      refine .inl ⟨t, .next (step_device _ rfl) ?_, by simpa using hout⟩
      simpa [deviceStep, fgets, fprintf, hzero] using ht
    rw [if_neg hzero]
    by_cases htemplate : cmpStr line RESOURCETEMP = true
    · rw [if_pos htemplate]
      cases lines with
      | nil =>
        intro t ht
        have hinserting : Inserting (deviceStep
            ⟨.device, text, [line], buffer, openBrackets, false, true, false, output⟩) := by
          refine ⟨?_, .inr (.inr ?_)⟩ <;> simp [deviceStep, fgets, fprintf, hzero, htemplate]
        have hstays := hinserting.evaluates ((evaluates_step (step_device _ rfl)).mp ht)
        simp only [deviceStep, fgets, fprintf, hzero, htemplate, if_false, if_true, List.head?_cons,
          Option.getD_some, List.tail_cons, List.head?_nil, Option.getD_none] at hstays
        exact ⟨line, by simp, (List.prefix_append _ _).trans hstays⟩
      | cons next behind =>
        refine ⟨[line], rfl, openBrackets + bracketElse line, reaches_step ?_⟩
        rw [step_device _ rfl]
        simp [deviceStep, fgets, fprintf, hzero, htemplate]
    rw [if_neg htemplate]
    have hstep : patchHPET.step
        ⟨.device, text, line :: lines, buffer, openBrackets, false, true, false, output⟩ =
        some ⟨.device, text, lines, line, openBrackets + bracketElse line, false, true, false,
          output ++ [line]⟩ := by
      rw [step_device _ rfl]
      simp [deviceStep, fgets, fprintf, hzero, htemplate]
    have hoverruns (h : Overruns ⟨.device, text, lines, line, openBrackets + bracketElse line, false,
        true, false, output ++ [line]⟩ lines) :
        Overruns ⟨.device, text, line :: lines, buffer, openBrackets, false, true, false, output⟩
          (line :: lines) := by
      intro t ht
      obtain ⟨l, hl, hstays⟩ := h t ((evaluates_step hstep).mp ht)
      exact ⟨l, List.mem_cons_of_mem buffer hl, by simpa using hstays⟩
    have hlines := ih hrest line (openBrackets + bracketElse line) (output ++ [line])
    rcases hfind : findTemplate (openBrackets + bracketElse line) lines with - | ⟨- | ⟨next, behind⟩⟩
    · rw [hfind] at hlines
      rcases hlines with ⟨t, ht, hout⟩ | hlines
      · exact .inl ⟨t, .next hstep ht, by simpa using hout⟩
      · exact .inr (hoverruns hlines)
    · rw [hfind] at hlines
      exact hoverruns hlines
    · rw [hfind] at hlines
      obtain ⟨front, hfront, count, hreach⟩ := hlines
      refine ⟨line :: front, by rw [hfront]; rfl, count, .head hstep ?_⟩
      simpa using hreach

end patchHPET

/-- A text that is expected to have the entries at a place of the file is no output that has all
of the file before them. -/
theorem ne_of_overrun {output before behind all : List Line} {line : Line}
    (hstays : all ++ [line] <+: output) (hall : HPETIRQ ∉ all) (hline : HPETIRQ ≠ line)
    (hle : before.length ≤ all.length) : output ≠ before ++ HPETIRQ :: behind := by
  rintro rfl
  have hget : (all ++ [line])[before.length]? = some HPETIRQ := by
    have hlt : before.length < (all ++ [line]).length := by simpa using Nat.lt_succ_of_le hle
    obtain ⟨rest, hrest⟩ := hstays
    rw [← List.getElem?_append_left hlt, hrest]
    simp
  have hmem := List.mem_of_getElem? hget
  rw [List.mem_append, List.mem_singleton] at hmem
  exact hmem.elim hall hline

namespace patchHPET

/-- The runs from the line that was recognized, for entries that are expected behind `placed`. -/
theorem device_inserts_iff (text : List Line) {lines output placed tail : List Line} {buffer : Line}
    (openBrackets : Count) (hsplit : output ++ lines = placed ++ tail)
    (hirq : HPETIRQ ∉ output ++ lines) (hbuffer : buffer ∈ output)
    (hname : ∀ line ∈ lines, cmpStr line HPETDevice = false) :
    (∃ t, Evaluates patchHPET.step
        ⟨.device, text, lines, buffer, openBrackets, false, true, false, output⟩ t ∧
        t.output = placed ++ HPETIRQ :: dropPairs tail) ↔
      ∃ next line rest, findTemplate openBrackets lines = some (next :: tail) ∧
        dropPairs tail = line :: rest ∧ leaves 0 rest = true := by
  have hplaced : HPETIRQ ∉ placed := fun h => hirq (by rw [hsplit]; exact List.mem_append_left tail h)
  have htail : HPETIRQ ∉ dropPairs tail := fun h =>
    hirq (by rw [hsplit]; exact List.mem_append_right placed ((dropPairs_suffix tail).subset h))
  have hoverruns (h : Overruns
      ⟨.device, text, lines, buffer, openBrackets, false, true, false, output⟩ lines) :
      ¬ ∃ t, Evaluates patchHPET.step
        ⟨.device, text, lines, buffer, openBrackets, false, true, false, output⟩ t ∧
        t.output = placed ++ HPETIRQ :: dropPairs tail := by
    rintro ⟨t, ht, hout⟩
    obtain ⟨line, hline, hstays⟩ := h t ht
    have hle : placed.length ≤ (output ++ lines).length := by
      rw [hsplit, List.length_append]
      exact Nat.le_add_right _ _
    refine ne_of_overrun hstays hirq ?_ hle hout
    rintro rfl
    rcases List.mem_cons.mp hline with rfl | hline
    · exact hirq (List.mem_append_left lines hbuffer)
    · exact hirq (List.mem_append_right output hline)
  have houtput := device_output text hname buffer openBrackets output
  rcases hfind : findTemplate openBrackets lines with - | ⟨- | ⟨next, behind⟩⟩
  · rw [hfind] at houtput
    refine iff_of_false ?_ (by simp)
    rcases houtput with ⟨u, hu, hcopied⟩ | houtput
    · rintro ⟨t, ht, hout⟩
      rw [ht.unique hu, hcopied] at hout
      exact hirq (by rw [hout]; simp)
    · exact hoverruns houtput
  · rw [hfind] at houtput
    exact iff_of_false (hoverruns houtput) (by simp)
  · rw [hfind] at houtput
    obtain ⟨front, hfront, count, hreach⟩ := houtput
    have hinserting : Inserting ⟨.irqs, text, behind.tail, behind.head?.getD next, count, false, true,
        false, output ++ front ++ [next] ++ [HPETIRQ]⟩ := ⟨rfl, .inr (.inr rfl)⟩
    simp only [hreach.evaluates]
    by_cases halign : behind = tail
    · subst halign
      have hsame : output ++ front ++ [next] = placed := by
        rw [hfront] at hsplit
        have hall : output ++ front ++ [next] ++ behind = placed ++ behind := by simpa using hsplit
        exact List.append_cancel_right hall
      have hrest : ∀ l ∈ behind, cmpStr l HPETDevice = false := fun l hl =>
        hname l (by rw [hfront]; simp [hl])
      rw [hsame]
      cases hdrop : dropPairs behind with
      | nil =>
        -- nothing is left to be written, and the pass writes a line
        refine iff_of_false ?_ (by simp)
        rintro ⟨t, ht, hout⟩
        have hless := irqs_output_lt (hsame ▸ hinserting) rfl ht
        rw [hout] at hless
        simp at hless
      | cons line rest =>
        have hnext : dropPairs (behind.head?.getD next :: behind.tail) = line :: rest := by
          cases behind with
          | nil => cases hdrop
          | cons first behind => exact hdrop
        have hirqs := reaches_irqs text count (placed ++ [HPETIRQ]) hnext
        have hplaces : placed ++ HPETIRQ :: line :: rest = placed ++ [HPETIRQ] ++ [line] ++ rest := by
          simp
        simp only [hirqs.evaluates, hplaces]
        by_cases hleaves : leaves 0 rest = true
        · have hsuffix := dropPairs_suffix behind
          rw [hdrop] at hsuffix
          refine iff_of_true ?_ ⟨next, line, rest, rfl, rfl, hleaves⟩
          exact evaluates_behind text
            (fun l hl => hrest l (hsuffix.subset (List.mem_cons_of_mem line hl))) line 0 _ hleaves
        · rw [Bool.not_eq_true] at hleaves
          have hnotMem : HPETIRQ ∉ rest := fun h =>
            htail (by rw [hdrop]; exact List.mem_cons_of_mem line h)
          refine iff_of_false ?_ (by simp [hleaves])
          rintro ⟨t, ht, hout⟩
          exact behind_output_ne text hnotMem line 0 _ hleaves ht hout
    · refine iff_of_false ?_ (by simpa using fun h => absurd h halign)
      rintro ⟨t, ht, hout⟩
      obtain ⟨written, hwritten⟩ := hinserting.evaluates ht
      rw [hout, List.append_assoc _ [HPETIRQ]] at hwritten
      obtain ⟨hsame, -⟩ := (written_into_eq_iff hplaced htail).mp hwritten.symm
      rw [hfront, hsame] at hsplit
      exact halign (by simpa using hsplit)

end patchHPET
/-- When the entries are written where they should be, and nothing else is changed: the first
template that the pass comes to, before its count is zero, has its brace on the line behind it and
is the first of the device; and from the second line behind the entries on the count, which starts
at zero there, comes to zero before a further template and before the end of the file. -/
def Inserts (opened : Count) (inside after rest : List Line) : Prop :=
  ∃ next line lines, findTemplate opened (inside ++ after) = some (next :: (rest ++ after)) ∧
    dropPairs (rest ++ after) = line :: lines ∧ leaves 0 lines = true

/-- For a text with one HPET device that contains a resource template: the entries are written
once behind the opening brace of the first template, those that stood there are left out, and
nothing else is changed, exactly if `Inserts`. -/
theorem patchHPET_inserts_iff (front : List Line) (header : Line) (opened : Count)
    (upTo inside after before opening rest : List Line)
    (hlines : LineStructured (front ++ header :: (upTo ++ inside ++ after)))
    (hpercent : ∀ line ∈ front ++ header :: (upTo ++ inside ++ after), '%' ∉ line)
    (hdevice : OneDevice HPETDevice HPETDevice2 front header opened upTo inside after)
    (htemplate : FirstTemplate (upTo ++ inside) before opening rest) :
    (∃ t, Evaluates patchHPET.step
        (patchHPET.start false (front ++ header :: (upTo ++ inside ++ after)).flatten) t ∧
        Written t.output
          (front ++ header :: (before ++ opening) ++ HPETIRQ :: dropPairs (rest ++ after))) ↔
      Inserts opened inside after rest := by
  have hsplit : front ++ header :: upTo ++ (inside ++ after) =
      front ++ header :: (before ++ opening) ++ (rest ++ after) := by
    have hblock := congrArg (fun block => front ++ header :: (block ++ after)) htemplate.split
    simpa using hblock
  have htext : front ++ header :: (upTo ++ inside ++ after) =
      front ++ header :: upTo ++ (inside ++ after) := by simp
  have hname : ∀ line ∈ inside ++ after, cmpStr line HPETDevice = false := by
    intro line hl
    rcases List.mem_append.mp hl with hl | hl
    · exact hdevice.recognized.inside_name line hl
    · exact (hdevice.behind line hl).1
  have hbuffer : lastRead header upTo ∈ front ++ header :: upTo := by
    obtain ⟨lines, line, hall, hlast, -⟩ := hdevice.recognizedLine
    rw [hall, hlast]
    simp
  have hwritten : ∀ line ∈
      front ++ header :: (before ++ opening) ++ HPETIRQ :: dropPairs (rest ++ after), '%' ∉ line := by
    rw [htext, hsplit] at hpercent
    rw [List.forall_mem_append] at hpercent ⊢
    refine ⟨hpercent.1, List.forall_mem_cons.mpr ⟨neutral_HPETIRQ.2, fun line hl => ?_⟩⟩
    exact hpercent.2 line ((dropPairs_suffix _).subset hl)
  have hreach := DevicePass.reaches_device false true (inside ++ after) hdevice.toFirstDevice
    patchHPET.step_outer (s := ⟨.outer, front ++ header :: (upTo ++ inside ++ after),
      front ++ header :: (upTo ++ inside ++ after), [], 0, false, false, false, []⟩) rfl (by simp)
    fun t hrtc hhpet => by
      have hrtc : t.rtcDeviceFound = false := hrtc
      have hhpet : t.hpetDeviceFound = false := hhpet
      simp [foundHPETDevice, hhpet, ← hrtc]
  have hinserts := patchHPET.device_inserts_iff (front ++ header :: (upTo ++ inside ++ after)) opened hsplit
    (by rw [← htext]; exact HPETIRQ_notMem hlines) hbuffer hname
  rw [zero_add, List.nil_append] at hreach
  rw [patchHPET.start, hlines.buffers_flatten, patchHPET.startOn]
  simp only [Bool.false_eq_true, if_false, hreach.evaluates, written_iff_eq hwritten]
  exact hinserts

/-- The lines of an HPET device up to the brace of its template. -/
def hpetTemplate : List Line :=
  ["\x7b\n".toList, "Name (ATT3, ResourceTemplate ()\n".toList, "\x7b\n".toList]

def irqEntry : List Line := ["IRQNoFlags ()\n".toList, "\x7b0\x7d\n".toList]

def memoryEntry : List Line :=
  ["Memory32Fixed (ReadWrite,\n".toList, "0xFED00000,\n".toList, "0x00000400)\n".toList,
    "\x7d)\n".toList, "\x7d\n".toList]

theorem opening_hpetTemplate : Opening (hpetTemplate.drop 1) :=
  .later _ [] _ (by decide) (by decide) (by decide)

/-- A device with one entry and a memory entry of several lines behind it. -/
theorem patchHPET_inserts_before_memoryEntry :
    ∃ t, Evaluates patchHPET.step (patchHPET.start false ([] ++ "Device (HPET)\n".toList ::
        ([] ++ (hpetTemplate ++ irqEntry ++ memoryEntry) ++ [['}', '\n']])).flatten) t ∧
      Written t.output ([] ++ "Device (HPET)\n".toList ::
        (hpetTemplate.take 1 ++ hpetTemplate.drop 1) ++
        HPETIRQ :: dropPairs (irqEntry ++ memoryEntry ++ [['}', '\n']])) :=
  (patchHPET_inserts_iff [] "Device (HPET)\n".toList 0 []
    (hpetTemplate ++ irqEntry ++ memoryEntry) [['}', '\n']] (hpetTemplate.take 1)
    (hpetTemplate.drop 1) (irqEntry ++ memoryEntry) (lineStructured_of_newlines (by decide))
    (by decide)
    ⟨⟨by unfold NoDevice; decide, .name _ (by decide) (by decide),
      isBlock_of_take (by decide) (by decide) (by decide)⟩, by unfold NoDevice; decide⟩
    ⟨by decide, by decide, opening_hpetTemplate⟩).mpr
    ⟨_, _, _, rfl, rfl, by decide⟩

/-- An entry in one line, a further template, and another device. -/
def twoTemplates : List Line :=
  ["IO (Decode16, 0x0070)\n".toList, "\x7d)\n".toList, "Name (ATT4, ResourceTemplate ()\n".toList,
    "\x7b\n".toList, "\x7d)\n".toList, "\x7d\n".toList]

def timrDevice : List Line := ["Device (TIMR)\n".toList, "\x7b\n".toList, "\x7d\n".toList]

/-- The entries are written a second time, into the further template. -/
theorem patchHPET_inserts_twice :
    LineStructured ("Device (HPET)\n".toList ::
        (hpetTemplate ++ irqEntry ++ twoTemplates ++ timrDevice)) ∧
      (∀ line ∈ "Device (HPET)\n".toList ::
        (hpetTemplate ++ irqEntry ++ twoTemplates ++ timrDevice), '%' ∉ line) ∧
      OneDevice HPETDevice HPETDevice2 [] "Device (HPET)\n".toList 0 []
        (hpetTemplate ++ irqEntry ++ twoTemplates) timrDevice ∧
      FirstTemplate (hpetTemplate ++ irqEntry ++ twoTemplates) (hpetTemplate.take 1)
        (hpetTemplate.drop 1) (irqEntry ++ twoTemplates) ∧
      (∃ t, Evaluates patchHPET.step (patchHPET.start false ("Device (HPET)\n".toList ::
          (hpetTemplate ++ irqEntry ++ twoTemplates ++ timrDevice)).flatten) t ∧
        t.output = "Device (HPET)\n".toList :: (hpetTemplate ++ [HPETIRQ] ++ twoTemplates.take 4 ++
          [HPETIRQ] ++ twoTemplates.drop 4 ++ timrDevice)) ∧
      ¬ ∃ t, Evaluates patchHPET.step (patchHPET.start false ("Device (HPET)\n".toList ::
          (hpetTemplate ++ irqEntry ++ twoTemplates ++ timrDevice)).flatten) t ∧
        Written t.output ("Device (HPET)\n".toList :: hpetTemplate ++
          HPETIRQ :: dropPairs (irqEntry ++ twoTemplates ++ timrDevice)) := by
  have hrun : ∃ t, Evaluates patchHPET.step (patchHPET.start false ("Device (HPET)\n".toList ::
      (hpetTemplate ++ irqEntry ++ twoTemplates ++ timrDevice)).flatten) t ∧
      t.output = "Device (HPET)\n".toList :: (hpetTemplate ++ [HPETIRQ] ++ twoTemplates.take 4 ++
        [HPETIRQ] ++ twoTemplates.drop 4 ++ timrDevice) :=
    ⟨_, evaluates_of_evaluate (n := 30) rfl, rfl⟩
  refine ⟨lineStructured_of_newlines (by decide), by decide,
    ⟨⟨by unfold NoDevice; decide, .name _ (by decide) (by decide),
      isBlock_of_take (by decide) (by decide) (by decide)⟩, by unfold NoDevice; decide⟩,
    ⟨by decide, by decide, opening_hpetTemplate⟩, hrun, ?_⟩
  rintro ⟨u, hu, hw⟩
  obtain ⟨t, ht, hout⟩ := hrun
  rw [hu.unique ht, hout] at hw
  exact absurd hw.length_eq (by decide)

end Dsdt
