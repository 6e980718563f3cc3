import NetbookInstaller.Dsdt.RTCEntries
import NetbookInstaller.Dsdt.AddedHPET
import NetbookInstaller.Dsdt.VariousRuns
import NetbookInstaller.Dsdt.Search

/-! Texts in which a pass finds nothing to patch: it copies them, but each line goes through
`fprintf` as a format. -/
namespace Dsdt

open Transition

/-- The loop of `patchHPET` that adds the interrupts, which ends where `nextone` is. -/
def patchHPET.irqPass (s : DevicePass) : Option DevicePass :=
  if s.pc = .outer ∧ s.rest = [] then none else patchHPET.step s

/-- None of the patterns occurs in the file, across the end of a buffer or not. -/
def Absent (patterns : List Line) (file : List Char) : Prop :=
  ∀ pattern ∈ patterns, ¬ pattern <:+: file

/-- The search patterns of `patchVarious`. -/
structure NothingVarious (file : List Char) : Prop where
  plain : Absent [issue1, PROCESSOR, issue2, issue3, issue4] file
  wild : ∀ i, ¬ MatchesFrom Wild file issue5 i

section Printing
variable {u : Unspecified}

theorem formatted_length_lt {line text : Line} (h : formatted line = some text) (hmem : '%' ∈ line) :
    text.length < line.length := by
  induction line using formatted.induct generalizing text with
  | case1 => simp at hmem
  | case2 cs =>
    simp only [formatted, Option.map_eq_some_iff] at h
    obtain ⟨rest, hrest, rfl⟩ := h
    have hle := formatted_length hrest
    simp only [List.length_cons]
    omega
  | case3 cs hcs => simp_all [formatted]
  | case4 c cs h₁ h₂ ih =>
    rw [formatted] at h
    · obtain ⟨rest, hrest, rfl⟩ := Option.map_eq_some_iff.mp h
      have hcs : '%' ∈ cs := by
        rcases List.mem_cons.mp hmem with rfl | hcs
        · exact (h₂ rfl).elim
        · exact hcs
      exact Nat.succ_lt_succ (ih hrest hcs)
    · exact h₁
    · exact h₂

/-- A program for which conversions write nothing. -/
def silent : Unspecified := ⟨fun _ => [], none, none⟩

theorem printed_silent_length_le (line : Line) : (printed silent line).length ≤ line.length := by
  rw [printed]
  cases h : formatted line with
  | none => exact Nat.zero_le _
  | some text => exact formatted_length h

theorem printed_silent_length_lt {line : Line} (hmem : '%' ∈ line) :
    (printed silent line).length < line.length := by
  rw [printed]
  cases h : formatted line with
  | none => exact List.length_pos_of_mem hmem
  | some text => exact formatted_length_lt h hmem

theorem printedFile_silent_length_le (lines : List Line) :
    (printedFile silent lines).length ≤ lines.flatten.length := by
  induction lines with
  | nil => exact le_rfl
  | cons line lines ih =>
    have hline := printed_silent_length_le line
    have hcons : printedFile silent (line :: lines) = printed silent line ++ printedFile silent lines :=
      rfl
    rw [hcons, List.flatten_cons, List.length_append, List.length_append]
    omega

theorem printedFile_silent_length_lt {lines : List Line} (h : ∃ line ∈ lines, '%' ∈ line) :
    (printedFile silent lines).length < lines.flatten.length := by
  induction lines with
  | nil => simp at h
  | cons line lines ih =>
    have hcons : printedFile silent (line :: lines) = printed silent line ++ printedFile silent lines :=
      rfl
    rw [hcons, List.flatten_cons, List.length_append, List.length_append]
    by_cases hline : '%' ∈ line
    · have hlt := printed_silent_length_lt hline
      have hle := printedFile_silent_length_le lines
      omega
    · have hle := printed_silent_length_le line
      have hlt := ih (by simpa [hline] using h)
      omega

/-- The lines of a file are printed as the file exactly if it has no percent sign. -/
theorem printedFile_buffers_iff (file : List Char) :
    (∀ u, printedFile u (buffers file) = file) ↔ '%' ∉ file := by
  have hmem : '%' ∈ file ↔ ∃ line ∈ buffers file, '%' ∈ line := by
    rw [← List.mem_flatten, buffers_flatten]
  constructor
  · intro h hpercent
    have hless := printedFile_silent_length_lt (hmem.mp hpercent)
    rw [h silent, buffers_flatten] at hless
    exact hless.false
  · intro h u
    rw [printedFile_of_notMem fun line hl hpercent => h (hmem.mpr ⟨line, hl, hpercent⟩),
      buffers_flatten]

end Printing

section Copying
variable {file : List Char} {line : Line}

theorem infix_of_mem_buffers (h : line ∈ buffers file) : line <:+: file := by
  have hin := List.infix_of_mem_flatten h
  rwa [buffers_flatten] at hin

theorem Absent.cmpStr {patterns : List Line} (h : Absent patterns file) {pattern : Line}
    (hp : pattern ∈ patterns) (hl : line ∈ buffers file) : cmpStr line pattern = false := by
  rw [Bool.eq_false_iff]
  intro hfound
  exact h pattern hp ((cmpStr_iff.mp hfound).trans (infix_of_mem_buffers hl))

theorem NothingVarious.cmpStrWild (h : NothingVarious file) (hl : line ∈ buffers file) :
    cmpStrWild line issue5 = false := by
  rw [Bool.eq_false_iff]
  intro hfound
  obtain ⟨i, hmatches, -⟩ := cmpStrWild_iff.mp hfound
  obtain ⟨front, rest, hfile⟩ := infix_of_mem_buffers hl
  refine h.wild (front.length + i) fun j hj => ?_
  obtain ⟨c, hc, hfits⟩ := hmatches j hj
  have hlt : i + j < line.length := (List.getElem?_eq_some_iff.mp hc).1
  refine ⟨c, ?_, hfits⟩
  rw [← hfile, List.append_assoc, Nat.add_assoc, List.getElem?_append_right (Nat.le_add_right _ _),
    Nat.add_sub_cancel_left, List.getElem?_append_left hlt, hc]

end Copying

theorem ConfigPass.copies {searchString : Line} (patch : List Line) {file : List Char}
    (h : Absent [searchString] file) :
    ∃ t, Evaluates (ConfigPass.step searchString patch) (ConfigPass.start file) t ∧
      t.output = buffers file := by
  have hcopy : Reaches (ConfigPass.step searchString patch)
      ⟨buffers file ++ [], [], 0, true, false, []⟩
      ⟨[], lastRead [] (buffers file), 0, true, false, [] ++ buffers file⟩ :=
    ConfigPass.reaches_copy fun line hl hfound => by
      rw [h.cmpStr List.mem_cons_self hl] at hfound
      cases hfound
  rw [List.append_nil] at hcopy
  exact ⟨_, hcopy.evaluates.mpr (.halt rfl), rfl⟩

theorem foundName_of_absent {device device2 : Line} {file : List Char}
    (h : Absent [device, device2] file) {line : Line} (hl : line ∈ buffers file) (found : Bool) :
    DevicePass.foundName device device2 found line = none :=
  foundName_eq_none.mpr
    ⟨h.cmpStr List.mem_cons_self hl, .inl (h.cmpStr (List.mem_cons_of_mem _ List.mem_cons_self) hl)⟩

theorem patchRTC.copies {file : List Char} (h : Absent [RTCDevice, RTCDevice2] file) :
    ∃ t, Evaluates patchRTC.step (patchRTC.start file) t ∧ t.output = buffers file :=
  DevicePass.evaluates_copy (s := patchRTC.start file) patchRTC.step_outer patchRTC.step_halt rfl
    fun t ht _ _ => by
      rw [DevicePass.foundRTCDevice, foundName_of_absent h ht, Option.map_none]

theorem patchHPET.irqPass_copies {file : List Char} (h : Absent [HPETDevice, HPETDevice2] file) :
    ∃ t, Evaluates patchHPET.irqPass (patchHPET.start false file) t ∧
      t.output = buffers file := by
  have hstep : ∀ s : DevicePass, s.pc = .outer → s.rest ≠ [] →
      irqPass s = some (s.outerStep DevicePass.foundHPETDevice .device) := by
    intro s hpc hrest
    rw [irqPass, if_neg fun h => hrest h.2, patchHPET.step_outer s hpc hrest]
  have hhalt : ∀ s : DevicePass, s.pc = .outer → s.rest = [] → irqPass s = none :=
    fun s hpc hrest => if_pos ⟨hpc, hrest⟩
  refine DevicePass.evaluates_copy (s := patchHPET.start false file) hstep hhalt rfl
    fun t ht _ _ => ?_
  rw [DevicePass.foundHPETDevice, foundName_of_absent h ht, Option.map_none]

theorem VariousPass.copies {file : List Char} (h : NothingVarious file) (u : Unspecified)
    (memory : List Char) :
    ∃ t, Evaluates (VariousPass.step u) (VariousPass.start file memory) t ∧
      t.output = printedFile u (buffers file) := by
  have habsent : ∀ pattern ∈ [issue1, PROCESSOR, issue2, issue3, issue4], ∀ line ∈ buffers file,
      cmpStr line pattern = false := fun _ hp _ hl => h.plain.cmpStr hp hl
  simp only [List.forall_mem_cons] at habsent
  obtain ⟨hissue1, hprocessor, -, hissue3, hissue4, -⟩ := habsent
  obtain ⟨n, hn⟩ := exists_firstFree (buffers file)
  obtain ⟨buffer, hreaches⟩ := VariousPass.reaches_firstFree (u := u) memory hn
  obtain ⟨t, ht, -, houtput⟩ := VariousPass.evaluates_outer_lines (u := u)
    (s := { VariousPass.start file memory with pc := .outer, buffer, firstfreet := n }) rfl
    fun line hl => ⟨hissue1 line hl, hprocessor line hl⟩
  refine ⟨t, hreaches.evaluates.mpr ht, houtput.trans ?_⟩
  have hfixed : (buffers file).map (fixed n) = buffers file := by
    refine (List.map_congr_left fun line hl => ?_).trans (List.map_id _)
    simp [fixed, hissue3 line hl, hissue4 line hl, h.cmpStrWild hl]
  exact congrArg (printedFile u) hfixed

/-- A pass that prints the lines of the file gives back the file, whatever the C program leaves
open, exactly if there is no percent sign. -/
theorem evaluates_printed_iff {σ : Type*} {step : Unspecified → σ → Option σ} {s : σ}
    {output : Unspecified → σ → List Char} {file : List Char}
    (hrun : ∀ u, ∃ t, Evaluates (step u) s t ∧ output u t = printedFile u (buffers file)) :
    (∀ u, ∃ t, Evaluates (step u) s t ∧ output u t = file) ↔ '%' ∉ file := by
  rw [← printedFile_buffers_iff]
  refine forall_congr' fun u => ?_
  obtain ⟨t, ht, houtput⟩ := hrun u
  constructor
  · rintro ⟨t', ht', hfile⟩
    rw [ht'.unique ht, houtput] at hfile
    exact hfile
  · intro hfile
    exact ⟨t, ht, houtput.trans hfile⟩

theorem passes_copy_iff (searchString : Line) (patch : List Line) (memory file : List Char) :
    (Absent [searchString] file → ((∀ u, ∃ t,
        Evaluates (ConfigPass.step searchString patch) (ConfigPass.start file) t ∧
          printedFile u t.output = file) ↔ '%' ∉ file)) ∧
      (Absent [RTCDevice, RTCDevice2] file → ((∀ u, ∃ t,
        Evaluates patchRTC.step (patchRTC.start file) t ∧ printedFile u t.output = file) ↔
          '%' ∉ file)) ∧
      (Absent [HPETDevice, HPETDevice2] file → ((∀ u, ∃ t,
        Evaluates patchHPET.irqPass (patchHPET.start false file) t ∧
          printedFile u t.output = file) ↔ '%' ∉ file)) ∧
      (NothingVarious file → ((∀ u, ∃ t,
        Evaluates (VariousPass.step u) (VariousPass.start file memory) t ∧ t.output = file) ↔
          '%' ∉ file)) := by
  refine ⟨fun h => ?_, fun h => ?_, fun h => ?_, fun h => ?_⟩
  · obtain ⟨t, ht, houtput⟩ := ConfigPass.copies patch h
    exact evaluates_printed_iff fun u => ⟨t, ht, by rw [houtput]⟩
  · obtain ⟨t, ht, houtput⟩ := patchRTC.copies h
    exact evaluates_printed_iff fun u => ⟨t, ht, by rw [houtput]⟩
  · obtain ⟨t, ht, houtput⟩ := patchHPET.irqPass_copies h
    exact evaluates_printed_iff fun u => ⟨t, ht, by rw [houtput]⟩
  · exact evaluates_printed_iff fun u => VariousPass.copies h u memory

def scopeLine : List Char := "Scope (_SB)".toList

/-- A text without a line end. -/
theorem passes_copy_scopeLine :
    (∀ u, ∃ t, Evaluates (ConfigPass.step "Device (BAT1".toList []) (ConfigPass.start scopeLine) t ∧
        printedFile u t.output = scopeLine) ∧
      (∀ u, ∃ t, Evaluates patchRTC.step (patchRTC.start scopeLine) t ∧
        printedFile u t.output = scopeLine) ∧
      (∀ u, ∃ t, Evaluates patchHPET.irqPass (patchHPET.start false scopeLine) t ∧
        printedFile u t.output = scopeLine) ∧
      ∀ u, ∃ t, Evaluates (VariousPass.step u) (VariousPass.start scopeLine []) t ∧
        t.output = scopeLine := by
  obtain ⟨hconfig, hrtc, hhpet, hvarious⟩ :=
    passes_copy_iff "Device (BAT1".toList [] [] scopeLine
  have hpercent : '%' ∉ scopeLine := by decide
  refine ⟨(hconfig ?_).mpr hpercent, (hrtc ?_).mpr hpercent, (hhpet ?_).mpr hpercent,
    (hvarious ⟨?_, fun i h => ?_⟩).mpr hpercent⟩
  · unfold Absent; decide
  · unfold Absent; decide
  · unfold Absent; decide
  · unfold Absent; decide
  · obtain ⟨c, hc, -⟩ := h 21 (by decide)
    obtain ⟨hlt, -⟩ := List.getElem?_eq_some_iff.mp hc
    have hlength : scopeLine.length = 11 := by decide
    omega

def twoPercents : List Char := "Name (ROOM, \"50%%\")\n".toList

/-- One of two percent signs is lost. -/
theorem passes_lose_percent :
    (Absent [RTCDevice, RTCDevice2] twoPercents ∧
      Absent [issue1, PROCESSOR, issue2, issue3, issue4] twoPercents) ∧
      (∃ t, Evaluates patchRTC.step (patchRTC.start twoPercents) t ∧
        printedFile silent t.output = "Name (ROOM, \"50%\")\n".toList) ∧
      (∃ t, Evaluates (VariousPass.step silent) (VariousPass.start twoPercents []) t ∧
        t.output = "Name (ROOM, \"50%\")\n".toList) ∧
      ¬ (∀ u, ∃ t, Evaluates patchRTC.step (patchRTC.start twoPercents) t ∧
        printedFile u t.output = twoPercents) := by
  have hrun : ∃ t, Evaluates patchRTC.step (patchRTC.start twoPercents) t ∧
      printedFile silent t.output = "Name (ROOM, \"50%\")\n".toList :=
    ⟨_, evaluates_of_evaluate (n := 2) rfl, by decide⟩
  refine ⟨⟨by unfold Absent; decide, by unfold Absent; decide⟩, hrun,
    ⟨_, evaluates_of_evaluate (n := 4) rfl, by decide⟩, fun h => ?_⟩
  obtain ⟨t, ht, houtput⟩ := hrun
  obtain ⟨t', ht', hcopied⟩ := h silent
  rw [ht'.unique ht, houtput] at hcopied
  exact absurd hcopied (by decide)

end Dsdt
