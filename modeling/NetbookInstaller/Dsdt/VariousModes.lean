import NetbookInstaller.Dsdt.VariousRuns

/-! The last pass as a transducer over the lines of a text without a processor and alias pair. -/
namespace Dsdt.VariousPass

open Transition

/-- In mode `processor` the line read last is a processor line, and the next one is read for the
alias fix. -/
inductive Mode where
  | outer
  | processor
  deriving DecidableEq, Repr

/-- What the last three fixes leave of a line: nothing, if a text of the pass replaces it. -/
def keptLine (firstfreet : ℕ) (line : Line) : Option Line :=
  if cmpStr line issue3 then none
  else if cmpStr line issue4 then some (replaceT (freeTPrefix firstfreet) line)
  else if cmpStrWild line issue5 && !cmpStr line fix5 then none
  else some line

/-- The text that replaces a line. -/
def replacement (line : Line) : List Line :=
  if cmpStr line issue3 then [fix3]
  else if cmpStr line issue4 then []
  else if cmpStrWild line issue5 && !cmpStr line fix5 then [fix5]
  else []

/-- A processor line at the end of the file is written again with the last three fixes. -/
def modes (firstfreet : ℕ) : Transducer Mode Line where
  next
    | .outer, line =>
      if cmpStr line issue1 = false ∧ cmpStr line PROCESSOR then .processor else .outer
    | .processor, _ => .outer
  copy
    | .outer, line =>
      if cmpStr line issue1 then some (dropAsterisk line)
      else if cmpStr line PROCESSOR then some line
      else keptLine firstfreet line
    | .processor, line => keptLine firstfreet line
  adds
    | .outer, line => if cmpStr line issue1 || cmpStr line PROCESSOR then [] else replacement line
    | .processor, line => replacement line
  last
    | .outer, _ => some []
    | .processor, line => some [fixed firstfreet line]

theorem keptLine_append_replacement (firstfreet : ℕ) (line : Line) :
    (keptLine firstfreet line).toList ++ replacement line = [fixed firstfreet line] := by
  unfold keptLine replacement fixed
  split
  · rfl
  · split
    · rfl
    · split <;> rfl

/-- The pass in its outer loop, with no pair ahead. -/
def Sees (firstfreet : ℕ) : Mode → Line → List Line → VariousPass → Prop
  | .outer, _, rest, s =>
    s.pc = .outer ∧ s.rest = rest ∧ s.firstfreet = firstfreet ∧ meetsPair rest = false
  | .processor, _, _, _ => False

variable {u : Unspecified}

@[simp] theorem store_firstfreet (s : VariousPass) (line : Line) (rest : List Line) :
    (s.store line rest).firstfreet = s.firstfreet := rfl

@[simp] theorem store_output (s : VariousPass) (line : Line) (rest : List Line) :
    (s.store line rest).output = s.output := rfl

theorem printedFile_singleton (line : Line) : printedFile u [line] = printed u line := by
  simp [printedFile]

/-- A processor line with no alias behind it. -/
theorem outerStep_processor {s : VariousPass} {line line' : Line} {rest : List Line}
    (hissue : cmpStr line issue1 = false) (hprocessor : cmpStr line PROCESSOR = true)
    (halias : cmpStr line' issue2 = false) :
    s.outerStep u line (line' :: rest) =
      (((s.store line (line' :: rest)).append (printed u line)).store line' rest).append
        (printed u (fixed s.firstfreet line')) := by
  unfold outerStep
  simp only [hissue, hprocessor, halias, Bool.false_eq_true, if_false, if_true]
  rw [fixLine_eq, fprintf_eq, store_firstfreet, append_firstfreet, store_firstfreet]

/-- The outer loop writes what the transducer says. -/
theorem follows_outer {firstfreet : ℕ} {buffer : Line} {rest : List Line} {s : VariousPass}
    (hs : Sees firstfreet .outer buffer rest s) :
    Follows (step u) output (modes firstfreet) (printedFile u) (Sees firstfreet) .outer buffer rest
      s := by
  obtain ⟨hpc, hrest, rfl, hmeets⟩ := hs
  cases rest with
  | nil => exact .done (computes_halted (by simp only [step, hpc, hrest]))
  | cons line rest =>
    have hstep : step u s = some (s.outerStep u line rest) := by simp only [step, hpc, hrest]
    by_cases hissue : cmpStr line issue1 = true
    · have hnext : s.outerStep u line rest =
          (s.store line rest).append (printed u (dropAsterisk line)) := by
        unfold outerStep
        simp only [hissue, if_true]
        rfl
      rw [hnext] at hstep
      rw [meetsPair_cons (.inl hissue)] at hmeets
      refine .read [] rest hstep ?_ ?_
      · simp [modes, hissue, printedFile_singleton]
      · simpa [modes, hissue, Sees, hpc] using hmeets
    rw [Bool.not_eq_true] at hissue
    by_cases hprocessor : cmpStr line PROCESSOR = true
    · cases rest with
      | nil =>
        have hnext : s.outerStep u line [] =
            ((s.store line []).append (printed u line)).append
              (printed u (fixed s.firstfreet line)) := by
          unfold outerStep
          simp only [hissue, hprocessor, Bool.false_eq_true, if_false, if_true]
          rw [fixLine_eq, fprintf_eq, append_firstfreet, store_firstfreet]
        rw [hnext] at hstep
        refine .done (Evaluates.computes (v := printed u line ++
          printed u (fixed s.firstfreet line)) (.next hstep (.halt ?_)) ?_ ?_)
        · simp only [step, append_pc, append_rest, store_pc, store_rest, hpc]
        · simp [Transducer.output, Transducer.ending, modes, hissue, hprocessor, printedFile]
        · simp
      | cons line' rest =>
        rw [meetsPair, if_neg (by simp [hissue]), if_pos hprocessor] at hmeets
        obtain ⟨halias, hmeets⟩ : cmpStr line' issue2 = false ∧ meetsPair rest = false := by
          split at hmeets
          next => cases hmeets
          next halias => exact ⟨by simpa using halias, hmeets⟩
        rw [outerStep_processor hissue hprocessor halias] at hstep
        refine .read [line'] rest hstep ?_ ?_
        · have hfixed := keptLine_append_replacement s.firstfreet line'
          simp [modes, hissue, hprocessor, hfixed, printedFile]
        · simpa [modes, hissue, hprocessor, Sees, hpc] using hmeets
    · rw [Bool.not_eq_true] at hprocessor
      rw [outerStep_of_plain hissue hprocessor] at hstep
      rw [meetsPair_cons (.inr hprocessor)] at hmeets
      refine .read [] rest hstep ?_ ?_
      · have hfixed := keptLine_append_replacement s.firstfreet line
        simp [modes, hissue, hprocessor, hfixed, printedFile_singleton]
      · simpa [modes, hissue, hprocessor, Sees, hpc] using hmeets

/-- The pass on a text without a pair writes what the transducer says. -/
theorem computes_modes {lines : List Line} (memory : List Char) {firstfreet : ℕ}
    (hfree : FirstFree lines firstfreet) (hmeets : meetsPair lines = false) :
    Computes (step u) output (startOn lines memory)
      (((modes firstfreet).output .outer [] lines).map (printedFile u)) := by
  obtain ⟨buffer, hreach⟩ := reaches_firstFree (u := u) memory hfree
  have hsees : Sees firstfreet .outer [] lines
      { startOn lines memory with pc := .outer, buffer, firstfreet } := ⟨rfl, rfl, rfl, hmeets⟩
  have hrun : Computes (step u) output
      { startOn lines memory with pc := .outer, buffer, firstfreet }
      (((modes firstfreet).output .outer [] lines).map (printedFile u)) := by
    refine computes_output (printedFile_append u) (Sees firstfreet) (fun m x xs s hs => ?_) hsees
    cases m with
    | outer => exact follows_outer hs
    | processor => exact hs.elim
  have hstart := hreach.computes (v := []) rfl hrun
  simpa [Function.comp_def] using hstart

end Dsdt.VariousPass
