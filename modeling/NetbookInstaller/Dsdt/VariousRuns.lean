import NetbookInstaller.Dsdt.Balance

/-! How the last pass gets to its outer loop and what it writes there, as long as no line
is one for its first two fixes. -/
namespace Dsdt

open Transition

theorem buffers_flatten (file : List Char) : (buffers file).flatten = file :=
  fgetsFrom_flatten ..

/-- The first prefix `T%d_` that no line has. -/
structure FirstFree (lines : List Line) (n : ℕ) : Prop where
  free : ∀ line ∈ lines, cmpStr line (freeTPrefix n) = false
  used : ∀ m < n, ∃ line ∈ lines, cmpStr line (freeTPrefix m) = true

theorem exists_firstFree (lines : List Line) : ∃ n, FirstFree lines n := by
  classical
  have hfree : ∃ n, ∀ line ∈ lines, cmpStr line (freeTPrefix n) = false := by
    refine ⟨10 ^ lines.flatten.length, fun line hl => ?_⟩
    by_contra hfound
    have hless := VariousPass.lt_of_cmpStr_freeTPrefix (Bool.not_eq_false _ ▸ hfound)
    exact hless.not_ge (Nat.pow_le_pow_right (by decide) (VariousPass.length_le_flatten hl))
  refine ⟨Nat.find hfree, Nat.find_spec hfree, fun m hm => ?_⟩
  have hused := Nat.find_min hfree hm
  push Not at hused
  obtain ⟨line, hl, hfound⟩ := hused
  exact ⟨line, hl, by simpa using hfound⟩

theorem FirstFree.unique {lines : List Line} {m n : ℕ} (hm : FirstFree lines m)
    (hn : FirstFree lines n) : m = n := by
  rcases lt_trichotomy m n with hless | heq | hless
  · obtain ⟨line, hl, hfound⟩ := hn.used m hless
    rw [hm.free line hl] at hfound
    cases hfound
  · exact heq
  · obtain ⟨line, hl, hfound⟩ := hm.used n hless
    rw [hn.free line hl] at hfound
    cases hfound

/-- The format of the last three fixes, or the line itself. -/
def fixed (firstfreet : ℕ) (line : Line) : Line :=
  if cmpStr line issue3 then fix3
  else if cmpStr line issue4 then replaceT (freeTPrefix firstfreet) line
  else if cmpStrWild line issue5 && !cmpStr line fix5 then fix5
  else line

theorem printed_of_notMem {u : Unspecified} {line : Line} (h : '%' ∉ line) :
    printed u line = line := by
  rw [printed, formatted_eq_self_iff.mpr h]
  rfl

theorem printedFile_of_notMem {u : Unspecified} {lines : List Line}
    (h : ∀ line ∈ lines, '%' ∉ line) : printedFile u lines = lines.flatten := by
  rw [printedFile, List.map_congr_left fun line hl => printed_of_notMem (h line hl), List.map_id']

namespace VariousPass

variable {u : Unspecified} {s : VariousPass} {line : Line} {lines rest : List Line}

/-- The file that is open for writing. -/
def output (s : VariousPass) : List Char := if s.reopened then s.latest2 else s.latest

def append (s : VariousPass) (text : List Char) : VariousPass :=
  if s.reopened then { s with latest2 := s.latest2 ++ text }
  else { s with latest := s.latest ++ text }

theorem fprintf_eq (s : VariousPass) (format : Line) :
    s.fprintf u format = s.append (printed u format) := rfl

theorem fixLine_eq (s : VariousPass) (line : Line) :
    s.fixLine u line = s.append (printed u (fixed s.firstfreet line)) := by
  unfold fixLine fixed
  split
  · rfl
  · split
    · rfl
    · split <;> rfl

theorem append_nil (s : VariousPass) : s.append [] = s := by
  unfold append
  split <;> simp

theorem append_append (s : VariousPass) (text text' : List Char) :
    (s.append text).append text' = s.append (text ++ text') := by
  cases h : s.reopened <;> simp [append, h]

@[simp] theorem append_pc (s : VariousPass) (text : List Char) : (s.append text).pc = s.pc := by
  unfold append
  split <;> rfl

@[simp] theorem append_rest (s : VariousPass) (text : List Char) :
    (s.append text).rest = s.rest := by
  unfold append
  split <;> rfl

@[simp] theorem append_firstfreet (s : VariousPass) (text : List Char) :
    (s.append text).firstfreet = s.firstfreet := by
  unfold append
  split <;> rfl

@[simp] theorem append_reopened (s : VariousPass) (text : List Char) :
    (s.append text).reopened = s.reopened := by
  unfold append
  split <;> rfl

@[simp] theorem output_append (s : VariousPass) (text : List Char) :
    (s.append text).output = s.output ++ text := by
  cases h : s.reopened <;> simp [append, output, h]

/-- What is read into the buffer does not depend on what is written. -/
theorem append_read (s : VariousPass) (text : List Char) (rest : List Line)
    (buffer : List Char) :
    { s.append text with rest, buffer } = ({ s with rest, buffer } : VariousPass).append text := by
  cases h : s.reopened <;> simp [append, h]

theorem outerStep_of_plain (hissue : cmpStr line issue1 = false)
    (hprocessor : cmpStr line PROCESSOR = false) :
    s.outerStep u line rest =
      (s.store line rest).append (printed u (fixed s.firstfreet line)) := by
  unfold outerStep
  dsimp only
  rw [hissue, hprocessor]
  exact fixLine_eq (s.store line rest) line

/-- The outer loop fixes the lines one after the other. -/
theorem reaches_outer_lines (hpc : s.pc = .outer) (hrest : s.rest = lines ++ rest)
    (hplain : ∀ line ∈ lines, cmpStr line issue1 = false ∧ cmpStr line PROCESSOR = false) :
    ∃ buffer, Reaches (step u) s
      (append { s with rest, buffer } (printedFile u (lines.map (fixed s.firstfreet)))) := by
  induction lines generalizing s with
  | nil =>
    rw [List.nil_append] at hrest
    subst hrest
    refine ⟨s.buffer, ?_⟩
    rw [List.map_nil, printedFile, List.map_nil, List.flatten_nil, append_nil]
    exact .refl s
  | cons line lines ih =>
    obtain ⟨hissue, hprocessor⟩ := hplain line List.mem_cons_self
    have hfirst : step u s = some ((s.store line (lines ++ rest)).append
        (printed u (fixed s.firstfreet line))) := by
      simp only [step, hpc, hrest, List.cons_append]
      rw [outerStep_of_plain hissue hprocessor]
    obtain ⟨buffer, hbuffer⟩ := ih
      (s := (s.store line (lines ++ rest)).append (printed u (fixed s.firstfreet line)))
      (by rw [append_pc]; exact hpc) (by rw [append_rest]; rfl)
      fun l hl => hplain l (List.mem_cons_of_mem line hl)
    refine ⟨buffer, .head hfirst ?_⟩
    rw [append_read, append_append, append_firstfreet] at hbuffer
    exact hbuffer

/-- The outer loop on a text without lines for the first two fixes. -/
theorem evaluates_outer_lines (hpc : s.pc = .outer)
    (hplain : ∀ line ∈ s.rest, cmpStr line issue1 = false ∧ cmpStr line PROCESSOR = false) :
    ∃ t, Evaluates (step u) s t ∧ t.firstfreet = s.firstfreet ∧
      t.output = s.output ++ printedFile u (s.rest.map (fixed s.firstfreet)) := by
  obtain ⟨buffer, hlines⟩ :=
    reaches_outer_lines (u := u) hpc (List.append_nil s.rest).symm hplain
  refine ⟨_, hlines.evaluates.mpr (.halt ?_), append_firstfreet .., output_append ..⟩
  simp only [step, append_pc, hpc, append_rest]

/-- The rest of the file has no line with the prefix that is tried. -/
theorem reaches_free (hpc : s.pc = .prefixes)
    (hfree : ∀ line ∈ s.rest, cmpStr line (freeTPrefix s.firstfreet) = false) :
    ∃ buffer, Reaches (step u) s { s with pc := .outer, rest := s.text, buffer } := by
  generalize hrest : s.rest = lines at hfree
  induction lines generalizing s with
  | nil => exact ⟨s.buffer, reaches_step (by simp only [step, hpc, hrest])⟩
  | cons line lines ih =>
    have hline := hfree line List.mem_cons_self
    have hfirst : step u s = some (s.store line lines) := by
      simp only [step, hpc, hrest, hline, Bool.false_eq_true, if_false]
    obtain ⟨buffer, hbuffer⟩ := ih (s := s.store line lines) hpc rfl
      fun l hl => hfree l (List.mem_cons_of_mem line hl)
    exact ⟨buffer, .head hfirst hbuffer⟩

theorem reaches_used (hpc : s.pc = .prefixes)
    (hused : ∃ line ∈ s.rest, cmpStr line (freeTPrefix s.firstfreet) = true) :
    ∃ buffer, Reaches (step u) s
      { s with rest := s.text, buffer, firstfreet := s.firstfreet + 1 } := by
  generalize hrest : s.rest = lines at hused
  induction lines generalizing s with
  | nil => simp at hused
  | cons line lines ih =>
    cases hline : cmpStr line (freeTPrefix s.firstfreet) with
    | true =>
      have hfirst : step u s =
          some { s.store line s.text with firstfreet := s.firstfreet + 1 } := by
        simp only [step, hpc, hrest, hline, if_true]
      exact ⟨_, reaches_step hfirst⟩
    | false =>
      have hfirst : step u s = some (s.store line lines) := by
        simp only [step, hpc, hrest, hline, Bool.false_eq_true, if_false]
      obtain ⟨buffer, hbuffer⟩ := ih (s := s.store line lines) hpc rfl (by
        obtain ⟨l, hl, hfound⟩ := hused
        rcases List.mem_cons.mp hl with rfl | hl
        · rw [hline] at hfound
          cases hfound
        · exact ⟨l, hl, hfound⟩)
      exact ⟨buffer, .head hfirst hbuffer⟩

/-- The first loop leaves the first free prefix behind. -/
theorem reaches_firstFree {lines : List Line} (memory : List Char) {n : ℕ}
    (h : FirstFree lines n) :
    ∃ buffer, Reaches (step u) (startOn lines memory)
      { startOn lines memory with pc := .outer, buffer, firstfreet := n } := by
  have htry : ∀ k ≤ n, ∃ buffer, Reaches (step u) (startOn lines memory)
      { startOn lines memory with buffer, firstfreet := k } := by
    intro k hk
    induction k with
    | zero => exact ⟨memory, .refl _⟩
    | succ k ih =>
      obtain ⟨buffer, hreaches⟩ := ih (by omega)
      obtain ⟨buffer', hnext⟩ := reaches_used (u := u)
        (s := { startOn lines memory with buffer, firstfreet := k }) rfl (h.used k hk)
      exact ⟨buffer', hreaches.trans hnext⟩
  obtain ⟨buffer, hreaches⟩ := htry n le_rfl
  obtain ⟨buffer', hnext⟩ := reaches_free (u := u)
    (s := { startOn lines memory with buffer, firstfreet := n }) rfl h.free
  exact ⟨buffer', hreaches.trans hnext⟩

end VariousPass
end Dsdt
