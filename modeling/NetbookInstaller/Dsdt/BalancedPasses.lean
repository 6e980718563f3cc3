import NetbookInstaller.Dsdt.Balance
import NetbookInstaller.Dsdt.Termination
import Mathlib.Algebra.Ring.Prod
import Mathlib.Tactic.LinearCombination

/-! When the passes of the DSDT patcher keep a text balanced: exactly if they come to an end, no
line that they write has a conversion, and what they leave out is as deep as what they add. -/
namespace Dsdt

open Transition

/-- `fprintf` writes as many lines with a conversion as there are braces more if a conversion
writes one. -/
theorem depth_printedFile_brace (output : List Line) :
    depth (printedFile ⟨fun _ => ['{'], none, none⟩ output) =
      depth (printedFile ⟨fun _ => [], none, none⟩ output) +
        (output.countP fun line => formatted line = none) • (1, 0) := by
  induction output with
  | nil => rfl
  | cons line output ih =>
    have hcons : ∀ u, printedFile u (line :: output) = printed u line ++ printedFile u output :=
      fun _ => rfl
    rw [hcons, hcons, depth_append, depth_append, ih, List.countP_cons]
    cases hline : formatted line with
    | some text => simp [printed, hline, add_assoc]
    | none =>
      have hbrace : depth ['{'] = (1, 0) := by decide
      simp only [printed, hline, Option.getD_none, hbrace, depth_nil, decide_true, if_true,
        add_nsmul, one_nsmul, zero_add]
      abel

theorem depth_printedFile {output : List Line} (u : Unspecified)
    (hconversion : ∀ line ∈ output, formatted line ≠ none) :
    depth (printedFile u output) = linesDepth output := by
  rw [printedFile, depth_flatten, linesDepth, linesDepth, List.map_map]
  refine congrArg List.sum (List.map_congr_left fun line hl => ?_)
  obtain ⟨text, htext⟩ := Option.ne_none_iff_exists'.mp (hconversion line hl)
  simp only [Function.comp_apply, printed, htext, Option.getD_some]
  exact depth_formatted htext

/-- A file is balanced whatever its conversions write exactly if it has none and its lines are. -/
theorem balanced_printedFile_iff {output : List Line} :
    (∀ u, Balanced (printedFile u output)) ↔
      (∀ line ∈ output, formatted line ≠ none) ∧ linesDepth output = 0 := by
  constructor
  · intro h
    have hconversion : ∀ line ∈ output, formatted line ≠ none := by
      have hcount := depth_printedFile_brace output
      rw [show depth _ = 0 from h ⟨fun _ => ['{'], none, none⟩,
        show depth _ = 0 from h ⟨fun _ => [], none, none⟩, zero_add] at hcount
      have hzero : output.countP (fun line => formatted line = none) = 0 := by
        have hfst := congrArg Prod.fst hcount
        simpa using hfst.symm
      simpa [List.countP_eq_zero] using hzero
    refine ⟨hconversion, ?_⟩
    rw [← depth_printedFile ⟨id, none, none⟩ hconversion]
    exact h _
  · rintro ⟨hconversion, hdepth⟩ u
    rw [Balanced, depth_printedFile u hconversion, hdepth]

/-- A pass in these modes comes to an end on the file, where it writes `last`, no line that it
writes has a conversion, and the lines that it leaves out, with what null characters hide, have
the same balance as the lines that it adds. -/
def Compensates {μ : Type*} (p : Transducer μ Line) (m : μ) (file : List Char) : Prop :=
  ∃ last, p.ending m [] (strings file) = some last ∧
    (∀ line ∈ p.written m (strings file) ++ last, formatted line ≠ none) ∧
    linesDepth (p.leftOut m (strings file) ++ hidden file) =
      linesDepth (p.added m (strings file) ++ last)

section Compensates
variable {μ : Type*} {p : Transducer μ Line} {m : μ} {file : List Char}

/-- What is written is as deep as what is read, but for what is left out and added. -/
theorem linesDepth_written_iff (hcopy : ∀ m x y, p.copy m x = some y → depth y = depth x)
    (hfile : Balanced file) (last : List Line) :
    linesDepth (p.written m (strings file) ++ last) = 0 ↔
      linesDepth (p.leftOut m (strings file) ++ hidden file) =
        linesDepth (p.added m (strings file) ++ last) := by
  have hwritten :
      linesDepth (p.written m (strings file)) + linesDepth (p.leftOut m (strings file)) =
        linesDepth (strings file) + linesDepth (p.added m (strings file)) :=
    p.sum_written depth hcopy m (strings file)
  have hread := (linesDepth_strings file).trans hfile
  simp only [linesDepth_append]
  constructor
  · intro hzero
    linear_combination hwritten + hread - hzero
  · intro heq
    linear_combination hwritten + hread - heq

theorem compensates_iff (hcopy : ∀ m x y, p.copy m x = some y → depth y = depth x)
    (hfile : Balanced file) :
    (∀ u, ∃ w, p.output m [] (strings file) = some w ∧ Balanced (printedFile u w)) ↔
      Compensates p m file := by
  constructor
  · intro h
    obtain ⟨w, hw, -⟩ := h ⟨id, none, none⟩
    have hbalanced : ∀ u, Balanced (printedFile u w) := by
      intro u
      obtain ⟨v, hv, hu⟩ := h u
      rw [hw, Option.some.injEq] at hv
      exact hv ▸ hu
    obtain ⟨last, hlast, rfl⟩ := Option.map_eq_some_iff.mp hw
    obtain ⟨hconversion, hdepth⟩ := balanced_printedFile_iff.mp hbalanced
    exact ⟨last, hlast, hconversion, (linesDepth_written_iff hcopy hfile last).mp hdepth⟩
  · rintro ⟨last, hlast, hconversion, heq⟩ u
    exact ⟨_, Option.map_eq_some_iff.mpr ⟨last, hlast, rfl⟩, balanced_printedFile_iff.mpr
      ⟨hconversion, (linesDepth_written_iff hcopy hfile last).mpr heq⟩ u⟩

/-- A pass that writes what the transducer says keeps a file balanced exactly if what it leaves
out and adds compensates. -/
theorem keepsBalance_iff {σ : Type*} {step : σ → Option σ} {out : σ → List Line} {s : σ}
    (hcomputes : Computes step out s (p.output m [] (strings file))) (hout : out s = [])
    (hcopy : ∀ m x y, p.copy m x = some y → depth y = depth x) (hfile : Balanced file) :
    (∀ u, ∃ t, Evaluates step s t ∧ Balanced (printedFile u (out t))) ↔ Compensates p m file := by
  rw [← compensates_iff hcopy hfile]
  refine forall_congr' fun u => ?_
  rw [hcomputes.exists_iff (P := fun v => Balanced (printedFile u v)), hout]
  rfl

end Compensates

theorem ConfigPass.depth_copy (searchString : Line) (patch : List Line) (m : Mode)
    (line copy : Line) (h : (modes searchString patch).copy m line = some copy) :
    depth copy = depth line := by
  cases m with
  | search =>
    by_cases hfound : cmpStr line searchString = true <;> simp [modes, hfound] at h
    rw [h]
  | block => simp [modes] at h
  | closed => simp_all [modes]
  | copying => simp_all [modes]

theorem patchRTC.depth_copy (m : Mode) (line copy : Line) (h : modes.copy m line = some copy) :
    depth copy = depth line := by
  cases m <;> simp_all [modes]

theorem patchHPET.depth_copy (m : Mode) (line copy : Line) (h : modes.copy m line = some copy) :
    depth copy = depth line := by
  cases m <;> simp_all [modes]

theorem weight_isDigit {c : Char} (h : c.isDigit = true) : weight c = 0 := by
  have hne : ∀ d : Char, d.isDigit = false → c ≠ d := by
    rintro d hd rfl
    rw [h] at hd
    cases hd
  rw [weight, if_neg (hne '{' rfl), if_neg (hne '}' rfl), if_neg (hne '(' rfl),
    if_neg (hne ')' rfl)]

theorem depth_freeTPrefix (firstfreet : ℕ) : depth (freeTPrefix firstfreet) = 0 := by
  have hdigits : depth (Nat.toDigits 10 firstfreet) = 0 := by
    apply List.sum_eq_zero
    intro w hw
    obtain ⟨c, hc, rfl⟩ := List.mem_map.mp hw
    exact weight_isDigit (Nat.isDigit_of_mem_toDigits (by decide) (by decide) hc)
  rw [freeTPrefix, depth_cons, depth_append, hdigits]
  rfl

@[simp] theorem depth_dropAsterisk (line : Line) : depth (dropAsterisk line) = depth line := by
  unfold dropAsterisk
  by_cases h : '*' ∈ line
  · have hrest := List.sum_map_erase weight h
    have hasterisk : weight '*' = 0 := rfl
    rwa [hasterisk, zero_add] at hrest
  · rw [List.erase_of_not_mem h]

@[simp] theorem depth_replaceT (firstfreet : ℕ) (line : Line) :
    depth (replaceT (freeTPrefix firstfreet) line) = depth line := by
  induction line using replaceT.induct with
  | case1 => rfl
  | case2 cs ih =>
    have hissue : weight '_' + (weight 'T' + weight '_') = 0 := rfl
    rw [replaceT, depth_append, depth_freeTPrefix, ih]
    simp only [depth_cons, ← add_assoc] at hissue ⊢
    rw [hissue]
  | case3 c cs h ih =>
    rw [replaceT, depth_cons, depth_cons, ih]
    exact h

theorem VariousPass.depth_keptLine {firstfreet : ℕ} {line copy : Line}
    (h : keptLine firstfreet line = some copy) : depth copy = depth line := by
  unfold keptLine at h
  split at h
  next => cases h
  next =>
    split at h
    next =>
      obtain rfl := Option.some.inj h
      exact depth_replaceT firstfreet line
    next =>
      split at h
      next => cases h
      next =>
        obtain rfl := Option.some.inj h
        rfl

theorem VariousPass.depth_copy (firstfreet : ℕ) (m : Mode) (line copy : Line)
    (h : (modes firstfreet).copy m line = some copy) : depth copy = depth line := by
  cases m with
  | processor => exact depth_keptLine h
  | outer =>
    simp only [modes] at h
    split at h
    next =>
      obtain rfl := Option.some.inj h
      exact depth_dropAsterisk line
    next =>
      split at h
      next =>
        obtain rfl := Option.some.inj h
        rfl
      next => exact depth_keptLine h

/-- On a file without a pair `patchVarious` writes within its arrays and keeps the file balanced
exactly if the names fit and what it leaves out and adds compensates. -/
theorem VariousPass.keepsBalance_iff {file : List Char} (memory : List Char) {firstfreet : ℕ}
    (hfile : Balanced file) (hfree : FirstFree (strings file) firstfreet)
    (hmeets : meetsPair (strings file) = false) :
    (∀ u, (∀ s, Reaches (step u) (startOn (strings file) memory) s → ¬ s.Overruns) ∧
        ∃ t, Evaluates (step u) (startOn (strings file) memory) t ∧ Balanced t.output) ↔
      namesFit (strings file) = true ∧ Compensates (modes firstfreet) .outer file := by
  rw [← compensates_iff (depth_copy firstfreet) hfile]
  have hwrites : ∀ u, (∃ t, Evaluates (step u) (startOn (strings file) memory) t ∧
      Balanced t.output) ↔ ∃ w, (modes firstfreet).output .outer [] (strings file) = some w ∧
        Balanced (printedFile u w) := by
    intro u
    have hcomputes := computes_modes (u := u) memory hfree hmeets
    rw [hcomputes.exists_iff]
    simp only [Option.map_eq_some_iff]
    constructor
    · rintro ⟨_, ⟨w, hw, rfl⟩, hbalanced⟩
      exact ⟨w, hw, hbalanced⟩
    · rintro ⟨w, hw, hbalanced⟩
      exact ⟨_, ⟨w, hw, rfl⟩, hbalanced⟩
  constructor
  · intro h
    refine ⟨?_, fun u => (hwrites u).mp (h u).2⟩
    obtain ⟨hfits, t, ht, -⟩ := h ⟨id, none, none⟩
    exact (ends_iff_namesFit hmeets).mp ⟨⟨t, ht⟩, hfits⟩
  · rintro ⟨hfits, hwritten⟩ u
    exact ⟨((ends_iff_namesFit hmeets).mpr hfits).2, (hwrites u).mpr (hwritten u)⟩

namespace patchHPET

variable {m : Mode} {lines front rest : List Line} {line : Line} {opened : Count}

/-- The new device is written behind the line that closes the first RTC device. -/
theorem written_closing (hlines : lines = front ++ line :: rest)
    (hafter : modes.after m front = .addDevice false opened)
    (hzero : opened + bracketDelta line = 0) :
    modes.written m lines =
      modes.written m front ++ line :: fixedHPET :: modes.written .added rest := by
  rw [hlines, Transducer.written_append, hafter]
  simp [modes, hzero]

theorem added_closing (hlines : lines = front ++ line :: rest)
    (hafter : modes.after m front = .addDevice false opened)
    (hzero : opened + bracketDelta line = 0) :
    modes.added m lines = modes.added m front ++ fixedHPET :: modes.added .added rest := by
  rw [hlines, Transducer.added_append, hafter]
  simp [modes, hzero]

end patchHPET

def clockLines : List Line :=
  ["Device (RTC)\n".toList, "\x7b\n".toList, "Name (_CRS, ResourceTemplate ()\n".toList,
    "\x7b\n".toList, "IRQNoFlags ()\n".toList, "\x7b8\x7d\n".toList, "\x7d)\n".toList,
    "\x7d\n".toList, "Store (Local0, Local0)\n".toList]

def clockEntry : List Char := clockLines.flatten

theorem strings_clockEntry : strings clockEntry = clockLines := by decide +kernel

/-- A patch for the template of the clock. -/
def clockBuffer : List Char := "Name (_CRS, Buffer ()\n\x7b\x7d)\n".toList

/-- The new device is balanced, and nothing is left out for it. -/
theorem clockEntry_compensates :
    Compensates patchHPET.modes (patchHPET.startMode false (strings clockEntry)) clockEntry := by
  have hmode : patchHPET.startMode false clockLines = .addOuter false := by decide +kernel
  have hsplit : clockLines = clockLines.take 7 ++ ['}', '\n'] :: clockLines.drop 8 := by
    decide +kernel
  have hafter : patchHPET.modes.after (.addOuter false) (clockLines.take 7) =
      .addDevice false 1 := by decide +kernel
  have hzero : (1 : Count) + bracketDelta ['}', '\n'] = 0 := by decide
  rw [Compensates, strings_clockEntry, hmode]
  refine ⟨[], by decide +kernel, ?_, ?_⟩
  · have hfixed : formatted fixedHPET ≠ none := by
      rw [formatted_eq_self_iff.mpr neutral_fixedHPET.2]
      exact Option.some_ne_none _
    rw [patchHPET.written_closing hsplit hafter hzero, List.append_nil, List.forall_mem_append,
      List.forall_mem_cons, List.forall_mem_cons]
    exact ⟨by decide +kernel, by decide, hfixed, by decide +kernel⟩
  · rw [patchHPET.added_closing hsplit hafter hzero, List.append_nil]
    simp only [linesDepth_append, linesDepth_cons, neutral_fixedHPET.1]
    decide +kernel

def twoClockLines : List Line :=
  ["Device (RTC)\n".toList, "\x7b\n".toList, "\x7d\n".toList, "Name (X)\n".toList,
    "Device (RTC1)\n".toList, "\x7b\n".toList, "\x7d\n".toList]

def twoClocks : List Char := twoClockLines.flatten

end Dsdt
