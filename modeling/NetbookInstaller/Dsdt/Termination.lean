import NetbookInstaller.Dsdt.ConfigModes
import NetbookInstaller.Dsdt.HPETModes
import NetbookInstaller.Dsdt.RTCModes
import NetbookInstaller.Dsdt.VariousModes

/-! Which texts the passes of the DSDT patcher come to an end on. -/
namespace Dsdt

open Transition

namespace VariousPass

variable {u : Unspecified} {s t : VariousPass}

/-- The names that the outer loop still comes to fit, if it is in it or going to be. -/
def NamesAhead (s : VariousPass) : Prop :=
  match s.pc with
  | .prefixes => namesFit s.text = true
  | .outer => namesFit s.rest = true
  | .replacing => True

theorem namesFit_cons {line : Line} {rest : List Line}
    (h : cmpStr line issue1 = true ∨ cmpStr line PROCESSOR = false) :
    namesFit (line :: rest) = true ↔
      (cmpStr line issue1 = true → FitsBuff line) ∧ namesFit rest = true := by
  cases rest with
  | nil => cases hissue : cmpStr line issue1 <;> simp [namesFit, hissue]
  | cons line' rest =>
    rw [namesFit]
    rcases h with h | h
    · simp [h]
    · cases cmpStr line issue1 <;> simp [h]

/-- What the outer loop has ahead behind a line whose name fits. -/
theorem namesAhead_outerStep (line : Line) (rest : List Line) (hpc : s.pc = .outer)
    (hfits : cmpStr line issue1 = true → FitsBuff line) :
    (s.outerStep u line rest).NamesAhead ↔ namesFit (line :: rest) = true := by
  have hkept : ∀ {v}, SameReader (s.store line rest) v →
      (cmpStr line issue1 = true ∨ cmpStr line PROCESSOR = false) →
      (v.NamesAhead ↔ namesFit (line :: rest) = true) := by
    intro v hv h
    have hvpc : v.pc = .outer := hv.pc.trans hpc
    have hvrest : v.rest = rest := hv.rest
    rw [namesFit_cons h, NamesAhead, hvpc, hvrest]
    exact (and_iff_right hfits).symm
  unfold outerStep
  dsimp only
  split
  next h => exact hkept (fprintf_sameReader _ _) (.inl h)
  next hissue =>
    split
    next hproc =>
      have hprinted := fprintf_sameReader (u := u) (s.store line rest) line
      cases rest with
      | nil =>
        have hread := hprinted.trans (fixLine_sameReader (u := u) _ line)
        have hvpc := hread.pc.trans hpc
        have hvrest : _ = ([] : List Line) := hread.rest
        simp only [NamesAhead, hvpc, hvrest, namesFit, hissue]
        simp
      | cons line' rest =>
        rw [namesFit, if_neg hissue, if_pos hproc]
        dsimp only
        split
        next halias => simp [NamesAhead, halias]
        next halias =>
          have hread := fixLine_sameReader (u := u)
            (((s.store line (line' :: rest)).fprintf u line).store line' rest) line'
          have hvpc := hread.pc.trans (hprinted.pc.trans hpc)
          have hvrest : _ = rest := hread.rest
          simp only [NamesAhead, hvpc, hvrest]
          simp [halias]
    next hproc => exact hkept (fixLine_sameReader _ _) (.inr (by simpa using hproc))

theorem overruns_outer_iff {line : Line} {rest : List Line} (hpc : s.pc = .outer)
    (hrest : s.rest = line :: rest) :
    s.Overruns ↔ ¬ (cmpStr line issue1 = true → FitsBuff line) := by
  simp only [Overruns, hpc, hrest]
  rw [Classical.not_imp]

/-- If the pass never writes past the end of `buff`, the names ahead of its outer loop fit. -/
theorem namesFit_of_reaches (hpc : s.pc = .outer)
    (hfree : ∀ t, Reaches (step u) s t → ¬ t.Overruns) : namesFit s.rest = true := by
  induction hn : s.rest.length using Nat.strong_induction_on generalizing s with
  | _ n ih =>
    cases hrest : s.rest with
    | nil => rfl
    | cons line rest =>
      have hfits := hfree s (.refl s)
      rw [overruns_outer_iff hpc hrest, not_not] at hfits
      have hstep : step u s = some (s.outerStep u line rest) := by simp only [step, hpc, hrest]
      have hread := outerStep_outerRead (u := u) line rest hpc
      have hfree' : ∀ t, Reaches (step u) (s.outerStep u line rest) t → ¬ t.Overruns :=
        fun t ht => hfree t (.head hstep ht)
      rw [← namesAhead_outerStep (u := u) line rest hpc hfits]
      rcases hread.pc with ⟨hnext, -⟩ | ⟨hnext, -⟩
      · have hless : (s.outerStep u line rest).rest.length < n := by
          rw [← hn, hrest]
          exact hread.rest
        simp only [NamesAhead, hnext]
        exact ih _ hless hnext hfree' rfl
      · simp only [NamesAhead, hnext]

/-- The alias fix writes within the line buffer, and the file that it opens again has no pair
and no name that does not fit. -/
structure ReplacesWell (s : VariousPass) : Prop where
  fits : ¬ s.Overruns
  reopened : s.rest = [] →
    meetsPair (buffers s.latest) = false ∧ namesFit (buffers s.latest) = true

/-- What holds between the steps of a run in which every alias is replaced well. -/
structure EndsWell (s : VariousPass) : Prop where
  names : s.NamesAhead
  pair : s.reopened = true → meetsPair (buffers s.latest) = false

theorem EndsWell.not_overruns (h : s.EndsWell) (hreplaces : s.pc = .replacing → s.ReplacesWell) :
    ¬ s.Overruns := by
  have hnames := h.names
  cases hpc : s.pc with
  | replacing => exact (hreplaces hpc).fits
  | prefixes => simp [Overruns, hpc]
  | outer =>
    cases hrest : s.rest with
    | nil => simp [Overruns, hpc, hrest]
    | cons line rest =>
      rw [overruns_outer_iff hpc hrest, not_not]
      simp only [NamesAhead, hpc, hrest] at hnames
      exact fun hissue => ((namesFit_cons (.inl hissue)).mp hnames).1 hissue

theorem EndsWell.step (h : s.EndsWell) (hreplaces : s.pc = .replacing → s.ReplacesWell)
    (ht : VariousPass.step u s = some t) : t.EndsWell := by
  have hnames := h.names
  have hfits := h.not_overruns hreplaces
  cases hpc : s.pc with
  | prefixes =>
    simp only [NamesAhead, hpc] at hnames
    cases hrest : s.rest with
    | nil =>
      simp only [VariousPass.step, hpc, hrest, Option.some.injEq] at ht
      subst ht
      exact ⟨hnames, h.pair⟩
    | cons line rest =>
      simp only [VariousPass.step, hpc, hrest] at ht
      split at ht <;> obtain rfl := Option.some.inj ht <;>
        exact ⟨by simp only [NamesAhead, store_pc, hpc]; exact hnames, h.pair⟩
  | outer =>
    cases hrest : s.rest with
    | nil => simp [VariousPass.step, hpc, hrest] at ht
    | cons line rest =>
      simp only [VariousPass.step, hpc, hrest, Option.some.injEq] at ht
      subst ht
      have hread := outerStep_outerRead (u := u) line rest hpc
      rw [overruns_outer_iff hpc hrest, not_not] at hfits
      simp only [NamesAhead, hpc, hrest] at hnames
      refine ⟨(namesAhead_outerStep line rest hpc hfits).mpr hnames, fun hreopened => ?_⟩
      rw [hread.reopened] at hreopened
      rw [hread.latest hreopened]
      exact h.pair hreopened
  | replacing =>
    cases hrest : s.rest with
    | nil =>
      simp only [VariousPass.step, hpc, hrest, Option.some.injEq] at ht
      subst ht
      obtain ⟨hpair, hfit⟩ := (hreplaces hpc).reopened hrest
      obtain ⟨hpc', -, -, hrest', hlatest⟩ := reopen_spec (u := u) s
      refine ⟨?_, fun _ => by rw [hlatest, hpair]⟩
      simp only [NamesAhead, hpc', hrest']
      exact hfit
    | cons line rest =>
      simp only [VariousPass.step, hpc, hrest, Option.some.injEq] at ht
      subst ht
      have hread := replacingStep_sameReader (u := u) s line rest
      have hpc' : (s.replacingStep u line rest).pc = .replacing := hread.pc.trans hpc
      refine ⟨by simp only [NamesAhead, hpc'], fun hreopened => ?_⟩
      have hreopened' : s.reopened = true := hread.reopened ▸ hreopened
      rw [hread.latest hreopened']
      exact h.pair hreopened'

variable {lines : List Line} {memory : List Char}

theorem EndsWell.reaches (hfit : namesFit lines = true)
    (hreplaces : ∀ s, Reaches (VariousPass.step u) (startOn lines memory) s →
      s.pc = .replacing → s.ReplacesWell)
    (hs : Reaches (VariousPass.step u) (startOn lines memory) s) : s.EndsWell := by
  induction hs with
  | refl => exact ⟨hfit, fun hreopened => nomatch hreopened⟩
  | tail hreach hstep ih => exact ih.step (hreplaces _ hreach) hstep

/-- The pass comes to an end without writing past the end of an array exactly if the names that
its outer loop comes to fit and all aliases are replaced well. -/
theorem ends_iff :
    (Halts (step u) (startOn lines memory) ∧
        ∀ s, Reaches (step u) (startOn lines memory) s → ¬ s.Overruns) ↔
      namesFit lines = true ∧
        ∀ s, Reaches (step u) (startOn lines memory) s → s.pc = .replacing → s.ReplacesWell := by
  constructor
  · rintro ⟨hhalts, hfree⟩
    constructor
    · obtain ⟨n, hn⟩ := exists_firstFree lines
      obtain ⟨buffer, hreach⟩ := reaches_firstFree (u := u) memory hn
      exact namesFit_of_reaches (u := u) (s := { startOn lines memory with
        pc := .outer, buffer, firstfreet := n }) rfl fun t ht => hfree t (hreach.trans ht)
    · intro s hs hpc
      refine ⟨hfree s hs, fun hrest => ?_⟩
      have hstep : step u s = some (s.reopen u) := by simp only [step, hpc, hrest]
      have hnext : Reaches (step u) (startOn lines memory) (s.reopen u) :=
        hs.trans (reaches_step hstep)
      obtain ⟨hpc', -, hreopened, hrest', hlatest⟩ := reopen_spec (u := u) s
      constructor
      · by_contra hpair
        rw [Bool.not_eq_false] at hpair
        refine halts_iff.mp hhalts _ hnext ⟨hreopened, ?_, .inr ⟨hpc', ?_⟩⟩
        · rw [hlatest, hpair]
        · rw [hrest', hpair]
      · rw [← hrest']
        exact namesFit_of_reaches hpc' fun t ht => hfree t (hnext.trans ht)
  · rintro ⟨hfit, hreplaces⟩
    refine ⟨halts_iff.mpr fun s hs hstuck => ?_, fun s hs => ?_⟩
    · have hpair := (EndsWell.reaches hfit hreplaces hs).pair hstuck.1
      rw [hstuck.2.1] at hpair
      cases hpair
    · exact (EndsWell.reaches hfit hreplaces hs).not_overruns (hreplaces s hs)

/-- On a text without a pair there is no alias to replace. -/
theorem not_replacing_of_reaches (hmeets : meetsPair lines = false)
    (hs : Reaches (step u) (startOn lines memory) s) : s.pc ≠ .replacing := by
  suffices hinv : (s.pc = .prefixes ∧ s.text = lines ∨
      s.pc = .outer ∧ meetsPair s.rest = false) by
    rcases hinv with ⟨hpc, -⟩ | ⟨hpc, -⟩ <;> simp [hpc]
  induction hs with
  | refl => exact .inl ⟨rfl, rfl⟩
  | @tail s t _ hstep ih =>
    rcases ih with ⟨hpc, htext⟩ | ⟨hpc, hrest⟩
    · cases hlines : s.rest with
      | nil =>
        simp only [step, hpc, hlines, Option.some.injEq] at hstep
        subst hstep
        exact .inr ⟨rfl, by rw [htext, hmeets]⟩
      | cons line rest =>
        simp only [step, hpc, hlines] at hstep
        split at hstep <;> obtain rfl := Option.some.inj hstep <;> exact .inl ⟨hpc, htext⟩
    · cases hlines : s.rest with
      | nil => simp [step, hpc, hlines] at hstep
      | cons line rest =>
        simp only [step, hpc, hlines, Option.some.injEq] at hstep
        subst hstep
        rw [hlines] at hrest
        rcases (outerStep_outerRead (u := u) line rest hpc).pc with ⟨hpc', hmeets'⟩ | ⟨-, hpair⟩
        · exact .inr ⟨hpc', hmeets'.trans hrest⟩
        · rw [hrest] at hpair
          cases hpair

/-- On a text without a pair only the names can keep the pass from its end. -/
theorem ends_iff_namesFit (hmeets : meetsPair lines = false) :
    (Halts (step u) (startOn lines memory) ∧
        ∀ s, Reaches (step u) (startOn lines memory) s → ¬ s.Overruns) ↔
      namesFit lines = true := by
  rw [ends_iff, and_iff_left_iff_imp]
  exact fun _ s hs hpc => absurd hpc (not_replacing_of_reaches hmeets hs)

theorem reaches_replacing (hpc : s.pc = .outer) (hmeets : meetsPair s.rest = true) :
    ∃ t, Reaches (step u) s t ∧ t.pc = .replacing := by
  induction hn : s.rest.length using Nat.strong_induction_on generalizing s with
  | _ n ih =>
    cases hrest : s.rest with
    | nil => simp [hrest, meetsPair] at hmeets
    | cons line rest =>
      have hstep : step u s = some (s.outerStep u line rest) := by simp only [step, hpc, hrest]
      have hread := outerStep_outerRead (u := u) line rest hpc
      rcases hread.pc with ⟨hpc', hmeets'⟩ | ⟨hpc', -⟩
      · have hless : (s.outerStep u line rest).rest.length < n := by
          rw [← hn, hrest]
          exact hread.rest
        rw [← hrest, hmeets] at hmeets'
        obtain ⟨t, ht, htpc⟩ := ih _ hless hpc' hmeets' rfl
        exact ⟨t, .head hstep ht, htpc⟩
      · exact ⟨_, reaches_step hstep, hpc'⟩

theorem reaches_endOfFile (hpc : s.pc = .replacing) :
    ∃ t, Reaches (step u) s t ∧ t.pc = .replacing ∧ t.rest = [] := by
  induction hrest : s.rest generalizing s with
  | nil => exact ⟨s, .refl s, hpc, hrest⟩
  | cons line rest ih =>
    have hstep : step u s = some (s.replacingStep u line rest) := by simp only [step, hpc, hrest]
    have hread := replacingStep_sameReader (u := u) s line rest
    obtain ⟨t, ht, hend⟩ := ih (hread.pc.trans hpc) hread.rest
    exact ⟨t, .head hstep ht, hend⟩

/-- On a text with a pair the pass comes to opening again what it has written. -/
theorem reaches_reopen (hmeets : meetsPair lines = true) :
    ∃ t, Reaches (step u) (startOn lines memory) t ∧ t.pc = .replacing ∧ t.rest = [] := by
  obtain ⟨n, hn⟩ := exists_firstFree lines
  obtain ⟨buffer, houter⟩ := reaches_firstFree (u := u) memory hn
  obtain ⟨s, hs, hpc⟩ := reaches_replacing (u := u)
    (s := { startOn lines memory with pc := .outer, buffer, firstfreet := n }) rfl hmeets
  obtain ⟨t, ht, hend⟩ := reaches_endOfFile (u := u) hpc
  exact ⟨t, houter.trans (hs.trans ht), hend⟩

end VariousPass

def loneProcessor : List Char := "Processor (CPU0)\n".toList

def cutOffBattery : List Char := "Device (BAT1)\n\x7b\nName (X)\n".toList
def cutOffRTC : List Char := "Device (RTC)\n\x7b\nName (X)\n".toList
def cutOffHPET : List Char := "Device (HPET)\n\x7b\nName (X)\n".toList

def twoAliases : List Char := String.toList <|
  "Processor (CPU0)\n" ++
  "Alias (CPU0, P000)\n" ++
  "Name (X)\n" ++
  "Processor (CPU1)\n" ++
  "Alias (CPU1, P001)\n"

end Dsdt
