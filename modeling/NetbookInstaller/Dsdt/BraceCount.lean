import NetbookInstaller.Dsdt.Text
import NetbookInstaller.Transition.Transducer
import Mathlib.Data.BitVec

/-! The count of braces that the passes of the DSDT patcher end a device or a block by, and
loops that count the last line of a file again and again. -/
namespace Dsdt

open Transition

/-- `int openBrackets`, which wraps around. -/
def Count := BitVec 32
  deriving DecidableEq, Repr, CommRing

def Count.toNat (openBrackets : Count) : ℕ := BitVec.toNat openBrackets

/-- What a brace test of the patcher adds to `openBrackets`: a line counts at most
one brace of each kind. -/
def bracketDelta (buffer : Line) : Count :=
  (if cmpStr buffer ['{'] then 1 else 0) - (if cmpStr buffer ['}'] then 1 else 0)

/-- How often a line is counted again before it is counted the last time, which brings
the count to zero. -/
def spins (openBrackets delta : Count) : Option ℕ :=
  if delta = 1 then some (-openBrackets - 1).toNat
  else if delta = -1 then some (openBrackets - 1).toNat
  else if openBrackets = 0 then some 0
  else none

theorem bracketDelta_cases (line : Line) :
    bracketDelta line = 0 ∨ bracketDelta line = 1 ∨ bracketDelta line = -1 := by
  unfold bracketDelta
  split <;> split <;> simp

/-- Each count of a brace gets nearer to the one that brings the count to zero. -/
theorem toNat_neg_sub_one (openBrackets : Count) (h : openBrackets + 1 ≠ 0) :
    (-openBrackets - 1).toNat = (-(openBrackets + 1) - 1).toNat + 1 := by
  change BitVec 32 at openBrackets
  have hne : (openBrackets + 1#32 : BitVec 32) ≠ 0#32 := h
  change BitVec.toNat (-openBrackets - 1#32 : BitVec 32) =
    BitVec.toNat (-(openBrackets + 1#32) - 1#32 : BitVec 32) + 1
  bv_omega

theorem toNat_sub_one (openBrackets : Count) (h : openBrackets + -1 ≠ 0) :
    (openBrackets - 1).toNat = (openBrackets + -1 - 1).toNat + 1 := by
  have hclosing := toNat_neg_sub_one (-openBrackets) (by
    rw [← neg_ne_zero, neg_add, neg_neg]
    exact h)
  rwa [neg_neg, neg_add, neg_neg] at hclosing

theorem spins_of_closes {openBrackets delta : Count}
    (hdelta : delta = 0 ∨ delta = 1 ∨ delta = -1) (h : openBrackets + delta = 0) :
    spins openBrackets delta = some 0 := by
  unfold spins
  rcases hdelta with rfl | rfl | rfl
  · rw [add_zero] at h
    rw [if_neg (by decide), if_neg (by decide), if_pos h]
  · rw [if_pos rfl, eq_neg_of_add_eq_zero_left h]
    rfl
  · rw [if_neg (by decide), if_pos rfl, eq_neg_of_add_eq_zero_left h]
    rfl

theorem spins_of_counts {openBrackets delta : Count}
    (hdelta : delta = 0 ∨ delta = 1 ∨ delta = -1) (h : openBrackets + delta ≠ 0) :
    spins openBrackets delta = (spins (openBrackets + delta) delta).map (· + 1) := by
  have hone : (0 : Count) ≠ 1 := by decide
  have hminus : (0 : Count) ≠ -1 := by decide
  have hsign : (-1 : Count) ≠ 1 := by decide
  unfold spins
  rcases hdelta with rfl | rfl | rfl
  · rw [add_zero] at h ⊢
    rw [if_neg hone, if_neg hminus, if_neg h, Option.map_none]
  · rw [if_pos rfl, if_pos rfl, toNat_neg_sub_one _ h, Option.map_some]
  · rw [if_neg hsign, if_pos rfl, if_neg hsign, if_pos rfl, toNat_sub_one _ h, Option.map_some]

/-- A line whose braces are counted again and again leaves the count alone if it never brings
it to zero. -/
theorem spins_eq_none {openBrackets delta : Count}
    (hdelta : delta = 0 ∨ delta = 1 ∨ delta = -1) (h : spins openBrackets delta = none) :
    delta = 0 ∧ openBrackets ≠ 0 := by
  unfold spins at h
  rcases hdelta with rfl | rfl | rfl
  · rw [if_neg (by decide), if_neg (by decide)] at h
    exact ⟨rfl, fun hzero => by simp [hzero] at h⟩
  · simp at h
  · rw [if_neg (by decide), if_pos rfl] at h
    cases h

theorem add_nsmul_of_spins {openBrackets delta : Count} {n : ℕ}
    (hdelta : delta = 0 ∨ delta = 1 ∨ delta = -1) (h : spins openBrackets delta = some n) :
    openBrackets + (n + 1) • delta = 0 := by
  induction n generalizing openBrackets with
  | zero =>
    by_contra hne
    rw [zero_add, one_nsmul] at hne
    rw [spins_of_counts hdelta hne] at h
    simp at h
  | succ n ih =>
    have hne : openBrackets + delta ≠ 0 := by
      intro hzero
      rw [spins_of_closes hdelta hzero] at h
      simp at h
    rw [spins_of_counts hdelta hne] at h
    rw [succ_nsmul', ← add_assoc]
    exact ih (by simpa using h)

theorem spins_isSome_iff {openBrackets delta : Count}
    (hdelta : delta = 0 ∨ delta = 1 ∨ delta = -1) :
    (spins openBrackets delta).isSome ↔ ∃ m : ℕ, openBrackets + (m + 1) • delta = 0 := by
  constructor
  · intro h
    obtain ⟨n, hn⟩ := Option.isSome_iff_exists.mp h
    exact ⟨n, add_nsmul_of_spins hdelta hn⟩
  · rintro ⟨m, hm⟩
    by_contra hnone
    obtain ⟨rfl, hne⟩ := spins_eq_none hdelta (by simpa using hnone)
    rw [nsmul_zero, add_zero] at hm
    exact hne hm

/-- A line that is counted again and again brings the count to zero, after it has wrapped around
if need be, unless it has as many opening as closing braces. -/
theorem spins_isSome {openBrackets delta : Count} (hdelta : delta = 0 ∨ delta = 1 ∨ delta = -1) :
    (spins openBrackets delta).isSome ↔ delta = 0 → openBrackets = 0 := by
  have hone : (0 : Count) ≠ 1 := by decide
  have hminus : (0 : Count) ≠ -1 := by decide
  constructor
  · rintro h rfl
    by_contra hne
    rw [spins, if_neg hone, if_neg hminus, if_neg hne] at h
    cases h
  · intro h
    by_contra hnone
    obtain ⟨hzero, hne⟩ := spins_eq_none hdelta (by simpa using hnone)
    exact hne (h hzero)

/-- A loop at the end of the file that writes `w` each time it counts the stale line, and `v`
when the count comes to zero. -/
theorem computes_spins {σ : Type*} (step : σ → Option σ) (out : σ → List Line)
    (state : Count → List Line → σ) (w v : List Line) {delta : Count}
    (hdelta : delta = 0 ∨ delta = 1 ∨ delta = -1)
    (hout : ∀ openBrackets output, out (state openBrackets output) = output)
    (hcount : ∀ openBrackets output, openBrackets + delta ≠ 0 →
      step (state openBrackets output) = some (state (openBrackets + delta) (output ++ w)))
    (hclose : ∀ openBrackets output, openBrackets + delta = 0 →
      Computes step out (state openBrackets output) (some v))
    (openBrackets : Count) (output : List Line) :
    Computes step out (state openBrackets output)
      ((spins openBrackets delta).map fun n => (List.replicate n w).flatten ++ v) := by
  cases hn : spins openBrackets delta with
  | none =>
    obtain ⟨rfl, hne⟩ := spins_eq_none hdelta hn
    refine @not_halts_of_stuck σ step _ (fun s => ∃ output, s = state openBrackets output) ?_
      ⟨output, rfl⟩
    rintro s ⟨output, rfl⟩
    have hnext := hcount openBrackets output (by rwa [add_zero])
    rw [add_zero] at hnext
    exact ⟨_, hnext, _, rfl⟩
  | some n =>
    induction n generalizing openBrackets output with
    | zero =>
      refine hclose openBrackets output ?_
      by_contra hne
      rw [spins_of_counts hdelta hne] at hn
      simp at hn
    | succ n ih =>
      have hne : openBrackets + delta ≠ 0 := by
        intro hzero
        rw [spins_of_closes hdelta hzero] at hn
        simp at hn
      rw [spins_of_counts hdelta hne] at hn
      have hrest := ih (openBrackets + delta) (output ++ w) (by simpa using hn)
      have hstep := (reaches_step (hcount openBrackets output hne)).computes
        (by rw [hout, hout]) hrest
      simpa [List.replicate_succ] using hstep

end Dsdt
