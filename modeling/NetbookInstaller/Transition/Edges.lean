import Mathlib.Data.List.Induction
import Mathlib.Data.Set.Basic

/-! Sources that raise and lower signals, a signal being shared by several sources. -/
namespace Transition

/-- A source is switched on or off. -/
structure Edge (κ : Type*) where
  source : κ
  rising : Bool
  deriving DecidableEq, Repr

variable {κ σ ι : Type*}

section Level
variable [DecidableEq κ]

/-- Whether the last edge of `k` was a rising one. -/
def level (k : κ) (es : List (Edge κ)) : Bool :=
  es.foldl (fun high e => if e.source = k then e.rising else high) false

@[simp] theorem level_nil (k : κ) : level k [] = false := rfl

@[simp] theorem level_append_singleton (k : κ) (es : List (Edge κ)) (e : Edge κ) :
    level k (es ++ [e]) = if e.source = k then e.rising else level k es := by
  simp [level]

theorem exists_rising_of_level {k : κ} {es : List (Edge κ)} (h : level k es = true) :
    (⟨k, true⟩ : Edge κ) ∈ es := by
  induction es using List.reverseRecOn with
  | nil => cases h
  | append_singleton es e ih =>
    rw [level_append_singleton] at h
    split at h
    next hsource =>
      obtain ⟨source, rising⟩ := e
      simp only at hsource h
      subst hsource h
      simp
    next => exact List.mem_append_left _ (ih h)

end Level

/-- A rising edge raises no more than the signals of its source, and a falling one
lowers all of them. -/
structure Drives (step : σ → Edge κ → σ) (on : σ → ι → Prop) (signals : κ → Set ι) : Prop where
  rise : ∀ s k i, on (step s ⟨k, true⟩) i → on s i ∨ i ∈ signals k
  fall : ∀ s k i, on (step s ⟨k, false⟩) i → on s i ∧ i ∉ signals k

variable [DecidableEq κ] {step : σ → Edge κ → σ} {on : σ → ι → Prop} {signals : κ → Set ι}
  {s : σ} {es : List (Edge κ)} {i : ι}

/-- A signal that is on is one of a source that is on. -/
theorem Drives.exists_level (h : Drives step on signals) (hs : ∀ i, ¬ on s i)
    (hi : on (es.foldl step s) i) : ∃ k, level k es = true ∧ i ∈ signals k := by
  induction es using List.reverseRecOn with
  | nil => exact absurd hi (hs i)
  | append_singleton es e ih =>
    rw [List.foldl_append, List.foldl_cons, List.foldl_nil] at hi
    obtain ⟨k, rising⟩ := e
    cases rising with
    | true =>
      rcases h.rise _ k i hi with hold | hnew
      · obtain ⟨j, hj, hmem⟩ := ih hold
        refine ⟨j, ?_, hmem⟩
        rw [level_append_singleton]
        split
        · rfl
        · exact hj
      · exact ⟨k, by simp, hnew⟩
    | false =>
      obtain ⟨hold, hnot⟩ := h.fall _ k i hi
      obtain ⟨j, hj, hmem⟩ := ih hold
      have hne : k ≠ j := by
        rintro rfl
        exact hnot hmem
      exact ⟨j, by rw [level_append_singleton, if_neg hne, hj], hmem⟩

/-- Once every source that was switched is off, all signals are. -/
theorem Drives.all_off (h : Drives step on signals) (hs : ∀ i, ¬ on s i)
    (hoff : ∀ e ∈ es, level e.source es = false) : ¬ on (es.foldl step s) i := by
  intro hi
  obtain ⟨k, hk, -⟩ := h.exists_level hs hi
  have hlow := hoff _ (exists_rising_of_level hk)
  rw [hk] at hlow
  cases hlow

end Transition
