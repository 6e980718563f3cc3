import Mathlib.Logic.Relation
import Mathlib.Order.WellFounded
import Mathlib.Algebra.BigOperators.Group.List.Basic

/-! Loops as a partial step function on their state: what a loop evaluates to, and
a rule that decides whether it halts. -/
namespace Transition

variable {σ : Type*} {step : σ → Option σ} {s t u : σ}

/-- The loop started in `s` ends in `t`. -/
inductive Evaluates (step : σ → Option σ) : σ → σ → Prop
  | halt {s : σ} (h : step s = none) : Evaluates step s s
  | next {s t u : σ} (h : step s = some t) (ht : Evaluates step t u) : Evaluates step s u

def Halts (step : σ → Option σ) (s : σ) : Prop := ∃ t, Evaluates step s t

/-- The loop started in `s` passes through `t`. -/
def Reaches (step : σ → Option σ) : σ → σ → Prop :=
  Relation.ReflTransGen fun s t => step s = some t

/-- At most `n` steps. -/
def evaluate (step : σ → Option σ) : ℕ → σ → Option σ
  | 0, s => if (step s).isNone then some s else none
  | n + 1, s =>
    match step s with
    | none => some s
    | some t => evaluate step n t

/-- The state after `n` steps. -/
def steps (step : σ → Option σ) : ℕ → σ → Option σ
  | 0, s => some s
  | n + 1, s => (step s).bind (steps step n)

theorem evaluates_of_evaluate {n : ℕ} (h : evaluate step n s = some t) : Evaluates step s t := by
  induction n generalizing s with
  | zero =>
    simp only [evaluate, Option.isNone_iff_eq_none, Option.ite_none_right_eq_some,
      Option.some.injEq] at h
    obtain ⟨hs, rfl⟩ := h
    exact .halt hs
  | succ n ih =>
    unfold evaluate at h
    split at h
    next hs =>
      rw [Option.some.injEq] at h
      exact h ▸ .halt hs
    next v hs => exact .next hs (ih h)

theorem Reaches.refl (s : σ) : Reaches step s s := Relation.ReflTransGen.refl

theorem Reaches.trans (hst : Reaches step s t) (htu : Reaches step t u) : Reaches step s u :=
  Relation.ReflTransGen.trans hst htu

theorem Reaches.head (hst : step s = some t) (htu : Reaches step t u) : Reaches step s u :=
  Relation.ReflTransGen.head hst htu

theorem reaches_step (h : step s = some t) : Reaches step s t := Reaches.head h (Reaches.refl t)

theorem reaches_of_steps {n : ℕ} (h : steps step n s = some t) : Reaches step s t := by
  induction n generalizing s with
  | zero =>
    rw [steps, Option.some.injEq] at h
    exact h ▸ Reaches.refl s
  | succ n ih =>
    obtain ⟨u, hu, ht⟩ := Option.bind_eq_some_iff.mp h
    exact Reaches.head hu (ih ht)

theorem evaluates_step (h : step s = some t) : Evaluates step s u ↔ Evaluates step t u := by
  constructor
  · intro hs
    cases hs with
    | halt hs =>
      rw [h] at hs
      cases hs
    | next hs hu =>
      rw [h, Option.some.injEq] at hs
      exact hs ▸ hu
  · exact .next h

theorem Reaches.evaluates (h : Reaches step s t) : Evaluates step s u ↔ Evaluates step t u := by
  induction h with
  | refl => exact Iff.rfl
  | tail _ hstep ih => exact ih.trans (evaluates_step hstep)

theorem Reaches.halts (h : Reaches step s t) : Halts step s ↔ Halts step t :=
  exists_congr fun _ => h.evaluates

theorem Evaluates.halted (h : Evaluates step s t) : step t = none := by
  induction h with
  | halt hnone => exact hnone
  | next _ _ ih => exact ih

theorem Evaluates.unique (ht : Evaluates step s t) (hu : Evaluates step s u) : t = u := by
  induction ht with
  | halt hs =>
    cases hu with
    | halt _ => rfl
    | next hs' _ =>
      rw [hs] at hs'
      cases hs'
  | next hs _ ih => exact ih ((evaluates_step hs).mp hu)

/-- A loop with another one inside, which it goes on behind with `done`. -/
theorem evaluates_nested {τ : Type*} {inner : τ → Option τ} {wrap done : τ → σ}
    (hinner : ∀ p q, inner p = some q → step (wrap p) = some (wrap q))
    (hdone : ∀ p, inner p = none → step (wrap p) = some (done p)) {p : τ} :
    Evaluates step (wrap p) t ↔ ∃ q, Evaluates inner p q ∧ Evaluates step (done q) t := by
  constructor
  · intro h
    generalize hs : wrap p = s at h
    induction h generalizing p with
    | halt hnone =>
      subst hs
      cases hp : inner p with
      | none => simp [hdone p hp] at hnone
      | some q => simp [hinner p q hp] at hnone
    | next hstep ht ih =>
      subst hs
      cases hp : inner p with
      | none =>
        rw [hdone p hp, Option.some.injEq] at hstep
        exact ⟨p, .halt hp, hstep ▸ ht⟩
      | some q =>
        rw [hinner p q hp, Option.some.injEq] at hstep
        obtain ⟨r, hr, hdone'⟩ := ih hstep
        exact ⟨r, .next hp hr, hdone'⟩
  · rintro ⟨q, hq, ht⟩
    induction hq with
    | halt hnone => exact .next (hdone _ hnone) ht
    | next hstep _ ih => exact .next (hinner _ _ hstep) (ih ht)

/-- A loop whose steps are seen through `view` as the steps of another one. -/
theorem evaluates_view {τ : Type*} {concrete : τ → Option τ} {view : τ → σ}
    (hview : ∀ p, (concrete p).map view = step (view p)) {p : τ} :
    (∃ q, Evaluates concrete p q ∧ view q = t) ↔ Evaluates step (view p) t := by
  constructor
  · rintro ⟨q, hq, rfl⟩
    induction hq with
    | halt hnone => exact .halt (by rw [← hview, hnone, Option.map_none])
    | next hstep _ ih => exact .next (by rw [← hview, hstep, Option.map_some]) ih
  · intro h
    generalize hs : view p = s at h
    induction h generalizing p with
    | halt hnone =>
      subst hs
      rw [← hview, Option.map_eq_none_iff] at hnone
      exact ⟨p, .halt hnone, rfl⟩
    | next hstep _ ih =>
      subst hs
      rw [← hview] at hstep
      obtain ⟨q, hq, hqv⟩ := Option.map_eq_some_iff.mp hstep
      obtain ⟨r, hr, hrv⟩ := ih hqv
      exact ⟨r, .next hq hr, hrv⟩

/-- Two loops that make each step together end together. -/
theorem Evaluates.lockstep {τ : Type*} {other : τ → Option τ} {R : σ → τ → Prop}
    (hstep : ∀ s p, R s p → step s = none ∧ other p = none ∨
      ∃ t q, step s = some t ∧ other p = some q ∧ R t q)
    (h : Evaluates step s t) {p : τ} (hp : R s p) :
    ∃ q, Evaluates other p q ∧ R t q := by
  induction h generalizing p with
  | halt hnone =>
    rcases hstep _ _ hp with ⟨-, hother⟩ | ⟨u, q, hs, -, -⟩
    · exact ⟨p, .halt hother, hp⟩
    · rw [hnone] at hs
      cases hs
  | next hnext _ ih =>
    rcases hstep _ _ hp with ⟨hs, -⟩ | ⟨u, q, hs, hother, hq⟩
    · rw [hnext] at hs
      cases hs
    · rw [hnext, Option.some.injEq] at hs
      subst hs
      obtain ⟨r, hr, hR⟩ := ih hq
      exact ⟨r, .next hother hr, hR⟩

/-- A loop that stays in `Stuck` does not halt. -/
theorem not_halts_of_stuck {Stuck : σ → Prop}
    (hstuck : ∀ s, Stuck s → ∃ t, step s = some t ∧ Stuck t) (hs : Stuck s) : ¬ Halts step s := by
  rintro ⟨t, ht⟩
  induction ht with
  | halt h =>
    obtain ⟨u, hu, -⟩ := hstuck _ hs
    rw [h] at hu
    cases hu
  | next h _ ih =>
    obtain ⟨u, hu, hstuck'⟩ := hstuck _ hs
    rw [h, Option.some.injEq] at hu
    exact ih (hu ▸ hstuck')

/-- If every step outside `Stuck` decreases a well-founded relation or leads into
`Stuck`, a loop halts exactly when it does not get there. -/
theorem halts_iff_not_stuck {Stuck : σ → Prop} {r : σ → σ → Prop} (hr : WellFounded r)
    (hstuck : ∀ s, Stuck s → ∃ t, step s = some t ∧ Stuck t)
    (hprogress : ∀ s t, ¬ Stuck s → step s = some t → Stuck t ∨ r t s) :
    Halts step s ↔ ∀ t, Reaches step s t → ¬ Stuck t := by
  constructor
  · intro hs t ht hstuck'
    exact not_halts_of_stuck hstuck hstuck' (ht.halts.mp hs)
  · induction s using hr.induction with
    | _ s ih =>
      intro hfree
      cases hs : step s with
      | none => exact ⟨s, .halt hs⟩
      | some t =>
        have ht : ∀ u, Reaches step t u → ¬ Stuck u := fun u hu => hfree u (.head hs hu)
        rcases hprogress s t (hfree s (Reaches.refl s)) hs with hstuck' | hless
        · exact absurd hstuck' (ht t (Reaches.refl t))
        · exact (reaches_step hs).halts.mpr (ih t hless ht)

/-- The loop started in `s` ends in `t`; `visited` are the states that it makes a step from. -/
inductive Trace (step : σ → Option σ) : σ → List σ → σ → Prop
  | halt {s : σ} (h : step s = none) : Trace step s [] s
  | next {s t u : σ} {visited : List σ} (h : step s = some t) (ht : Trace step t visited u) :
      Trace step s (s :: visited) u

end Transition
