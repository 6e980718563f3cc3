import Mathlib.Data.List.Basic
import Mathlib.Data.Option.Basic
import Mathlib.Algebra.Order.Ring.Int
import Mathlib.Tactic.Linarith

/-! Runs of a labelled system given by a partial step function, and the rule
that carries an invariant from one step to every run. -/
namespace Transition

variable {σ α : Type*} {step : σ → α → Option σ} {ok : σ → α → Prop} {inv : σ → Prop}

/-- The state after a list of actions; `none` as soon as one is not enabled. -/
def run (step : σ → α → Option σ) : σ → List α → Option σ
  | s, [] => some s
  | s, a :: as => (step s a).bind fun t => run step t as

/-- Every action of the run is taken in a state that satisfies `ok`. -/
def Guarded (step : σ → α → Option σ) (ok : σ → α → Prop) : σ → List α → Prop
  | _, [] => True
  | s, a :: as => ok s a ∧ ∀ t, step s a = some t → Guarded step ok t as

instance decidableGuarded [∀ s a, Decidable (ok s a)] :
    ∀ (as : List α) (s : σ), Decidable (Guarded step ok s as)
  | [], _ => .isTrue trivial
  | a :: as, s =>
    have : ∀ t, Decidable (Guarded step ok t as) := decidableGuarded as
    inferInstanceAs (Decidable (ok s a ∧ ∀ t ∈ step s a, Guarded step ok t as))

/-- Every state that the run passes through satisfies `P`. -/
def Throughout (step : σ → α → Option σ) (P : σ → Prop) : σ → List α → Prop
  | s, [] => P s
  | s, a :: as => P s ∧ ∀ t, step s a = some t → Throughout step P t as

/-- What the steps of a run weigh together. -/
def total (step : σ → α → Option σ) (weight : σ → α → ℕ) : σ → List α → ℕ
  | _, [] => 0
  | s, a :: as =>
    weight s a + match step s a with
      | none => 0
      | some t => total step weight t as

@[simp] theorem run_nil (s : σ) : run step s [] = some s := rfl

theorem run_cons {s t : σ} {a : α} {as : List α} :
    run step s (a :: as) = some t ↔ ∃ u, step s a = some u ∧ run step u as = some t := by
  simp only [run, Option.bind_eq_some_iff]

theorem run_append {s t : σ} {as bs : List α} :
    run step s (as ++ bs) = some t ↔ ∃ u, run step s as = some u ∧ run step u bs = some t := by
  induction as generalizing s with
  | nil => simp
  | cons a as ih =>
    simp only [List.cons_append, run_cons, ih]
    constructor
    · rintro ⟨v, hv, u, hu, ht⟩
      exact ⟨u, ⟨v, hv, hu⟩, ht⟩
    · rintro ⟨u, ⟨v, hv, hu⟩, ht⟩
      exact ⟨v, hv, u, hu, ht⟩

theorem Guarded.imp {ok' : σ → α → Prop} (h : ∀ s a, ok s a → ok' s a) :
    ∀ {as : List α} {s : σ}, Guarded step ok s as → Guarded step ok' s as := by
  intro as
  induction as with
  | nil => exact fun _ => trivial
  | cons a as ih =>
    intro s hg
    exact ⟨h s a hg.1, fun t ht => ih (hg.2 t ht)⟩

/-- What one guarded step preserves, every guarded run preserves. -/
theorem guarded_run_invariant
    (hstep : ∀ s a t, inv s → ok s a → step s a = some t → inv t) :
    ∀ {as : List α} {s t : σ}, inv s → Guarded step ok s as → run step s as = some t → inv t := by
  intro as
  induction as with
  | nil =>
    intro s t hs _ hr
    rw [run_nil, Option.some.injEq] at hr
    exact hr ▸ hs
  | cons a as ih =>
    intro s t hs hg hr
    obtain ⟨u, hu, hr⟩ := run_cons.mp hr
    exact ih (hstep s a u hs hg.1 hu) (hg.2 u hu) hr

/-- What one guarded step preserves holds in every state that a guarded run passes through. -/
theorem Guarded.throughout
    (hstep : ∀ s a t, inv s → ok s a → step s a = some t → inv t) :
    ∀ {as : List α} {s : σ}, inv s → Guarded step ok s as → Throughout step inv s as := by
  intro as
  induction as with
  | nil => exact fun hs _ => hs
  | cons a as ih =>
    intro s hs hg
    exact ⟨hs, fun t ht => ih (hstep s a t hs hg.1 ht) (hg.2 t ht)⟩

theorem Throughout.imp {P Q : σ → Prop} (h : ∀ s, P s → Q s) :
    ∀ {as : List α} {s : σ}, Throughout step P s as → Throughout step Q s as := by
  intro as
  induction as with
  | nil => exact fun hs => h _ hs
  | cons a as ih =>
    intro s hs
    exact ⟨h s hs.1, fun t ht => ih (hs.2 t ht)⟩

theorem Throughout.last {P : σ → Prop} {as : List α} {s t : σ} (h : Throughout step P s as)
    (hr : run step s as = some t) : P t := by
  induction as generalizing s with
  | nil =>
    rw [run_nil, Option.some.injEq] at hr
    exact hr ▸ h
  | cons a as ih =>
    obtain ⟨u, hu, hr⟩ := run_cons.mp hr
    exact ih (h.2 u hu) hr

/-- Two guards that agree as long as the first one holds. -/
theorem guarded_congr {ok' : σ → α → Prop} (hok : ∀ s a, inv s → (ok s a ↔ ok' s a))
    (hstep : ∀ s a t, inv s → ok s a → step s a = some t → inv t) {s : σ} (hs : inv s)
    (as : List α) : Guarded step ok s as ↔ Guarded step ok' s as := by
  induction as generalizing s with
  | nil => exact Iff.rfl
  | cons a as ih =>
    constructor
    · intro hg
      exact ⟨(hok s a hs).mp hg.1, fun t ht => (ih (hstep s a t hs hg.1 ht)).mp (hg.2 t ht)⟩
    · intro hg
      have ha := (hok s a hs).mpr hg.1
      exact ⟨ha, fun t ht => (ih (hstep s a t hs ha ht)).mpr (hg.2 t ht)⟩

/-- If the guard says exactly which actions of the kind `kind` keep `P`, then `P` holds
throughout the guarded runs of such actions and no others. -/
theorem throughout_iff_guarded_of_forall {P : σ → Prop} (inv : σ → Prop) (kind : α → Prop)
    (hok : ∀ s a, inv s → P s → kind a → (ok s a ↔ ∀ t, step s a = some t → P t))
    (hstep : ∀ s a t, inv s → step s a = some t → inv t) {s : σ} (hinv : inv s) (hs : P s)
    {as : List α} (has : ∀ a ∈ as, kind a) : Throughout step P s as ↔ Guarded step ok s as := by
  induction as generalizing s with
  | nil => exact iff_of_true hs trivial
  | cons a as ih =>
    have hkind := has a List.mem_cons_self
    have htail : ∀ b ∈ as, kind b := fun b hb => has b (List.mem_cons_of_mem a hb)
    constructor
    · rintro ⟨-, hnext⟩
      have hkeeps : ∀ t, step s a = some t → P t := by
        intro t ht
        cases as with
        | nil => exact hnext t ht
        | cons b as => exact (hnext t ht).1
      refine ⟨(hok s a hinv hs hkind).mpr hkeeps, fun t ht => ?_⟩
      exact (ih (hstep s a t hinv ht) (hkeeps t ht) htail).mp (hnext t ht)
    · rintro ⟨ha, hnext⟩
      refine ⟨hs, fun t ht => ?_⟩
      have hkeeps := (hok s a hinv hs hkind).mp ha t ht
      exact (ih (hstep s a t hinv ht) hkeeps htail).mpr (hnext t ht)

theorem throughout_iff_guarded {P : σ → Prop}
    (hok : ∀ s a, P s → (ok s a ↔ ∀ t, step s a = some t → P t)) {s : σ} (hs : P s)
    (as : List α) : Throughout step P s as ↔ Guarded step ok s as :=
  throughout_iff_guarded_of_forall (fun _ => True) (fun _ => True)
    (fun s a _ hP _ => hok s a hP) (fun _ _ _ _ _ => trivial) trivial hs fun _ _ => trivial

/-- The rule for runs without a guard. -/
theorem run_invariant (hstep : ∀ s a t, inv s → step s a = some t → inv t)
    {as : List α} {s t : σ} (hs : inv s) (hr : run step s as = some t) : inv t := by
  induction as generalizing s with
  | nil =>
    rw [run_nil, Option.some.injEq] at hr
    exact hr ▸ hs
  | cons a as ih =>
    obtain ⟨u, hu, hr⟩ := run_cons.mp hr
    exact ih (hstep s a u hs hu) hr

/-- If the specification matches every guarded step, it matches every guarded run. -/
theorem guarded_run_simulation {τ : Type*} {spec : τ → α → Option τ} {R : σ → τ → Prop}
    (hstep : ∀ s a t p, R s p → ok s a → step s a = some t → ∃ p', spec p a = some p' ∧ R t p') :
    ∀ {as : List α} {s t : σ} {p : τ}, R s p → Guarded step ok s as → run step s as = some t →
      ∃ p', run spec p as = some p' ∧ R t p' := by
  intro as
  induction as with
  | nil =>
    intro s t p hs _ hr
    rw [run_nil, Option.some.injEq] at hr
    exact ⟨p, rfl, hr ▸ hs⟩
  | cons a as ih =>
    intro s t p hs hg hr
    obtain ⟨u, hu, hr⟩ := run_cons.mp hr
    obtain ⟨v, hv, huv⟩ := hstep s a u p hs hg.1 hu
    obtain ⟨p', hp', ht⟩ := ih huv (hg.2 u hu) hr
    exact ⟨p', run_cons.mpr ⟨v, hv, hp'⟩, ht⟩

/-- Guarded steps keep a state sound, the others spoil it for good: a run ends unspoilt
exactly when it is guarded. -/
theorem run_not_iff_guarded {sound spoilt : σ → Prop}
    (hkeep : ∀ s a t, sound s → ok s a → step s a = some t → sound t)
    (hspoil : ∀ s a t, sound s → ¬ok s a → step s a = some t → spoilt t)
    (hstays : ∀ s a t, spoilt s → step s a = some t → spoilt t)
    (hsound : ∀ s, sound s → ¬spoilt s) :
    ∀ {as : List α} {s t : σ}, sound s → run step s as = some t →
      (¬spoilt t ↔ Guarded step ok s as) := by
  intro as
  induction as with
  | nil =>
    intro s t hs hr
    rw [run_nil, Option.some.injEq] at hr
    exact iff_of_true (hr ▸ hsound s hs) trivial
  | cons a as ih =>
    intro s t hs hr
    obtain ⟨u, hu, hr⟩ := run_cons.mp hr
    by_cases ha : ok s a
    · rw [ih (hkeep s a u hs ha hu) hr]
      constructor
      · intro hg
        refine ⟨ha, fun v hv => ?_⟩
        rw [hu, Option.some.injEq] at hv
        exact hv ▸ hg
      · exact fun hg => hg.2 u hu
    · have hspoilt := run_invariant hstays (hspoil s a u hs ha hu) hr
      exact iff_of_false (not_not_intro hspoilt) fun hg => ha hg.1

/-- If a step costs one unit of the potential, apart from what its weight adds to it, a
run is no longer than the potential that it uses up. -/
theorem run_potential {potential : σ → ℤ} {weight : σ → α → ℕ}
    (hstep : ∀ s a t, step s a = some t → potential t + 1 ≤ potential s + weight s a)
    {as : List α} {s t : σ} (hr : run step s as = some t) :
    potential t + as.length ≤ potential s + total step weight s as := by
  induction as generalizing s with
  | nil =>
    rw [run_nil, Option.some.injEq] at hr
    simp [hr, total]
  | cons a as ih =>
    obtain ⟨u, hu, hr⟩ := run_cons.mp hr
    have hfirst := hstep s a u hu
    have hrest := ih hr
    simp only [total, hu, List.length_cons]
    push_cast
    linarith

/-- If no step raises the measure by more than its weight, no run does by more than the
weights of its actions. -/
theorem run_measure_le {measure : σ → ℕ} {weight : α → ℕ}
    (hinv : ∀ s a t, inv s → step s a = some t → inv t)
    (hstep : ∀ s a t, inv s → step s a = some t → measure t ≤ measure s + weight a) :
    ∀ {as : List α} {s t : σ}, inv s → run step s as = some t →
      measure t ≤ measure s + (as.map weight).sum := by
  intro as
  induction as with
  | nil =>
    intro s t _ hr
    rw [run_nil, Option.some.injEq] at hr
    subst hr
    exact Nat.le_add_right _ _
  | cons a as ih =>
    intro s t hs hr
    obtain ⟨u, hu, hr⟩ := run_cons.mp hr
    have hfirst := hstep s a u hs hu
    have hrest := ih (hinv s a u hs hu) hr
    rw [List.map_cons, List.sum_cons]
    omega

/-- If no guarded step lowers the measure, a guarded run keeps it exactly when each of its
steps does. -/
theorem Guarded.run_measure_eq_iff {measure : σ → ℤ} {keeps : σ → α → Prop}
    (hinv : ∀ s a t, inv s → ok s a → step s a = some t → inv t)
    (hstep : ∀ s a t, inv s → ok s a → step s a = some t →
      measure s ≤ measure t ∧ (measure t = measure s ↔ keeps s a)) :
    ∀ {as : List α} {s t : σ}, inv s → Guarded step ok s as → run step s as = some t →
      measure s ≤ measure t ∧ (measure t = measure s ↔ Guarded step keeps s as) := by
  intro as
  induction as with
  | nil =>
    intro s t _ _ hr
    rw [run_nil, Option.some.injEq] at hr
    subst hr
    exact ⟨le_rfl, iff_of_true rfl trivial⟩
  | cons a as ih =>
    intro s t hs hg hr
    obtain ⟨u, hu, hr⟩ := run_cons.mp hr
    obtain ⟨hfirst, hkeeps⟩ := hstep s a u hs hg.1 hu
    obtain ⟨hrest, htail⟩ := ih (hinv s a u hs hg.1 hu) (hg.2 u hu) hr
    refine ⟨hfirst.trans hrest, ?_⟩
    constructor
    · intro h
      have hsu : measure u = measure s := le_antisymm (hrest.trans_eq h) hfirst
      refine ⟨hkeeps.mp hsu, fun v hv => ?_⟩
      rw [hu, Option.some.injEq] at hv
      exact hv ▸ htail.mp (h.trans hsu.symm)
    · rintro ⟨ha, has⟩
      exact (htail.mpr (has u hu)).trans (hkeeps.mpr ha)

/-- What a function drives stands still from some place on exactly when it has come to a
fixed point there. -/
theorem constant_from_iff {f : σ → σ} {x : ℕ → σ} (hx : ∀ k, x (k + 1) = f (x k)) (n : ℕ) :
    (∀ k, n ≤ k → x k = x n) ↔ f (x n) = x n := by
  constructor
  · intro h
    rw [← hx]
    exact h (n + 1) n.le_succ
  · intro h k hk
    induction k, hk using Nat.le_induction with
    | base => rfl
    | succ k _ ih => rw [hx, ih, h]

/-- What the steps of a run add up to. -/
def accumulated (step : σ → α → Option σ) (gain : σ → α → ℤ) : σ → List α → ℤ
  | _, [] => 0
  | s, a :: as =>
    gain s a + match step s a with
      | none => 0
      | some t => accumulated step gain t as

/-- If every guarded step changes the measure by its gain less its weight, a guarded run changes
it by what they add up to. -/
theorem Guarded.run_measure_add {measure : σ → ℤ} {gain : σ → α → ℤ} {weight : σ → α → ℕ} {k : ℤ}
    (hstep : ∀ s a t, ok s a → step s a = some t →
      measure t + k * weight s a = measure s + gain s a) :
    ∀ {as : List α} {s t : σ}, Guarded step ok s as → run step s as = some t →
      measure t + k * total step weight s as = measure s + accumulated step gain s as := by
  intro as
  induction as with
  | nil =>
    intro s t _ hr
    rw [run_nil, Option.some.injEq] at hr
    simp [hr, total, accumulated]
  | cons a as ih =>
    intro s t hg hr
    obtain ⟨u, hu, hr⟩ := run_cons.mp hr
    have hfirst := hstep s a u hg.1 hu
    have hrest := ih (hg.2 u hu) hr
    simp only [total, accumulated, hu]
    push_cast
    linarith

end Transition
