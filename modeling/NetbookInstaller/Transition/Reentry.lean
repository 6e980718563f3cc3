import NetbookInstaller.Transition.Runs

/-! A handler that may start an activity of its own, and is called again while the
activity waits. -/
namespace Transition

/-- `handle` takes an input, and may start an activity at its first stage. A stage waits
for a reply; `resume` takes it, and goes on to the next stage or ends the activity. -/
structure Reentrant (σ β φ ρ : Type*) where
  handle : σ → β → σ × Option φ
  resume : σ → φ → ρ → σ × Option φ

namespace Reentrant

inductive Event (β ρ : Type*) where
  | input (b : β)
  | reply (r : ρ)
  deriving DecidableEq, Repr

/-- `running` are the activities that have not ended, the innermost one first. -/
structure State (σ φ : Type*) where
  core : σ
  running : List φ
  deriving DecidableEq, Repr

variable {σ β φ ρ : Type*} {M : Reentrant σ β φ ρ}

def step (M : Reentrant σ β φ ρ) (s : State σ φ) : Event β ρ → Option (State σ φ)
  | .input b => some ⟨(M.handle s.core b).1, (M.handle s.core b).2.toList ++ s.running⟩
  | .reply r =>
    match s.running with
    | [] => none
    | f :: fs => some ⟨(M.resume s.core f r).1, (M.resume s.core f r).2.toList ++ fs⟩

/-- The inputs among some events. -/
def inputs : List (Event β ρ) → List β
  | [] => []
  | .input b :: es => b :: inputs es
  | .reply _ :: es => inputs es

@[simp] theorem inputs_map_input (bs : List β) : inputs (ρ := ρ) (bs.map .input) = bs := by
  induction bs with
  | nil => rfl
  | cons b bs ih => rw [List.map_cons, inputs, ih]

theorem step_input_iff {s t : State σ φ} {b : β} :
    M.step s (.input b) = some t ↔
      t.core = (M.handle s.core b).1 ∧ t.running = (M.handle s.core b).2.toList ++ s.running := by
  rw [step, Option.some.injEq]
  constructor
  · rintro rfl
    exact ⟨rfl, rfl⟩
  · rintro ⟨hcore, hrunning⟩
    rw [← hcore, ← hrunning]

theorem step_reply_iff {s t : State σ φ} {r : ρ} :
    M.step s (.reply r) = some t ↔ ∃ f fs, s.running = f :: fs ∧
      t.core = (M.resume s.core f r).1 ∧ t.running = (M.resume s.core f r).2.toList ++ fs := by
  unfold step
  dsimp only
  split
  next hrunning => simp [hrunning]
  next f fs hrunning =>
    rw [hrunning, Option.some.injEq]
    constructor
    · rintro rfl
      exact ⟨f, fs, rfl, rfl, rfl⟩
    · rintro ⟨f', fs', hcons, hcore, hrest⟩
      obtain ⟨rfl, rfl⟩ := List.cons.inj hcons
      rw [← hcore, ← hrest]

/-- What the handler and the activities keep, every run keeps, however they nest. -/
theorem run_core (inv : σ → Prop) (hhandle : ∀ s b, inv s → inv (M.handle s b).1)
    (hresume : ∀ s f r, inv s → inv (M.resume s f r).1) {s t : State σ φ}
    {es : List (Event β ρ)} (hs : inv s.core) (ht : run M.step s es = some t) : inv t.core := by
  have hstep (u : State σ φ) (e : Event β ρ) (v : State σ φ) (hu : inv u.core)
      (hv : M.step u e = some v) : inv v.core := by
    cases e with
    | input b =>
      rw [(step_input_iff.mp hv).1]
      exact hhandle u.core b hu
    | reply r =>
      obtain ⟨f, fs, -, hcore, -⟩ := step_reply_iff.mp hv
      rw [hcore]
      exact hresume u.core f r hu
  exact run_invariant hstep hs ht

/-- The state after some inputs, whatever they start being left alone. -/
def feed (M : Reentrant σ β φ ρ) (s : σ) (bs : List β) : σ :=
  bs.foldl (fun u b => (M.handle u b).1) s

/-- No input of the list starts an activity. -/
def Quiet (M : Reentrant σ β φ ρ) : σ → List β → Prop
  | _, [] => True
  | s, b :: bs => (M.handle s b).2 = none ∧ Quiet M (M.handle s b).1 bs

@[simp] theorem feed_cons (s : σ) (b : β) (bs : List β) :
    M.feed s (b :: bs) = M.feed (M.handle s b).1 bs := rfl

theorem feed_append (s : σ) (as bs : List β) :
    M.feed s (as ++ bs) = M.feed (M.feed s as) bs := List.foldl_append

theorem quiet_append {s : σ} {as bs : List β} :
    M.Quiet s (as ++ bs) ↔ M.Quiet s as ∧ M.Quiet (M.feed s as) bs := by
  induction as generalizing s with
  | nil => exact (and_iff_right trivial).symm
  | cons a as ih =>
    rw [List.cons_append, Quiet, Quiet, ih, and_assoc]
    exact Iff.rfl

/-- As long as no activity is started, nothing is ever replied to. -/
theorem run_quiet {s t : State σ φ} {es : List (Event β ρ)} (hs : s.running = [])
    (hquiet : M.Quiet s.core (inputs es)) (ht : run M.step s es = some t) :
    t.core = M.feed s.core (inputs es) := by
  induction es generalizing s with
  | nil =>
    rw [run_nil, Option.some.injEq] at ht
    exact ht ▸ rfl
  | cons e es ih =>
    obtain ⟨u, hu, hrun⟩ := run_cons.mp ht
    cases e with
    | input b =>
      obtain ⟨hcore, hrunning⟩ := step_input_iff.mp hu
      rw [inputs] at hquiet
      rw [hquiet.1, hs] at hrunning
      rw [inputs, feed_cons, ← hcore]
      exact ih hrunning (hcore ▸ hquiet.2) hrun
    | reply r =>
      obtain ⟨f, fs, hcons, -⟩ := step_reply_iff.mp hu
      rw [hs] at hcons
      cases hcons

/-- The run in which nothing is replied to. -/
theorem run_map_input (M : Reentrant σ β φ ρ) (s : State σ φ) (bs : List β) :
    ∃ t, run M.step s (bs.map .input) = some t ∧ t.core = M.feed s.core bs := by
  induction bs generalizing s with
  | nil => exact ⟨s, rfl, rfl⟩
  | cons b bs ih =>
    obtain ⟨t, ht, hcore⟩ := ih ⟨(M.handle s.core b).1, (M.handle s.core b).2.toList ++ s.running⟩
    exact ⟨t, run_cons.mpr ⟨_, rfl, ht⟩, hcore⟩

end Reentrant
end Transition
