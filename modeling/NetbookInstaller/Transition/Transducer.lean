import NetbookInstaller.Transition.Loops

/-! Loops that read a list and write another one, and transducers that say what they write:
a mode is all that a transducer keeps of what it has read. -/
namespace Transition

variable {σ α β μ : Type*} {step : σ → Option σ} {out : σ → List β} {s t : σ}

/-- What a loop writes behind what has been written, or `none` if it does not end. -/
def Computes (step : σ → Option σ) (out : σ → List β) (s : σ) : Option (List β) → Prop
  | some w => ∃ t, Evaluates step s t ∧ out t = out s ++ w
  | none => ¬ Halts step s

theorem Evaluates.computes {w : Option (List β)} {v : List β} (h : Evaluates step s t)
    (hw : w = some v) (hout : out t = out s ++ v) : Computes step out s w := by
  subst hw
  exact ⟨t, h, hout⟩

theorem computes_halted (h : step s = none) : Computes step out s (some []) :=
  ⟨s, .halt h, (List.append_nil _).symm⟩

theorem Reaches.computes {w : Option (List β)} {v : List β} (hreach : Reaches step s t)
    (hout : out t = out s ++ v) (h : Computes step out t w) :
    Computes step out s (w.map (v ++ ·)) := by
  cases w with
  | none => exact fun hs => h (hreach.halts.mp hs)
  | some w =>
    obtain ⟨u, hu, hw⟩ := h
    exact ⟨u, hreach.evaluates.mpr hu, by rw [hw, hout, List.append_assoc]⟩

theorem Computes.halts_iff {w : Option (List β)} (h : Computes step out s w) :
    Halts step s ↔ w.isSome := by
  cases w with
  | none => exact iff_of_false h Bool.false_ne_true
  | some w =>
    obtain ⟨t, ht, -⟩ := h
    exact iff_of_true ⟨t, ht⟩ rfl

theorem Computes.exists_iff {w : Option (List β)} {P : List β → Prop}
    (h : Computes step out s w) :
    (∃ t, Evaluates step s t ∧ P (out t)) ↔ ∃ v, w = some v ∧ P (out s ++ v) := by
  cases w with
  | none => exact iff_of_false (fun ⟨t, ht, _⟩ => h ⟨t, ht⟩) (fun ⟨_, hv, _⟩ => nomatch hv)
  | some w =>
    obtain ⟨t, ht, hout⟩ := h
    constructor
    · rintro ⟨u, hu, hP⟩
      rw [← ht.unique hu, hout] at hP
      exact ⟨w, rfl, hP⟩
    · rintro ⟨v, hv, hP⟩
      obtain rfl := Option.some.inj hv
      exact ⟨t, ht, hout ▸ hP⟩

/-- In mode `m` an item `x` is left out or a version of it is written, and `adds m x` behind it.
At the end of the list, with the last item that has been read, `last` is written, if an end is
come to. -/
structure Transducer (μ α : Type*) where
  next : μ → α → μ
  copy : μ → α → Option α
  adds : μ → α → List α
  last : μ → α → Option (List α)

namespace Transducer

variable (p : Transducer μ α)

/-- The mode in which a list leaves the transducer. -/
def after (m : μ) (xs : List α) : μ := xs.foldl p.next m

def written : μ → List α → List α
  | _, [] => []
  | m, x :: xs => (p.copy m x).toList ++ p.adds m x ++ written (p.next m x) xs

/-- The items of which no version is written. -/
def leftOut : μ → List α → List α
  | _, [] => []
  | m, x :: xs =>
    if (p.copy m x).isNone then x :: leftOut (p.next m x) xs else leftOut (p.next m x) xs

/-- What is written besides versions of the items. -/
def added : μ → List α → List α
  | _, [] => []
  | m, x :: xs => p.adds m x ++ added (p.next m x) xs

/-- What is written at the end of a list; `x` is the last item that has been read before it. -/
def ending (m : μ) (x : α) (xs : List α) : Option (List α) := p.last (p.after m xs) (xs.getLastD x)

def output (m : μ) (x : α) (xs : List α) : Option (List α) :=
  (p.ending m x xs).map (p.written m xs ++ ·)

@[simp] theorem after_nil (m : μ) : p.after m [] = m := rfl

@[simp] theorem after_cons (m : μ) (x : α) (xs : List α) :
    p.after m (x :: xs) = p.after (p.next m x) xs := rfl

@[simp] theorem written_nil (m : μ) : p.written m [] = [] := rfl

@[simp] theorem written_cons (m : μ) (x : α) (xs : List α) :
    p.written m (x :: xs) =
      (p.copy m x).toList ++ p.adds m x ++ p.written (p.next m x) xs := rfl

@[simp] theorem added_nil (m : μ) : p.added m [] = [] := rfl

@[simp] theorem added_cons (m : μ) (x : α) (xs : List α) :
    p.added m (x :: xs) = p.adds m x ++ p.added (p.next m x) xs := rfl

@[simp] theorem output_nil (m : μ) (x : α) : p.output m x [] = p.last m x := by
  simp [output, ending]

theorem written_append (m : μ) (xs ys : List α) :
    p.written m (xs ++ ys) = p.written m xs ++ p.written (p.after m xs) ys := by
  induction xs generalizing m with
  | nil => rfl
  | cons x xs ih => simp [ih, List.append_assoc]

theorem added_append (m : μ) (xs ys : List α) :
    p.added m (xs ++ ys) = p.added m xs ++ p.added (p.after m xs) ys := by
  induction xs generalizing m with
  | nil => rfl
  | cons x xs ih => simp [ih, List.append_assoc]

theorem ending_append (m : μ) (x : α) (xs ys : List α) :
    p.ending m x (xs ++ ys) = p.ending (p.after m xs) (xs.getLastD x) ys := by
  simp only [ending, after, List.foldl_append]
  congr 1
  cases ys with
  | nil => simp
  | cons y ys => simp [List.getLastD_eq_getLast?, List.getLast?_append]

theorem output_append (m : μ) (x : α) (xs ys : List α) :
    p.output m x (xs ++ ys) =
      (p.output (p.after m xs) (xs.getLastD x) ys).map (p.written m xs ++ ·) := by
  rw [output, output, ending_append, written_append]
  cases p.ending (p.after m xs) (xs.getLastD x) ys <;> simp

theorem output_isSome (m : μ) (x : α) (xs : List α) :
    (p.output m x xs).isSome = (p.ending m x xs).isSome := Option.isSome_map

/-- What has been written weighs what has been read, but for what was left out and added. -/
theorem sum_written {G : Type*} [AddCommMonoid G] (weight : α → G)
    (hcopy : ∀ m x y, p.copy m x = some y → weight y = weight x) (m : μ) (xs : List α) :
    ((p.written m xs).map weight).sum + ((p.leftOut m xs).map weight).sum =
      (xs.map weight).sum + ((p.added m xs).map weight).sum := by
  induction xs generalizing m with
  | nil => rfl
  | cons x xs ih =>
    have hrest := ih (p.next m x)
    cases hx : p.copy m x with
    | none =>
      simp only [written, leftOut, added, hx, Option.toList_none, List.nil_append,
        Option.isNone_none, if_true, List.map_append, List.sum_append, List.map_cons, List.sum_cons]
      rw [add_left_comm, add_assoc, hrest, add_assoc, add_left_comm ((xs.map weight).sum)]
    | some y =>
      simp only [written, leftOut, added, hx, Option.toList_some, List.cons_append,
        List.nil_append, Option.isNone_some, Bool.false_eq_true, if_false, List.map_append,
        List.sum_append, List.map_cons, List.sum_cons, hcopy m x y hx]
      rw [add_assoc, add_assoc, hrest, add_assoc, add_left_comm ((xs.map weight).sum)]

end Transducer

/-- A loop that reads its input in the modes of a transducer, `render` being what it makes of
the items that it writes. From a state that is seen in a mode it gets ahead in the input and is
seen in a mode again, having written what the transducer writes for what it has read, or it does
the rest as the transducer does. -/
inductive Follows (step : σ → Option σ) (out : σ → List β) (p : Transducer μ α)
    (render : List α → List β) (Sees : μ → α → List α → σ → Prop) : μ → α → List α → σ → Prop
  | done {m : μ} {x : α} {xs : List α} {s : σ}
      (h : Computes step out s ((p.output m x xs).map render)) :
      Follows step out p render Sees m x xs s
  | ahead {m : μ} {x : α} {s t : σ} (front rest : List α) (hne : front ≠ [])
      (hreach : Reaches step s t) (hout : out t = out s ++ render (p.written m front))
      (ht : Sees (p.after m front) (front.getLastD x) rest t) :
      Follows step out p render Sees m x (front ++ rest) s

/-- A step that reads an item, and the ones in `xs` behind it. -/
theorem Follows.read {p : Transducer μ α} {render : List α → List β}
    {Sees : μ → α → List α → σ → Prop} {m : μ} {x y : α} (xs rest : List α)
    (hstep : step s = some t) (hout : out t = out s ++ render (p.written m (y :: xs)))
    (ht : Sees (p.after m (y :: xs)) ((y :: xs).getLastD x) rest t) :
    Follows step out p render Sees m x (y :: (xs ++ rest)) s :=
  .ahead (y :: xs) rest (List.cons_ne_nil y xs) (reaches_step hstep) hout ht

theorem computes_output {p : Transducer μ α} {render : List α → List β}
    (hrender : ∀ xs ys, render (xs ++ ys) = render xs ++ render ys)
    (Sees : μ → α → List α → σ → Prop)
    (hsees : ∀ m x xs s, Sees m x xs s → Follows step out p render Sees m x xs s)
    {m : μ} {x : α} {xs : List α} (hs : Sees m x xs s) :
    Computes step out s ((p.output m x xs).map render) := by
  induction hn : xs.length using Nat.strong_induction_on generalizing m x xs s with
  | _ n ih =>
    cases hsees m x xs s hs with
    | done h => exact h
    | @ahead _ t front rest hne hreach hout ht =>
      have hless : rest.length < n := by
        have hpos := List.length_pos_iff.mpr hne
        rw [← hn, List.length_append]
        omega
      have hrest := hreach.computes hout (ih _ hless ht rfl)
      rw [p.output_append, Option.map_map]
      rw [Option.map_map] at hrest
      have hmap : (render ∘ (p.written m front ++ ·)) =
          (render (p.written m front) ++ ·) ∘ render := funext fun w => hrender _ w
      rwa [hmap]

/-- A loop that writes the items as they are. -/
theorem computes_items {out : σ → List α} {p : Transducer μ α} (Sees : μ → α → List α → σ → Prop)
    (hsees : ∀ m x xs s, Sees m x xs s → Follows step out p id Sees m x xs s)
    {m : μ} {x : α} {xs : List α} (hs : Sees m x xs s) :
    Computes step out s (p.output m x xs) := by
  have hrun := computes_output (fun _ _ => rfl) Sees hsees hs
  rwa [Option.map_id] at hrun

end Transition
