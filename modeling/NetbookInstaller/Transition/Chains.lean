import Mathlib.Data.List.Basic
import Mathlib.Data.List.Nodup

/-! Links from each element to at most one other, followed until they end. -/
namespace Transition

variable {α : Type*} {next next' : α → Option α} {o : Option α} {a b : α} {l l' : List α}

/-- The elements that the links lead through, up to their end. -/
inductive Chain (next : α → Option α) : Option α → List α → Prop
  | nil : Chain next none []
  | cons {a : α} {l : List α} (h : Chain next (next a) l) : Chain next (some a) (a :: l)

/-- The links lead to `b`, whether they end or not. -/
inductive LeadsTo (next : α → Option α) : Option α → α → Prop
  | here (a : α) : LeadsTo next (some a) a
  | step {a b : α} (h : LeadsTo next (next a) b) : LeadsTo next (some a) b

theorem not_leadsTo_none : ¬ LeadsTo next none a := nofun

theorem leadsTo_some_iff : LeadsTo next (some a) b ↔ a = b ∨ LeadsTo next (next a) b := by
  constructor
  · intro h
    cases h with
    | here => exact .inl rfl
    | step h => exact .inr h
  · rintro (rfl | h)
    · exact .here a
    · exact .step h

theorem LeadsTo.trans (h : LeadsTo next o a) (hb : LeadsTo next (some a) b) : LeadsTo next o b := by
  induction h with
  | here => exact hb
  | step h ih => exact .step (ih hb)

/-- Of two elements that are reached, one comes behind the other. -/
theorem LeadsTo.linear (ha : LeadsTo next o a) (hb : LeadsTo next o b) :
    LeadsTo next (some a) b ∨ LeadsTo next (some b) a := by
  induction ha with
  | here => exact .inl hb
  | step ha ih =>
    rcases leadsTo_some_iff.mp hb with rfl | hb
    · exact .inr (.step ha)
    · exact ih hb

/-- Links that agree on what they lead through. -/
theorem LeadsTo.congr (h : LeadsTo next o b) (hnext : ∀ a, LeadsTo next o a → next' a = next a) :
    LeadsTo next' o b := by
  induction h with
  | here a => exact .here a
  | @step a b h ih =>
    refine .step ?_
    rw [hnext a (.here a)]
    exact ih fun c hc => hnext c (.step hc)

theorem Chain.mem_iff (h : Chain next o l) : a ∈ l ↔ LeadsTo next o a := by
  induction h with
  | nil => exact iff_of_false List.not_mem_nil not_leadsTo_none
  | cons h ih => rw [List.mem_cons, leadsTo_some_iff, ih, eq_comm]

theorem Chain.unique (h : Chain next o l) (h' : Chain next o l') : l = l' := by
  induction h generalizing l' with
  | nil =>
    cases h'
    rfl
  | cons h ih =>
    cases h' with
    | cons h' => rw [ih h']

/-- Behind an element, no more follows than the whole chain holds. -/
theorem Chain.exists_of_mem (h : Chain next o l) (ha : a ∈ l) :
    ∃ l', Chain next (some a) l' ∧ l'.length ≤ l.length := by
  induction h with
  | nil => cases ha
  | cons h ih =>
    rcases List.mem_cons.mp ha with rfl | ha
    · exact ⟨_, .cons h, Nat.le_refl _⟩
    · obtain ⟨l', hl', hle⟩ := ih ha
      exact ⟨l', hl', Nat.le_succ_of_le hle⟩

/-- A chain that ends passes no element twice. -/
theorem Chain.nodup (h : Chain next o l) : l.Nodup := by
  induction h with
  | nil => exact List.nodup_nil
  | @cons a l h ih =>
    refine List.nodup_cons.mpr ⟨fun ha => ?_, ih⟩
    obtain ⟨l', hl', hle⟩ := h.exists_of_mem ha
    have hlength : l'.length = l.length + 1 := by
      rw [hl'.unique (.cons h), List.length_cons]
    omega

/-- No chain ends that leads back to where it was. -/
theorem not_chain_of_loop (h : LeadsTo next o a) (hloop : LeadsTo next (next a) a) :
    ¬ Chain next o l := by
  intro hl
  obtain ⟨l', hl', -⟩ := hl.exists_of_mem (hl.mem_iff.mpr h)
  cases hl' with
  | cons htail =>
    exact (List.nodup_cons.mp (Chain.cons htail).nodup).1 (htail.mem_iff.mpr hloop)

/-- Links that agree on what a chain leads through. -/
theorem Chain.congr (h : Chain next o l) (hnext : ∀ a ∈ l, next' a = next a) :
    Chain next' o l := by
  induction h with
  | nil => exact .nil
  | @cons a l h ih =>
    refine .cons ?_
    rw [hnext a List.mem_cons_self]
    exact ih fun b hb => hnext b (List.mem_cons_of_mem a hb)

/-- A chain that ends at `a` goes on with the chain that `a` is linked to. -/
theorem Chain.splice (h : Chain next o l) (ha : a ∈ l) (hend : next a = none)
    (hnext : ∀ b, b ≠ a → next' b = next b) (h' : Chain next' (next' a) l') :
    Chain next' o (l ++ l') := by
  induction h with
  | nil => cases ha
  | @cons b l h ih =>
    refine .cons ?_
    by_cases hb : b = a
    · subst hb
      rw [hend] at h
      cases h
      exact h'
    · rw [hnext b hb]
      exact ih (List.mem_of_ne_of_mem (Ne.symm hb) ha)

end Transition
