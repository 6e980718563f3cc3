import Mathlib.Data.List.Nodup
import Mathlib.Logic.Function.Basic

/-! Callers that update one shared value by a loop of a read and a test-and-set.
A caller may read a value that was never there, and a test may fail without
cause; a test that succeeds has seen the value that it replaces. -/
namespace TestAndSet

variable {ι α : Type*}

inductive Pc (α : Type*) where
  | read
  | testAndSet (old : α)
  | returned
  deriving DecidableEq, Repr

structure State (ι α : Type*) where
  value : α
  pc : ι → Pc α

/-- The value is the result of the returned callers' updates in some order. -/
def Serialized (update : ι → α → α) (start : α) (s : State ι α) : Prop :=
  ∃ order : List ι, order.Nodup ∧ (∀ i, i ∈ order ↔ s.pc i = .returned) ∧
    s.value = order.foldl (fun v i => update i v) start

theorem serialized_start {update : ι → α → α} (start : α) :
    Serialized update start ⟨start, fun _ => .read⟩ :=
  ⟨[], List.nodup_nil, by simp, rfl⟩

variable [DecidableEq ι] {update : ι → α → α}

inductive Step (update : ι → α → α) : State ι α → State ι α → Prop
  | read {s : State ι α} {i : ι} (old : α) (h : s.pc i = .read) :
      Step update s { s with pc := Function.update s.pc i (.testAndSet old) }
  | retry {s : State ι α} {i : ι} {old : α} (h : s.pc i = .testAndSet old) :
      Step update s { s with pc := Function.update s.pc i .read }
  | set {s : State ι α} {i : ι} (h : s.pc i = .testAndSet s.value) :
      Step update s ⟨update i s.value, Function.update s.pc i .returned⟩

/-- A step of a caller that does not return leaves the callers that have. -/
theorem returned_update {pc : ι → Pc α} {i : ι} {p : Pc α} (hi : pc i ≠ .returned)
    (hp : p ≠ .returned) (j : ι) : Function.update pc i p j = .returned ↔ pc j = .returned := by
  by_cases hj : j = i
  · subst hj
    simp [hi, hp]
  · rw [Function.update_of_ne hj]

theorem Step.serialized {start : α} {s t : State ι α} (hstep : Step update s t)
    (h : Serialized update start s) : Serialized update start t := by
  obtain ⟨order, hnodup, hmem, hvalue⟩ := h
  cases hstep with
  | @read i old hi =>
    refine ⟨order, hnodup, ?_, hvalue⟩
    intro j
    rw [hmem j, returned_update (by simp [hi]) (by simp)]
  | @retry i old hi =>
    refine ⟨order, hnodup, ?_, hvalue⟩
    intro j
    rw [hmem j, returned_update (by simp [hi]) (by simp)]
  | @set i hi =>
    have hnew : i ∉ order := by
      rw [hmem i, hi]
      simp
    refine ⟨order ++ [i], ?_, ?_, ?_⟩
    · exact List.nodup_append.mpr ⟨hnodup, List.nodup_singleton i, by
        intro a ha b hb
        rw [List.mem_singleton.mp hb]
        exact ne_of_mem_of_not_mem ha hnew⟩
    · intro j
      by_cases hj : j = i
      · subst hj
        simp
      · simp [hmem j, hj]
    · rw [List.foldl_append, ← hvalue]
      rfl

end TestAndSet
