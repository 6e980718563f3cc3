import Mathlib.Algebra.BigOperators.Group.Finset.Piecewise
import Mathlib.Algebra.Order.Group.Multiset
import Mathlib.Data.Nat.ModEq
import Mathlib.Logic.Function.Basic

/-! A ring of slots between a writer and a reader that share nothing but the slots: the queue
that it holds while each of them goes round at its own pace, and the stock of what its slots
hold. -/
namespace SlotRing

variable {α : Type*} {n : ℕ} {idle idle' : Option α → Prop} {slots : ℕ → Option α} {r w : ℕ}
  {q : List α} {x : α} {v : Option α}

/-- From the reader's position on, the ring of `n` slots holds the queue `q`; the writer
stands behind the queue, and the slots from there on to the reader are `idle`. -/
structure Holds (n : ℕ) (idle : Option α → Prop) (slots : ℕ → Option α) (r w : ℕ)
    (q : List α) : Prop where
  length_le : q.length ≤ n
  write_mod : w % n = (r + q.length) % n
  filled : ∀ i (h : i < q.length), slots ((r + i) % n) = some q[i]
  rest : ∀ i, q.length ≤ i → i < n → idle (slots ((r + i) % n))

theorem slot_eq_iff {i j : ℕ} (hi : i < n) (hj : j < n) : (r + i) % n = (r + j) % n ↔ i = j := by
  constructor
  · intro h
    exact (Nat.ModEq.add_left_cancel' r h).eq_of_lt_of_lt hi hj
  · rintro rfl
    rfl

/-- Every slot lies somewhere ahead of the reader. -/
theorem exists_ahead (r : ℕ) {i : ℕ} (hi : i < n) : ∃ j < n, (r + j) % n = i := by
  have hr := Nat.mod_lt r (i.zero_le.trans_lt hi)
  refine ⟨(i + (n - r % n)) % n, Nat.mod_lt _ (by omega), ?_⟩
  have hround : r % n + (i + (n - r % n)) = i + n := by omega
  rw [Nat.add_mod_mod, ← Nat.mod_add_mod, hround, Nat.add_mod_right, Nat.mod_eq_of_lt hi]

/-- A ring without a queue stands wherever both positions are put. -/
theorem holds_nil (hw : w % n = r % n) (h : ∀ i < n, idle (slots i)) :
    Holds n idle slots r w [] where
  length_le := n.zero_le
  write_mod := by simpa only [List.length_nil, Nat.add_zero] using hw
  filled := fun i hi => absurd hi i.not_lt_zero
  rest := fun i _ hi => h _ (Nat.mod_lt _ (i.zero_le.trans_lt hi))

namespace Holds

/-- Only the slots of the ring count, and only the positions that they stand for. -/
theorem congr {slots' : ℕ → Option α} {r' w' : ℕ} (h : Holds n idle slots r w q)
    (hslots : ∀ i < n, slots' i = slots i) (hr : r' % n = r % n) (hw : w' % n = w % n) :
    Holds n idle slots' r' w' q := by
  have hplace : ∀ i, (r' + i) % n = (r + i) % n := by
    intro i
    rw [← Nat.mod_add_mod, hr, Nat.mod_add_mod]
  refine ⟨h.length_le, ?_, fun i hi => ?_, fun i hle hi => ?_⟩
  · rw [hw, h.write_mod, hplace]
  · rw [hplace, hslots _ (Nat.mod_lt _ (by have := h.length_le; omega)), h.filled i hi]
  · rw [hplace, hslots _ (Nat.mod_lt _ (by omega))]
    exact h.rest i hle hi

theorem imp (h : Holds n idle slots r w q) (himp : ∀ v, idle v → idle' v) :
    Holds n idle' slots r w q :=
  ⟨h.length_le, h.write_mod, h.filled, fun i hle hi => himp _ (h.rest i hle hi)⟩

/-- The reader finds the head of the queue. -/
theorem slot_read (h : Holds n idle slots r w (x :: q)) : slots (r % n) = some x := by
  simpa only [Nat.add_zero, List.getElem_cons_zero] using h.filled 0 q.length.succ_pos

/-- Where there is no queue, the reader finds a slot that is idle. -/
theorem idle_read (hn : 0 < n) (h : Holds n idle slots r w []) : idle (slots (r % n)) := by
  simpa only [Nat.add_zero] using h.rest 0 le_rfl hn

/-- The writer finds the head of the queue, if that is as long as the ring. -/
theorem slot_write_of_full (hn : 0 < n) (h : Holds n idle slots r w q) (hq : q.length = n) :
    ∃ x, slots (w % n) = some x := by
  have hpos : 0 < q.length := hq ▸ hn
  refine ⟨q[0], ?_⟩
  rw [h.write_mod, hq, Nat.add_mod_right]
  exact h.filled 0 hpos

theorem idle_write (h : Holds n idle slots r w q) (hq : q.length < n) :
    idle (slots (w % n)) := by
  rw [h.write_mod]
  exact h.rest q.length le_rfl hq

/-- A ring whose idle slots are empty is full where the writer finds a slot in use. -/
theorem slot_write_eq_none_iff (hn : 0 < n) (h : Holds n (· = none) slots r w q) :
    slots (w % n) = none ↔ q.length < n := by
  constructor
  · intro hnone
    refine h.length_le.lt_of_ne fun hq => ?_
    obtain ⟨x, hx⟩ := h.slot_write_of_full hn hq
    rw [hx] at hnone
    exact Option.some_ne_none x hnone
  · exact h.idle_write

theorem length_lt_of_none (hn : 0 < n) (h : Holds n idle slots r w q)
    (hnone : slots (w % n) = none) : q.length < n := by
  refine h.length_le.lt_of_ne fun hq => ?_
  obtain ⟨x, hx⟩ := h.slot_write_of_full hn hq
  rw [hx] at hnone
  exact Option.some_ne_none x hnone

/-- What is written goes to the end of the queue. -/
theorem write (h : Holds n idle slots r w q) (hq : q.length < n) (x : α) :
    Holds n idle (Function.update slots (w % n) (some x)) r (w + 1) (q ++ [x]) where
  length_le := by
    rw [List.length_append, List.length_singleton]
    exact hq
  write_mod := by
    rw [List.length_append, List.length_singleton, ← Nat.mod_add_mod, h.write_mod,
      Nat.mod_add_mod, Nat.add_assoc]
  filled := by
    intro i hi
    rw [List.length_append, List.length_singleton] at hi
    rw [h.write_mod]
    obtain hlt | rfl := Nat.lt_succ_iff_lt_or_eq.mp hi
    · rw [Function.update_of_ne, h.filled i hlt, List.getElem_append_left hlt]
      exact (slot_eq_iff (hlt.trans hq) hq).not.mpr hlt.ne
    · rw [Function.update_self, List.getElem_concat_length rfl]
  rest := by
    intro i hle hi
    rw [List.length_append, List.length_singleton] at hle
    rw [h.write_mod, Function.update_of_ne]
    · exact h.rest i (by omega) hi
    · exact (slot_eq_iff hi hq).not.mpr (by omega)

/-- The reader takes the head of the queue and leaves the slot in an idle state. -/
theorem read (h : Holds n idle slots r w (x :: q)) (hv : idle v) :
    Holds n idle (Function.update slots (r % n) v) (r + 1) w q := by
  have hlen : q.length + 1 ≤ n := h.length_le
  refine ⟨by omega, ?_, fun i hi => ?_, fun i hle hi => ?_⟩
  · rw [h.write_mod, List.length_cons, Nat.add_right_comm r 1, Nat.add_assoc]
  · have hnext := h.filled (i + 1) (by simpa only [List.length_cons] using Nat.succ_lt_succ hi)
    rw [Nat.add_assoc, Nat.add_comm 1 i, Function.update_of_ne, hnext, List.getElem_cons_succ]
    exact (slot_eq_iff (j := 0) (by omega) (by omega)).not.mpr i.succ_ne_zero
  · rw [Nat.add_assoc, Nat.add_comm 1 i]
    by_cases hlast : i + 1 = n
    · rw [hlast, Nat.add_mod_right, Function.update_self]
      exact hv
    · rw [Function.update_of_ne]
      · exact h.rest (i + 1) (by simpa only [List.length_cons] using Nat.succ_le_succ hle)
          (by omega)
      · exact (slot_eq_iff (j := 0) (by omega) (by omega)).not.mpr i.succ_ne_zero

end Holds

/-- What a slot holds, as a collection of at most one. -/
def item (v : Option α) : Multiset α := v.elim 0 ({·})

/-- What the first `n` slots hold together. -/
def stock (n : ℕ) (slots : ℕ → Option α) : Multiset α := ∑ i ∈ Finset.range n, item (slots i)

@[simp] theorem item_none : item (none : Option α) = 0 := rfl

@[simp] theorem item_some (x : α) : item (some x) = {x} := rfl

theorem stock_eq_zero (h : ∀ i < n, slots i = none) : stock n slots = 0 := by
  refine Finset.sum_eq_zero fun i hi => ?_
  rw [h i (Finset.mem_range.mp hi), item_none]

/-- What a slot is given comes to the stock, and what it held goes. -/
theorem stock_update {i : ℕ} (hi : i < n) (slots : ℕ → Option α) (v : Option α) :
    stock n (Function.update slots i v) + item (slots i) = stock n slots + item v := by
  have hmem := Finset.mem_range.mpr hi
  have hsplit := Finset.add_sum_erase (Finset.range n) (fun j => item (slots j)) hmem
  have hrest : ∑ j ∈ (Finset.range n).erase i, item (Function.update slots i v j) =
      ∑ j ∈ (Finset.range n).erase i, item (slots j) := by
    refine Finset.sum_congr rfl fun j hj => ?_
    rw [Function.update_of_ne (Finset.ne_of_mem_erase hj)]
  have hnew := Finset.add_sum_erase (Finset.range n) (fun j => item (Function.update slots i v j))
    hmem
  simp only [Function.update_self] at hnew
  unfold stock
  rw [← hnew, ← hsplit, hrest]
  ac_rfl

end SlotRing
