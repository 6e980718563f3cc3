import Mathlib.Data.List.Basic

/-! Tables of strings in one piece of data, each string with its terminator behind it. -/
namespace StringTable

variable {α : Type*} {terminator separator : α} {strings : List (List α)}

def table (terminator : α) (strings : List (List α)) : List α :=
  strings.flatMap (· ++ [terminator])

@[simp] theorem table_nil : table terminator [] = [] := rfl

@[simp] theorem table_cons (s : List α) :
    table terminator (s :: strings) = s ++ terminator :: table terminator strings := by
  simp [table]

theorem table_append (strings' : List (List α)) :
    table terminator (strings ++ strings') =
      table terminator strings ++ table terminator strings' :=
  List.flatMap_append

/-- Where each element gives one piece at least, there are as many pieces as elements exactly when
each gives one. -/
theorem length_flatMap_eq_iff {β : Type*} {f : α → List β} (hf : ∀ x, 1 ≤ (f x).length)
    (xs : List α) : (xs.flatMap f).length = xs.length ↔ ∀ x ∈ xs, (f x).length = 1 := by
  have hle : ∀ ys : List α, ys.length ≤ (ys.flatMap f).length := by
    intro ys
    induction ys with
    | nil => exact Nat.le_refl _
    | cons y ys ih =>
      rw [List.flatMap_cons, List.length_append, List.length_cons]
      have := hf y
      omega
  induction xs with
  | nil => simp
  | cons x xs ih =>
    have hx := hf x
    have hxs := hle xs
    rw [List.forall_mem_cons, List.flatMap_cons, List.length_append, List.length_cons]
    constructor
    · exact fun h => ⟨by omega, ih.mp (by omega)⟩
    · rintro ⟨hfirst, hrest⟩
      rw [hfirst, ih.mpr hrest, Nat.add_comm]

variable [DecidableEq α]

def entries (terminator : α) (data : List α) : List (List α) :=
  (data.splitOn terminator).dropLast

/-- What is written as a table is read back, if no string has the terminator inside. -/
theorem entries_table (h : ∀ s ∈ strings, terminator ∉ s) :
    entries terminator (table terminator strings) = strings := by
  induction strings with
  | nil => rfl
  | cons s strings ih =>
    rw [List.forall_mem_cons] at h
    rw [entries, table_cons, List.splitOn_append_cons_self_of_not_mem h.1,
      List.dropLast_cons_of_ne_nil (by simp)]
    exact congrArg (s :: ·) (ih h.2)

/-- A terminator in the place of each separator makes entries of the pieces. -/
theorem table_splitOn (s : List α) :
    (s.map fun x => if x = separator then terminator else x) ++ [terminator] =
      table terminator (s.splitOn separator) := by
  induction s with
  | nil => rfl
  | cons x s ih =>
    rw [List.splitOn_cons_eq_if_modifyHead, List.map_cons, List.cons_append, ih]
    by_cases hx : x = separator
    · simp [hx]
    · obtain ⟨piece, pieces, hpieces⟩ :=
        List.exists_cons_of_ne_nil (List.splitOn_ne_nil separator s)
      simp [hx, hpieces]

/-- The pieces between the separators hold nothing that was not there before. -/
theorem mem_of_mem_splitOn {s piece : List α} {x : α} (hpiece : piece ∈ s.splitOn separator)
    (hx : x ∈ piece) : x ∈ s := by
  induction s generalizing piece with
  | nil =>
    rw [List.splitOn_nil, List.mem_singleton] at hpiece
    exact hpiece ▸ hx
  | cons y s ih =>
    rw [List.splitOn_cons_eq_if_modifyHead] at hpiece
    by_cases hy : y = separator
    · rw [if_pos (by simp [hy]), List.mem_cons] at hpiece
      rcases hpiece with rfl | hpiece
      · contradiction
      · exact List.mem_cons_of_mem y (ih hpiece hx)
    · obtain ⟨first, pieces, hpieces⟩ :=
        List.exists_cons_of_ne_nil (List.splitOn_ne_nil separator s)
      rw [if_neg (by simp [hy]), hpieces, List.modifyHead_cons, List.mem_cons] at hpiece
      rw [hpieces] at ih
      rcases hpiece with rfl | hpiece
      · rcases List.mem_cons.mp hx with rfl | hx
        · exact List.mem_cons_self
        · exact List.mem_cons_of_mem y (ih List.mem_cons_self hx)
      · exact List.mem_cons_of_mem y (ih (List.mem_cons_of_mem first hpiece) hx)

theorem length_splitOn (s : List α) : (s.splitOn separator).length = s.count separator + 1 := by
  induction s with
  | nil => rfl
  | cons x s ih =>
    rw [List.splitOn_cons_eq_if_modifyHead]
    by_cases hx : x = separator
    · simp [hx, ih]
    · simp [hx, ih, List.count_cons_of_ne hx]

end StringTable
