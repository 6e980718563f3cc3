import Mathlib.Data.List.Induction
import Mathlib.Data.Option.Basic

/-! File trees: what a path leads to, the subtree at a path, and its replacement. -/
namespace FileTree

abbrev Pathname := List String

inductive Node (α : Type*) where
  | file (content : α)
  | directory
  deriving DecidableEq, Repr

/-- A file, a directory with all that is below it, or nothing. A path leads on only from a
directory. -/
@[ext] structure DirTree (α : Type*) where
  node : Pathname → Option (Node α)
  closed : ∀ p n, (node (p ++ [n])).isSome → node p = some .directory

namespace DirTree

variable {α : Type*} (t : DirTree α)

def isDirectory (p : Pathname) : Bool :=
  match t.node p with
  | some .directory => true
  | _ => false

theorem isDirectory_iff (p : Pathname) : t.isDirectory p = true ↔ t.node p = some .directory := by
  unfold isDirectory
  split <;> simp_all

theorem directory_of_append {p q : Pathname} (hq : q ≠ []) (h : (t.node (p ++ q)).isSome) :
    t.node p = some .directory := by
  induction q using List.reverseRecOn with
  | nil => exact absurd rfl hq
  | append_singleton q n ih =>
    rw [← List.append_assoc] at h
    have hdirectory := t.closed _ _ h
    by_cases hnil : q = []
    · rwa [hnil, List.append_nil] at hdirectory
    · exact ih hnil (by rw [hdirectory]; rfl)

theorem isDirectory_root {n : String} (h : (t.node [n]).isSome) : t.isDirectory [] = true :=
  (t.isDirectory_iff []).mpr (t.closed [] n h)

/-- Nothing is below nothing. -/
theorem none_append {p : Pathname} (h : t.node p = none) (q : Pathname) :
    t.node (p ++ q) = none := by
  by_contra hne
  by_cases hq : q = []
  · rw [hq, List.append_nil] at hne
    exact hne h
  · rw [t.directory_of_append hq (Option.isSome_iff_ne_none.mpr hne)] at h
    cases h

/-- Nothing at all. -/
def absent : DirTree α := ⟨fun _ => none, fun _ _ h => by cases h⟩

theorem mem_of_lookup {files : List (Pathname × α)} {p : Pathname} {c : α}
    (h : files.lookup p = some c) : (p, c) ∈ files := by
  obtain ⟨before, after, rfl, -⟩ := List.lookup_eq_some_iff.mp h
  exact List.mem_append_right _ List.mem_cons_self

/-- The files of a list, and the directories that lead to them. -/
def ofFiles (files : List (Pathname × α)) : DirTree α where
  node p :=
    if p = [] ∨ ∃ f ∈ files, p <+: f.1 ∧ p ≠ f.1 then some .directory
    else (files.lookup p).map .file
  closed p n h := by
    apply if_pos
    have hbelow : ∀ f ∈ files, p ++ [n] <+: f.1 → p <+: f.1 ∧ p ≠ f.1 := by
      intro f _ hprefix
      refine ⟨(List.prefix_append p [n]).trans hprefix, ?_⟩
      rintro rfl
      have hlength := hprefix.length_le
      rw [List.length_append, List.length_singleton] at hlength
      omega
    split at h
    next hdirectory =>
      obtain ⟨f, hf, hprefix, -⟩ := hdirectory.resolve_left (by simp)
      exact .inr ⟨f, hf, hbelow f hf hprefix⟩
    next =>
      rw [Option.isSome_map, Option.isSome_iff_exists] at h
      obtain ⟨c, hc⟩ := h
      have hmem := mem_of_lookup hc
      exact .inr ⟨_, hmem, hbelow _ hmem (List.prefix_refl _)⟩

theorem ofFiles_file {files : List (Pathname × α)} {p : Pathname} {c : α}
    (h : (ofFiles files).node p = some (.file c)) : (p, c) ∈ files := by
  simp only [ofFiles] at h
  split at h
  · cases h
  · obtain ⟨d, hd, hfile⟩ := Option.map_eq_some_iff.mp h
    rw [Node.file.injEq] at hfile
    exact mem_of_lookup (hfile ▸ hd)

/-- What is at a path. -/
def sub (p : Pathname) : DirTree α where
  node q := t.node (p ++ q)
  closed q n h := t.closed (p ++ q) n (by rwa [List.append_assoc])

@[simp] theorem node_sub (p q : Pathname) : (t.sub p).node q = t.node (p ++ q) := rfl

/-- What is at `p` becomes `s`, as long as there is a directory to hold it. -/
def graft (p : Pathname) (s : DirTree α) : DirTree α :=
  if h : p = [] ∨ t.isDirectory p.dropLast = true then
    { node := fun q => if p <+: q then s.node (q.drop p.length) else t.node q
      closed := by
        intro q n hsome
        by_cases hq : p <+: q
        · obtain ⟨r, rfl⟩ := hq
          rw [if_pos ⟨r ++ [n], (List.append_assoc p r [n]).symm⟩, List.append_assoc,
            List.drop_left] at hsome
          rw [if_pos (List.prefix_append p r), List.drop_left]
          exact s.closed r n hsome
        · rw [if_neg hq]
          split at hsome
          next hnew =>
            have heq : p = q ++ [n] := (List.prefix_concat_iff.mp hnew).resolve_right hq
            subst heq
            rw [List.dropLast_concat] at h
            exact (t.isDirectory_iff q).mp (h.resolve_left (by simp))
          next => exact t.closed q n hsome }
  else t

theorem node_graft_outside {p q : Pathname} (s : DirTree α) (hq : ¬ p <+: q) :
    (t.graft p s).node q = t.node q := by
  unfold graft
  split
  · exact if_neg hq
  · rfl

theorem node_graft {p : Pathname} (h : p = [] ∨ t.isDirectory p.dropLast = true) (s : DirTree α)
    (q : Pathname) : (t.graft p s).node (p ++ q) = s.node q := by
  rw [graft, dif_pos h]
  simp

theorem graft_of_not_parent {p : Pathname} (h : ¬ (p = [] ∨ t.isDirectory p.dropLast = true))
    (s : DirTree α) : t.graft p s = t :=
  dif_neg h

theorem parent_of_isSome {p q : Pathname} (h : (t.node (p ++ q)).isSome) :
    p = [] ∨ t.isDirectory p.dropLast = true := by
  rcases p.eq_nil_or_concat with rfl | ⟨d, n, rfl⟩
  · exact .inl rfl
  · rw [List.concat_eq_append, List.append_assoc] at h
    rw [List.concat_eq_append, List.dropLast_concat]
    exact .inr ((t.isDirectory_iff d).mpr (t.directory_of_append (by simp) h))

end DirTree
end FileTree
