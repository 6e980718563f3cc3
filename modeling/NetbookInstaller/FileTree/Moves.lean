import NetbookInstaller.FileTree.Commands

/-! When a copy is complete, and `mv -f` on file trees. -/
namespace FileTree

variable {α : Type*}

/-- Every path of a copy comes out as it is in its source. -/
def CopyComplete (src dst : Pathname → Option (Node α)) (o : CopyOutcomes α) : Prop :=
  ∀ q, (src q).isSome → copyNode (src q) (dst q) (o q) = src q

theorem CopyComplete.reaches {src dst : DirTree α} {o : CopyOutcomes α} {q : Pathname}
    (h : CopyComplete src.node dst.node o) (hq : (src.node q).isSome) :
    Reaches src.node dst.node o q := by
  induction q generalizing src dst o with
  | nil => trivial
  | cons n q ih =>
    have hroot : src.node [] = some .directory :=
      src.directory_of_append (List.cons_ne_nil n q) hq
    have hmade := h [] (by rw [hroot]; rfl)
    refine ⟨enters_iff.mpr ⟨hroot, hmade.trans hroot⟩, ?_⟩
    exact @ih (src.sub [n]) (dst.sub [n]) _ (fun p => h (n :: p)) hq

namespace DirTree

variable {t src dst s : DirTree α} {o : CopyOutcomes α} {p q : Pathname}

/-- All that is in `s` is below a path. -/
def Holds (t : DirTree α) (p : Pathname) (s : DirTree α) : Prop :=
  ∀ q, (s.node q).isSome → t.node (p ++ q) = s.node q

theorem overlay_holds_iff :
    (dst.overlay src o).Holds [] src ↔ CopyComplete src.node dst.node o := by
  have hnode (q : Pathname) : (dst.overlay src o).node q = copyNodes src.node dst.node o q := rfl
  constructor
  · intro hholds q hq
    have hkept := hholds q hq
    rw [List.nil_append, hnode] at hkept
    have hreaches : Reaches src.node dst.node o q := by
      by_contra hnot
      -- what the copy does not reach has been there before
      have hdst := (copyNodes_of_not_reaches hnot).symm.trans hkept
      exact hnot (reaches_of_isSome hq (by rw [hdst]; exact hq))
    exact (copyNodes_of_reaches hreaches).symm.trans hkept
  · intro hcomplete q hq
    rw [List.nil_append, hnode, copyNodes_of_reaches (hcomplete.reaches hq)]
    exact hcomplete q hq

theorem parent_of_node (h : (t.node p).isSome) : p = [] ∨ t.isDirectory p.dropLast = true := by
  rw [← List.append_nil p] at h
  exact t.parent_of_isSome h

theorem holds_congr {u : DirTree α} (h : ∀ q, u.node (p ++ q) = t.node (p ++ q)) :
    u.Holds p s ↔ t.Holds p s := by
  unfold Holds
  simp only [h]

section Copies

variable {source : Source α} {target : Operand} {d : Pathname}

theorem cp_holds_iff (hd : t.destination source target = some d)
    (hparent : d = [] ∨ t.isDirectory d.dropLast = true) :
    (t.cp source target o).Holds d source.tree ↔
      CopyComplete source.tree.node (t.sub d).node o := by
  rw [← overlay_holds_iff, ← sub_cp hd hparent]
  rfl

theorem cp_of_not_parent (hd : t.destination source target = some d)
    (hparent : ¬ (d = [] ∨ t.isDirectory d.dropLast = true)) : t.cp source target o = t := by
  rw [cp, hd]
  exact graft_of_not_parent _ hparent _

theorem cp_outside_of (hd : t.destination source target = some d) (hq : ¬ d <+: q) :
    (t.cp source target o).node q = t.node q := by
  rw [cp, hd]
  exact node_graft_outside _ _ hq

theorem cp_node (hd : t.destination source target = some d)
    (hparent : d = [] ∨ t.isDirectory d.dropLast = true) :
    (t.cp source target o).node d = copyNode (source.tree.node []) (t.node d) (o []) := by
  have hroot := t.node_graft hparent ((t.sub d).overlay source.tree o) []
  have htop : ((t.sub d).overlay source.tree o).node [] =
      copyNode (source.tree.node []) (t.node (d ++ [])) (o []) := rfl
  rw [List.append_nil] at hroot htop
  rw [cp, hd]
  exact hroot.trans htop

/-- Behind a slash there has to be a directory, or it has to be made. -/
theorem destination_spec (hd : t.destination source target = some d) :
    t.isDirectory target.path = true ∨ d = target.path ∧ (target.slash = true →
      t.node target.path = none ∧ source.tree.node [] = some .directory) := by
  unfold destination at hd
  rcases htarget : t.node target.path with - | ⟨c | -⟩
  · simp only [htarget] at hd
    split at hd
    · cases hd
    next hslash =>
      refine .inr ⟨(Option.some.inj hd).symm, fun hwritten => ⟨rfl, ?_⟩⟩
      rw [← isDirectory_iff]
      simpa [hwritten] using hslash
  · simp only [htarget] at hd
    split at hd
    · cases hd
    next hslash => exact .inr ⟨(Option.some.inj hd).symm, fun h => absurd h hslash⟩
  · exact .inl ((t.isDirectory_iff _).mpr htarget)

theorem fileExists_of_directory {f : Operand} (h : t.node f.path = some .directory) :
    t.fileExists f = true := by
  unfold fileExists isDirectory
  rw [h]
  simp

theorem fileExists_of_none {f : Operand} (h : t.node f.path = none) : t.fileExists f = false := by
  unfold fileExists isDirectory
  rw [h]
  simp

theorem fileExists_congr {u : DirTree α} {f : Operand} (h : u.node f.path = t.node f.path) :
    u.fileExists f = t.fileExists f := by
  unfold fileExists isDirectory
  rw [h]

theorem not_fileExists_of_no_destination (h : t.destination source target = none) :
    t.fileExists target = false := by
  unfold destination at h
  rcases htarget : t.node target.path with - | ⟨c | -⟩
  · exact fileExists_of_none htarget
  · simp only [htarget] at h
    split at h
    next hslash =>
      unfold fileExists isDirectory
      rw [if_pos hslash, htarget]
    next => cases h
  · simp only [htarget] at h
    cases h

theorem isSome_of_fileExists {f : Operand} (h : t.fileExists f = true) :
    (t.node f.path).isSome := by
  by_contra hnone
  rw [Bool.not_eq_true, Option.isSome_eq_false_iff, Option.isNone_iff_eq_none] at hnone
  rw [fileExists_of_none hnone] at h
  cases h

/-- What is there already has a directory to hold it. -/
theorem parent_of_destination (hd : t.destination source target = some d)
    (h : t.fileExists target = true) : d = [] ∨ t.isDirectory d.dropLast = true := by
  have hself := parent_of_node (isSome_of_fileExists h)
  by_cases hdirectory : t.isDirectory target.path = true
  · unfold destination at hd
    rw [(t.isDirectory_iff _).mp hdirectory] at hd
    cases hd
    split
    · exact hself
    · rw [List.dropLast_concat]
      exact .inr hdirectory
  · obtain ⟨rfl, -⟩ := (destination_spec hd).resolve_left hdirectory
    exact hself

/-- Whether there is something at the target after a copy that takes place. -/
theorem cp_fileExists (hd : t.destination source target = some d)
    (hparent : d = [] ∨ t.isDirectory d.dropLast = true) :
    (t.cp source target o).fileExists target = true ↔ t.isDirectory target.path = true ∨
      (copyNode (source.tree.node []) (t.node d) (o [])).isSome = true := by
  have hnode : (t.cp source target o).node d = _ := cp_node hd hparent
  by_cases hdirectory : t.isDirectory target.path = true
  · rw [or_iff_left_of_imp fun _ => hdirectory, iff_true_right hdirectory]
    rw [isDirectory_iff] at hdirectory
    apply fileExists_of_directory
    by_cases hbelow : d <+: target.path
    · have heq := hbelow.eq_of_length_le (prefix_destination hd).length_le
      rw [heq, hdirectory] at hnode
      exact hnode.trans (copyNode_directory _ _)
    · exact (cp_outside_of hd hbelow).trans hdirectory
  · obtain ⟨rfl, hslash⟩ := (destination_spec hd).resolve_left hdirectory
    rw [or_iff_right hdirectory, ← hnode]
    unfold fileExists
    split
    next hwritten =>
      obtain ⟨hnone, hsource⟩ := hslash hwritten
      rw [isDirectory_iff, hnode, hnone, hsource]
      cases o [] <;> simp [copyNode]
    next => exact Iff.rfl

end Copies

theorem rm_outside (hq : ¬ p <+: q) {r : Removal} : (t.rm p r).node q = t.node q :=
  node_graft_outside _ _ hq

theorem rm_node (h : (t.node p).isSome) (r : Removal) :
    (t.rm p r).node p = if r.removed [] then none else t.node p := by
  have hparent := parent_of_node h
  have hroot := t.node_graft hparent ((t.sub p).prune r) []
  have htop : ((t.sub p).prune r).node [] = if r.removed [] then none else t.node (p ++ []) := rfl
  rw [List.append_nil] at hroot htop
  exact hroot.trans htop

/-- A path is gone exactly if the removal has come to its end. -/
theorem rm_fileExists {f : Operand} (h : t.fileExists f = true) (r : Removal) :
    (t.rm f.path r).fileExists f = !r.removed [] := by
  have hnode := rm_node (isSome_of_fileExists h) r
  unfold fileExists isDirectory at h ⊢
  rw [hnode]
  cases r.removed []
  · exact h
  · simp

/-- What becomes of a move: within a volume all or nothing, across volumes a copy with the
removal of the source behind it. -/
inductive MoveOutcome (α : Type*) where
  | renamed
  | refused
  | copied (copy : CopyOutcomes α) (removal : Removal)

/-- The source of a move; a slash behind it makes no difference. -/
def moved (t : DirTree α) (p : Pathname) : Source α := t.source ⟨p, false⟩

/-- Where `mv` moves to: neither above nor below the source. -/
def moveTarget (t : DirTree α) (source target : Operand) : Option Pathname :=
  (t.destination (t.moved source.path) target).filter fun d =>
    ¬ source.path <+: d ∧ ¬ d <+: source.path ∧ t.isDirectory d.dropLast = true

/-- `mv -f source target`. Across volumes it does not move to an existing directory. -/
def mv (t : DirTree α) (source target : Operand) (o : MoveOutcome α) : DirTree α :=
  match t.moveTarget source target, o with
  | some d, .renamed => (t.rm source.path .all).graft d (t.sub source.path)
  | some d, .copied copy removal =>
    if t.isDirectory d then t
    else (t.cp (t.moved source.path) target copy).rm source.path removal
  | _, _ => t

section Moves

variable {source target : Operand} {d : Pathname} {r : Removal}

theorem moveTarget_spec (h : t.moveTarget source target = some d) :
    t.destination (t.moved source.path) target = some d ∧ ¬ source.path <+: d ∧
      ¬ d <+: source.path ∧ t.isDirectory d.dropLast = true := by
  unfold moveTarget at h
  rw [Option.filter_eq_some_iff] at h
  exact ⟨h.1, of_decide_eq_true h.2⟩

/-- Paths below the new place are not those of the old one. -/
theorem apart (hbelow : ¬ p <+: d) (habove : ¬ d <+: p) (q : Pathname) : ¬ p <+: d ++ q := by
  intro hprefix
  rcases List.prefix_or_prefix_of_prefix hprefix (List.prefix_append d q) with h | h
  · exact hbelow h
  · exact habove h

/-- A move within a volume. -/
theorem mv_renamed (hd : t.moveTarget source target = some d)
    (hsource : (t.node source.path).isSome) :
    (t.mv source target .renamed).fileExists source = false ∧
      (t.mv source target .renamed).Holds d (t.sub source.path) ∧
      (t.mv source target .renamed).fileExists target = true := by
  obtain ⟨hdestination, hbelow, habove, hparent⟩ := moveTarget_spec hd
  have hmv : t.mv source target .renamed =
      (t.rm source.path .all).graft d (t.sub source.path) := by
    unfold mv
    rw [hd]
  have hholder : (t.rm source.path .all).isDirectory d.dropLast = true := by
    rw [isDirectory_iff] at hparent ⊢
    rw [rm_outside fun h => hbelow (h.trans d.dropLast_prefix), hparent]
  have hroot : (t.mv source target .renamed).node d = t.node source.path := by
    have h := node_graft _ (.inr hholder) (t.sub source.path) []
    rwa [← hmv, node_sub, List.append_nil, List.append_nil] at h
  refine ⟨?_, fun q _ => ?_, ?_⟩
  · apply fileExists_of_none
    rw [hmv, node_graft_outside _ _ habove, rm_node hsource]
    rfl
  · rw [hmv, node_graft _ (.inr hholder)]
  · by_cases hdirectory : t.isDirectory target.path = true
    · -- a directory is moved into, so it stays as it is
      rw [isDirectory_iff] at hdirectory
      have hinto : d = target.path ++ [(t.moved source.path).name] := by
        simpa [destination, hdirectory, moved, DirTree.source] using hdestination.symm
      have hunder : ¬ d <+: target.path := by
        intro hprefix
        have hlength := hprefix.length_le
        rw [hinto, List.length_append, List.length_singleton] at hlength
        omega
      have hkeep : ¬ source.path <+: target.path := fun h =>
        hbelow (h.trans (prefix_destination hdestination))
      apply fileExists_of_directory
      rw [hmv, node_graft_outside _ _ hunder, rm_outside hkeep, hdirectory]
    · obtain ⟨rfl, hslash⟩ := (destination_spec hdestination).resolve_left hdirectory
      unfold fileExists
      split
      next hwritten =>
        rw [isDirectory_iff, hroot]
        have htop : (t.sub source.path).node [] = _ := (hslash hwritten).2
        rwa [node_sub, List.append_nil] at htop
      next =>
        rw [hroot]
        exact hsource

/-- A move across volumes. -/
theorem mv_copied (hd : t.moveTarget source target = some d)
    (hfile : t.isDirectory d = false) (hsource : t.fileExists source = true) :
    (t.mv source target (.copied o r)).fileExists source = !r.removed [] ∧
      ((t.mv source target (.copied o r)).Holds d (t.sub source.path) ↔
        CopyComplete (t.sub source.path).node (t.sub d).node o) ∧
      ((t.mv source target (.copied o r)).fileExists target = true ↔
        t.isDirectory target.path = true ∨
          (copyNode (t.node source.path) (t.node d) (o [])).isSome = true) := by
  obtain ⟨hdestination, hbelow, habove, hparent⟩ := moveTarget_spec hd
  have hmv : t.mv source target (.copied o r) =
      (t.cp (t.moved source.path) target o).rm source.path r := by
    unfold mv
    rw [hd]
    simp [hfile]
  have hsame : (t.cp (t.moved source.path) target o).node source.path = t.node source.path :=
    cp_outside_of hdestination habove
  have hroot : (t.moved source.path).tree.node [] = t.node source.path := by
    show t.node (source.path ++ []) = _
    rw [List.append_nil]
  rw [hmv]
  refine ⟨?_, ?_, ?_⟩
  · apply rm_fileExists
    rwa [fileExists_congr hsame]
  · rw [holds_congr fun q => rm_outside (apart hbelow habove q)]
    exact cp_holds_iff hdestination (.inr hparent)
  · have hkeep : ¬ source.path <+: target.path := fun h =>
      hbelow (h.trans (prefix_destination hdestination))
    rw [fileExists_congr (rm_outside hkeep), cp_fileExists hdestination (.inr hparent), hroot]

end Moves

end DirTree
end FileTree
