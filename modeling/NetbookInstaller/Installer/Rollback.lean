import NetbookInstaller.Installer.ExtraBackup

/-! When a rollback gives back the `/Extra` that the installation has found. -/
namespace Installer

open FileTree

variable {α : Type*} {t : DirTree α} {o : BackupOutcomes α}

/-- The commands that save `/Extra`, and the `mkdir` of a new one, succeed. -/
structure SaveSucceeds (t : DirTree α) (o : BackupOutcomes α) : Prop where
  makeExtra : ∀ c, t.node ["Extra"] ≠ some (.file c)
  makeBackup : t.node ["Extra"] = some .directory → o.makeBackup = .all
  deleteAdditionalExtensions :
    t.node ["Extra"] = some .directory → o.deleteAdditionalExtensions = .all
  backup : t.node ["Extra"] = some .directory → o.backup = .all ∧
    DirTree.Compatible (t.sub ["Extra"]) ((prepareBackup t o).sub ["Extra.bak"])

/-- A file of the install path, with all that is below it, is gone. -/
theorem deleteFile_all {file : Operand} {n : String} {p : Pathname} (hfile : file.path = p ++ [n])
    (hslash : file.slash = false) (q : Pathname) :
    (deleteFile t file .all).node (file.path ++ q) = none := by
  rw [deleteFile]
  split
  next hexists =>
    have hparent : t.isDirectory file.path.dropLast = true := by
      rw [hfile, List.dropLast_concat, DirTree.isDirectory_iff]
      apply t.closed p n
      simpa [DirTree.fileExists, hslash, hfile] using hexists
    rw [DirTree.rm, DirTree.prune_all, DirTree.node_graft _ (.inr hparent)]
    rfl
  next hexists =>
    apply t.none_append
    simpa [DirTree.fileExists, hslash] using hexists

theorem compatible_directories {n : String} (hroot : t.node [] = some .directory)
    (hnone : t.node [n] = none) : DirTree.Compatible (DirTree.directories [n]) t := by
  intro p
  constructor
  · intro hp c
    simp only [DirTree.directories, Option.ite_none_right_eq_some] at hp
    rcases List.prefix_cons_iff.mp hp.1 with rfl | ⟨q, rfl, hq⟩
    · simp [hroot]
    · simp [List.prefix_nil.mp hq, hnone]
  · intro _ c
    simp [DirTree.directories]

/-- The old backup is emptied of its `AdditionalExtensions`, or there is a new one. -/
theorem prepareBackup_backup (hextra : t.node ["Extra"] = some .directory)
    (hfile : ∀ c, t.node ["Extra.bak"] ≠ some (.file c)) (hmake : o.makeBackup = .all)
    (hdelete : o.deleteAdditionalExtensions = .all) (q : Pathname) :
    (prepareBackup t o).node ("Extra.bak" :: q) =
      if ["AdditionalExtensions"] <+: q then none
      else if q = [] then some .directory else t.node ("Extra.bak" :: q) := by
  have hmade (q : Pathname) : (if t.fileExists ⟨["Extra.bak"], true⟩ then t
      else makeDir t ⟨["Extra.bak"], true⟩ .all).node ("Extra.bak" :: q) =
        if q = [] then some .directory else t.node ("Extra.bak" :: q) := by
    split
    next hexists =>
      have hdirectory := (t.isDirectory_iff _).mp hexists
      split
      next hq => rw [hq, hdirectory]
      next => rfl
    next hexists =>
      have hnone : t.node ["Extra.bak"] = none := by
        rcases hnode : t.node ["Extra.bak"] with - | ⟨c | -⟩
        · rfl
        · exact absurd hnode (hfile c)
        · exact absurd ((t.isDirectory_iff _).mpr hnode) hexists
      have hroot := (t.isDirectory_iff []).mp (t.isDirectory_root (by rw [hextra]; rfl))
      rw [makeDir, if_neg hexists, DirTree.mkdir,
        DirTree.overlay_all (compatible_directories hroot hnone)]
      cases q with
      | nil => simp [DirTree.directories]
      | cons n q => simp [DirTree.directories]
  rw [prepareBackup, hmake, hdelete]
  by_cases hq : ["AdditionalExtensions"] <+: q
  · obtain ⟨r, rfl⟩ := hq
    rw [if_pos (List.prefix_append _ r)]
    exact deleteFile_all (p := ["Extra.bak"]) rfl rfl r
  · rw [if_neg hq, ← hmade q]
    apply deleteFile_outside
    intro hprefix
    exact hq (List.cons_prefix_cons.mp hprefix).2

/-- A file of that name stays in the way of the backup. -/
theorem prepareBackup_file {c : α} (h : t.node ["Extra.bak"] = some (.file c)) :
    (prepareBackup t o).node ["Extra.bak"] = some (.file c) := by
  have hbelow : ¬ ["Extra.bak", "AdditionalExtensions"] <+: ["Extra.bak"] := by decide
  rw [prepareBackup, deleteFile_outside hbelow]
  split
  · exact h
  · exact makeDir_file.mpr h

/-- After a rollback `/Extra` is what is in the backup. -/
theorem restoreBackupExtra_extra (t : DirTree α) (q : Pathname) :
    (restoreBackupExtra t .all .all).node ("Extra" :: q) = t.node ("Extra.bak" :: q) := by
  have hextra (q : Pathname) : (deleteFile t ⟨["Extra"], false⟩ .all).node ("Extra" :: q) = none :=
    deleteFile_all (p := []) rfl rfl q
  have hbackup (q : Pathname) : (deleteFile t ⟨["Extra"], false⟩ .all).node ("Extra.bak" :: q) =
      t.node ("Extra.bak" :: q) := deleteFile_outside (extra_not_above [] q)
  rw [restoreBackupExtra, ← hbackup]
  generalize deleteFile t ⟨["Extra"], false⟩ .all = u at hextra
  by_cases hexists : u.fileExists ⟨["Extra.bak"], false⟩ = true
  · have hdestination : u.destination (u.source ⟨["Extra.bak"], false⟩) ⟨["Extra"], false⟩ =
        some ["Extra"] := by
      rw [DirTree.destination, hextra []]
      rfl
    have hroot : u.isDirectory [] = true := u.isDirectory_root hexists
    have hcopied := copyFrom_sub (o := .all) hexists hdestination (.inr hroot)
    have hcompatible : DirTree.Compatible (u.sub ["Extra.bak"]) (u.sub ["Extra"]) := by
      intro p
      simp [hextra]
    have hnode : (copyFrom u ⟨["Extra.bak"], false⟩ ⟨["Extra"], false⟩ .all).node ("Extra" :: q) =
        (u.node ("Extra.bak" :: q)).or (u.node ("Extra" :: q)) := by
      exact (congrArg (DirTree.node · q) hcopied).trans (DirTree.overlay_all hcompatible)
    rw [hnode, hextra, Option.or_none]
  · have hnone : u.node ["Extra.bak"] = none := by
      simpa [DirTree.fileExists] using hexists
    have hunchanged : copyFrom u ⟨["Extra.bak"], false⟩ ⟨["Extra"], false⟩ .all = u := by
      rw [copyFrom, copySource]
      exact if_neg (by rwa [← DirTree.source_fileExists] at hexists)
    rw [hunchanged, hextra]
    exact (u.none_append hnone q).symm

/-- What `/Extra.bak` holds once `/Extra` has been saved. -/
theorem removePrevExtra_backup (t : DirTree α) (support : SupportFiles α)
    (o : RemovePrevExtraOutcomes α) (q : Pathname) :
    (removePrevExtra t support o).node ("Extra.bak" :: q) =
      if t.fileExists ⟨["Extra"], true⟩ then (saveExtra t o.save).node ("Extra.bak" :: q)
      else t.node ("Extra.bak" :: q) := by
  have hmake (u : DirTree α) (o : CopyOutcomes α) : (makeDir u ⟨["Extra"], true⟩ o).node
      ("Extra.bak" :: q) = u.node ("Extra.bak" :: q) := makeDir_outside (backup_not_above q [])
  have hrestore (u : DirTree α) : (if u.fileExists ⟨["Extra.bak"], true⟩ then
      restorePart u o.restore else u).node ("Extra.bak" :: q) = u.node ("Extra.bak" :: q) := by
    split
    · exact restorePart_backup u o.restore q
    · rfl
  rw [removePrevExtra, copyMachineFilesFrom_outside (extra_not_above [] q), hrestore, hmake]
  split
  · exact deleteFile_outside (extra_not_above [] q)
  · rfl

/-- All that the old backup holds outside of `AdditionalExtensions` is in `/Extra` too. -/
def NothingLeft (t : DirTree α) : Prop :=
  ∀ q, (t.node ("Extra.bak" :: q)).isSome → (t.node ("Extra" :: q)).isSome ∨
    ["AdditionalExtensions"] <+: q ∧ (t.node ["Extra"]).isSome

/-- Whatever changes under `/Extra` once it has been saved, a rollback gives back the initial
`/Extra` exactly if the old backup had nothing of its own. -/
theorem rollback_restores_iff {support : SupportFiles α} {o : RemovePrevExtraOutcomes α}
    (hsave : SaveSucceeds t o.save) {changed : DirTree α}
    (hchanged : ∀ p, ¬ ["Extra"] <+: p → changed.node p = (removePrevExtra t support o).node p) :
    (∀ q, (restoreBackupExtra changed .all .all).node ("Extra" :: q) = t.node ("Extra" :: q)) ↔
      NothingLeft t := by
  have hrestored (q : Pathname) : (restoreBackupExtra changed .all .all).node ("Extra" :: q) =
      (removePrevExtra t support o).node ("Extra.bak" :: q) :=
    (restoreBackupExtra_extra changed q).trans (hchanged _ (extra_not_above [] q))
  simp only [hrestored, removePrevExtra_backup]
  rcases hextra : t.node ["Extra"] with - | ⟨c | -⟩
  · have hexists : t.fileExists ⟨["Extra"], true⟩ = false := by
      simp [DirTree.fileExists, DirTree.isDirectory, hextra]
    have hnone (q : Pathname) : t.node ("Extra" :: q) = none := t.none_append hextra q
    simp [NothingLeft, hexists, hextra, hnone]
  · exact absurd hextra (hsave.makeExtra c)
  · have hexists : t.fileExists ⟨["Extra"], true⟩ = true := (t.isDirectory_iff _).mpr hextra
    obtain ⟨hbackup, hcompatible⟩ := hsave.backup hextra
    have hfile : ∀ c, t.node ["Extra.bak"] ≠ some (.file c) := fun c hc =>
      (hcompatible []).1 hextra c (prepareBackup_file hc)
    have hsaved (q : Pathname) : (saveExtra t o.save).node ("Extra.bak" :: q) =
        (t.node ("Extra" :: q)).or (if ["AdditionalExtensions"] <+: q then none
          else if q = [] then some .directory else t.node ("Extra.bak" :: q)) := by
      rw [← prepareBackup_backup hextra hfile (hsave.makeBackup hextra)
        (hsave.deleteAdditionalExtensions hextra) q]
      have hoverlay := congrArg (DirTree.node · q) (saveExtra_backup hextra o.save)
      rw [hbackup] at hoverlay
      exact hoverlay.trans (DirTree.overlay_all hcompatible)
    simp only [hexists, if_true, hsaved, NothingLeft, hextra]
    apply forall_congr'
    intro q
    cases hq : t.node ("Extra" :: q) with
    | some node => simp
    | none =>
      have hne : q ≠ [] := by
        rintro rfl
        rw [hextra] at hq
        cases hq
      by_cases hadditional : ["AdditionalExtensions"] <+: q
      · simp [hadditional]
      · simp [hadditional, hne]

/-- No command fails. -/
def allSucceed : RemovePrevExtraOutcomes α :=
  ⟨⟨.all, .all, .all⟩, .all, .all, ⟨.all, .all, .all, .all, .all⟩, ⟨.all, .all⟩⟩

/-- The backup succeeds unless a file of one of the two trees is a directory of the other. -/
theorem saveSucceeds_all (hextra : t.node ["Extra"] = some .directory)
    (hbackup : ∀ c, t.node ["Extra.bak"] ≠ some (.file c))
    (hsource : ∀ q c, t.node ("Extra" :: q) = some (.file c) →
      (prepareBackup t allSucceed.save).node ("Extra.bak" :: q) ≠ some .directory)
    (hold : ∀ q c, t.node ("Extra.bak" :: q) = some (.file c) →
      t.node ("Extra" :: q) ≠ some .directory) : SaveSucceeds t allSucceed.save := by
  constructor
  · simp [hextra]
  · exact fun _ => rfl
  · exact fun _ => rfl
  · intro _
    refine ⟨rfl, ?_⟩
    intro q
    constructor
    · intro hdirectory c hfile
      have hnode := (prepareBackup_backup hextra hbackup rfl rfl q).symm.trans hfile
      split at hnode
      · cases hnode
      · split at hnode
        · cases hnode
        · exact hold q c hnode hdirectory
    · intro hdirectory c hfile
      exact hsource q c hfile hdirectory

/-- An installation with a `DSDT.aml`, and a backup of an earlier one. -/
def leftover : DirTree ℕ :=
  .ofFiles [(["Extra", "DSDT.aml"], 1), (["Extra.bak", "com.apple.Boot.plist"], 2)]

/-- The same without an earlier backup. -/
def firstRun : DirTree ℕ := .ofFiles [(["Extra", "DSDT.aml"], 1)]

theorem firstRun_restores_iff :
    (∀ q, (restoreBackupExtra (removePrevExtra firstRun ⟨none, .absent⟩ allSucceed) .all .all).node
      ("Extra" :: q) = firstRun.node ("Extra" :: q)) ↔ NothingLeft firstRun := by
  have hextra : firstRun.node ["Extra"] = some .directory := by decide
  have hbackup : firstRun.node ["Extra.bak"] = none := by decide
  have hsave : SaveSucceeds firstRun (allSucceed (α := ℕ)).save := by
    apply saveSucceeds_all hextra
    · simp [hbackup]
    · intro q c hfile
      have hmem := DirTree.ofFiles_file hfile
      simp only [List.mem_singleton, Prod.mk.injEq, List.cons.injEq, true_and] at hmem
      rw [hmem.1]
      decide
    · intro q c hfile
      have hnone : firstRun.node ("Extra.bak" :: q) = none := firstRun.none_append hbackup q
      rw [hnone] at hfile
      cases hfile
  exact rollback_restores_iff hsave fun _ _ => rfl

theorem leftover_not_restored :
    SaveSucceeds leftover (allSucceed (α := ℕ)).save ∧
    (restoreBackupExtra (removePrevExtra leftover ⟨none, .absent⟩ allSucceed) .all .all).node
      ["Extra", "com.apple.Boot.plist"] = some (.file 2) ∧
    leftover.node ["Extra", "com.apple.Boot.plist"] = none := by
  refine ⟨?_, by decide, by decide⟩
  apply saveSucceeds_all (by decide)
  · have hbackup : leftover.node ["Extra.bak"] = some .directory := by decide
    simp [hbackup]
  · intro q c hfile
    have hmem := DirTree.ofFiles_file hfile
    simp at hmem
    rw [hmem.1]
    decide
  · intro q c hfile
    have hmem := DirTree.ofFiles_file hfile
    simp at hmem
    rw [hmem.1]
    decide

end Installer
