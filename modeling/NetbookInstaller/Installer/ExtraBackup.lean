import NetbookInstaller.FileTree.Commands

/-! The installer's file operations, and how `/Extra` is moved to `/Extra.bak` and back. Paths
are those below the install path. -/
namespace Installer

open FileTree

variable {α : Type*}

/-- `copyFrom:toDir:` of something that may lie outside of the tree. -/
def copySource (t : DirTree α) (source : Source α) (destination : Operand) (o : CopyOutcomes α) :
    DirTree α :=
  if source.tree.fileExists ⟨[], source.slash⟩ then t.cp source destination o else t

def copyFrom (t : DirTree α) (source destination : Operand) (o : CopyOutcomes α) : DirTree α :=
  copySource t (t.source source) destination o

def makeDir (t : DirTree α) (dir : Operand) (o : CopyOutcomes α) : DirTree α :=
  if t.fileExists dir then t else t.mkdir dir.path o

def deleteFile (t : DirTree α) (file : Operand) (r : DirTree.Removal) : DirTree α :=
  if t.fileExists file then t.rm file.path r else t

/-- The `ExtraFiles/` that come with the installer: those of `General`, unless they are
the machine's own, and those of the machine. -/
structure SupportFiles (α : Type*) where
  general : Option (DirTree α)
  machine : DirTree α

/-- What becomes of the commands of `copyMachineFilesFrom:toDir:`. -/
structure MachineFilesOutcomes (α : Type*) where
  general : CopyOutcomes α
  machine : CopyOutcomes α

def copyMachineFilesFrom (t : DirTree α) (support : SupportFiles α) (destination : Operand)
    (o : MachineFilesOutcomes α) : DirTree α :=
  let t :=
    match support.general with
    | some general => copySource t ⟨general, "ExtraFiles", true⟩ destination o.general
    | none => t
  copySource t ⟨support.machine, "ExtraFiles", true⟩ destination o.machine

/-- What becomes of the commands that save `/Extra`. -/
structure BackupOutcomes (α : Type*) where
  makeBackup : CopyOutcomes α
  deleteAdditionalExtensions : DirTree.Removal
  backup : CopyOutcomes α

/-- What becomes of the commands that bring a part of the backup back. -/
structure RestoreOutcomes (α : Type*) where
  dsdt : CopyOutcomes α
  extensionsMkext : CopyOutcomes α
  additionalExtensions : CopyOutcomes α
  netbookInstallerImg : CopyOutcomes α
  updateExtraApp : CopyOutcomes α

structure RemovePrevExtraOutcomes (α : Type*) where
  save : BackupOutcomes α
  deleteExtra : DirTree.Removal
  makeExtra : CopyOutcomes α
  restore : RestoreOutcomes α
  machineFiles : MachineFilesOutcomes α

/-- `removePrevExtra` up to the copy of `/Extra/`. -/
def prepareBackup (t : DirTree α) (o : BackupOutcomes α) : DirTree α :=
  let t :=
    if t.fileExists ⟨["Extra.bak"], true⟩ then t else makeDir t ⟨["Extra.bak"], true⟩ o.makeBackup
  -- delete previous AdditionalExtensions
  deleteFile t ⟨["Extra.bak", "AdditionalExtensions"], false⟩ o.deleteAdditionalExtensions

/-- `removePrevExtra` up to the removal of `/Extra/`. -/
def saveExtra (t : DirTree α) (o : BackupOutcomes α) : DirTree α :=
  copyFrom (prepareBackup t o) ⟨["Extra"], true⟩ ⟨["Extra.bak"], false⟩ o.backup

/-- The part of the backup that `removePrevExtra` copies back. -/
def restorePart (t : DirTree α) (o : RestoreOutcomes α) : DirTree α :=
  let t := copyFrom t ⟨["Extra.bak", "DSDT.aml"], false⟩ ⟨["Extra", "DSDT.aml"], false⟩
    o.dsdt
  let t := copyFrom t ⟨["Extra.bak", "Extensions.mkext"], false⟩ ⟨["Extra"], true⟩
    o.extensionsMkext
  let t := copyFrom t ⟨["Extra.bak", "AdditionalExtensions"], true⟩
    ⟨["Extra", "AdditionalExtensions"], true⟩ o.additionalExtensions
  let t := copyFrom t ⟨["Extra.bak", "NetbookInstaller.img"], false⟩ ⟨["Extra"], true⟩
    o.netbookInstallerImg
  copyFrom t ⟨["Extra.bak", "UpdateExtra.app"], true⟩
    ⟨["Extra", "UpdateExtra.app"], true⟩ o.updateExtraApp

def removePrevExtra (t : DirTree α) (support : SupportFiles α) (o : RemovePrevExtraOutcomes α) :
    DirTree α :=
  let t :=
    if t.fileExists ⟨["Extra"], true⟩ then
      deleteFile (saveExtra t o.save) ⟨["Extra"], true⟩ o.deleteExtra
    else t
  let t := makeDir t ⟨["Extra"], true⟩ o.makeExtra
  let t := if t.fileExists ⟨["Extra.bak"], true⟩ then restorePart t o.restore else t
  copyMachineFilesFrom t support ⟨["Extra"], true⟩ o.machineFiles

def restoreBackupExtra (t : DirTree α) (deleteExtra : DirTree.Removal) (restore : CopyOutcomes α) :
    DirTree α :=
  let t := deleteFile t ⟨["Extra"], false⟩ deleteExtra
  copyFrom t ⟨["Extra.bak"], false⟩ ⟨["Extra"], false⟩ restore

/-- What becomes of the commands that replace `/Extra` on a boot disk. -/
structure BootdiskOutcomes (α : Type*) where
  backup : CopyOutcomes α
  deleteExtra : DirTree.Removal
  makeExtra : CopyOutcomes α
  additionalExtensions : CopyOutcomes α
  image : CopyOutcomes α

/-- `installBootdisk:toDrive:` while it is "Installing Extra" from the installer image. -/
def installBootdiskExtra (t image : DirTree α) (o : BootdiskOutcomes α) : DirTree α :=
  let t := copyFrom t ⟨["Extra"], false⟩ ⟨["Extra.bak"], false⟩ o.backup
  let t := deleteFile t ⟨["Extra"], true⟩ o.deleteExtra
  let t := makeDir t ⟨["Extra"], true⟩ o.makeExtra
  -- Preserve AdditionalExtensions, just in case
  let t := copyFrom t ⟨["Extra.bak", "AdditionalExtensions"], false⟩ ⟨["Extra"], true⟩
    o.additionalExtensions
  copySource t ⟨image, "Extra", false⟩ ⟨[], true⟩ o.image

/-! What the operations leave as it is. -/

theorem copySource_outside {t : DirTree α} {source : Source α} {destination : Operand}
    {o : CopyOutcomes α} {q : Pathname} (hq : ¬ destination.path <+: q) :
    (copySource t source destination o).node q = t.node q := by
  rw [copySource]
  split
  · rw [DirTree.cp]
    split
    next => rfl
    next p hp =>
      apply DirTree.node_graft_outside
      exact fun hprefix => hq ((DirTree.prefix_destination hp).trans hprefix)
  · rfl

theorem deleteFile_outside {t : DirTree α} {file : Operand} {r : DirTree.Removal} {q : Pathname}
    (hq : ¬ file.path <+: q) : (deleteFile t file r).node q = t.node q := by
  rw [deleteFile]
  split
  · exact DirTree.node_graft_outside _ _ hq
  · rfl

theorem makeDir_outside {t : DirTree α} {dir : Operand} {o : CopyOutcomes α} {q : Pathname}
    (hq : ¬ q <+: dir.path) : (makeDir t dir o).node q = t.node q := by
  rw [makeDir]
  split
  · rfl
  · exact DirTree.overlay_of_none (if_neg hq)

theorem makeDir_file {t : DirTree α} {dir : Operand} {o : CopyOutcomes α} {q : Pathname} {c : α} :
    (makeDir t dir o).node q = some (.file c) ↔ t.node q = some (.file c) := by
  rw [makeDir]
  split
  · exact Iff.rfl
  · exact DirTree.mkdir_file

theorem file_of_deleteFile {t : DirTree α} {file : Operand} {r : DirTree.Removal} {q : Pathname}
    {c : α} (h : (deleteFile t file r).node q = some (.file c)) : t.node q = some (.file c) := by
  rw [deleteFile] at h
  split at h
  · exact (DirTree.rm_file.mp h).1
  · exact h

theorem copyMachineFilesFrom_outside {t : DirTree α} {support : SupportFiles α}
    {destination : Operand} {o : MachineFilesOutcomes α} {q : Pathname}
    (hq : ¬ destination.path <+: q) :
    (copyMachineFilesFrom t support destination o).node q = t.node q := by
  rw [copyMachineFilesFrom, copySource_outside hq]
  cases support.general with
  | none => rfl
  | some general => exact copySource_outside hq

theorem copyFrom_outside {t : DirTree α} {source destination : Operand} {o : CopyOutcomes α}
    {q : Pathname} (hq : ¬ destination.path <+: q) :
    (copyFrom t source destination o).node q = t.node q :=
  copySource_outside hq

theorem extra_not_above (p q : Pathname) : ¬ "Extra" :: p <+: "Extra.bak" :: q := by
  rw [List.cons_prefix_cons]
  rintro ⟨h, -⟩
  exact absurd h (by decide)

/-- Copying back leaves the backup as it is. -/
theorem restorePart_backup (t : DirTree α) (o : RestoreOutcomes α) (q : Pathname) :
    (restorePart t o).node ("Extra.bak" :: q) = t.node ("Extra.bak" :: q) := by
  simp only [restorePart]
  rw [copyFrom_outside (extra_not_above _ q), copyFrom_outside (extra_not_above _ q),
    copyFrom_outside (extra_not_above _ q), copyFrom_outside (extra_not_above _ q),
    copyFrom_outside (extra_not_above _ q)]

theorem backup_not_above (p q : Pathname) : ¬ "Extra.bak" :: p <+: "Extra" :: q := by
  rw [List.cons_prefix_cons]
  rintro ⟨h, -⟩
  exact absurd h (by decide)

theorem prepareBackup_extra (t : DirTree α) (o : BackupOutcomes α) (q : Pathname) :
    (prepareBackup t o).node ("Extra" :: q) = t.node ("Extra" :: q) := by
  have hextra : ¬ "Extra" :: q <+: ["Extra.bak"] := extra_not_above q []
  rw [prepareBackup, deleteFile_outside (backup_not_above _ q)]
  split
  · rfl
  · exact makeDir_outside hextra

theorem copyFrom_sub {t : DirTree α} {source destination : Operand} {o : CopyOutcomes α}
    {p : Pathname} (hsource : t.fileExists source = true)
    (hdestination : t.destination (t.source source) destination = some p)
    (hparent : p = [] ∨ t.isDirectory p.dropLast = true) :
    (copyFrom t source destination o).sub p = (t.sub p).overlay (t.sub source.path) o := by
  rw [← DirTree.source_fileExists] at hsource
  rw [copyFrom, copySource]
  exact (congrArg (DirTree.sub · p) (if_pos hsource)).trans (DirTree.sub_cp hdestination hparent)

/-- `/Extra/` is copied over what is left of the old backup, whatever that is. -/
theorem saveExtra_backup {t : DirTree α} (hextra : t.node ["Extra"] = some .directory)
    (o : BackupOutcomes α) : (saveExtra t o).sub ["Extra.bak"] =
      ((prepareBackup t o).sub ["Extra.bak"]).overlay (t.sub ["Extra"]) o.backup := by
  have hsub : (prepareBackup t o).sub ["Extra"] = t.sub ["Extra"] := by
    ext1
    exact funext (prepareBackup_extra t o)
  have hdirectory : (prepareBackup t o).node ["Extra"] = some .directory :=
    (prepareBackup_extra t o []).trans hextra
  have hroot : (prepareBackup t o).isDirectory [] = true := by
    rw [DirTree.isDirectory_iff]
    exact (prepareBackup t o).closed [] "Extra" (by rw [List.nil_append, hdirectory]; rfl)
  have hdestination : (prepareBackup t o).destination ((prepareBackup t o).source ⟨["Extra"], true⟩)
      ⟨["Extra.bak"], false⟩ = some ["Extra.bak"] := by
    rw [DirTree.destination]
    split <;> rfl
  have hexists : (prepareBackup t o).fileExists ⟨["Extra"], true⟩ = true :=
    (DirTree.isDirectory_iff _ _).mpr hdirectory
  rw [saveExtra, copyFrom_sub hexists hdestination (.inr hroot), hsub]

end Installer
