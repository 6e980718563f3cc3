import NetbookInstaller.Installer.ExtraBackup

/-! Which files of `/Extra` outlast a replacement of it whose commands may fail. -/
namespace Installer

open FileTree

variable {α : Type*}

/-- A copy, with what there is to copy. -/
structure Copy (α : Type*) where
  source : Source α
  target : Operand
  outcomes : CopyOutcomes α

namespace Copy

variable {w : Copy α} {t u : DirTree α} {copies : List (Copy α)} {p : Pathname} {c : α}

def apply (t : DirTree α) (w : Copy α) : DirTree α := copySource t w.source w.target w.outcomes

/-- The copy writes to the path of a file. -/
def WritesTo (w : Copy α) (t : DirTree α) (p : Pathname) : Prop :=
  w.source.tree.fileExists ⟨[], w.source.slash⟩ = true ∧
    t.WritesTo w.source w.target w.outcomes p

/-- The copy brings a content to a path. -/
def Delivers (w : Copy α) (t : DirTree α) (p : Pathname) (c : α) : Prop :=
  w.source.tree.fileExists ⟨[], w.source.slash⟩ = true ∧
    t.Delivers w.source w.target w.outcomes p c

theorem apply_file_iff : (apply t w).node p = some (.file c) ↔
    w.Delivers t p c ∨ t.node p = some (.file c) ∧ ¬ w.WritesTo t p := by
  rw [apply, copySource]
  split
  next hexists =>
    rw [DirTree.cp_file_iff]
    simp [Delivers, WritesTo, hexists]
  next hexists => simp [Delivers, WritesTo, hexists]

theorem writesTo_congr {c' : α} (ht : t.node p = some (.file c))
    (hu : u.node p = some (.file c')) : w.WritesTo t p ↔ w.WritesTo u p := by
  constructor
  · exact fun h => ⟨h.1, DirTree.writesTo_congr ht hu h.2⟩
  · exact fun h => ⟨h.1, DirTree.writesTo_congr hu ht h.2⟩

/-- One of the copies brings a content to a path, and none after it writes there. -/
def Refills : List (Copy α) → DirTree α → Pathname → α → Prop
  | [], _, _, _ => False
  | w :: copies, t, p, c =>
    (w.Delivers t p c ∧ ∀ w' ∈ copies, ¬ w'.WritesTo (apply t w) p) ∨
      Refills copies (apply t w) p c

/-- After the copies a content is where one of them has brought it, or where it has been and none
of them writes. -/
theorem foldl_file_iff : (copies.foldl apply t).node p = some (.file c) ↔
    Refills copies t p c ∨ t.node p = some (.file c) ∧ ∀ w ∈ copies, ¬ w.WritesTo t p := by
  induction copies generalizing t with
  | nil => simp [Refills]
  | cons w copies ih =>
    have hlater (ht : t.node p = some (.file c)) (hwrites : ¬ w.WritesTo t p) :
        (∀ w' ∈ copies, ¬ w'.WritesTo (apply t w) p) ↔ ∀ w' ∈ copies, ¬ w'.WritesTo t p := by
      have happlied := apply_file_iff.mpr (.inr ⟨ht, hwrites⟩)
      simp only [writesTo_congr happlied ht]
    rw [List.foldl_cons, ih, Refills, apply_file_iff, List.forall_mem_cons]
    constructor
    · rintro (hrefills | ⟨hdelivers | ⟨ht, hwrites⟩, hcopies⟩)
      · exact .inl (.inr hrefills)
      · exact .inl (.inl ⟨hdelivers, hcopies⟩)
      · exact .inr ⟨ht, hwrites, (hlater ht hwrites).mp hcopies⟩
    · rintro ((⟨hdelivers, hcopies⟩ | hrefills) | ⟨ht, hwrites, hcopies⟩)
      · exact .inr ⟨.inl hdelivers, hcopies⟩
      · exact .inl hrefills
      · exact .inr ⟨.inr ⟨ht, hwrites⟩, (hlater ht hwrites).mpr hcopies⟩

/-- The copy changes nothing outside of `/Extra`. -/
def IntoExtra (w : Copy α) : Prop :=
  ∀ (t : DirTree α), t.node [] = some .directory → ∀ p, ¬ ["Extra"] <+: p →
    (apply t w).node p = t.node p

theorem intoExtra_of_prefix (h : ["Extra"] <+: w.target.path) : w.IntoExtra :=
  fun _ _ _ hp => copySource_outside fun htarget => hp (h.trans htarget)

theorem foldl_outside (hinto : ∀ w ∈ copies, w.IntoExtra) (hroot : u.node [] = some .directory)
    (hp : ¬ ["Extra"] <+: p) : (copies.foldl apply u).node p = u.node p := by
  induction copies generalizing u with
  | nil => rfl
  | cons w copies ih =>
    obtain ⟨hw, hinto⟩ := List.forall_mem_cons.mp hinto
    rw [List.foldl_cons, ih hinto ((hw u hroot [] (by simp)).trans hroot)]
    exact hw u hroot p hp

end Copy

theorem extra_directory {t : DirTree α} {q : Pathname} {c : α} (hq : q ≠ [])
    (hfile : t.node ("Extra" :: q) = some (.file c)) :
    t.node ["Extra"] = some .directory := by
  have hsome : (t.node (["Extra"] ++ q)).isSome := by
    rw [List.singleton_append, hfile]
    rfl
  exact t.directory_of_append hq hsome

/-- `/Extra` is copied to its backup, removed, and filled again. -/
structure Replacement (α : Type*) where
  slash : Bool
  backup : CopyOutcomes α
  deleteExtra : DirTree.Removal
  makeExtra : CopyOutcomes α
  copies : List (Copy α)

namespace Replacement

variable {r : Replacement α} {t : DirTree α} {q : Pathname} {c : α}

def backupCopy (r : Replacement α) (t : DirTree α) : Copy α :=
  ⟨t.source ⟨["Extra"], r.slash⟩, ⟨["Extra.bak"], false⟩, r.backup⟩

def saved (r : Replacement α) (t : DirTree α) : DirTree α := Copy.apply t (r.backupCopy t)

def emptied (r : Replacement α) (t : DirTree α) : DirTree α :=
  makeDir (deleteFile (r.saved t) ⟨["Extra"], true⟩ r.deleteExtra) ⟨["Extra"], true⟩ r.makeExtra

def apply (r : Replacement α) (t : DirTree α) : DirTree α := r.copies.foldl Copy.apply (r.emptied t)

/-- The copy to the backup brings a content to its place there, or leaves it where it is. -/
def Saves (r : Replacement α) (t : DirTree α) (q : Pathname) (c : α) : Prop :=
  (r.backupCopy t).Delivers t ("Extra.bak" :: q) c ∨
    t.node ("Extra.bak" :: q) = some (.file c) ∧
      ¬ (r.backupCopy t).WritesTo t ("Extra.bak" :: q)

/-- A file of `/Extra` is neither removed nor written to. -/
def Leaves (r : Replacement α) (t : DirTree α) (q : Pathname) : Prop :=
  r.deleteExtra.removed q = false ∧ ∀ w ∈ r.copies, ¬ w.WritesTo t ("Extra" :: q)

/-- A later copy brings a content to its path. -/
def Refills (r : Replacement α) (t : DirTree α) (q : Pathname) (c : α) : Prop :=
  Copy.Refills r.copies (r.emptied t) ("Extra" :: q) c

/-- The removal of `/Extra` and a new one leave the backup as it is. -/
theorem remade_backup (u : DirTree α) (deleted : DirTree.Removal) (made : CopyOutcomes α)
    (q : Pathname) :
    (makeDir (deleteFile u ⟨["Extra"], true⟩ deleted) ⟨["Extra"], true⟩ made).node
      ("Extra.bak" :: q) = u.node ("Extra.bak" :: q) := by
  have hbackup : ¬ "Extra.bak" :: q <+: ["Extra"] := backup_not_above q []
  rw [makeDir_outside hbackup]
  exact deleteFile_outside (extra_not_above [] q)

theorem saved_extra (r : Replacement α) (t : DirTree α) (q : Pathname) :
    (r.saved t).node ("Extra" :: q) = t.node ("Extra" :: q) :=
  copySource_outside (backup_not_above [] q)

theorem emptied_root (hextra : t.node ["Extra"] = some .directory) :
    (r.emptied t).node [] = some .directory := by
  have hroot : t.node [] = some .directory := t.closed [] "Extra" (by simp [hextra])
  have hdeleted : (deleteFile (r.saved t) ⟨["Extra"], true⟩ r.deleteExtra).node [] =
      some .directory := by
    rw [deleteFile_outside (by simp), saved, Copy.apply, copySource_outside (by simp [backupCopy])]
    exact hroot
  rw [emptied, makeDir]
  split
  · exact hdeleted
  · exact (congrArg (copyNode _ · _) hdeleted).trans (copyNode_directory _ _)

theorem apply_backup (hinto : ∀ w ∈ r.copies, w.IntoExtra)
    (hextra : t.node ["Extra"] = some .directory) (q : Pathname) :
    (r.apply t).node ("Extra.bak" :: q) = (r.saved t).node ("Extra.bak" :: q) := by
  rw [apply, Copy.foldl_outside hinto (emptied_root hextra) (extra_not_above [] q)]
  exact remade_backup (r.saved t) r.deleteExtra r.makeExtra q

theorem emptied_extra (hextra : t.node ["Extra"] = some .directory) :
    (r.emptied t).node ("Extra" :: q) = some (.file c) ↔
      t.node ("Extra" :: q) = some (.file c) ∧ r.deleteExtra.removed q = false := by
  have hexists : (r.saved t).fileExists ⟨["Extra"], true⟩ = true := by
    rw [DirTree.fileExists]
    exact (DirTree.isDirectory_iff _ _).mpr ((r.saved_extra t []).trans hextra)
  rw [emptied, makeDir_file, deleteFile, if_pos hexists, DirTree.rm_file, saved_extra]
  simp

theorem backupCopy_exists (hextra : t.node ["Extra"] = some .directory) :
    (r.backupCopy t).source.tree.fileExists ⟨[], (r.backupCopy t).source.slash⟩ = true := by
  have hdirectory := (t.isDirectory_iff ["Extra"]).mpr hextra
  refine (t.source_fileExists ⟨["Extra"], r.slash⟩).trans ?_
  simp [DirTree.fileExists, hdirectory, hextra]

theorem apply_extra (hextra : t.node ["Extra"] = some .directory)
    (hfile : t.node ("Extra" :: q) = some (.file c)) :
    (r.apply t).node ("Extra" :: q) = some (.file c) ↔ r.Refills t q c ∨ r.Leaves t q := by
  rw [apply, Copy.foldl_file_iff, emptied_extra hextra, Refills, Leaves]
  constructor
  · rintro (hrefills | ⟨hemptied, hwrites⟩)
    · exact .inl hrefills
    · have hcongr (w : Copy α) := w.writesTo_congr ((emptied_extra hextra).mpr hemptied) hfile
      exact .inr ⟨hemptied.2, fun w hw => mt (hcongr w).mpr (hwrites w hw)⟩
  · rintro (hrefills | ⟨hremoved, hwrites⟩)
    · exact .inl hrefills
    · have hemptied := (emptied_extra (r := r) hextra).mpr ⟨hfile, hremoved⟩
      have hcongr (w : Copy α) := w.writesTo_congr hemptied hfile
      exact .inr ⟨⟨hfile, hremoved⟩, fun w hw => mt (hcongr w).mp (hwrites w hw)⟩

/-- A file of `/Extra` is saved, left, or replaced by one with the same content. -/
def Keeps (r : Replacement α) (t : DirTree α) (q : Pathname) (c : α) : Prop :=
  r.Saves t q c ∨ r.Leaves t q ∨ r.Refills t q c

theorem apply_keeps_iff (hinto : ∀ w ∈ r.copies, w.IntoExtra)
    (hextra : t.node ["Extra"] = some .directory)
    (hfile : t.node ("Extra" :: q) = some (.file c)) :
    (r.apply t).node ("Extra" :: q) = some (.file c) ∨
      (r.apply t).node ("Extra.bak" :: q) = some (.file c) ↔ r.Keeps t q c := by
  have hsaves : (r.apply t).node ("Extra.bak" :: q) = some (.file c) ↔ r.Saves t q c := by
    rw [apply_backup hinto hextra]
    exact Copy.apply_file_iff
  rw [apply_extra hextra hfile, hsaves, Keeps]
  constructor
  · rintro ((hrefills | hleaves) | hsaves)
    · exact .inr (.inr hrefills)
    · exact .inr (.inl hleaves)
    · exact .inl hsaves
  · rintro (hsaves | hleaves | hrefills)
    · exact .inr hsaves
    · exact .inl (.inr hleaves)
    · exact .inl (.inl hrefills)

/-- Every file of `/Extra` is kept. -/
def Safe (r : Replacement α) (t : DirTree α) : Prop :=
  ∀ q c, q ≠ [] → t.node ("Extra" :: q) = some (.file c) → r.Keeps t q c

/-- Nothing can be lost once the copy to the backup succeeds. -/
theorem safe_of_backup (hbackup : r.backup = .all)
    (hdestination : t.destination (t.source ⟨["Extra"], r.slash⟩) ⟨["Extra.bak"], false⟩ =
      some ["Extra.bak"])
    (hcompatible : DirTree.Compatible (t.sub ["Extra"]) (t.sub ["Extra.bak"])) : r.Safe t := by
  intro q c hq hfile
  have hextra := extra_directory hq hfile
  have hsome : ((t.sub ["Extra"]).node q).isSome := by
    rw [DirTree.node_sub, List.singleton_append, hfile]
    rfl
  have hbrings : DirTree.Brings (t.sub ["Extra"]) (t.sub ["Extra.bak"]) r.backup q c := by
    refine ⟨?_, ?_, ?_⟩
    · rw [hbackup]
      exact DirTree.reaches_all hcompatible hsome
    · intro hdirectory
      exact (hcompatible q).2 hdirectory c hfile
    · rw [hbackup, DirTree.node_sub, List.singleton_append, hfile]
      rfl
  have hroot : t.isDirectory [] = true := t.isDirectory_root (by rw [hextra]; rfl)
  left
  left
  exact ⟨backupCopy_exists hextra, ["Extra.bak"], q, hdestination, rfl, .inr hroot, hbrings⟩

end Replacement

/-- Every file of `/Extra` is there or at its place in the backup. -/
def Kept (t u : DirTree α) : Prop :=
  ∀ q c, q ≠ [] → t.node ("Extra" :: q) = some (.file c) →
    u.node ("Extra" :: q) = some (.file c) ∨ u.node ("Extra.bak" :: q) = some (.file c)

/-- A part of the backup that is copied back. -/
structure Part (α : Type*) where
  name : String
  slash : Bool
  target : Operand
  outcomes : CopyOutcomes α

namespace Part

variable {t u : DirTree α} {parts : List (Part α)}

def copyBack (t : DirTree α) (f : Part α) : DirTree α :=
  copyFrom t ⟨["Extra.bak", f.name], f.slash⟩ f.target f.outcomes

def copy (t : DirTree α) (f : Part α) : Copy α :=
  ⟨t.source ⟨["Extra.bak", f.name], f.slash⟩, f.target, f.outcomes⟩

/-- The part goes to `/Extra`. -/
def Restored (f : Part α) : Prop := ["Extra"] <+: f.target.path

theorem target_outside {f : Part α} (hf : f.Restored) (q : Pathname) :
    ¬ f.target.path <+: "Extra.bak" :: q :=
  fun h => extra_not_above [] q (hf.trans h)

theorem copyBack_copy (h : ∀ q, u.node ("Extra.bak" :: q) = t.node ("Extra.bak" :: q))
    (f : Part α) : copyBack u f = Copy.apply u (f.copy t) := by
  have hsub : u.sub ["Extra.bak", f.name] = t.sub ["Extra.bak", f.name] := by
    ext1
    funext q
    exact h (f.name :: q)
  rw [copyBack, copyFrom, DirTree.source, hsub]
  rfl

/-- The parts come from the backup as it was before the first of them. -/
theorem foldl_copyBack (hparts : ∀ f ∈ parts, f.Restored)
    (h : ∀ q, u.node ("Extra.bak" :: q) = t.node ("Extra.bak" :: q)) :
    parts.foldl copyBack u = (parts.map (copy t)).foldl Copy.apply u := by
  induction parts generalizing u with
  | nil => rfl
  | cons f parts ih =>
    obtain ⟨hf, hparts⟩ := List.forall_mem_cons.mp hparts
    rw [List.foldl_cons, List.map_cons, List.foldl_cons, ← copyBack_copy h]
    apply ih hparts
    intro q
    exact (copyFrom_outside (target_outside hf q)).trans (h q)

theorem foldl_copyBack_of_not_directory (h : t.isDirectory ["Extra.bak"] = false) :
    parts.foldl copyBack t = t := by
  induction parts with
  | nil => rfl
  | cons f parts ih =>
    have hnone : t.node ["Extra.bak", f.name] = none := by
      by_contra hne
      have hdirectory := t.closed ["Extra.bak"] f.name (Option.isSome_iff_ne_none.mpr hne)
      rw [(t.isDirectory_iff _).mpr hdirectory] at h
      cases h
    have hexists : ¬ t.fileExists ⟨["Extra.bak", f.name], f.slash⟩ = true := by
      simp [DirTree.fileExists, DirTree.isDirectory, hnone]
    have hf : copyBack t f = t := by
      rw [copyBack, copyFrom, copySource]
      exact if_neg (by rwa [← DirTree.source_fileExists] at hexists)
    rw [List.foldl_cons, hf, ih]

end Part

variable {t : DirTree α} {q : Pathname} {c : α}

/-- What `removePrevExtra` copies back. -/
def restoredParts (o : RestoreOutcomes α) : List (Part α) :=
  [⟨"DSDT.aml", false, ⟨["Extra", "DSDT.aml"], false⟩, o.dsdt⟩,
    ⟨"Extensions.mkext", false, ⟨["Extra"], true⟩, o.extensionsMkext⟩,
    ⟨"AdditionalExtensions", true, ⟨["Extra", "AdditionalExtensions"], true⟩,
      o.additionalExtensions⟩,
    ⟨"NetbookInstaller.img", false, ⟨["Extra"], true⟩, o.netbookInstallerImg⟩,
    ⟨"UpdateExtra.app", true, ⟨["Extra", "UpdateExtra.app"], true⟩, o.updateExtraApp⟩]

/-- What `copyMachineFilesFrom:toDir:` copies. -/
def machineCopies (support : SupportFiles α) (o : MachineFilesOutcomes α) : List (Copy α) :=
  (support.general.toList.map fun general =>
    ⟨⟨general, "ExtraFiles", true⟩, ⟨["Extra"], true⟩, o.general⟩) ++
  [⟨⟨support.machine, "ExtraFiles", true⟩, ⟨["Extra"], true⟩, o.machine⟩]

/-- What `removePrevExtra` does after `prepareBackup`. -/
def prevExtra (t : DirTree α) (support : SupportFiles α) (o : RemovePrevExtraOutcomes α) :
    Replacement α where
  slash := true
  backup := o.save.backup
  deleteExtra := o.deleteExtra
  makeExtra := o.makeExtra
  copies := (restoredParts o.restore).map (Part.copy (saveExtra t o.save)) ++
    machineCopies support o.machineFiles

/-- What `installBootdisk:toDrive:` does. -/
def bootdiskExtra (t image : DirTree α) (o : BootdiskOutcomes α) : Replacement α where
  slash := false
  backup := o.backup
  deleteExtra := o.deleteExtra
  makeExtra := o.makeExtra
  copies := [Part.copy (copyFrom t ⟨["Extra"], false⟩ ⟨["Extra.bak"], false⟩ o.backup)
      ⟨"AdditionalExtensions", false, ⟨["Extra"], true⟩, o.additionalExtensions⟩,
    ⟨⟨image, "Extra", false⟩, ⟨[], true⟩, o.image⟩]

theorem restoredParts_restored (o : RestoreOutcomes α) : ∀ f ∈ restoredParts o, f.Restored := by
  simp [restoredParts, Part.Restored]

theorem copyMachineFilesFrom_eq (t : DirTree α) (support : SupportFiles α)
    (o : MachineFilesOutcomes α) : copyMachineFilesFrom t support ⟨["Extra"], true⟩ o =
      (machineCopies support o).foldl Copy.apply t := by
  rcases support with ⟨- | general, machine⟩ <;> rfl

theorem removePrevExtra_eq (hextra : t.node ["Extra"] = some .directory)
    (support : SupportFiles α) (o : RemovePrevExtraOutcomes α) :
    removePrevExtra t support o = (prevExtra t support o).apply (prepareBackup t o.save) := by
  have hexists : t.fileExists ⟨["Extra"], true⟩ = true := (t.isDirectory_iff _).mpr hextra
  have hrestore (u : DirTree α) (hu : ∀ q, u.node ("Extra.bak" :: q) =
      (saveExtra t o.save).node ("Extra.bak" :: q)) :
      (if u.fileExists ⟨["Extra.bak"], true⟩ then restorePart u o.restore else u) =
        ((restoredParts o.restore).map (Part.copy (saveExtra t o.save))).foldl Copy.apply u := by
    rw [← Part.foldl_copyBack (restoredParts_restored _) hu]
    split
    next => rfl
    next hbackup => exact (Part.foldl_copyBack_of_not_directory (by
      simpa [DirTree.fileExists] using hbackup)).symm
  rw [removePrevExtra, if_pos hexists, hrestore, copyMachineFilesFrom_eq, ← List.foldl_append]
  · rfl
  · exact Replacement.remade_backup _ _ _

theorem installBootdiskExtra_eq (t image : DirTree α) (o : BootdiskOutcomes α) :
    installBootdiskExtra t image o = (bootdiskExtra t image o).apply t := by
  have hpart (u : DirTree α) (hu : ∀ q, u.node ("Extra.bak" :: q) =
      (copyFrom t ⟨["Extra"], false⟩ ⟨["Extra.bak"], false⟩ o.backup).node ("Extra.bak" :: q)) :=
    Part.copyBack_copy hu ⟨"AdditionalExtensions", false, ⟨["Extra"], true⟩, o.additionalExtensions⟩
  rw [installBootdiskExtra]
  apply congrArg (Copy.apply · ⟨⟨image, "Extra", false⟩, ⟨[], true⟩, o.image⟩)
  exact hpart _ (Replacement.remade_backup _ _ _)

theorem prevExtra_intoExtra (t : DirTree α) (support : SupportFiles α)
    (o : RemovePrevExtraOutcomes α) : ∀ w ∈ (prevExtra t support o).copies, w.IntoExtra := by
  intro w hw
  apply Copy.intoExtra_of_prefix
  rcases List.mem_append.mp hw with hpart | hmachine
  · obtain ⟨f, hf, rfl⟩ := List.mem_map.mp hpart
    exact restoredParts_restored _ f hf
  · rcases List.mem_append.mp hmachine with hgeneral | hmachine
    · obtain ⟨general, -, rfl⟩ := List.mem_map.mp hgeneral
      exact List.prefix_refl _
    · rcases List.mem_singleton.mp hmachine with rfl
      exact List.prefix_refl _

/-- The `Extra` of the image goes to `/Extra`. -/
theorem image_intoExtra (image : DirTree α) (o : CopyOutcomes α) :
    Copy.IntoExtra ⟨⟨image, "Extra", false⟩, ⟨[], true⟩, o⟩ := by
  intro t hroot p hp
  rw [Copy.apply, copySource]
  split
  · have hdestination : t.destination ⟨image, "Extra", false⟩ ⟨[], true⟩ = some ["Extra"] := by
      rw [DirTree.destination, hroot]
      rfl
    rw [DirTree.cp, hdestination]
    exact DirTree.node_graft_outside _ _ hp
  · rfl

theorem bootdiskExtra_intoExtra (t image : DirTree α) (o : BootdiskOutcomes α) :
    ∀ w ∈ (bootdiskExtra t image o).copies, w.IntoExtra := by
  simp only [bootdiskExtra, List.forall_mem_cons]
  refine ⟨Copy.intoExtra_of_prefix (List.prefix_refl _), image_intoExtra _ _, ?_⟩
  simp

theorem file_of_prepareBackup {o : BackupOutcomes α} {p : Pathname}
    (h : (prepareBackup t o).node p = some (.file c)) : t.node p = some (.file c) := by
  have hmade := file_of_deleteFile h
  split at hmade
  · exact hmade
  · exact makeDir_file.mp hmade

theorem kept_iff_of_file {u : DirTree α} {P : Pathname → α → Prop}
    (h : ∀ q c, q ≠ [] → t.node ("Extra" :: q) = some (.file c) →
      (u.node ("Extra" :: q) = some (.file c) ∨ u.node ("Extra.bak" :: q) = some (.file c) ↔
        P q c)) :
    Kept t u ↔ ∀ q c, q ≠ [] → t.node ("Extra" :: q) = some (.file c) → P q c := by
  constructor
  · intro hkept q c hq hfile
    exact (h q c hq hfile).mp (hkept q c hq hfile)
  · intro hsafe q c hq hfile
    exact (h q c hq hfile).mpr (hsafe q c hq hfile)

theorem removePrevExtra_kept_iff (t : DirTree α) (support : SupportFiles α)
    (o : RemovePrevExtraOutcomes α) : Kept t (removePrevExtra t support o) ↔
      (prevExtra t support o).Safe (prepareBackup t o.save) := by
  simp only [Replacement.Safe, prepareBackup_extra]
  apply kept_iff_of_file
  intro q c hq hfile
  have hextra := extra_directory hq hfile
  rw [removePrevExtra_eq hextra]
  rw [← prepareBackup_extra t o.save] at hextra hfile
  exact Replacement.apply_keeps_iff (prevExtra_intoExtra t support o) hextra hfile

theorem installBootdiskExtra_kept_iff (t image : DirTree α) (o : BootdiskOutcomes α) :
    Kept t (installBootdiskExtra t image o) ↔ (bootdiskExtra t image o).Safe t := by
  rw [installBootdiskExtra_eq]
  apply kept_iff_of_file
  intro q c hq hfile
  exact Replacement.apply_keeps_iff (bootdiskExtra_intoExtra t image o) (extra_directory hq hfile)
    hfile

/-- Whatever the commands do, a file of `/Extra` is lost exactly if it is neither saved nor left
nor replaced by one with the same content. -/
theorem extraFiles_kept_iff (t : DirTree α) :
    (∀ (support : SupportFiles α) (o : RemovePrevExtraOutcomes α),
      Kept t (removePrevExtra t support o) ↔
        (prevExtra t support o).Safe (prepareBackup t o.save)) ∧
    ∀ (image : DirTree α) (o : BootdiskOutcomes α),
      Kept t (installBootdiskExtra t image o) ↔ (bootdiskExtra t image o).Safe t :=
  ⟨removePrevExtra_kept_iff t, installBootdiskExtra_kept_iff t⟩

/-- An `/Extra` with one file. -/
def oneFile : DirTree ℕ := .ofFiles [(["Extra", "DSDT.aml"], 1)]

/-- The same next to an older backup. -/
def twoBackups : DirTree ℕ :=
  .ofFiles [(["Extra", "DSDT.aml"], 1), (["Extra.bak", "com.apple.Boot.plist"], 2)]

/-- All commands succeed up to the copies back to `/Extra`, which do nothing. -/
def onlySaved : RemovePrevExtraOutcomes ℕ :=
  let failed : CopyOutcomes ℕ := fun _ => .untouched
  ⟨⟨.all, .all, .all⟩, .all, .all, ⟨failed, failed, failed, failed, failed⟩, ⟨failed, failed⟩⟩

/-- Only the copy to the backup fails. -/
def notSaved : RemovePrevExtraOutcomes ℕ :=
  ⟨⟨.all, .all, fun _ => .untouched⟩, .all, .all, ⟨.all, .all, .all, .all, .all⟩, ⟨.all, .all⟩⟩

theorem onlySaved_kept : Kept oneFile (removePrevExtra oneFile ⟨none, .absent⟩ onlySaved) := by
  apply ((extraFiles_kept_iff oneFile).1 ⟨none, .absent⟩ onlySaved).mpr
  apply Replacement.safe_of_backup rfl (by decide)
  have hfiles (p : Pathname) (c : ℕ) (hprepared : (prepareBackup oneFile onlySaved.save).node p =
      some (.file c)) : (p, c) ∈ [(["Extra", "DSDT.aml"], 1)] :=
    DirTree.ofFiles_file (file_of_prepareBackup hprepared)
  intro q
  constructor
  · intro _ c hold
    have hmem := hfiles _ c hold
    simp at hmem
  · intro hdirectory c hfile
    have hmem := hfiles _ c hfile
    simp only [List.singleton_append, List.mem_singleton, Prod.mk.injEq, List.cons.injEq,
      true_and] at hmem
    rw [hmem.1] at hdirectory
    exact absurd hdirectory (by decide)

/-- A failed copy loses the file, and on a boot disk with a backup even a copy that succeeds does
not put it where it belongs. -/
theorem notSaved_not_kept :
    ¬ Kept oneFile (removePrevExtra oneFile ⟨none, .absent⟩ notSaved) ∧
    ¬ Kept twoBackups (installBootdiskExtra twoBackups (.ofFiles [(["Extensions.mkext"], 3)])
      ⟨.all, .all, .all, .all, .all⟩) := by
  constructor
  · intro hkept
    exact absurd (hkept ["DSDT.aml"] 1 (by simp) (by decide)) (by decide)
  · intro hkept
    exact absurd (hkept ["DSDT.aml"] 1 (by simp) (by decide)) (by decide)

end Installer
