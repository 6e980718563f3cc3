import NetbookInstaller.FileTree.Moves
import NetbookInstaller.Installer.ExtraBackup
import NetbookInstaller.Installer.RunCommand

/-! What the installer's file operations return, against what they leave behind. -/
namespace Installer.ReturnValues

open FileTree

variable {α ο σ : Type*}

/-- A return value, and what is left behind. -/
structure Reply (σ : Type*) where
  returnVal : Bool
  after : σ

/-- YES stands for that the postcondition holds, and NO for that it does not. -/
def Reply.Tells (r : Reply σ) (post : σ → Prop) : Prop := r.returnVal = true ↔ post r.after

/-- `runCMD:withArgs:` returns a string for every command that could be started. -/
def runCMD (t : σ) (run : Option ο) (command : ο → σ) : Reply σ :=
  match run with
  | none => ⟨false, t⟩
  | some o => ⟨true, command o⟩

def copyFrom (t : DirTree α) (source destination : Operand) (run : Option (CopyOutcomes α)) :
    Reply (DirTree α) :=
  if t.fileExists source then
    let reply := runCMD t run fun o => t.cp (t.source source) destination o
    { reply with returnVal := reply.returnVal && reply.after.fileExists destination }
  else ⟨false, t⟩

def moveFrom (t : DirTree α) (source destination : Operand)
    (run : Option (DirTree.MoveOutcome α)) : Reply (DirTree α) :=
  if t.fileExists source then
    let reply := runCMD t run fun o => t.mv source destination o
    -- This doesn't actualy check that it worked
    { reply with returnVal := reply.after.fileExists destination }
  else ⟨false, t⟩

def makeDir (t : DirTree α) (dir : Operand) (run : Option (CopyOutcomes α)) :
    Reply (DirTree α) :=
  if t.fileExists dir then ⟨true, t⟩
  else
    let reply := runCMD t run fun o => t.mkdir dir.path o
    if reply.after.fileExists dir then { reply with returnVal := false } else reply

def deleteFile (t : DirTree α) (file : Operand) (run : Option DirTree.Removal) :
    Reply (DirTree α) :=
  if t.fileExists file then
    let reply := runCMD t run fun r => t.rm file.path r
    if reply.after.fileExists file then reply else { reply with returnVal := true }
  else ⟨true, t⟩

/-! What is left behind is what the same operations leave without their return values. -/

theorem copyFrom_after (t : DirTree α) (source destination : Operand) (o : CopyOutcomes α) :
    (copyFrom t source destination (some o)).after =
      Installer.copyFrom t source destination o := by
  have hexists := t.source_fileExists source
  unfold copyFrom Installer.copyFrom copySource
  split
  next hsource => exact (if_pos (hexists.trans hsource)).symm
  next hsource => exact (if_neg fun h => hsource (hexists.symm.trans h)).symm

theorem makeDir_after (t : DirTree α) (dir : Operand) (o : CopyOutcomes α) :
    (makeDir t dir (some o)).after = Installer.makeDir t dir o := by
  unfold makeDir Installer.makeDir
  split
  · rfl
  · dsimp only
    split <;> rfl

theorem deleteFile_after (t : DirTree α) (file : Operand) (r : DirTree.Removal) :
    (deleteFile t file (some r)).after = Installer.deleteFile t file r := by
  unfold deleteFile Installer.deleteFile
  split
  · dsimp only
    split <;> rfl
  · rfl

/-- A file tree with the flag `UF_HIDDEN` of its paths. -/
structure Volume (α : Type*) where
  tree : DirTree α
  hidden : Pathname → Bool

/-- What becomes of `chflags` of the target, and of `/usr/bin/chflags`, which is run if the
first could not be started: whether each succeeds. -/
structure ChflagsRuns where
  target : Option Bool
  own : Option Bool
  deriving DecidableEq, Repr

/-- `cStringUsingEncoding:NSASCIIStringEncoding` of a path is not `NULL`. -/
def IsAscii (path : Pathname) : Prop := ∀ n ∈ path, (cString n.toList).isSome = true

instance (path : Pathname) : Decidable (IsAscii path) :=
  inferInstanceAs (Decidable (∀ n ∈ path, _))

namespace Volume

def chflags (v : Volume α) (hidden : Bool) (path : Operand) (succeeds : Bool) : Volume α :=
  if succeeds && v.tree.fileExists path then
    { v with hidden := fun q => if q = path.path then hidden else v.hidden q }
  else v

def runChflags (v : Volume α) (hidden : Bool) (path : Operand) (runs : ChflagsRuns) : Volume α :=
  let target := runCMD v runs.target (v.chflags hidden path)
  if target.returnVal then target.after
  else (runCMD target.after runs.own (target.after.chflags hidden path)).after

/-- `stat` without a path leaves `fileStatus` as it is. -/
def hiddenStateOfPath (v : Volume α) (path : Operand) (fileStatus : Bool) : Bool :=
  if v.tree.fileExists path then
    if IsAscii path.path then v.hidden path.path else fileStatus
  else true

def hidePath (v : Volume α) (path : Operand) (runs : ChflagsRuns) (fileStatus : Bool) :
    Reply (Volume α) :=
  let v := v.runChflags true path runs
  ⟨v.hiddenStateOfPath path fileStatus, v⟩

def showPath (v : Volume α) (path : Operand) (runs : ChflagsRuns) (fileStatus : Bool) :
    Reply (Volume α) :=
  let v := v.runChflags false path runs
  ⟨!v.hiddenStateOfPath path fileStatus, v⟩

end Volume

/-- `stringByAppendingString:` to the install path. -/
def below (installPath : Pathname) (name : String) : Operand := ⟨installPath ++ [name], false⟩

/-- One after the other, each `&=` of `returnVal`. -/
def hideFiles (v : Volume α) (installPath : Pathname) (runs : String → ChflagsRuns)
    (fileStatus : String → Bool) : Reply (Volume α) :=
  ["boot", "Extra", "Extra.bak"].foldl (fun reply name =>
    let hide := reply.after.hidePath (below installPath name) (runs name) (fileStatus name)
    ⟨reply.returnVal && hide.returnVal, hide.after⟩) ⟨true, v⟩

def showFiles (v : Volume α) (installPath : Pathname) (runs : String → ChflagsRuns)
    (fileStatus : String → Bool) : Reply (Volume α) :=
  ["boot", "Extra", "Extra.bakb"].foldl (fun reply name =>
    let noHide := reply.after.showPath (below installPath name) (runs name) (fileStatus name)
    ⟨reply.returnVal && !noHide.returnVal, noHide.after⟩) ⟨true, v⟩

/-! The postconditions. -/

/-- The source, as it was, is copied to the destination. -/
def Copied (t : DirTree α) (source destination : Operand) (u : DirTree α) : Prop :=
  t.fileExists source = true ∧ ∃ d, t.destination (t.source source) destination = some d ∧
    u.Holds d (t.sub source.path)

/-- The source is gone, and the destination holds its content. -/
def Moved (t : DirTree α) (source destination : Operand) (u : DirTree α) : Prop :=
  t.fileExists source = true ∧ u.fileExists source = false ∧
    ∃ d, t.destination (t.moved source.path) destination = some d ∧ u.Holds d (t.sub source.path)

namespace Volume

/-- A missing path counts as hidden. -/
def Hidden (v : Volume α) (path : Operand) : Prop :=
  v.tree.fileExists path = true → v.hidden path.path = true

def Shown (v : Volume α) (path : Operand) : Prop :=
  v.tree.fileExists path = true ∧ v.hidden path.path = false

instance (v : Volume α) (path : Operand) : Decidable (v.Shown path) :=
  inferInstanceAs (Decidable (_ ∧ _))

end Volume

/-! When they are told. -/

/-- A copy that leaves something at the destination is complete. -/
def CopyTold (t : DirTree α) (source destination : Operand) : Option (CopyOutcomes α) → Prop
  | none => ∀ d, t.destination (t.source source) destination = some d →
      ¬ t.Holds d (t.sub source.path)
  | some o => ∀ d, t.destination (t.source source) destination = some d →
      (d = [] ∨ t.isDirectory d.dropLast = true) →
      (t.isDirectory destination.path = true ∨
        (copyNode (t.node source.path) (t.node d) (o [])).isSome = true) →
      CopyComplete (t.sub source.path).node (t.sub d).node o

/-- A move is made, or there is nothing at the destination. Across volumes that is a copy
which is complete, with a removal that is. -/
def MoveTold (t : DirTree α) (source destination : Operand) :
    Option (DirTree.MoveOutcome α) → Prop
  | some .renamed =>
    (t.moveTarget source destination).isSome = true ∨ t.fileExists destination = false
  | some (.copied copy removal) =>
    match t.moveTarget source destination with
    | none => t.fileExists destination = false
    | some d =>
      if t.isDirectory d then t.fileExists destination = false
      else
        (t.isDirectory destination.path = true ∨
            (copyNode (t.node source.path) (t.node d) (copy [])).isSome = true) →
          CopyComplete (t.sub source.path).node (t.sub d).node copy ∧ removal.removed [] = true
  | _ => t.fileExists destination = false

/-- What is there is a directory; what is not cannot be made. -/
def MakeDirTold (t : DirTree α) (dir : Operand) (run : Option (CopyOutcomes α)) : Prop :=
  if t.fileExists dir then t.isDirectory dir.path = true else run = none

/-- The removal, if it could be started, comes to its end. -/
def DeleteTold (run : Option DirTree.Removal) : Prop := ∀ r, run = some r → r.removed [] = true

def ChflagsRuns.succeeds (runs : ChflagsRuns) : Bool :=
  match runs.target with
  | some succeeds => succeeds
  | none => runs.own.getD false

/-- The path is there, and the flag is cleared or has not been set. -/
def Volume.GetsShown (v : Volume α) (path : Operand) (runs : ChflagsRuns) : Prop :=
  v.tree.fileExists path = true ∧ (runs.succeeds = true ∨ v.hidden path.path = false)

section Trees

variable (t : DirTree α) (source destination : Operand)

/-- A complete copy leaves something at its destination. -/
theorem copyComplete_root {dst : DirTree α} {o : CopyOutcomes α} {p : Pathname}
    (hsource : (t.node p).isSome) (h : CopyComplete (t.sub p).node dst.node o) :
    copyNode (t.node p) (dst.node []) (o []) = t.node p := by
  have hroot := h []
  rw [DirTree.node_sub, List.append_nil] at hroot
  exact hroot hsource

theorem source_root : (t.source source).tree.node [] = t.node source.path := by
  show t.node (source.path ++ []) = _
  rw [List.append_nil]

theorem copyFrom_tells_iff (run : Option (CopyOutcomes α)) :
    (copyFrom t source destination run).Tells (Copied t source destination) ↔
      (t.fileExists source = true → CopyTold t source destination run) := by
  unfold copyFrom Reply.Tells Copied
  by_cases hsource : t.fileExists source = true
  · have hsome := DirTree.isSome_of_fileExists hsource
    rw [forall_prop_of_true hsource, if_pos hsource]
    cases run with
    | none =>
      simp only [runCMD, CopyTold, Bool.false_and, Bool.false_eq_true, false_iff, not_and,
        not_exists, hsource, true_and]
    | some o =>
      simp only [runCMD, CopyTold, Bool.true_and, hsource, true_and]
      cases hd : t.destination (t.source source) destination with
      | none =>
        have hkept : t.cp (t.source source) destination o = t := by rw [DirTree.cp, hd]
        rw [hkept, DirTree.not_fileExists_of_no_destination hd]
        simp
      | some d =>
        simp only [Option.some.injEq, exists_eq_left', forall_eq']
        by_cases hparent : d = [] ∨ t.isDirectory d.dropLast = true
        · have hholds : (t.cp (t.source source) destination o).Holds d (t.sub source.path) ↔ _ :=
            DirTree.cp_holds_iff hd hparent
          have hmade : CopyComplete (t.sub source.path).node (t.sub d).node o →
              (copyNode (t.node source.path) (t.node d) (o [])).isSome = true := by
            intro hcomplete
            have hroot := copyComplete_root t hsome hcomplete
            rw [DirTree.node_sub, List.append_nil] at hroot
            rwa [hroot]
          rw [DirTree.cp_fileExists hd hparent, forall_prop_of_true hparent, hholds,
            source_root]
          exact ⟨fun h => h.mp, fun h => ⟨h, fun hcomplete => .inr (hmade hcomplete)⟩⟩
        · rw [DirTree.cp_of_not_parent hd hparent]
          have hexists : ¬ t.fileExists destination = true := fun h =>
            hparent (DirTree.parent_of_destination hd h)
          have hholds : ¬ t.Holds d (t.sub source.path) := by
            intro h
            have hroot := h [] (by rwa [DirTree.node_sub, List.append_nil])
            rw [DirTree.node_sub, List.append_nil, List.append_nil] at hroot
            exact hparent (DirTree.parent_of_node (hroot ▸ hsome))
          simp [hexists, hholds, hparent]
  · rw [if_neg hsource]
    simp [hsource]

/-- A source that stays has not been moved. -/
theorem tells_unmoved (hsource : t.fileExists source = true) :
    (Reply.mk (t.fileExists destination) t).Tells (Moved t source destination) ↔
      t.fileExists destination = false := by
  unfold Reply.Tells Moved
  simp [hsource]

theorem moveFrom_tells_iff (run : Option (DirTree.MoveOutcome α)) :
    (moveFrom t source destination run).Tells (Moved t source destination) ↔
      (t.fileExists source = true → MoveTold t source destination run) := by
  by_cases hsource : t.fileExists source = true
  · have hsome := DirTree.isSome_of_fileExists hsource
    rw [forall_prop_of_true hsource]
    unfold moveFrom
    rw [if_pos hsource]
    rcases run with - | (- | - | ⟨copy, removal⟩)
    · exact tells_unmoved t source destination hsource
    · cases hd : t.moveTarget source destination with
      | none =>
        have hkept : t.mv source destination .renamed = t := by
          unfold DirTree.mv
          rw [hd]
        simp only [runCMD, hkept, MoveTold, hd]
        rw [tells_unmoved t source destination hsource]
        simp
      | some d =>
        obtain ⟨hgone, hholds, hexists⟩ := DirTree.mv_renamed hd hsome
        have hdestination := (DirTree.moveTarget_spec hd).1
        simp only [runCMD, MoveTold, hd, Option.isSome_some, true_or, iff_true]
        exact iff_of_true hexists ⟨hsource, hgone, d, hdestination, hholds⟩
    · have hkept : t.mv source destination .refused = t := by
        unfold DirTree.mv
        cases t.moveTarget source destination <;> rfl
      simp only [runCMD, hkept]
      exact tells_unmoved t source destination hsource
    · cases hd : t.moveTarget source destination with
      | none =>
        have hkept : t.mv source destination (.copied copy removal) = t := by
          unfold DirTree.mv
          rw [hd]
        simp only [runCMD, hkept, MoveTold, hd]
        exact tells_unmoved t source destination hsource
      | some d =>
        by_cases hdirectory : t.isDirectory d = true
        · have hkept : t.mv source destination (.copied copy removal) = t := by
            unfold DirTree.mv
            rw [hd]
            exact if_pos hdirectory
          simp only [runCMD, hkept, MoveTold, hd, hdirectory, if_true]
          exact tells_unmoved t source destination hsource
        · obtain ⟨hgone, hholds, hexists⟩ := DirTree.mv_copied (o := copy) (r := removal) hd
            (Bool.not_eq_true _ ▸ hdirectory) hsource
          have hdestination := (DirTree.moveTarget_spec hd).1
          have hmade : CopyComplete (t.sub source.path).node (t.sub d).node copy →
              (copyNode (t.node source.path) (t.node d) (copy [])).isSome = true := by
            intro hcomplete
            have hroot := copyComplete_root t hsome hcomplete
            rw [DirTree.node_sub, List.append_nil] at hroot
            rwa [hroot]
          simp only [runCMD, MoveTold, hd, hdirectory]
          unfold Reply.Tells Moved
          simp only [hsource, hgone, hdestination, Option.some.injEq, exists_eq_left', hholds,
            hexists, true_and, Bool.not_eq_false']
          constructor
          · intro h hthere
            exact (h.mp hthere).symm
          · intro h
            exact ⟨fun hthere => (h hthere).symm, fun hmoved => .inr (hmade hmoved.2)⟩
  · unfold moveFrom Reply.Tells Moved
    rw [if_neg hsource]
    simp [hsource]

/-- `mkdir` of a path that is not there makes a directory or nothing. -/
theorem mkdir_fileExists {dir : Operand} (h : t.fileExists dir = false) (o : CopyOutcomes α) :
    (t.mkdir dir.path o).fileExists dir = (t.mkdir dir.path o).isDirectory dir.path := by
  have hnode : (t.mkdir dir.path o).node dir.path =
      copyNodes (DirTree.directories dir.path).node t.node o dir.path := rfl
  unfold DirTree.fileExists at h ⊢
  split
  next => rfl
  next hslash =>
    rw [if_neg hslash, Option.isSome_eq_false_iff, Option.isNone_iff_eq_none] at h
    have hdirectory : (DirTree.directories dir.path : DirTree α).node dir.path = some .directory :=
      if_pos (List.prefix_refl _)
    unfold DirTree.isDirectory
    rw [hnode]
    by_cases hreaches : Reaches (DirTree.directories dir.path).node t.node o dir.path
    · rw [copyNodes_of_reaches hreaches, hdirectory, h]
      cases o dir.path <;> rfl
    · rw [copyNodes_of_not_reaches hreaches, h]
      rfl

theorem makeDir_tells_iff (dir : Operand) (run : Option (CopyOutcomes α)) :
    (makeDir t dir run).Tells (fun u => u.isDirectory dir.path = true) ↔
      MakeDirTold t dir run := by
  unfold makeDir MakeDirTold Reply.Tells
  by_cases hexists : t.fileExists dir = true
  · simp only [if_pos hexists, true_iff]
  · rw [if_neg hexists, if_neg hexists]
    rw [Bool.not_eq_true] at hexists
    cases run with
    | none =>
      have hnot : ¬ t.isDirectory dir.path = true := by
        intro h
        rw [DirTree.fileExists_of_directory ((t.isDirectory_iff _).mp h)] at hexists
        cases hexists
      simp [runCMD, hexists, hnot]
    | some o =>
      have hafter := mkdir_fileExists t hexists o
      cases hmade : (t.mkdir dir.path o).isDirectory dir.path <;> simp [runCMD, hafter, hmade]

theorem deleteFile_tells_iff (file : Operand) (run : Option DirTree.Removal) :
    (deleteFile t file run).Tells (fun u => u.fileExists file = false) ↔
      (t.fileExists file = true → DeleteTold run) := by
  unfold deleteFile DeleteTold Reply.Tells
  by_cases hexists : t.fileExists file = true
  · rw [forall_prop_of_true hexists, if_pos hexists]
    cases run with
    | none => simp [runCMD, hexists]
    | some r =>
      have hafter := DirTree.rm_fileExists hexists r
      cases hgone : r.removed [] <;> simp [runCMD, hafter, hgone]
  · rw [if_neg hexists]
    simp [hexists]

end Trees

section Flags

variable (v : Volume α) (path : Operand) (runs : ChflagsRuns)

/-- The two runs together are one that succeeds or not. -/
theorem runChflags_eq (hidden : Bool) :
    v.runChflags hidden path runs = v.chflags hidden path runs.succeeds := by
  unfold Volume.runChflags ChflagsRuns.succeeds
  rcases runs.target with - | succeeds
  · rcases runs.own with - | succeeds
    · rfl
    · rfl
  · rfl

@[simp] theorem runChflags_tree (hidden : Bool) :
    (v.runChflags hidden path runs).tree = v.tree := by
  rw [runChflags_eq, Volume.chflags]
  split <;> rfl

theorem runChflags_hidden_of_ne (hidden : Bool) {q : Pathname} (hq : q ≠ path.path) :
    (v.runChflags hidden path runs).hidden q = v.hidden q := by
  rw [runChflags_eq, Volume.chflags]
  split
  · exact if_neg hq
  · rfl

theorem runChflags_hidden (hexists : v.tree.fileExists path = true) (hidden : Bool) :
    (v.runChflags hidden path runs).hidden path.path =
      if runs.succeeds then hidden else v.hidden path.path := by
  rw [runChflags_eq, Volume.chflags, hexists, Bool.and_true]
  split
  · exact if_pos rfl
  · rfl

theorem shown_iff_not_hidden : v.Shown path ↔ ¬ v.Hidden path := by
  unfold Volume.Shown Volume.Hidden
  simp

theorem runChflags_shown :
    (v.runChflags false path runs).Shown path ↔ v.GetsShown path runs := by
  unfold Volume.Shown Volume.GetsShown
  rw [runChflags_tree]
  apply and_congr_right
  intro hexists
  rw [runChflags_hidden v path runs hexists]
  cases runs.succeeds <;> simp

/-- The flag is read of an ASCII path, or of none that is there. -/
theorem hiddenStateOfPath_iff (h : v.tree.fileExists path = true → IsAscii path.path)
    (fileStatus : Bool) : v.hiddenStateOfPath path fileStatus = true ↔ v.Hidden path := by
  unfold Volume.hiddenStateOfPath Volume.Hidden
  by_cases hexists : v.tree.fileExists path = true
  · rw [if_pos hexists, if_pos (h hexists), forall_prop_of_true hexists]
  · rw [if_neg hexists]
    simp [hexists]

theorem hiddenStateOfPath_of_not_ascii (hexists : v.tree.fileExists path = true)
    (h : ¬ IsAscii path.path) (fileStatus : Bool) :
    v.hiddenStateOfPath path fileStatus = fileStatus := by
  unfold Volume.hiddenStateOfPath
  rw [if_pos hexists, if_neg h]

theorem hiddenStateOfPath_tells_iff :
    (∀ fileStatus, v.hiddenStateOfPath path fileStatus = true ↔ v.Hidden path) ↔
      (v.tree.fileExists path = true → IsAscii path.path) := by
  constructor
  · intro h hexists
    by_contra hascii
    have hyes := h true
    have hno := h false
    rw [hiddenStateOfPath_of_not_ascii v path hexists hascii] at hyes hno
    exact absurd (hno.mpr (hyes.mp rfl)) Bool.false_ne_true
  · exact hiddenStateOfPath_iff v path

theorem hidePath_tells_iff :
    (∀ fileStatus, (v.hidePath path runs fileStatus).Tells (·.Hidden path)) ↔
      (v.tree.fileExists path = true → IsAscii path.path) := by
  have h := hiddenStateOfPath_tells_iff (v.runChflags true path runs) path
  rwa [runChflags_tree] at h

theorem showPath_tells_iff :
    (∀ fileStatus, (v.showPath path runs fileStatus).Tells (·.Shown path)) ↔
      (v.tree.fileExists path = true → IsAscii path.path) := by
  have h := hiddenStateOfPath_tells_iff (v.runChflags false path runs) path
  rw [runChflags_tree] at h
  rw [← h]
  apply forall_congr'
  intro fileStatus
  unfold Reply.Tells Volume.showPath
  dsimp only
  rw [shown_iff_not_hidden, Bool.not_eq_true', ← Bool.not_eq_true, not_iff_not]

/-- A run for another path changes nothing for this one. -/
theorem runChflags_other {other : Operand} (h : path.path ≠ other.path) (hidden : Bool) :
    (∀ b, (v.runChflags hidden other runs).hiddenStateOfPath path b =
        v.hiddenStateOfPath path b) ∧
      ((v.runChflags hidden other runs).Shown path ↔ v.Shown path) := by
  unfold Volume.hiddenStateOfPath Volume.Shown
  rw [runChflags_tree, runChflags_hidden_of_ne v other runs hidden h]
  exact ⟨fun _ => rfl, Iff.rfl⟩

end Flags

section Files

variable (v : Volume α) (installPath : Pathname) (runs : String → ChflagsRuns)

theorem below_ne {a b : String} (h : a ≠ b) :
    (below installPath a).path ≠ (below installPath b).path := by
  intro heq
  exact h (List.cons.inj (List.append_cancel_left heq)).1

theorem isAscii_below {name : String} (h : (cString name.toList).isSome = true) :
    IsAscii (below installPath name).path ↔ IsAscii installPath := by
  unfold IsAscii below
  simp [or_imp, forall_and, h]

/-- The volume after a run for each of some names. -/
def visit (hidden : Bool) (names : List String) : Volume α :=
  names.foldl (fun v name => v.runChflags hidden (below installPath name) (runs name)) v

variable {v installPath runs} {hidden : Bool} {names : List String} {name : String}

theorem visit_tree : (visit v installPath runs hidden names).tree = v.tree := by
  unfold visit
  induction names generalizing v with
  | nil => rfl
  | cons a names ih =>
    rw [List.foldl_cons, ih, runChflags_tree]

theorem visit_other (h : name ∉ names) :
    (∀ b, (visit v installPath runs hidden names).hiddenStateOfPath (below installPath name) b =
        v.hiddenStateOfPath (below installPath name) b) ∧
      ((visit v installPath runs hidden names).Shown (below installPath name) ↔
        v.Shown (below installPath name)) := by
  unfold visit
  induction names generalizing v with
  | nil => exact ⟨fun _ => rfl, Iff.rfl⟩
  | cons a names ih =>
    rw [List.mem_cons, not_or] at h
    obtain ⟨hreads, hshown⟩ := ih (v := v.runChflags hidden (below installPath a) (runs a)) h.2
    obtain ⟨hread, hshow⟩ := runChflags_other v _ (runs a) (below_ne installPath h.1) hidden
    exact ⟨fun b => (hreads b).trans (hread b), hshown.trans hshow⟩

theorem visit_shown (hnodup : names.Nodup) (h : name ∈ names) :
    (visit v installPath runs false names).Shown (below installPath name) ↔
      v.GetsShown (below installPath name) (runs name) := by
  induction names generalizing v with
  | nil => cases h
  | cons a names ih =>
    obtain ⟨hnot, hnodup⟩ := List.nodup_cons.mp hnodup
    rcases List.mem_cons.mp h with rfl | h
    · exact (visit_other hnot).2.trans (runChflags_shown v _ _)
    · have hne : name ≠ a := by
        rintro rfl
        exact hnot ‹_›
      have hkept : (v.runChflags false (below installPath a) (runs a)).GetsShown
          (below installPath name) (runs name) ↔
          v.GetsShown (below installPath name) (runs name) := by
        unfold Volume.GetsShown
        rw [runChflags_tree, runChflags_hidden_of_ne v _ _ _ (below_ne installPath hne)]
      exact (ih hnodup h).trans hkept

variable (v installPath runs) (fileStatus : String → Bool)

/-- YES stands for that all the paths are read as hidden at the end, also of `showFiles`. -/
theorem foldl_reads {step : Reply (Volume α) → String → Reply (Volume α)}
    (hstep : ∀ b v name, step ⟨b, v⟩ name =
      ⟨b && (v.runChflags hidden (below installPath name) (runs name)).hiddenStateOfPath
        (below installPath name) (fileStatus name),
        v.runChflags hidden (below installPath name) (runs name)⟩)
    (hnodup : names.Nodup) (b : Bool) :
    names.foldl step ⟨b, v⟩ = ⟨b && names.all fun name =>
      (visit v installPath runs hidden names).hiddenStateOfPath (below installPath name)
        (fileStatus name), visit v installPath runs hidden names⟩ := by
  induction names generalizing v b with
  | nil =>
    rw [List.all_nil, Bool.and_true]
    rfl
  | cons a names ih =>
    obtain ⟨hnot, hnodup⟩ := List.nodup_cons.mp hnodup
    have hread : (visit v installPath runs hidden (a :: names)).hiddenStateOfPath
        (below installPath a) (fileStatus a) = _ := (visit_other hnot).1 _
    rw [List.foldl_cons, hstep, ih _ hnodup, List.all_cons, hread, Bool.and_assoc]
    rfl

theorem hideFiles_eq : hideFiles v installPath runs fileStatus =
    ⟨["boot", "Extra", "Extra.bak"].all fun name =>
      (visit v installPath runs true ["boot", "Extra", "Extra.bak"]).hiddenStateOfPath
        (below installPath name) (fileStatus name),
      visit v installPath runs true ["boot", "Extra", "Extra.bak"]⟩ :=
  foldl_reads v installPath runs fileStatus (fun _ _ _ => rfl) (by decide) true

theorem showFiles_eq : showFiles v installPath runs fileStatus =
    ⟨["boot", "Extra", "Extra.bakb"].all fun name =>
      (visit v installPath runs false ["boot", "Extra", "Extra.bakb"]).hiddenStateOfPath
        (below installPath name) (fileStatus name),
      visit v installPath runs false ["boot", "Extra", "Extra.bakb"]⟩ := by
  refine foldl_reads v installPath runs fileStatus (fun b v name => ?_) (by decide) true
  simp only [Volume.showPath, Bool.not_not]

variable {v}

/-- Paths that are not ASCII are read as whatever `fileStatus` holds. -/
theorem all_reads_of_not_ascii (h : ¬ IsAscii installPath) :
    (names.all fun name => v.hiddenStateOfPath (below installPath name) true) = true ∧
      ((∃ name ∈ names, v.tree.fileExists (below installPath name) = true) →
        (names.all fun name => v.hiddenStateOfPath (below installPath name) false) = false) := by
  have hbelow (name : String) : ¬ IsAscii (below installPath name).path := fun hall =>
    h fun n hn => hall n (List.mem_append_left _ hn)
  constructor
  · rw [List.all_eq_true]
    intro name _
    unfold Volume.hiddenStateOfPath
    rw [if_neg (hbelow name), ite_self]
  · rintro ⟨name, hname, hexists⟩
    rw [List.all_eq_false]
    refine ⟨name, hname, ?_⟩
    rw [hiddenStateOfPath_of_not_ascii v _ hexists (hbelow name)]
    exact Bool.false_ne_true

theorem all_reads_iff (hnames : ∀ name ∈ names, (cString name.toList).isSome = true)
    (h : (∃ name ∈ names, v.tree.fileExists (below installPath name) = true) →
      IsAscii installPath) :
    (names.all fun name => v.hiddenStateOfPath (below installPath name) (fileStatus name)) = true ↔
      ∀ name ∈ names, v.Hidden (below installPath name) := by
  rw [List.all_eq_true]
  apply forall₂_congr
  intro name hname
  apply hiddenStateOfPath_iff
  intro hexists
  exact (isAscii_below installPath (hnames name hname)).mpr (h ⟨name, hname, hexists⟩)

theorem hideFiles_tells_iff (v : Volume α) :
    (∀ fileStatus, (hideFiles v installPath runs fileStatus).Tells fun u =>
        ∀ name ∈ ["boot", "Extra", "Extra.bak"], u.Hidden (below installPath name)) ↔
      ((∃ name ∈ ["boot", "Extra", "Extra.bak"],
        v.tree.fileExists (below installPath name) = true) → IsAscii installPath) := by
  simp only [hideFiles_eq, Reply.Tells]
  generalize hu : visit v installPath runs true ["boot", "Extra", "Extra.bak"] = u
  have htree : u.tree = v.tree := hu ▸ visit_tree
  rw [← htree]
  constructor
  · intro h hexists
    by_contra hascii
    obtain ⟨hyes, hno⟩ := all_reads_of_not_ascii installPath hascii
    have hpost := (h fun _ => true).mp hyes
    have hread := (h fun _ => false).mpr hpost
    rw [hno hexists] at hread
    cases hread
  · intro h fileStatus
    exact all_reads_iff installPath fileStatus (by decide) h

/-- `showFiles` returns the opposite of what it should, and has the wrong name for the
backup. -/
theorem showFiles_tells_iff (v : Volume α) :
    (∀ fileStatus, (showFiles v installPath runs fileStatus).Tells fun u =>
        ∀ name ∈ ["boot", "Extra", "Extra.bak"], u.Shown (below installPath name)) ↔
      IsAscii installPath ∧
        (∃ name ∈ ["boot", "Extra", "Extra.bakb"],
          v.GetsShown (below installPath name) (runs name)) ∧
        ¬ ((∀ name ∈ ["boot", "Extra"], v.GetsShown (below installPath name) (runs name)) ∧
          v.Shown (below installPath "Extra.bak")) := by
  simp only [showFiles_eq, Reply.Tells]
  generalize hu : visit v installPath runs false ["boot", "Extra", "Extra.bakb"] = u
  have hgets : ∀ name ∈ ["boot", "Extra", "Extra.bakb"],
      (u.Shown (below installPath name) ↔ v.GetsShown (below installPath name) (runs name)) :=
    fun name hname => hu ▸ visit_shown (by decide) hname
  have hbak : u.Shown (below installPath "Extra.bak") ↔ v.Shown (below installPath "Extra.bak") :=
    hu ▸ (visit_other (by decide)).2
  have hsome : (∃ name ∈ ["boot", "Extra", "Extra.bakb"],
      v.GetsShown (below installPath name) (runs name)) ↔
      ∃ name ∈ ["boot", "Extra", "Extra.bakb"], u.Shown (below installPath name) :=
    exists_congr fun name => and_congr_right fun hname => (hgets name hname).symm
  have hall : ((∀ name ∈ ["boot", "Extra"], v.GetsShown (below installPath name) (runs name)) ∧
      v.Shown (below installPath "Extra.bak")) ↔
      ∀ name ∈ ["boot", "Extra", "Extra.bak"], u.Shown (below installPath name) := by
    have hboot := hgets "boot" (by decide)
    have hextra := hgets "Extra" (by decide)
    simp only [List.forall_mem_cons, List.not_mem_nil, false_implies, implies_true, and_true,
      hboot, hextra, hbak, and_assoc]
  rw [hsome, hall]
  have hreads (hascii : IsAscii installPath) (fileStatus : String → Bool) :
      (["boot", "Extra", "Extra.bakb"].all fun name =>
        u.hiddenStateOfPath (below installPath name) (fileStatus name)) = true ↔ _ :=
    all_reads_iff installPath fileStatus (by decide) fun _ => hascii
  constructor
  · intro h
    have hascii : IsAscii installPath := by
      by_contra hascii
      obtain ⟨hyes, hno⟩ := all_reads_of_not_ascii installPath hascii
      have hpost := (h fun _ => true).mp hyes
      have hread := (h fun _ => false).mpr hpost
      rw [hno ⟨"boot", by decide, (hpost "boot" (by decide)).1⟩] at hread
      cases hread
    have htold := (hreads hascii fun _ => false).symm.trans (h fun _ => false)
    refine ⟨hascii, ?_, fun hpost => ?_⟩
    · by_contra hnone
      have hhidden : ∀ name ∈ ["boot", "Extra", "Extra.bakb"],
          u.Hidden (below installPath name) := by
        intro name hname
        by_contra hnot
        exact hnone ⟨name, hname, (shown_iff_not_hidden u _).mpr hnot⟩
      exact hnone ⟨"boot", by decide, htold.mp hhidden "boot" (by decide)⟩
    · have hboot := htold.mpr hpost "boot" (by decide)
      exact (shown_iff_not_hidden u _).mp (hpost "boot" (by decide)) hboot
  · rintro ⟨hascii, ⟨name, hname, hshown⟩, hnot⟩ fileStatus
    rw [hreads hascii fileStatus]
    exact iff_of_false (fun h => (shown_iff_not_hidden u _).mp hshown (h name hname)) hnot

end Files

/-- A volume whose `/boot`, `/Extra` and `/Extra.bak` are shown. -/
def shownVolume : Volume String where
  tree := .ofFiles [(["boot"], "loader"), (["Extra", "DSDT.aml"], "table"),
    (["Extra.bak", "DSDT.aml"], "old table")]
  hidden _ := false

end Installer.ReturnValues
