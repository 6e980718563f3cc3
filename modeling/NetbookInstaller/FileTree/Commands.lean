import NetbookInstaller.FileTree.Tree

/-! `cp -rf`, `rm -rf` and `mkdir -p` on file trees, each of which may fail or be cut short
at any path. -/
namespace FileTree

variable {α : Type*}

/-- What becomes of one path of a copy: `spoiled` leaves a part of a file, or no file. -/
inductive CopyOutcome (α : Type*) where
  | copied
  | untouched
  | spoiled (left : Option α)
  deriving DecidableEq, Repr

/-- What becomes of the paths of a copy. -/
abbrev CopyOutcomes (α : Type*) := Pathname → CopyOutcome α

def CopyOutcomes.all : CopyOutcomes α := fun _ => .copied

/-- One path of a copy. A file does not replace a directory, nor a directory a file. -/
def copyNode (src dst : Option (Node α)) (o : CopyOutcome α) : Option (Node α) :=
  match src, dst with
  | none, _ => dst
  | some (.file _), some .directory => dst
  | some (.file c), _ =>
    match o with
    | .copied => some (.file c)
    | .untouched => dst
    | .spoiled left => left.map .file
  | some .directory, none =>
    match o with
    | .copied => some .directory
    | _ => none
  | some .directory, some _ => dst

/-- The copy goes on below a path. -/
def enters (src dst : Option (Node α)) (o : CopyOutcome α) : Bool :=
  match src, copyNode src dst o with
  | some .directory, some .directory => true
  | _, _ => false

def copyNodes (src dst : Pathname → Option (Node α)) (o : CopyOutcomes α) :
    Pathname → Option (Node α)
  | [] => copyNode (src []) (dst []) (o [])
  | n :: q =>
    if enters (src []) (dst []) (o []) then
      copyNodes (fun p => src (n :: p)) (fun p => dst (n :: p)) (fun p => o (n :: p)) q
    else dst (n :: q)

theorem enters_iff {src dst : Option (Node α)} {o : CopyOutcome α} :
    enters src dst o = true ↔ src = some .directory ∧ copyNode src dst o = some .directory := by
  unfold enters
  split
  next hdst => simp [hdst]
  next h =>
    constructor
    · intro hfalse
      cases hfalse
    · rintro ⟨hsrc, hdst⟩
      exact absurd hdst (h hsrc)

theorem copyNode_directory (src : Option (Node α)) (o : CopyOutcome α) :
    copyNode src (some .directory) o = some .directory := by
  rcases src with - | ⟨- | -⟩ <;> rfl

/-- What a copy writes to one path. -/
def writtenNode (src : Option (Node α)) (o : CopyOutcome α) : Option α :=
  match src, o with
  | some (.file c), .copied => some c
  | some (.file _), .spoiled left => left
  | _, _ => none

/-- A content at one path is written there, or it has been there and nothing is written. -/
theorem copyNode_file_iff {src dst : Option (Node α)} {o : CopyOutcome α} {c : α} :
    copyNode src dst o = some (.file c) ↔
      (dst ≠ some .directory ∧ writtenNode src o = some c) ∨
      dst = some (.file c) ∧ ¬ ((∃ d, src = some (.file d)) ∧ o ≠ .untouched) := by
  rcases src with - | ⟨d | -⟩ <;> rcases dst with - | ⟨x | -⟩ <;> rcases o with - | - | ⟨- | l⟩ <;>
    simp [copyNode, writtenNode]

theorem copyNodes_closed {src dst : Pathname → Option (Node α)} {o : CopyOutcomes α}
    (hdst : ∀ p n, (dst (p ++ [n])).isSome → dst p = some .directory) (p : Pathname) (n : String)
    (h : (copyNodes src dst o (p ++ [n])).isSome) : copyNodes src dst o p = some .directory := by
  induction p generalizing src dst o with
  | nil =>
    rw [List.nil_append, copyNodes] at h
    split at h
    next henters => exact (enters_iff.mp henters).2
    next =>
      rw [copyNodes, hdst [] n h]
      exact copyNode_directory _ _
  | cons m p ih =>
    rw [List.cons_append, copyNodes] at h
    rw [copyNodes]
    split at h
    next henters =>
      rw [if_pos henters]
      exact ih (fun p n => hdst (m :: p) n) h
    next henters =>
      rw [if_neg henters]
      exact hdst (m :: p) n h

/-- The tree after `src` has been copied over it. -/
def DirTree.overlay (dst src : DirTree α) (o : CopyOutcomes α) : DirTree α :=
  ⟨copyNodes src.node dst.node o, copyNodes_closed dst.closed⟩

/-- Every directory above a path is there, or is made by the copy. -/
def Reaches (src dst : Pathname → Option (Node α)) (o : CopyOutcomes α) : Pathname → Prop
  | [] => True
  | n :: q => enters (src []) (dst []) (o []) = true ∧
      Reaches (fun p => src (n :: p)) (fun p => dst (n :: p)) (fun p => o (n :: p)) q

theorem copyNodes_of_reaches {src dst : Pathname → Option (Node α)} {o : CopyOutcomes α}
    {q : Pathname} (h : Reaches src dst o q) :
    copyNodes src dst o q = copyNode (src q) (dst q) (o q) := by
  induction q generalizing src dst o with
  | nil => rfl
  | cons n q ih =>
    rw [copyNodes, if_pos h.1]
    exact ih h.2

theorem copyNodes_of_not_reaches {src dst : Pathname → Option (Node α)} {o : CopyOutcomes α}
    {q : Pathname} (h : ¬ Reaches src dst o q) : copyNodes src dst o q = dst q := by
  induction q generalizing src dst o with
  | nil => exact absurd trivial h
  | cons n q ih =>
    rw [copyNodes]
    split
    next henters => exact ih fun hreaches => h ⟨henters, hreaches⟩
    next => rfl

/-- A path that is in both trees is reached, and in a copy that succeeds every path of its
source is. -/
theorem reaches_of_isSome {src dst : DirTree α} {o : CopyOutcomes α} {q : Pathname}
    (hsrc : (src.node q).isSome) (hdst : (dst.node q).isSome) :
    Reaches src.node dst.node o q := by
  induction q generalizing src dst o with
  | nil => trivial
  | cons n q ih =>
    have hsrcRoot : src.node [] = some .directory :=
      src.directory_of_append (List.cons_ne_nil n q) hsrc
    have hdstRoot : dst.node [] = some .directory :=
      dst.directory_of_append (List.cons_ne_nil n q) hdst
    refine ⟨enters_iff.mpr ⟨hsrcRoot, ?_⟩, @ih (src.sub [n]) (dst.sub [n]) _ hsrc hdst⟩
    rw [hdstRoot]
    exact copyNode_directory _ _

namespace DirTree

variable {src dst : DirTree α} {o : CopyOutcomes α} {q : Pathname} {c : α}

theorem overlay_of_none (h : src.node q = none) : (dst.overlay src o).node q = dst.node q := by
  by_cases hreaches : Reaches src.node dst.node o q
  · exact (copyNodes_of_reaches hreaches).trans (by rw [h]; rfl)
  · exact copyNodes_of_not_reaches hreaches

/-- The copy writes to the path of a file. -/
def Overwrites (src : DirTree α) (o : CopyOutcomes α) (q : Pathname) : Prop :=
  (∃ d, src.node q = some (.file d)) ∧ o q ≠ .untouched

/-- The copy brings a content to its path. -/
def Brings (src dst : DirTree α) (o : CopyOutcomes α) (q : Pathname) (c : α) : Prop :=
  Reaches src.node dst.node o q ∧ dst.node q ≠ some .directory ∧
    writtenNode (src.node q) (o q) = some c

theorem overlay_file_iff : (dst.overlay src o).node q = some (.file c) ↔
    Brings src dst o q c ∨ dst.node q = some (.file c) ∧ ¬ Overwrites src o q := by
  have hnode : (dst.overlay src o).node q = copyNodes src.node dst.node o q := rfl
  by_cases hreaches : Reaches src.node dst.node o q
  · rw [hnode, copyNodes_of_reaches hreaches, copyNode_file_iff, Brings, Overwrites]
    simp only [hreaches, true_and]
  · rw [hnode, copyNodes_of_not_reaches hreaches]
    constructor
    · intro hfile
      refine .inr ⟨hfile, ?_⟩
      rintro ⟨⟨d, hsrc⟩, -⟩
      exact hreaches (reaches_of_isSome (by rw [hsrc]; rfl) (by rw [hfile]; rfl))
    · rintro (hbrings | ⟨hfile, -⟩)
      · exact absurd hbrings.1 hreaches
      · exact hfile

/-- No file of one tree is a directory of the other. -/
def Compatible (src dst : DirTree α) : Prop :=
  ∀ q, (src.node q = some .directory → ∀ c, dst.node q ≠ some (.file c)) ∧
    (dst.node q = some .directory → ∀ c, src.node q ≠ some (.file c))

theorem reaches_all (h : Compatible src dst) (hq : (src.node q).isSome) :
    Reaches src.node dst.node .all q := by
  induction q generalizing src dst with
  | nil => trivial
  | cons n q ih =>
    have hroot : src.node [] = some .directory :=
      src.directory_of_append (List.cons_ne_nil n q) hq
    have hmade : copyNode (src.node []) (dst.node []) .copied = some .directory := by
      rcases hdst : dst.node [] with - | ⟨c | -⟩
      · rw [hroot]
        rfl
      · exact absurd hdst ((h []).1 hroot c)
      · exact copyNode_directory _ _
    refine ⟨enters_iff.mpr ⟨hroot, hmade⟩, ?_⟩
    exact @ih (src.sub [n]) (dst.sub [n]) (fun p => h (n :: p)) hq

/-- A copy that succeeds. -/
theorem overlay_all (h : Compatible src dst) :
    (dst.overlay src .all).node q = (src.node q).or (dst.node q) := by
  by_cases hreaches : Reaches src.node dst.node .all q
  · refine (copyNodes_of_reaches hreaches).trans ?_
    have hconflict := h q
    rcases hsrc : src.node q with - | ⟨c | -⟩ <;> rcases hdst : dst.node q with - | ⟨d | -⟩ <;>
      simp_all [copyNode, CopyOutcomes.all]
  · refine (copyNodes_of_not_reaches hreaches).trans ?_
    have hsrc : src.node q = none := by
      by_contra hne
      exact hreaches (reaches_all h (Option.isSome_iff_ne_none.mpr hne))
    rw [hsrc]
    rfl

/-- What a removal has removed: a directory only together with all that is below it. -/
structure Removal where
  removed : Pathname → Bool
  below : ∀ p n, removed p = true → removed (p ++ [n]) = true

def Removal.all : Removal := ⟨fun _ => true, fun _ _ h => h⟩

def prune (t : DirTree α) (r : Removal) : DirTree α where
  node q := if r.removed q then none else t.node q
  closed q n h := by
    split at h
    · cases h
    next hkept =>
      have hq : ¬ r.removed q = true := fun hremoved => hkept (r.below q n hremoved)
      rw [if_neg hq]
      exact t.closed q n h

theorem prune_all (t : DirTree α) : t.prune .all = absent := by
  ext q
  rfl

theorem prune_file {t : DirTree α} {r : Removal} :
    (t.prune r).node q = some (.file c) ↔ r.removed q = false ∧ t.node q = some (.file c) := by
  have hnode : (t.prune r).node q = if r.removed q then none else t.node q := rfl
  rw [hnode]
  cases r.removed q <;> simp

/-- The directories that lead to a path. -/
def directories (p : Pathname) : DirTree α where
  node q := if q <+: p then some .directory else none
  closed q n h := by
    split at h
    next hprefix => exact if_pos ((List.prefix_append q [n]).trans hprefix)
    next => cases h

end DirTree

/-- A path as it is written, with or without a slash behind it. -/
structure Operand where
  path : Pathname
  slash : Bool
  deriving DecidableEq, Repr

/-- What is to be copied, with its own name. -/
structure Source (α : Type*) where
  tree : DirTree α
  name : String
  slash : Bool

namespace DirTree

variable (t : DirTree α)

/-- A path with a slash behind it leads to a directory only. -/
def fileExists (f : Operand) : Bool :=
  if f.slash then t.isDirectory f.path else (t.node f.path).isSome

def source (f : Operand) : Source α := ⟨t.sub f.path, f.path.getLastD "", f.slash⟩

/-- Where `cp -R` copies to: into an existing directory under the name of the source, or, with
a slash behind the source, the contents of the source into it. -/
def destination (s : Source α) (target : Operand) : Option Pathname :=
  match t.node target.path with
  | some .directory => some (if s.slash then target.path else target.path ++ [s.name])
  | some (.file _) => if target.slash then none else some target.path
  | none => if target.slash && !s.tree.isDirectory [] then none else some target.path

theorem prefix_destination {t : DirTree α} {s : Source α} {target : Operand} {p : Pathname}
    (h : t.destination s target = some p) : target.path <+: p := by
  unfold destination at h
  split at h
  next =>
    cases h
    split
    · exact List.prefix_refl _
    · exact List.prefix_append _ _
  next =>
    split at h
    · cases h
    · cases h
      exact List.prefix_refl _
  next =>
    split at h
    · cases h
    · cases h
      exact List.prefix_refl _

/-- `cp -rf source target`. -/
def cp (s : Source α) (target : Operand) (o : CopyOutcomes α) : DirTree α :=
  match t.destination s target with
  | none => t
  | some p => t.graft p ((t.sub p).overlay s.tree o)

theorem source_fileExists (f : Operand) :
    (t.source f).tree.fileExists ⟨[], f.slash⟩ = t.fileExists f := by
  simp [fileExists, source, isDirectory]

/-- The copy takes place at its destination. -/
theorem sub_cp {t : DirTree α} {s : Source α} {target : Operand} {o : CopyOutcomes α} {p : Pathname}
    (h : t.destination s target = some p) (hparent : p = [] ∨ t.isDirectory p.dropLast = true) :
    (t.cp s target o).sub p = (t.sub p).overlay s.tree o := by
  rw [cp, h]
  ext1
  funext q
  exact node_graft _ hparent _ q

/-- `cp -rf source target` writes to the path of a file. -/
def WritesTo (s : Source α) (target : Operand) (o : CopyOutcomes α) (p : Pathname) : Prop :=
  ∃ d r, t.destination s target = some d ∧ d ++ r = p ∧ Overwrites s.tree o r

/-- `cp -rf source target` brings a content to a path. -/
def Delivers (s : Source α) (target : Operand) (o : CopyOutcomes α) (p : Pathname) (c : α) : Prop :=
  ∃ d r, t.destination s target = some d ∧ d ++ r = p ∧
    (d = [] ∨ t.isDirectory d.dropLast = true) ∧ Brings s.tree (t.sub d) o r c

section Contents

variable {t} {s : Source α} {target : Operand} {o : CopyOutcomes α} {p : Pathname} {c : α}

theorem cp_file_iff : (t.cp s target o).node p = some (.file c) ↔
    t.Delivers s target o p c ∨ t.node p = some (.file c) ∧ ¬ t.WritesTo s target o p := by
  rw [cp]
  split
  next hnone => simp [Delivers, WritesTo, hnone]
  next d hd =>
    by_cases hp : d <+: p
    · obtain ⟨r, rfl⟩ := hp
      have hdelivers : t.Delivers s target o (d ++ r) c ↔
          (d = [] ∨ t.isDirectory d.dropLast = true) ∧ Brings s.tree (t.sub d) o r c := by
        simp [Delivers, hd]
      have hwrites : t.WritesTo s target o (d ++ r) ↔ Overwrites s.tree o r := by
        simp [WritesTo, hd]
      rw [hdelivers, hwrites]
      by_cases hparent : d = [] ∨ t.isDirectory d.dropLast = true
      · rw [node_graft _ hparent, overlay_file_iff, node_sub]
        simp only [hparent, true_and]
      · have hfile : t.node (d ++ r) ≠ some (.file c) := fun h =>
          hparent (t.parent_of_isSome (by rw [h]; rfl))
        rw [graft_of_not_parent _ hparent]
        simp only [hparent, hfile, false_and, or_self]
    · have hbelow : ∀ r, d ++ r ≠ p := fun r hr => hp ⟨r, hr⟩
      rw [node_graft_outside _ _ hp]
      simp [Delivers, WritesTo, hd, hbelow]

/-- Where a copy goes, above a file, depends on that there is a file. -/
theorem writesTo_congr {u : DirTree α} {c' : α} (ht : t.node p = some (.file c))
    (hu : u.node p = some (.file c')) : t.WritesTo s target o p → u.WritesTo s target o p := by
  rintro ⟨d, r, hd, rfl, hover⟩
  refine ⟨d, r, ?_, rfl, hover⟩
  obtain ⟨x, rfl⟩ := prefix_destination hd
  rw [List.append_assoc] at ht hu
  by_cases hx : x ++ r = []
  · rw [hx, List.append_nil] at ht hu
    simpa only [destination, ht, hu] using hd
  · have htarget := t.directory_of_append hx (by rw [ht]; rfl)
    have hutarget := u.directory_of_append hx (by rw [hu]; rfl)
    simpa only [destination, htarget, hutarget] using hd

end Contents

/-- `rm -rf path`. -/
def rm (p : Pathname) (r : Removal) : DirTree α := t.graft p ((t.sub p).prune r)

/-- `mkdir -p path`. -/
def mkdir (p : Pathname) (o : CopyOutcomes α) : DirTree α := t.overlay (directories p) o

theorem mkdir_file {t : DirTree α} {p q : Pathname} {o : CopyOutcomes α} {c : α} :
    (t.mkdir p o).node q = some (.file c) ↔ t.node q = some (.file c) := by
  have hnode : (t.mkdir p o).node q = copyNodes (directories p).node t.node o q := rfl
  by_cases hreaches : Reaches (directories p).node t.node o q
  · rw [hnode, copyNodes_of_reaches hreaches]
    by_cases hq : q <+: p
    · rcases hdst : t.node q with - | ⟨d | -⟩ <;> rcases ho : o q with - | - | - <;>
        simp [directories, hq, copyNode]
    · simp [directories, hq, copyNode]
  · rw [hnode, copyNodes_of_not_reaches hreaches]

theorem rm_file {t : DirTree α} {p q : Pathname} {r : Removal} {c : α} :
    (t.rm p r).node q = some (.file c) ↔
      t.node q = some (.file c) ∧ ∀ x, p ++ x = q → r.removed x = false := by
  by_cases hq : p <+: q
  · obtain ⟨x, rfl⟩ := hq
    by_cases hparent : p = [] ∨ t.isDirectory p.dropLast = true
    · rw [rm, node_graft _ hparent, prune_file, and_comm]
      simp
    · rw [rm, graft_of_not_parent _ hparent]
      have hfile : t.node (p ++ x) ≠ some (.file c) := fun h =>
        hparent (t.parent_of_isSome (by rw [h]; rfl))
      simp [hfile]
  · rw [rm, node_graft_outside _ _ hq]
    have hbelow : ∀ x, p ++ x ≠ q := fun x hx => hq ⟨x, hx⟩
    simp [hbelow]

end DirTree
end FileTree
