import NetbookInstaller.Dsdt.DevicePasses
import NetbookInstaller.Dsdt.LineBuffer
import NetbookInstaller.Dsdt.VariousPass
import Mathlib.Algebra.Group.Prod
import Mathlib.Tactic.Abel

/-! The balance of braces and parentheses in the files that the passes of the DSDT patcher read
and write. -/
namespace Dsdt

/-- The braces and the parentheses that a character opens. -/
def weight (c : Char) : ℤ × ℤ :=
  if c = '{' then (1, 0) else if c = '}' then (-1, 0)
  else if c = '(' then (0, 1) else if c = ')' then (0, -1) else 0

/-- The braces and the parentheses that a text opens and does not close. -/
def depth (text : List Char) : ℤ × ℤ := (text.map weight).sum

def Balanced (text : List Char) : Prop := depth text = 0

instance (text : List Char) : Decidable (Balanced text) := inferInstanceAs (Decidable (_ = _))

def linesDepth (lines : List Line) : ℤ × ℤ := (lines.map depth).sum

/-- The text that `fprintf` writes for a format. -/
def printed (u : Unspecified) (format : Line) : List Char :=
  (formatted format).getD (u.conversion format)

/-- The file that `fprintf` calls with these formats make. -/
def printedFile (u : Unspecified) (output : List Line) : List Char :=
  (output.map (printed u)).flatten

@[simp] theorem depth_nil : depth [] = 0 := rfl

@[simp] theorem depth_cons (c : Char) (text : List Char) :
    depth (c :: text) = weight c + depth text := by
  simp [depth]

@[simp] theorem depth_append (xs ys : List Char) : depth (xs ++ ys) = depth xs + depth ys := by
  simp [depth]

theorem depth_flatten (lines : List Line) : depth lines.flatten = linesDepth lines := by
  induction lines with
  | nil => rfl
  | cons line lines ih => simp [linesDepth, ih]

@[simp] theorem linesDepth_nil : linesDepth [] = 0 := rfl

@[simp] theorem linesDepth_cons (line : Line) (lines : List Line) :
    linesDepth (line :: lines) = depth line + linesDepth lines := by
  simp [linesDepth]

@[simp] theorem linesDepth_append (xs ys : List Line) :
    linesDepth (xs ++ ys) = linesDepth xs + linesDepth ys := by
  simp [linesDepth]

theorem linesDepth_buffers (file : List Char) : linesDepth (buffers file) = depth file := by
  rw [← depth_flatten, buffers, fgetsFrom_flatten, List.nil_append]

/-- Percent signs do not count. -/
theorem depth_formatted {line text : Line} (h : formatted line = some text) :
    depth text = depth line := by
  induction line using formatted.induct generalizing text with
  | case1 =>
    rw [formatted, Option.some.injEq] at h
    rw [← h]
  | case2 cs ih =>
    obtain ⟨rest, hrest, rfl⟩ := Option.map_eq_some_iff.mp h
    have hpercent : weight '%' = 0 := rfl
    simp [ih hrest, hpercent]
  | case3 cs hcs => simp_all [formatted]
  | case4 c cs h₁ h₂ ih =>
    rw [formatted] at h
    · obtain ⟨rest, hrest, rfl⟩ := Option.map_eq_some_iff.mp h
      rw [depth_cons, depth_cons, ih hrest]
    · exact h₁
    · exact h₂

theorem printedFile_append (u : Unspecified) (xs ys : List Line) :
    printedFile u (xs ++ ys) = printedFile u xs ++ printedFile u ys := by
  simp [printedFile]

/-- A string in the buffer and what stands behind its null character make the line. -/
theorem depth_stored (line : Line) :
    depth (stored line) + depth (line.drop (stored line).length) = depth line := by
  have hprefix : stored line <+: line :=
    (List.takeWhile_prefix _).trans (List.take_prefix _ _)
  rw [← depth_append, List.prefix_iff_eq_append.mp hprefix]

theorem linesDepth_strings (file : List Char) :
    linesDepth (strings file) + linesDepth (hidden file) = depth file := by
  rw [← linesDepth_buffers, strings, hidden]
  induction buffers file with
  | nil => rfl
  | cons line lines ih =>
    simp only [List.map_cons, linesDepth_cons]
    rw [add_add_add_comm, depth_stored, ih]

/-- A text that is balanced and written as it is. -/
def Neutral (text : List Char) : Prop := depth text = 0 ∧ '%' ∉ text

instance (text : List Char) : Decidable (Neutral text) := inferInstanceAs (Decidable (_ ∧ _))

/-- A text that is put together from literals, taken apart from its end. -/
theorem Neutral.literal {a : String} {b rest : List Char} (h : Neutral (a.toList ++ (b ++ rest))) :
    Neutral ((a ++ String.ofList b).toList ++ rest) := by
  rwa [String.toList_append, String.toList_ofList, List.append_assoc]

theorem Neutral.firstLiteral {b rest : List Char} (h : Neutral (b ++ rest)) :
    Neutral ((String.ofList b).toList ++ rest) := by
  rwa [String.toList_ofList]

theorem neutral_HPETIRQ : Neutral HPETIRQ := by
  rw [← List.append_nil HPETIRQ]
  iterate 3 refine Neutral.literal ?_
  refine Neutral.firstLiteral ?_
  decide +kernel

theorem neutral_fixedHPET : Neutral fixedHPET := by
  rw [← List.append_nil fixedHPET]
  iterate 25 refine Neutral.literal ?_
  refine Neutral.firstLiteral ?_
  decide +kernel

end Dsdt
