import Mathlib.Data.List.Infix

/-! The text functions of the DSDT patcher and the parts of the C library that it
reads and writes files with. A line is a C string without its terminator. -/
namespace Dsdt

def BUFFER_SIZE : ℕ := 2048

abbrev Line := List Char

/-- `needle` is found at some position of `haystack`, its end included. -/
def cmpStr (haystack needle : Line) : Bool := haystack.tails.any fun t => needle.isPrefixOf t

/-- `cmpStrWild` at one position: a question mark of `searchTerm` matches anything. -/
def matchesAt : Line → Line → Bool
  | _, [] => true
  | [], _ :: _ => false
  | c :: cs, t :: ts => (c == t || t == '?') && matchesAt cs ts

def cmpStrWild (searchString searchTerm : Line) : Bool :=
  (List.range (searchString.length - searchTerm.length)).any fun i =>
    matchesAt (searchString.drop i) searchTerm

/-- A file as the buffers that successive `fgets` calls fill; `room` is what the
current one can still take, `line` what it has. -/
def fgetsFrom (room : ℕ) (line : Line) : List Char → List Line
  | [] => if line = [] then [] else [line]
  | c :: cs =>
    if c = '\n' ∨ room = 1 then (line ++ [c]) :: fgetsFrom (BUFFER_SIZE - 1) [] cs
    else fgetsFrom (room - 1) (line ++ [c]) cs

def buffers (file : List Char) : List Line := fgetsFrom (BUFFER_SIZE - 1) [] file

/-- The buffer after `lines` have been read into it one after the other. -/
def lastRead : Line → List Line → Line
  | buffer, [] => buffer
  | _, line :: lines => lastRead line lines

/-- What `fprintf` writes for a buffer passed as its format. A conversion would read
an argument that is not there: `none`. -/
def formatted : Line → Option Line
  | [] => some []
  | '%' :: '%' :: cs => (formatted cs).map ('%' :: ·)
  | '%' :: _ => none
  | c :: cs => (formatted cs).map (c :: ·)

/-- The lines of a text none of which is longer than a buffer. -/
inductive LineStructured : List Line → Prop
  | nil : LineStructured []
  | last {line : Line} (hne : line ≠ []) (hnewline : '\n' ∉ line)
      (hlength : line.length ≤ BUFFER_SIZE - 1) : LineStructured [line]
  | cons (line : Line) {lines : List Line} (hnewline : '\n' ∉ line)
      (hlength : line.length + 1 ≤ BUFFER_SIZE - 1) (h : LineStructured lines) :
      LineStructured ((line ++ ['\n']) :: lines)

theorem lastRead_append_singleton (buffer line : Line) (lines : List Line) :
    lastRead buffer (lines ++ [line]) = line := by
  induction lines generalizing buffer with
  | nil => rfl
  | cons l lines ih => exact ih l

theorem lastRead_mem (b : Line) {lines : List Line} (h : lines ≠ []) :
    lastRead b lines ∈ lines := by
  induction lines generalizing b with
  | nil => exact absurd rfl h
  | cons line lines ih =>
    cases lines with
    | nil => exact List.mem_singleton_self line
    | cons line' lines => exact List.mem_cons_of_mem line (ih line (List.cons_ne_nil _ _))

theorem cmpStr_iff {haystack needle : Line} : cmpStr haystack needle ↔ needle <:+: haystack := by
  simp only [cmpStr, List.any_eq_true, List.mem_tails, List.isPrefixOf_iff_prefix]
  constructor
  · rintro ⟨t, ht, hn⟩
    exact hn.isInfix.trans ht.isInfix
  · rintro ⟨a, b, rfl⟩
    exact ⟨needle ++ b, ⟨a, by simp⟩, List.prefix_append _ _⟩

theorem fgetsFrom_line {line m cs : List Char} {room : ℕ} (hnewline : '\n' ∉ m)
    (hroom : m.length < room) :
    fgetsFrom room line (m ++ '\n' :: cs) = (line ++ m ++ ['\n']) :: buffers cs := by
  induction m generalizing room line with
  | nil => simp [fgetsFrom, buffers]
  | cons c m ih =>
    simp only [List.mem_cons, not_or, List.length_cons] at hnewline hroom
    have hc : c ≠ '\n' := fun h => hnewline.1 h.symm
    have hne : room ≠ 1 := by omega
    rw [List.cons_append, fgetsFrom, if_neg (by simp [hc, hne]), ih hnewline.2 (by omega)]
    simp

theorem fgetsFrom_last {line m : List Char} {room : ℕ} (hnewline : '\n' ∉ m)
    (hroom : m.length ≤ room) (hne : line ++ m ≠ []) : fgetsFrom room line m = [line ++ m] := by
  induction m generalizing room line with
  | nil => simpa [fgetsFrom] using hne
  | cons c m ih =>
    simp only [List.mem_cons, not_or, List.length_cons] at hnewline hroom
    have hc : c ≠ '\n' := fun h => hnewline.1 h.symm
    by_cases hone : room = 1
    · have hm : m = [] := List.length_eq_zero_iff.mp (by omega)
      subst hm
      simp [fgetsFrom, hone]
    · rw [fgetsFrom, if_neg (by simp [hc, hone]), ih hnewline.2 (by omega) (by simp)]
      simp

/-- Lines that fit the buffer are what `fgets` delivers. -/
theorem LineStructured.buffers_flatten {lines : List Line} (h : LineStructured lines) :
    buffers lines.flatten = lines := by
  induction h with
  | nil => rfl
  | last hne hnewline hlength =>
    rw [List.flatten_singleton, buffers, fgetsFrom_last hnewline hlength (by simpa using hne),
      List.nil_append]
  | cons line hnewline hlength _ ih =>
    rw [List.flatten_cons, List.append_assoc, List.singleton_append, buffers,
      fgetsFrom_line hnewline hlength, ih, List.nil_append]

theorem length_le_of_mem_fgetsFrom {room : ℕ} {line file : List Char} (hroom : 0 < room)
    (hline : line.length + room ≤ BUFFER_SIZE - 1) :
    ∀ l ∈ fgetsFrom room line file, l.length ≤ BUFFER_SIZE - 1 := by
  induction file generalizing room line with
  | nil =>
    intro l hl
    by_cases hne : line = []
    · simp [fgetsFrom, hne] at hl
    · rw [fgetsFrom, if_neg hne, List.mem_singleton] at hl
      subst hl
      omega
  | cons c cs ih =>
    intro l hl
    rw [fgetsFrom] at hl
    split at hl
    next =>
      rcases List.mem_cons.mp hl with rfl | hl
      · rw [List.length_append, List.length_singleton]
        omega
      · exact ih (by decide) (by simp) l hl
    next hstop =>
      have hone : room ≠ 1 := fun h => hstop (.inr h)
      refine ih (by omega) ?_ l hl
      rw [List.length_append, List.length_singleton]
      omega

theorem fgetsFrom_flatten (room : ℕ) (line file : List Char) :
    (fgetsFrom room line file).flatten = line ++ file := by
  induction file generalizing room line with
  | nil =>
    rw [fgetsFrom]
    split <;> simp_all
  | cons c cs ih =>
    rw [fgetsFrom]
    split <;> simp [ih]

theorem formatted_length {line text : Line} (h : formatted line = some text) :
    text.length ≤ line.length := by
  induction line using formatted.induct generalizing text with
  | case1 => simp_all [formatted]
  | case2 cs ih =>
    simp only [formatted, Option.map_eq_some_iff] at h
    obtain ⟨rest, hrest, rfl⟩ := h
    have hlength := ih hrest
    simp only [List.length_cons]
    omega
  | case3 cs hcs => simp_all [formatted]
  | case4 c cs h₁ h₂ ih =>
    rw [formatted] at h
    · obtain ⟨rest, hrest, rfl⟩ := Option.map_eq_some_iff.mp h
      simpa using ih hrest
    · exact h₁
    · exact h₂

/-- A line is written as it is exactly if it has no percent sign. -/
theorem formatted_eq_self_iff {line : Line} : formatted line = some line ↔ '%' ∉ line := by
  induction line using formatted.induct with
  | case1 => simp [formatted]
  | case2 cs ih =>
    simp only [List.mem_cons, true_or, not_true, iff_false, formatted, Option.map_eq_some_iff,
      List.cons.injEq, true_and, exists_eq_right]
    intro h
    have hlength := formatted_length h
    rw [List.length_cons] at hlength
    omega
  | case3 cs hcs => simp_all [formatted]
  | case4 c cs h₁ h₂ ih =>
    have hc : '%' ≠ c := by
      rintro rfl
      exact h₂ rfl
    rw [formatted]
    · simp [hc, ih]
    · exact h₁
    · exact h₂

end Dsdt
