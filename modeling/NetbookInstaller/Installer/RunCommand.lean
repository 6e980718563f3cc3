import Mathlib.Data.List.TakeWhile
import NetbookInstaller.Shell.Words

/-! `runCMD:withArgs:`: the arguments that a program gets from the shell, and as root. -/
namespace Installer

open Shell

/-- The loop that escapes any white spaces. -/
def escapeFrom (s : List Char) (j : ℕ) : List Char :=
  if hlt : j < s.length then
    -- one further to skip the space
    if s[j] = ' ' then escapeFrom (s.insertIdx j '\\') (j + 1 + 1) else escapeFrom s (j + 1)
  else s
termination_by s.length - j
decreasing_by
  · rw [List.length_insertIdx_of_le_length (Nat.le_of_lt hlt)]
    omega
  · omega

def escapeSpaces (s : List Char) : List Char := escapeFrom s 0

/-- `cStringUsingEncoding:NSASCIIStringEncoding`. -/
def cString (s : List Char) : Option (List Char) :=
  if s.all (fun c => c.toNat < 128) then some (s.takeWhile (· != '\x00')) else none

/-- `if(escapedString != nil) [escapedString release]`, which is undefined for a stray pointer. -/
def releaseEscaped (stray : Bool) : Option Unit := if stray then none else some ()

/-- The loop over the arguments, with the text for `popen` and whether `escapedString` holds a
stray pointer. -/
def appendArgs (stray : Bool) (run : List Char) : List (List Char) → Option (Bool × List Char)
  | [] => some (stray, run)
  | arg :: nsargs => do
    releaseEscaped stray
    appendArgs false (run ++ [' '] ++ escapeSpaces arg) nsargs

/-- The programs that `runCMDAsUser:withArgs:` runs. Nothing is assigned to `escapedString` before
the first argument, so what it holds there may be no object at all. -/
def runCMDAsUser (env : Environment) (stray : Bool) (command : List Char)
    (nsargs : List (List Char)) : Option (List Run) := do
  let (stray, run) ← appendArgs stray (escapeSpaces command) nsargs
  let runs ← (cString run).bind (execute env)
  releaseEscaped stray
  return runs

/-- The arguments up to the first that is not a C string. -/
def rootArgs : List (List Char) → List (List Char)
  | [] => []
  | arg :: nsargs =>
    match cString arg with
    | none => []
    | some s => s :: rootArgs nsargs

def runCMDAsRoot (command : List Char) (nsargs : List (List Char)) : Option (List Run) :=
  some [⟨command, command :: rootArgs nsargs⟩]

def runCMD (env : Environment) (stray isRoot : Bool) (command : List Char)
    (nsargs : List (List Char)) : Option (List Run) :=
  -- we are already root, so we dont neet to escilate our privleges
  if isRoot then runCMDAsUser env stray command nsargs else runCMDAsRoot command nsargs

/-! The text for the shell. -/

def escaped (c : Char) : List Char := if c = ' ' then ['\\', ' '] else [c]

theorem insertIdx_append (p s : List Char) (c : Char) :
    (p ++ s).insertIdx p.length c = p ++ c :: s := by
  induction p with
  | nil => rfl
  | cons d p ih => rw [List.cons_append, List.length_cons, List.insertIdx_succ_cons, ih]; rfl

theorem escapeFrom_eq (p s : List Char) :
    escapeFrom (p ++ s) p.length = p ++ s.flatMap escaped := by
  induction s generalizing p with
  | nil =>
    rw [escapeFrom, dif_neg (by simp)]
    rfl
  | cons c s ih =>
    have hlt : p.length < (p ++ c :: s).length := by simp
    have hget : (p ++ c :: s)[p.length] = c := by simp
    rw [escapeFrom, dif_pos hlt, hget, List.flatMap_cons]
    split
    next hspace =>
      have hinsert : (p ++ c :: s).insertIdx p.length '\\' = (p ++ ['\\', c]) ++ s := by
        rw [insertIdx_append]
        simp
      have hlength : p.length + 1 + 1 = (p ++ ['\\', c]).length := by simp
      rw [hinsert, hlength, ih, escaped, if_pos hspace, hspace]
      simp
    next hspace =>
      have hassoc : p ++ c :: s = (p ++ [c]) ++ s := by simp
      have hlength : p.length + 1 = (p ++ [c]).length := by simp
      rw [hassoc, hlength, ih, escaped, if_neg hspace]
      simp

theorem escapeSpaces_eq (s : List Char) : escapeSpaces s = s.flatMap escaped :=
  escapeFrom_eq [] s

/-- The arguments, each behind a space. -/
def argText (nsargs : List (List Char)) : List Char :=
  nsargs.flatMap fun arg => ' ' :: arg.flatMap escaped

/-- What is passed to `popen`. -/
def runText (command : List Char) (nsargs : List (List Char)) : List Char :=
  command.flatMap escaped ++ argText nsargs

theorem appendArgs_eq (run : List Char) (nsargs : List (List Char)) :
    appendArgs false run nsargs = some (false, run ++ argText nsargs) := by
  induction nsargs generalizing run with
  | nil => simp [appendArgs, argText]
  | cons arg nsargs ih =>
    rw [appendArgs, releaseEscaped, if_neg (by simp), ih, escapeSpaces_eq]
    simp [argText]

theorem runCMDAsUser_eq (env : Environment) (command : List Char) (nsargs : List (List Char)) :
    runCMDAsUser env false command nsargs =
      (cString (runText command nsargs)).bind (execute env) := by
  rw [runCMDAsUser, escapeSpaces_eq, appendArgs_eq, runText]
  simp only [Option.bind_eq_bind, Option.bind_some]
  cases (cString (command.flatMap escaped ++ argText nsargs)).bind (execute env) <;> rfl

/-- A stray pointer is released, with the first argument or at the end. -/
theorem runCMDAsUser_stray (env : Environment) (command : List Char)
    (nsargs : List (List Char)) : runCMDAsUser env true command nsargs = none := by
  cases nsargs with
  | nil =>
    rw [runCMDAsUser, appendArgs]
    simp only [Option.bind_eq_bind, Option.bind_some]
    cases (cString (escapeSpaces command)).bind (execute env) <;> rfl
  | cons arg nsargs => rfl

/-- ASCII without NUL. -/
def IsCString (s : List Char) : Prop := ∀ c ∈ s, c ≠ '\x00' ∧ c.toNat < 128

instance (s : List Char) : Decidable (IsCString s) :=
  List.decidableBAll (fun c => c ≠ '\x00' ∧ c.toNat < 128) s

theorem cString_of_isCString {s : List Char} (h : IsCString s) : cString s = some s := by
  have hascii : s.all (fun c => c.toNat < 128) = true := by
    rw [List.all_eq_true]
    intro c hc
    exact decide_eq_true (h c hc).2
  have hwhole : s.takeWhile (· != '\x00') = s := by
    rw [List.takeWhile_eq_self_iff]
    intro c hc
    simpa using (h c hc).1
  rw [cString, if_pos hascii, hwhole]

theorem isCString_of_cString {s text : List Char} (h : cString text = some s) : IsCString s := by
  rw [cString] at h
  split at h
  next hascii =>
    intro c hc
    rw [← Option.some.inj h] at hc
    constructor
    · simpa using List.mem_takeWhile_imp hc
    · exact of_decide_eq_true (List.all_eq_true.mp hascii c ((List.takeWhile_sublist _).subset hc))
  next => cases h

theorem rootArgs_of_isCString {nsargs : List (List Char)} (h : ∀ arg ∈ nsargs, IsCString arg) :
    rootArgs nsargs = nsargs := by
  induction nsargs with
  | nil => rfl
  | cons arg nsargs ih =>
    obtain ⟨harg, hargs⟩ := List.forall_mem_cons.mp h
    rw [rootArgs, cString_of_isCString harg, ih hargs]

theorem isCString_escaped {s : List Char} (h : IsCString s) : IsCString (s.flatMap escaped) := by
  intro c hc
  obtain ⟨d, hd, hmem⟩ := List.mem_flatMap.mp hc
  rw [escaped] at hmem
  split at hmem
  · simp only [List.mem_cons, List.not_mem_nil, or_false] at hmem
    rcases hmem with rfl | rfl <;> decide
  · rw [List.mem_singleton.mp hmem]
    exact h d hd

theorem isCString_runText {command : List Char} {nsargs : List (List Char)}
    (hcommand : IsCString command) (hargs : ∀ arg ∈ nsargs, IsCString arg) :
    IsCString (runText command nsargs) := by
  intro c hc
  rcases List.mem_append.mp hc with hc | hc
  · exact isCString_escaped hcommand c hc
  · obtain ⟨arg, harg, hmem⟩ := List.mem_flatMap.mp hc
    rcases List.mem_cons.mp hmem with rfl | hmem
    · decide
    · exact isCString_escaped (hargs arg harg) c hmem

/-! How the shell reads it. -/

/-- The word that the shell should read. -/
def quoteSpaces (arg : List Char) : Word := arg.map fun c => (c, decide (c = ' '))

theorem value_quoteSpaces (arg : List Char) : (quoteSpaces arg).value = arg := by
  simp [quoteSpaces, Word.value, List.map_map, Function.comp_def]

def escapedMarks (c : Char) : List Mark :=
  if c = ' ' then [.quote '\\', .literal c true] else [.literal c false]

/-- No character but the space is special. -/
def Plain (arg : List Char) : Prop := ∀ c ∈ arg, c ≠ ' ' → c ∉ special

instance (arg : List Char) : Decidable (Plain arg) :=
  List.decidableBAll (fun c => c ≠ ' ' → c ∉ special) arg

theorem step_of_plain {m : Mode} {c : Char} {next : Option Char} (hm : m = .start ∨ m = .word)
    (hc : c ∉ special) (hcomment : m = .start → c ≠ '#') :
    step m c next = (.literal c false, .word) := by
  have hplain (start : Bool) : plainStep start c next = (.literal c false, .word) := by
    simp only [special, operators, List.cons_append, List.nil_append, List.mem_cons,
      List.not_mem_nil, or_false, not_or] at hc
    simp [plainStep, operators, hc]
  rcases hm with rfl | rfl
  · exact (if_neg (hcomment rfl)).trans (hplain true)
  · exact hplain false

theorem marks_escaped {m : Mode} {c : Char} (hm : m = .start ∨ m = .word)
    (hc : c ≠ ' ' → c ∉ special) (hcomment : m = .start → c ≠ '#') (s : List Char) :
    marks m (escaped c ++ s) = escapedMarks c ++ marks .word s ∧
      lastMode m (escaped c ++ s) = lastMode .word s := by
  by_cases hspace : c = ' '
  · subst hspace
    rcases hm with rfl | rfl <;> exact ⟨rfl, rfl⟩
  · have hstep (next : Option Char) : step m c next = (.literal c false, .word) :=
      step_of_plain hm (hc hspace) hcomment
    simp [escaped, escapedMarks, hspace, marks, lastMode, hstep]

theorem marks_word {arg : List Char} (harg : Plain arg) (s : List Char) :
    marks .word (arg.flatMap escaped ++ s) = arg.flatMap escapedMarks ++ marks .word s ∧
      lastMode .word (arg.flatMap escaped ++ s) = lastMode .word s := by
  induction arg with
  | nil => exact ⟨rfl, rfl⟩
  | cons c arg ih =>
    obtain ⟨hc, harg⟩ := List.forall_mem_cons.mp harg
    obtain ⟨hmarks, hmode⟩ := marks_escaped (.inr rfl) hc (by simp) (arg.flatMap escaped ++ s)
    obtain ⟨ihmarks, ihmode⟩ := ih harg
    rw [List.flatMap_cons, List.append_assoc, hmarks, hmode, ihmarks, ihmode, List.flatMap_cons,
      List.append_assoc]
    exact ⟨rfl, rfl⟩

/-- A word is read up to its end unless it begins a comment. -/
theorem marks_start {arg : List Char} (harg : Plain arg) (hcomment : arg.head? ≠ some '#')
    (s : List Char) :
    marks .start (arg.flatMap escaped ++ s) =
        arg.flatMap escapedMarks ++ marks (if arg = [] then .start else .word) s ∧
      lastMode .start (arg.flatMap escaped ++ s) =
        lastMode (if arg = [] then .start else .word) s := by
  cases arg with
  | nil => exact ⟨rfl, rfl⟩
  | cons c arg =>
    obtain ⟨hc, harg⟩ := List.forall_mem_cons.mp harg
    have hne : c ≠ '#' := fun heq => hcomment (by rw [heq]; rfl)
    obtain ⟨hmarks, hmode⟩ := marks_escaped (.inl rfl) hc (fun _ => hne) (arg.flatMap escaped ++ s)
    obtain ⟨hrest, hrestMode⟩ := marks_word harg s
    rw [List.flatMap_cons, List.append_assoc, hmarks, hmode, hrest, hrestMode, List.flatMap_cons,
      List.append_assoc]
    exact ⟨rfl, rfl⟩

/-- A word ends at the space before the next argument. -/
theorem marks_argText {m : Mode} (hm : m = .start ∨ m = .word) (arg : List Char)
    (nsargs : List (List Char)) :
    marks m (argText (arg :: nsargs)) =
        .blank ' ' :: marks .start (arg.flatMap escaped ++ argText nsargs) ∧
      lastMode m (argText (arg :: nsargs)) =
        lastMode .start (arg.flatMap escaped ++ argText nsargs) := by
  rcases hm with rfl | rfl
  · exact ⟨rfl, rfl⟩
  · exact ⟨rfl, rfl⟩

theorem commands_escapedMarks {arg : List Char} (w : Word) (ws : List Word) (ms : List Mark) :
    commands (some w) ws (arg.flatMap escapedMarks ++ ms) =
      commands (some (w ++ quoteSpaces arg)) ws ms := by
  induction arg generalizing w with
  | nil => simp [quoteSpaces]
  | cons c arg ih =>
    by_cases hspace : c = ' '
    · simp [escapedMarks, hspace, commands, ih, quoteSpaces]
    · simp [escapedMarks, hspace, commands, ih, quoteSpaces]

theorem commands_word {arg : List Char} (hne : arg ≠ []) (ws : List Word) (ms : List Mark) :
    commands none ws (arg.flatMap escapedMarks ++ ms) =
      commands (some (quoteSpaces arg)) ws ms := by
  cases arg with
  | nil => exact absurd rfl hne
  | cons c arg =>
    by_cases hspace : c = ' '
    · simp [escapedMarks, hspace, commands, commands_escapedMarks, quoteSpaces]
    · simp [escapedMarks, hspace, commands, commands_escapedMarks, quoteSpaces]

/-- The words that the shell reads where no argument is special: empty arguments are lost. -/
theorem commands_text {arg : List Char} {nsargs : List (List Char)}
    (hplain : ∀ a ∈ arg :: nsargs, Plain a) (hcomment : ∀ a ∈ arg :: nsargs, a.head? ≠ some '#')
    (ws : List Word) :
    commands none ws (marks .start (arg.flatMap escaped ++ argText nsargs)) =
      some (unlessEmpty (ws ++ ((arg :: nsargs).filter (· ≠ [])).map quoteSpaces)) := by
  induction nsargs generalizing arg ws with
  | nil =>
    obtain ⟨hmarks, -⟩ := marks_start (hplain arg List.mem_cons_self)
      (hcomment arg List.mem_cons_self) []
    by_cases hempty : arg = []
    · simp [hempty, argText, marks, commands, wordsWith]
    · rw [argText, List.flatMap_nil, hmarks, commands_word hempty]
      simp [hempty, marks, commands, wordsWith]
  | cons next nsargs ih =>
    obtain ⟨hmarks, -⟩ := marks_start (hplain arg List.mem_cons_self)
      (hcomment arg List.mem_cons_self) (argText (next :: nsargs))
    obtain ⟨-, hplain⟩ := List.forall_mem_cons.mp hplain
    obtain ⟨-, hcomment⟩ := List.forall_mem_cons.mp hcomment
    by_cases hempty : arg = []
    · rw [hmarks, if_pos hempty, (marks_argText (.inl rfl) next nsargs).1, hempty]
      simp only [List.flatMap_nil, List.nil_append, commands, wordsWith, Option.toList_none,
        List.append_nil, ih hplain hcomment]
      simp
    · rw [hmarks, if_neg hempty, (marks_argText (.inr rfl) next nsargs).1, commands_word hempty]
      simp only [commands, wordsWith, Option.toList_some, ih hplain hcomment]
      simp [hempty]

theorem not_expansion_escapedMarks {arg : List Char} {k : Mark}
    (hk : k ∈ arg.flatMap escapedMarks) : k.isExpansion = false := by
  obtain ⟨c, -, hmem⟩ := List.mem_flatMap.mp hk
  rw [escapedMarks] at hmem
  split at hmem
  · simp only [List.mem_cons, List.not_mem_nil, or_false] at hmem
    rcases hmem with rfl | rfl <;> rfl
  · rw [List.mem_singleton.mp hmem]
    rfl

/-- The shell finds neither an expansion nor an open quotation. -/
theorem closed_text {arg : List Char} {nsargs : List (List Char)}
    (hplain : ∀ a ∈ arg :: nsargs, Plain a) (hcomment : ∀ a ∈ arg :: nsargs, a.head? ≠ some '#') :
    (∀ k ∈ marks .start (arg.flatMap escaped ++ argText nsargs), k.isExpansion = false) ∧
      (lastMode .start (arg.flatMap escaped ++ argText nsargs)).isOpen = false := by
  induction nsargs generalizing arg with
  | nil =>
    obtain ⟨hmarks, hmode⟩ := marks_start (hplain arg List.mem_cons_self)
      (hcomment arg List.mem_cons_self) []
    rw [argText, List.flatMap_nil, hmarks, hmode]
    constructor
    · intro k hk
      simp only [marks, List.append_nil] at hk
      exact not_expansion_escapedMarks hk
    · split <;> rfl
  | cons next nsargs ih =>
    obtain ⟨hmarks, hmode⟩ := marks_start (hplain arg List.mem_cons_self)
      (hcomment arg List.mem_cons_self) (argText (next :: nsargs))
    obtain ⟨hrest, hrestMode⟩ := ih (List.forall_mem_cons.mp hplain).2
      (List.forall_mem_cons.mp hcomment).2
    have hmode' : (if arg = [] then Mode.start else .word) = .start ∨
        (if arg = [] then Mode.start else .word) = .word := by
      split
      · exact .inl rfl
      · exact .inr rfl
    obtain ⟨hblankMarks, hblankMode⟩ := marks_argText hmode' next nsargs
    rw [hmarks, hmode, hblankMarks, hblankMode]
    refine ⟨?_, hrestMode⟩
    intro k hk
    rcases List.mem_append.mp hk with hk | hk
    · exact not_expansion_escapedMarks hk
    · rcases List.mem_cons.mp hk with rfl | hk
      · rfl
      · exact hrest k hk

/-- An argument that begins a comment. -/
theorem dropped_of_comment {arg : List Char} {nsargs : List (List Char)}
    (hplain : ∀ a ∈ arg :: nsargs, Plain a) (h : ∃ a ∈ arg :: nsargs, a.head? = some '#') :
    Mark.dropped '#' ∈ marks .start (arg.flatMap escaped ++ argText nsargs) := by
  induction nsargs generalizing arg with
  | nil =>
    obtain ⟨a, ha, hhead⟩ := h
    rw [List.mem_singleton] at ha
    obtain ⟨rest, rfl⟩ := List.head?_eq_some_iff.mp (ha ▸ hhead)
    exact List.mem_cons_self
  | cons next nsargs ih =>
    by_cases hhead : arg.head? = some '#'
    · obtain ⟨rest, rfl⟩ := List.head?_eq_some_iff.mp hhead
      exact List.mem_cons_self
    · obtain ⟨hmarks, -⟩ := marks_start (hplain arg List.mem_cons_self) hhead
        (argText (next :: nsargs))
      have hnext : ∃ a ∈ next :: nsargs, a.head? = some '#' := by
        obtain ⟨a, ha, ha'⟩ := h
        rcases List.mem_cons.mp ha with rfl | ha
        · exact absurd ha' hhead
        · exact ⟨a, ha, ha'⟩
      have hmem := ih (List.forall_mem_cons.mp hplain).2 hnext
      rw [hmarks]
      apply List.mem_append_right
      split
      · exact List.mem_cons_of_mem _ hmem
      · exact List.mem_cons_of_mem _ hmem

/-! What is lost of the other arguments. -/

theorem count_escaped (s : List Char) :
    (s.flatMap escaped).count '\\' = s.count '\\' + s.count ' ' ∧
    ∀ c, c ≠ ' ' → c ≠ '\\' → (s.flatMap escaped).count c = s.count c := by
  induction s with
  | nil => exact ⟨rfl, fun _ _ _ => rfl⟩
  | cons d s ih =>
    obtain ⟨hbackslash, hother⟩ := ih
    constructor
    · rw [List.flatMap_cons, List.count_append, hbackslash, List.count_cons, List.count_cons,
        escaped]
      by_cases hspace : d = ' '
      · simp [hspace]
        omega
      · simp [hspace, List.count_singleton]
        omega
    · intro c hc hc'
      rw [List.flatMap_cons, List.count_append, hother c hc hc', List.count_cons, escaped]
      by_cases hspace : d = ' '
      · simp [hspace, Ne.symm hc, Ne.symm hc']
      · simp [hspace, List.count_singleton, Nat.add_comm]

theorem count_argText (nsargs : List (List Char)) :
    (argText nsargs).count '\\' = nsargs.flatten.count '\\' + nsargs.flatten.count ' ' ∧
      ∀ c, c ≠ ' ' → c ≠ '\\' → (argText nsargs).count c = nsargs.flatten.count c := by
  induction nsargs with
  | nil => exact ⟨rfl, fun _ _ _ => rfl⟩
  | cons arg nsargs ih =>
    obtain ⟨hbackslash, hother⟩ := ih
    have hcons : argText (arg :: nsargs) = ' ' :: (arg.flatMap escaped ++ argText nsargs) := rfl
    constructor
    · rw [hcons, List.count_cons_of_ne (by decide), List.count_append, hbackslash,
        (count_escaped arg).1, List.flatten_cons, List.count_append, List.count_append]
      omega
    · intro c hc hc'
      rw [hcons, List.count_cons_of_ne (Ne.symm hc), List.count_append, hother c hc hc',
        (count_escaped arg).2 c hc hc', List.flatten_cons, List.count_append]

theorem plain_of_countP {s : List Char} (h : s.countP (· ∈ special) ≤ s.count ' ') : Plain s := by
  intro c hc hspace hspecial
  have hle (s : List Char) : s.count ' ' ≤ s.countP (· ∈ special) := by
    rw [List.count]
    apply List.countP_mono_left
    intro d _ hd
    rw [beq_iff_eq] at hd
    rw [hd]
    decide
  obtain ⟨before, after, rfl⟩ := List.append_of_mem hc
  have hbefore := hle before
  have hafter := hle after
  rw [List.countP_append, List.countP_cons_of_pos (by simpa using hspecial), List.count_append,
    List.count_cons_of_ne hspace] at h
  omega

/-- No argument is special if all characters of the arguments reach the words. -/
theorem plain_of_literals {command : List Char} {nsargs : List (List Char)}
    (h : literals (marks .start (command.flatMap escaped ++ argText nsargs)) =
      (command :: nsargs).flatten) :
    (∀ a ∈ command :: nsargs, Plain a) ∧ ∀ a ∈ command :: nsargs, a.head? ≠ some '#' := by
  have hcount : (command.flatMap escaped ++ argText nsargs).count '\\' =
      (command :: nsargs).flatten.count '\\' + (command :: nsargs).flatten.count ' ' := by
    rw [List.count_append, (count_escaped command).1, (count_argText nsargs).1, List.flatten_cons,
      List.count_append, List.count_append]
    omega
  have hwhole : Whole (marks .start (command.flatMap escaped ++ argText nsargs)) := by
    intro k hk
    by_cases hspace : k.char = ' '
    · exact .inr (.inl hspace)
    · by_cases hbackslash : k.char = '\\'
      · exact .inr (.inr hbackslash)
      · left
        apply literal_of_count _ hk rfl
        rw [h, marks_char, List.count_append, (count_escaped command).2 _ hspace hbackslash,
          (count_argText nsargs).2 _ hspace hbackslash, List.flatten_cons, List.count_append]
  have hspecial := special_le (m := .start) rfl hwhole
  rw [h, hcount] at hspecial
  have hplain : ∀ a ∈ command :: nsargs, Plain a := by
    intro a ha c hc
    exact plain_of_countP (s := (command :: nsargs).flatten) (by omega) c
      (List.mem_flatten.mpr ⟨a, ha, hc⟩)
  refine ⟨hplain, ?_⟩
  intro a ha hhead
  have hdropped := hwhole _ (dropped_of_comment hplain ⟨a, ha, hhead⟩)
  simp [Mark.value?, Mark.char] at hdropped

/-! Which arguments arrive. -/

/-- The shell takes the argument as it is. -/
structure Passes (arg : List Char) : Prop where
  nonempty : arg ≠ []
  plain : Plain arg
  comment : arg.head? ≠ some '#'
  tilde : tildeName (quoteSpaces arg) = none
  pattern : isPattern (quoteSpaces arg) = false

example : Passes "/Volumes/My Disk/Extra/".toList :=
  ⟨by decide, by decide, by decide, by decide, by decide⟩

def words (args : List (List Char)) : List Word := (args.filter (· ≠ [])).map quoteSpaces

theorem argVectors_text {command : List Char} {nsargs : List (List Char)}
    (hplain : ∀ a ∈ command :: nsargs, Plain a)
    (hcomment : ∀ a ∈ command :: nsargs, a.head? ≠ some '#') (env : Environment) :
    argVectors env (runText command nsargs) =
      if isSimple (words (command :: nsargs)) then
        some ((unlessEmpty (words (command :: nsargs))).map (·.flatMap (expand env)))
      else none := by
  obtain ⟨-, hopen⟩ := closed_text hplain hcomment
  have hsimple : (unlessEmpty (words (command :: nsargs))).all isSimple =
      isSimple (words (command :: nsargs)) := by
    rw [unlessEmpty]
    split
    next hnil => rw [hnil]; rfl
    next => simp
  rw [argVectors, runText, hopen, if_neg (by simp), commands_text hplain hcomment]
  simp only [List.nil_append]
  rw [← hsimple]
  rfl

theorem flatMap_eq_map {α β : Type*} {l : List α} {f : α → List β} {g : α → β}
    (h : ∀ a ∈ l, f a = [g a]) : l.flatMap f = l.map g := by
  induction l with
  | nil => rfl
  | cons a l ih =>
    obtain ⟨ha, hl⟩ := List.forall_mem_cons.mp h
    rw [List.flatMap_cons, ha, ih hl, List.map_cons]
    rfl

/-- No home directory and no file is known, and `$` leads to nothing. -/
def bare : Environment := ⟨fun _ => none, fun _ => [], fun _ => none⟩

theorem evaluate_bare (text : List Char) : bare.evaluate text = none := rfl

theorem expand_bare (w : Word) : expand bare w = [w.value] := by
  rw [expand, expandTilde]
  cases tildeName w <;> simp [bare, expandPattern]

/-- In an environment that expands nothing, the characters of the words are what arrives. -/
theorem literals_of_argVectors {text : List Char} {args : List (List Char)}
    (h : argVectors bare text = some [args]) : literals (marks .start text) = args.flatten := by
  rw [argVectors] at h
  split at h
  · cases h
  · split at h
    next => cases h
    next cs hcs =>
      split at h
      · have hvalues := commands_values hcs
        rw [Option.some.injEq] at h
        obtain ⟨ws, rfl⟩ : ∃ ws, cs = [ws] := by
          rw [← List.length_eq_one_iff, ← List.length_map, h]
          rfl
        have hargs : ws.map Word.value = args := by
          rw [← flatMap_eq_map fun w _ => expand_bare w]
          simpa using h
        rw [← hargs]
        simpa [values, wordsWith] using hvalues.symm
      · cases h

/-- The command and all arguments pass, and the command is the path of a program. -/
structure Safe (command : List Char) (nsargs : List (List Char)) : Prop where
  ascii : IsCString command
  passes : ∀ a ∈ command :: nsargs, Passes a
  path : '/' ∈ command
  option : command.head? ≠ some '-' ∧ command.head? ≠ some '+'
  assignment : isAssignment (quoteSpaces command) = false

theorem Passes.expand {arg : List Char} (h : Passes arg) (env : Environment) :
    expand env (quoteSpaces arg) = [arg] := by
  have htilde : expandTilde env (quoteSpaces arg) = quoteSpaces arg := by
    rw [expandTilde, h.tilde]
    rfl
  simp [Shell.expand, htilde, expandPattern, h.pattern, value_quoteSpaces]

theorem words_of_nonempty {args : List (List Char)} (h : ∀ a ∈ args, a ≠ []) :
    words args = args.map quoteSpaces := by
  rw [words, List.filter_eq_self.mpr]
  intro a ha
  exact decide_eq_true (h a ha)

/-- Only a space is escaped at the beginning of the text. -/
theorem runText_head {command : List Char} {nsargs : List (List Char)} (hne : command ≠ [])
    {c : Char} (hc : c ≠ ' ' ∧ c ≠ '\\') :
    (runText command nsargs).head? = some c ↔ command.head? = some c := by
  cases command with
  | nil => exact absurd rfl hne
  | cons d command =>
    by_cases hspace : d = ' '
    · simp [runText, escaped, hspace, Ne.symm hc.1, Ne.symm hc.2]
    · simp [runText, escaped, hspace]

theorem Safe.argVectors {command : List Char} {nsargs : List (List Char)}
    (h : Safe command nsargs) (env : Environment) :
    argVectors env (runText command nsargs) = some [command :: nsargs] := by
  have hreserved : isReserved (quoteSpaces command) = false := by
    apply not_isReserved_of_slash
    rw [value_quoteSpaces]
    exact h.path
  have hsimple : isSimple (words (command :: nsargs)) = true := by
    rw [words_of_nonempty fun a ha => (h.passes a ha).nonempty]
    simp [isSimple, hreserved, h.assignment]
  rw [argVectors_text (fun a ha => (h.passes a ha).plain) (fun a ha => (h.passes a ha).comment),
    if_pos hsimple, words_of_nonempty fun a ha => (h.passes a ha).nonempty]
  have hexpand : ((command :: nsargs).map quoteSpaces).flatMap (Shell.expand env) =
      command :: nsargs := by
    rw [List.flatMap_map, flatMap_eq_map (g := id) fun a ha => (h.passes a ha).expand env,
      List.map_id]
  simpa [unlessEmpty] using hexpand

theorem Safe.execute {command : List Char} {nsargs : List (List Char)} (h : Safe command nsargs)
    (env : Environment) :
    execute env (runText command nsargs) = some [⟨command, command :: nsargs⟩] := by
  have hne : command ≠ [] := (h.passes command List.mem_cons_self).nonempty
  have hoption : ¬ ((runText command nsargs).head? = some '-' ∨
      (runText command nsargs).head? = some '+') := by
    rw [runText_head hne (by decide), runText_head hne (by decide)]
    exact not_or.mpr h.option
  obtain ⟨hexpansion, -⟩ := closed_text (fun a ha => (h.passes a ha).plain)
    (fun a ha => (h.passes a ha).comment)
  have hany : ¬ (marks .start (runText command nsargs)).any Mark.isExpansion = true := by
    rw [List.any_eq_true]
    rintro ⟨k, hk, htrue⟩
    rw [hexpansion k hk] at htrue
    cases htrue
  rw [Shell.execute, if_neg hoption, if_neg hany, h.argVectors env]
  simp [name, h.path]

/-- Every login name has an empty home directory. -/
def homes : Environment := ⟨fun _ => some [], fun _ => [], fun _ => none⟩

/-- Every pattern matches a file `x`. -/
def matching : Environment := ⟨fun _ => none, fun _ => [['x']], fun _ => none⟩

theorem expand_homes (w : Word) : expand homes w = [(expandTilde homes w).value] := by
  simp [expand, homes, expandPattern]

theorem tilde_of_homes {w : Word} (h : (expandTilde homes w).value = w.value) :
    tildeName w = none := by
  cases hname : tildeName w with
  | none => rfl
  | some name =>
    obtain ⟨rest, rfl⟩ : ∃ rest, w = ('~', false) :: rest := by
      unfold tildeName at hname
      split at hname
      next rest => exact ⟨rest, rfl⟩
      next => cases hname
    have hlength := congrArg List.length h
    have hdrop := List.length_dropWhile_le (· != ('/', false)) rest
    rw [expandTilde, hname] at hlength
    simp [Word.value, homes] at hlength
    omega

theorem expand_matching (w : Word) :
    expand matching w = [if isPattern w then ['x'] else w.value] := by
  have htilde : expandTilde matching w = w := by
    rw [expandTilde]
    cases tildeName w <;> rfl
  rw [expand, htilde, expandPattern]
  by_cases hpattern : isPattern w <;> simp [matching, hpattern]

/-- What arrives in every environment is safe. -/
theorem safe_of_execute {command : List Char} {nsargs : List (List Char)}
    (hcommand : IsCString command)
    (h : ∀ env, execute env (runText command nsargs) = some [⟨command, command :: nsargs⟩]) :
    Safe command nsargs := by
  have hvectors (env : Environment) (henv : env.evaluate (runText command nsargs) = none) :
      argVectors env (runText command nsargs) = some [command :: nsargs] :=
    (execute_eq_some henv (h env)).2.1
  obtain ⟨hplain, hcomment⟩ := plain_of_literals (literals_of_argVectors (hvectors bare rfl))
  have hwords (env : Environment) (henv : env.evaluate (runText command nsargs) = none) :
      isSimple (words (command :: nsargs)) = true ∧
        (words (command :: nsargs)).flatMap (expand env) = command :: nsargs := by
    have hexecute := hvectors env henv
    rw [argVectors_text hplain hcomment] at hexecute
    split at hexecute
    next hsimple =>
      refine ⟨hsimple, ?_⟩
      rw [Option.some.injEq, unlessEmpty] at hexecute
      split at hexecute
      · cases hexecute
      · simpa using hexecute
    next => cases hexecute
  have hnonempty : ∀ a ∈ command :: nsargs, a ≠ [] := by
    have hbare := (hwords bare rfl).2
    rw [flatMap_eq_map fun w _ => expand_bare w, words, List.map_map] at hbare
    have hvalues : (Word.value ∘ quoteSpaces) = id := funext value_quoteSpaces
    rw [hvalues, List.map_id, List.filter_eq_self] at hbare
    intro a ha
    exact of_decide_eq_true (hbare a ha)
  have hmap {g : Word → List Char} {env : Environment}
      (henv : env.evaluate (runText command nsargs) = none) (hg : ∀ w, expand env w = [g w]) :
      ∀ a ∈ command :: nsargs, g (quoteSpaces a) = a := by
    have hargs := (hwords env henv).2
    rw [flatMap_eq_map fun w _ => hg w, words_of_nonempty hnonempty, List.map_map] at hargs
    exact List.map_inj_left.mp (hargs.trans (List.map_id _).symm)
  obtain ⟨hoption, -, hpath⟩ := execute_eq_some (evaluate_bare _) (h bare)
  have hne : command ≠ [] := hnonempty command List.mem_cons_self
  constructor
  · exact hcommand
  · intro a ha
    refine ⟨hnonempty a ha, hplain a ha, hcomment a ha, ?_, ?_⟩
    · apply tilde_of_homes
      rw [hmap rfl expand_homes a ha, value_quoteSpaces]
    · by_contra hpattern
      have hfile := hmap rfl expand_matching a ha
      rw [if_pos (by simpa using hpattern)] at hfile
      rw [← hfile] at hpattern
      exact hpattern (by decide)
  · exact hpath _ List.mem_cons_self
  · simpa only [ne_eq, runText_head hne (c := '-') (by decide),
      runText_head hne (c := '+') (by decide)] using hoption
  · have hsimple := (hwords bare rfl).1
    rw [words_of_nonempty hnonempty] at hsimple
    simp [isSimple] at hsimple
    exact hsimple.2

theorem isCString_of_runCMDAsUser {command : List Char} {nsargs : List (List Char)}
    (h : runCMDAsUser bare false command nsargs = some [⟨command, command :: nsargs⟩]) :
    IsCString command := by
  rw [runCMDAsUser_eq] at h
  obtain ⟨text, htext, hexecute⟩ := Option.bind_eq_some_iff.mp h
  have hliterals := literals_of_argVectors (execute_eq_some (evaluate_bare text) hexecute).2.1
  intro c hc
  have hmem : c ∈ literals (marks .start text) := by
    rw [hliterals, List.flatten_cons]
    exact List.mem_append_left _ hc
  exact isCString_of_cString htext c (mem_of_mem_literals hmem)

/-- The program runs with its arguments, the same ones as a user and as root, in every environment
exactly if the command and the arguments are safe and `escapedString` happens to be `nil`. -/
theorem runCMD_arguments_iff {stray : Bool} {command : List Char} {nsargs : List (List Char)}
    (hargs : ∀ arg ∈ nsargs, IsCString arg) :
    (∀ env, runCMD env stray true command nsargs = some [⟨command, command :: nsargs⟩] ∧
      runCMD env stray true command nsargs = runCMD env stray false command nsargs) ↔
    stray = false ∧ Safe command nsargs := by
  have hroot (env : Environment) :
      runCMD env stray false command nsargs = some [⟨command, command :: nsargs⟩] := by
    simp [runCMD, runCMDAsRoot, rootArgs_of_isCString hargs]
  have huser (hcommand : IsCString command) (env : Environment) :
      runCMD env false true command nsargs = execute env (runText command nsargs) := by
    rw [runCMD, if_pos rfl, runCMDAsUser_eq,
      cString_of_isCString (isCString_runText hcommand hargs)]
    rfl
  constructor
  · intro h
    cases stray with
    | true =>
      have hrun := (h bare).1
      rw [runCMD, if_pos rfl, runCMDAsUser_stray] at hrun
      cases hrun
    | false =>
      have hcommand : IsCString command := isCString_of_runCMDAsUser (h bare).1
      refine ⟨rfl, safe_of_execute hcommand ?_⟩
      intro env
      rw [← huser hcommand]
      exact (h env).1
  · rintro ⟨rfl, h⟩ env
    rw [hroot, huser h.ascii, h.execute env]
    exact ⟨rfl, rfl⟩

def copyArgs : List (List Char) :=
  ["-rf".toList, "/Volumes/My Disk/Extra/".toList, "/Extra.bak".toList]

theorem copyArgs_safe : Safe "/bin/cp".toList copyArgs := by
  refine ⟨by decide +kernel, ?_, by decide +kernel, by decide +kernel, by decide +kernel⟩
  simp only [copyArgs, List.forall_mem_cons]
  refine ⟨?_, ?_, ?_, ?_, by simp⟩ <;>
    exact ⟨by decide, by decide, by decide, by decide, by decide⟩

/-- `cp` on a volume with a space in its name. -/
theorem copyExtra_arguments_iff : Safe "/bin/cp".toList copyArgs ∧ ∀ env,
    runCMD env false true "/bin/cp".toList copyArgs =
        some [⟨"/bin/cp".toList, "/bin/cp".toList :: copyArgs⟩] ∧
      runCMD env false true "/bin/cp".toList copyArgs =
        runCMD env false false "/bin/cp".toList copyArgs :=
  ⟨copyArgs_safe, (runCMD_arguments_iff (by decide +kernel)).mpr ⟨rfl, copyArgs_safe⟩⟩

/-- What `repairExtensionPermissions` passes to `find`. -/
def chmodArgs : List (List Char) :=
  ["/System/Library/Extensions/".toList, "-type".toList, "f".toList, "-exec".toList,
    "/bin/chmod".toList, "644".toList, "\x7b\x7d".toList, ";".toList]

/-- The shell takes the last argument for the end of the command. -/
theorem chmodArgs_cut :
    (∀ env, runCMD env false true "/usr/bin/find".toList chmodArgs =
      some [⟨"/usr/bin/find".toList, "/usr/bin/find".toList :: chmodArgs.dropLast⟩]) ∧
    ∀ env, runCMD env false false "/usr/bin/find".toList chmodArgs =
      some [⟨"/usr/bin/find".toList, "/usr/bin/find".toList :: chmodArgs⟩] := by
  constructor
  · intro env
    rw [runCMD, if_pos rfl, runCMDAsUser_eq]
    rfl
  · intro env
    rfl

end Installer
