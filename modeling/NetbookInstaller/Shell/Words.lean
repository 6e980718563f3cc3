import Mathlib.Data.List.Count

/-! How a shell takes a text apart into commands and words, and what the words become. -/
namespace Shell

/-- The characters of a word, each with whether it is quoted. -/
abbrev Word := List (Char × Bool)

def Word.value (w : Word) : List Char := w.map Prod.fst

/-- What a character of the text is. Quotes belong to a word but not to its value; comments and
line continuations belong to nothing. -/
inductive Mark where
  | literal (c : Char) (quoted : Bool)
  | quote (c : Char)
  | blank (c : Char)
  | operator (c : Char)
  | expansion (c : Char)
  | dropped (c : Char)
  deriving DecidableEq, Repr

namespace Mark

def char : Mark → Char
  | literal c _ | quote c | blank c | operator c | expansion c | dropped c => c

def value? : Mark → Option Char
  | literal c _ => some c
  | _ => none

def isExpansion : Mark → Bool
  | expansion _ => true
  | _ => false

end Mark

inductive Mode where
  | start
  | word
  | escaped (start : Bool)
  | single
  | double
  | doubleEscaped
  | comment
  deriving DecidableEq, Repr

def operators : List Char := ['\n', ';', '&', '|', '<', '>', '(', ')']

/-- A character outside of quotes. -/
def plainStep (start : Bool) (c : Char) (next : Option Char) : Mark × Mode :=
  if c = '\\' then
    match next with
    | none => (.expansion c, .escaped start)
    | some d => (if d = '\n' then .dropped c else .quote c, .escaped start)
  else if c = '\'' then (.quote c, .single)
  else if c = '"' then (.quote c, .double)
  else if c = ' ' ∨ c = '\t' then (.blank c, .start)
  else if c ∈ operators then (.operator c, .start)
  else if c = '$' ∨ c = '`' then (.expansion c, .word)
  else (.literal c false, .word)

/-- A character in double quotes. -/
def doubleStep (c : Char) (next : Option Char) : Mark × Mode :=
  if c = '"' then (.quote c, .word)
  else if c = '\\' then
    if next = some '\n' then (.dropped c, .doubleEscaped)
    else if next ∈ [some '$', some '`', some '"', some '\\'] then (.quote c, .doubleEscaped)
    else (.literal c true, .double)
  else if c = '$' ∨ c = '`' then (.expansion c, .double)
  else (.literal c true, .double)

def step (m : Mode) (c : Char) (next : Option Char) : Mark × Mode :=
  match m with
  | .start => if c = '#' then (.dropped c, .comment) else plainStep true c next
  | .word => plainStep false c next
  | .escaped start =>
    if c = '\n' then (.dropped c, if start then .start else .word) else (.literal c true, .word)
  | .single => if c = '\'' then (.quote c, .word) else (.literal c true, .single)
  | .double => doubleStep c next
  | .doubleEscaped => if c = '\n' then (.dropped c, .double) else (.literal c true, .double)
  | .comment => if c = '\n' then (.operator c, .start) else (.dropped c, .comment)

def marks : Mode → List Char → List Mark
  | _, [] => []
  | m, c :: s => (step m c s.head?).1 :: marks (step m c s.head?).2 s

def lastMode : Mode → List Char → Mode
  | m, [] => m
  | m, c :: s => lastMode (step m c s.head?).2 s

/-- A quotation that is still open. -/
def Mode.isOpen : Mode → Bool
  | single | double | doubleEscaped => true
  | _ => false

/-- The words of a command, the one that is being read included. -/
def wordsWith (w : Option Word) (ws : List Word) : List Word := ws ++ w.toList

def unlessEmpty (ws : List Word) : List (List Word) := if ws = [] then [] else [ws]

/-- The commands of a text, one after the other; `none` if it has something else, a pipeline, a
redirection or a compound command, or is no command at all. -/
def commands : Option Word → List Word → List Mark → Option (List (List Word))
  | w, ws, [] => some (unlessEmpty (wordsWith w ws))
  | w, ws, .literal c quoted :: ms => commands (some (w.getD [] ++ [(c, quoted)])) ws ms
  | w, ws, .quote _ :: ms => commands (some (w.getD [])) ws ms
  | w, ws, .expansion _ :: ms => commands (some (w.getD [])) ws ms
  | w, ws, .dropped _ :: ms => commands w ws ms
  | w, ws, .blank _ :: ms => commands none (wordsWith w ws) ms
  | w, ws, .operator c :: ms =>
    if c = '\n' then (commands none [] ms).map (unlessEmpty (wordsWith w ws) ++ ·)
    else if (c = ';' ∨ c = '&') ∧ wordsWith w ws ≠ [] then
      (commands none [] ms).map (wordsWith w ws :: ·)
    else none

def reservedWords : List (List Char) :=
  [['!'], ['{'], ['}'], ['c', 'a', 's', 'e'], ['d', 'o'], ['d', 'o', 'n', 'e'],
    ['e', 'l', 'i', 'f'], ['e', 'l', 's', 'e'], ['e', 's', 'a', 'c'], ['f', 'i'], ['f', 'o', 'r'],
    ['i', 'f'], ['i', 'n'], ['t', 'h', 'e', 'n'], ['u', 'n', 't', 'i', 'l'],
    ['w', 'h', 'i', 'l', 'e']]

def isReserved (w : Word) : Bool :=
  w.all (fun c => !c.2) && reservedWords.contains w.value

/-- `name=value`, where `name` is a variable's. -/
def isAssignment (w : Word) : Bool :=
  w.contains ('=', false) &&
    match w.takeWhile (· != ('=', false)) with
    | [] => false
    | c :: name =>
      (c.1.isAlpha || c.1 == '_') && name.all (fun d => d.1.isAlphanum || d.1 == '_') &&
        (c :: name).all (fun d => !d.2)

/-- The first word of a command is the name of a program. -/
def isSimple (ws : List Word) : Bool :=
  match ws with
  | [] => true
  | w :: _ => !isReserved w && !isAssignment w

/-- The login name of a `~` at the beginning of a word, empty for the user's own. -/
def tildeName (w : Word) : Option (List Char) :=
  match w with
  | ('~', false) :: w =>
    let name := w.takeWhile (· != ('/', false))
    if name.all (fun c => !c.2) then some (Word.value name) else none
  | _ => none

/-- The rest of the word closes a bracket expression, the first character belongs to it. -/
def closesBracket (w : Word) : Bool :=
  match if w.head? = some ('!', false) then w.tail else w with
  | [] => false
  | c :: w => c.1 != '/' && (w.takeWhile (·.1 != '/')).contains (']', false)

/-- A word that stands for the pathnames that match it. -/
def isPattern : Word → Bool
  | [] => false
  | c :: w =>
    (!c.2 && (c.1 == '*' || c.1 == '?' || c.1 == '[' && closesBracket w)) || isPattern w

/-- A program that is run; its arguments begin with the name it was called by. -/
structure Run where
  path : List Char
  args : List (List Char)
  deriving DecidableEq, Repr

/-- What the result depends on besides the text: home directories, the files that match a
pattern, and the whole result if the text has parameter expansions or command substitutions, a
backslash at its end, or a command that no slash tells from a builtin and that is looked up. -/
structure Environment where
  home : List Char → Option (List Char)
  files : Word → List (List Char)
  evaluate : List Char → Option (List Run)

def expandTilde (env : Environment) (w : Word) : Word :=
  match (tildeName w).bind env.home with
  | none => w
  | some home => home.map (·, true) ++ w.dropWhile (· != ('/', false))

/-- A pattern that matches nothing stays as it is. -/
def expandPattern (env : Environment) (w : Word) : List (List Char) :=
  if isPattern w ∧ env.files w ≠ [] then env.files w else [w.value]

def expand (env : Environment) (w : Word) : List (List Char) :=
  expandPattern env (expandTilde env w)

/-- The argument vectors of the commands of a text. -/
def argVectors (env : Environment) (text : List Char) : Option (List (List (List Char))) :=
  if (lastMode .start text).isOpen then none
  else
    match commands none [] (marks .start text) with
    | none => none
    | some cs => if cs.all isSimple then some (cs.map (·.flatMap (expand env))) else none

def name (args : List (List Char)) : List Char := args.headD []

/-- The programs that `sh -c` runs. -/
def execute (env : Environment) (text : List Char) : Option (List Run) :=
  -- an option of the shell, and no text is left for `-c`
  if text.head? = some '-' ∨ text.head? = some '+' then none
  else if (marks .start text).any Mark.isExpansion then env.evaluate text
  else
    match argVectors env text with
    | none => none
    | some vs =>
      if vs.all (fun args => (name args).contains '/') then
        some (vs.map fun args => ⟨name args, args⟩)
      else env.evaluate text

/-- No reserved word has a slash. -/
theorem not_isReserved_of_slash {w : Word} (h : '/' ∈ w.value) : isReserved w = false := by
  have hwords : ∀ r ∈ reservedWords, '/' ∉ r := by decide
  rw [isReserved, Bool.and_eq_false_iff]
  right
  rw [List.contains_eq_mem, decide_eq_false_iff_not]
  intro hmem
  exact hwords _ hmem h

/-- What runs where nothing is left to the environment. -/
theorem execute_eq_some {env : Environment} {text : List Char} {runs : List Run}
    (henv : env.evaluate text = none) (h : execute env text = some runs) :
    (text.head? ≠ some '-' ∧ text.head? ≠ some '+') ∧
      argVectors env text = some (runs.map Run.args) ∧ ∀ r ∈ runs, '/' ∈ r.path := by
  rw [execute, henv] at h
  split at h
  next => cases h
  next hoption =>
    split at h
    · cases h
    · split at h
      next => cases h
      next vs hvs =>
        split at h
        next hpaths =>
          obtain rfl := Option.some.inj h
          refine ⟨not_or.mp hoption, ?_, ?_⟩
          · rw [hvs, List.map_map]
            simp [Function.comp_def]
          · intro r hr
            obtain ⟨args, hargs, rfl⟩ := List.mem_map.mp hr
            simpa using List.all_eq_true.mp hpaths args hargs
        next => cases h

variable {m : Mode} {s : List Char} {ms : List Mark} {c : Char}

/-- What the words are made of. -/
def literals (ms : List Mark) : List Char := ms.filterMap Mark.value?

theorem step_char (m : Mode) (c : Char) (next : Option Char) : (step m c next).1.char = c := by
  cases m <;> simp only [step, plainStep, doubleStep] <;> (repeat' split) <;> rfl

theorem marks_char (m : Mode) (s : List Char) : (marks m s).map Mark.char = s := by
  induction s generalizing m with
  | nil => rfl
  | cons c s ih => rw [marks, List.map_cons, step_char, ih]

theorem literals_cons (k : Mark) (ms : List Mark) :
    literals (k :: ms) = k.value?.toList ++ literals ms := by
  cases k <;> rfl

theorem count_literals_le (ms : List Mark) (c : Char) :
    (literals ms).count c ≤ (ms.map Mark.char).count c := by
  induction ms with
  | nil => exact Nat.le_refl _
  | cons k ms ih =>
    rw [literals_cons, List.count_append, List.map_cons, List.count_cons]
    cases k <;> simp [Mark.value?, Mark.char, List.count_singleton] <;> omega

theorem mem_of_mem_literals (h : c ∈ literals (marks m s)) : c ∈ s := by
  have hle := count_literals_le (marks m s) c
  rw [marks_char] at hle
  exact List.count_pos_iff.mp (Nat.lt_of_lt_of_le (List.count_pos_iff.mpr h) hle)

/-- A character of which none is lost has only literal marks. -/
theorem literal_of_count (h : (literals ms).count c = (ms.map Mark.char).count c) {k : Mark}
    (hk : k ∈ ms) (hc : k.char = c) : k.value?.isSome := by
  induction ms with
  | nil => cases hk
  | cons k' ms ih =>
    have hle := count_literals_le ms c
    rw [literals_cons, List.count_append, List.map_cons, List.count_cons] at h
    rcases List.mem_cons.mp hk with rfl | hmem
    · cases hvalue : k.value? with
      | none =>
        rw [hvalue, Option.toList_none, List.count_nil, hc, if_pos (beq_self_eq_true c)] at h
        omega
      | some d => rfl
    · apply ih _ hmem
      cases k' <;> simp [Mark.value?, Mark.char, List.count_singleton] at h <;> split at h <;> omega

/-- The values of the words, one after the other. -/
def values (ws : List Word) : List Char := (ws.map Word.value).flatten

theorem values_append (ws vs : List Word) : values (ws ++ vs) = values ws ++ values vs := by
  simp [values]

theorem values_wordsWith (w : Option Word) (ws : List Word) :
    values (wordsWith w ws) = values ws ++ (w.getD []).value := by
  cases w <;> simp [wordsWith, values, Word.value]

theorem values_unlessEmpty (ws : List Word) : values (unlessEmpty ws).flatten = values ws := by
  rw [unlessEmpty]
  split
  next h => rw [h]; rfl
  next => simp

/-- The words of the commands are made of the literals. -/
theorem commands_values {w : Option Word} {ws : List Word} {cs : List (List Word)}
    (h : commands w ws ms = some cs) :
    values cs.flatten = values (wordsWith w ws) ++ literals ms := by
  induction ms generalizing w ws cs with
  | nil =>
    rw [commands, Option.some.injEq] at h
    rw [← h, values_unlessEmpty]
    simp [literals]
  | cons k ms ih =>
    cases k with
    | literal c quoted =>
      rw [ih h]
      simp [values_wordsWith, literals_cons, Word.value, Mark.value?]
    | quote c =>
      rw [ih h]
      simp [values_wordsWith, literals_cons, Mark.value?]
    | expansion c =>
      rw [ih h]
      simp [values_wordsWith, literals_cons, Mark.value?]
    | dropped c =>
      rw [ih h]
      simp [literals_cons, Mark.value?]
    | blank c =>
      rw [ih h]
      simp [values_wordsWith, literals_cons, Word.value, Mark.value?]
    | operator c =>
      have hnone : values (wordsWith none []) = [] := rfl
      rw [commands] at h
      split at h
      · obtain ⟨cs', hcs', rfl⟩ := Option.map_eq_some_iff.mp h
        rw [List.flatten_append, values_append, values_unlessEmpty, ih hcs', hnone]
        rfl
      · split at h
        · obtain ⟨cs', hcs', rfl⟩ := Option.map_eq_some_iff.mp h
          rw [List.flatten_cons, values_append, ih hcs', hnone]
          rfl
        · cases h

/-- The characters that are not passed on unless they are quoted, the space among them. -/
def special : List Char := [' ', '\\', '\'', '"', '\t', '$', '`'] ++ operators

/-- Nothing but spaces and backslashes is lost from a text. -/
def Whole (ms : List Mark) : Prop :=
  ∀ k ∈ ms, k.value?.isSome ∨ k.char = ' ' ∨ k.char = '\\'

/-- The escapes that wait for their character, outside of quotes. -/
def Mode.pending : Mode → Option ℕ
  | start | word => some 0
  | escaped _ => some 1
  | _ => none

theorem plainStep_cases {start : Bool} {next : Option Char}
    (h : (plainStep start c next).1.value?.isSome ∨ (plainStep start c next).1.char = ' ' ∨
      (plainStep start c next).1.char = '\\') :
    (c = '\\' ∧ (plainStep start c next).1.value? = none ∧
      (plainStep start c next).2 = .escaped start) ∨
    (c = ' ' ∧ plainStep start c next = (.blank ' ', .start)) ∨
    c ∉ special ∧ plainStep start c next = (.literal c false, .word) := by
  by_cases hbackslash : c = '\\'
  · left
    refine ⟨hbackslash, ?_⟩
    cases next with
    | none => simp [plainStep, hbackslash, Mark.value?]
    | some d =>
      by_cases hnewline : d = '\n' <;> simp [plainStep, hbackslash, hnewline, Mark.value?]
  · right
    by_cases hspace : c = ' '
    · left
      subst hspace
      exact ⟨rfl, rfl⟩
    · right
      simp only [plainStep, if_neg hbackslash, hspace, false_or] at h ⊢
      split_ifs at h ⊢ with hquote hdouble htab hoperator hexpansion
      all_goals simp_all [Mark.value?, Mark.char, special]

/-- Each special character that is passed on has cost an escape. -/
theorem special_le {n : ℕ} (hm : m.pending = some n) (h : Whole (marks m s)) :
    (literals (marks m s)).countP (· ∈ special) + (literals (marks m s)).count '\\' ≤
      s.count '\\' + n := by
  induction s generalizing m n with
  | nil => exact Nat.zero_le _
  | cons c s ih =>
    obtain ⟨hk, hrest⟩ := List.forall_mem_cons.mp h
    have hplain (start : Bool) (hn : n = 0)
        (hstep : step m c s.head? = plainStep start c s.head?) :
        (literals (marks m (c :: s))).countP (· ∈ special) +
          (literals (marks m (c :: s))).count '\\' ≤ (c :: s).count '\\' + n := by
      rw [marks] at h ⊢
      rw [hstep] at hk hrest ⊢
      rcases plainStep_cases hk with ⟨hc, hvalue, hmode⟩ | ⟨hc, hplain⟩ | ⟨hc, hplain⟩
      · rw [hmode] at hrest ⊢
        have hle := ih (m := .escaped start) rfl hrest
        rw [literals_cons, hvalue, hc, List.count_cons_self]
        simp only [Option.toList_none, List.nil_append]
        omega
      · rw [hplain] at hrest ⊢
        have hle := ih (m := .start) rfl hrest
        rw [literals_cons, hc, List.count_cons_of_ne (by decide)]
        simpa [Mark.value?, hn] using hle
      · rw [hplain] at hrest ⊢
        have hle := ih (m := .word) rfl hrest
        have hne : c ≠ '\\' := fun heq => hc (by rw [heq]; decide)
        rw [literals_cons]
        simp only [Mark.value?, Option.toList_some, List.singleton_append, List.countP_cons, hc,
          decide_false, List.count_cons_of_ne hne]
        simpa [hn] using hle
    cases m with
    | start =>
      by_cases hcomment : c = '#'
      · rw [step, if_pos hcomment, hcomment] at hk
        simp [Mark.value?, Mark.char] at hk
      · exact hplain true (Option.some.inj hm).symm (if_neg hcomment)
    | word => exact hplain false (Option.some.inj hm).symm rfl
    | escaped start =>
      have hn : n = 1 := (Option.some.inj hm).symm
      by_cases hnewline : c = '\n'
      · rw [step, if_pos hnewline, hnewline] at hk
        simp [Mark.value?, Mark.char] at hk
      · have hstep : step (.escaped start) c s.head? = (.literal c true, .word) := if_neg hnewline
        have hmarks : marks (.escaped start) (c :: s) = .literal c true :: marks .word s := by
          rw [marks, hstep]
        rw [hstep] at hrest
        have hle := ih (m := .word) rfl hrest
        rw [hmarks, literals_cons]
        simp only [Mark.value?, Option.toList_some, List.singleton_append, List.countP_cons,
          List.count_cons]
        split <;> split <;> omega
    | single => cases hm
    | double => cases hm
    | doubleEscaped => cases hm
    | comment => cases hm

end Shell
