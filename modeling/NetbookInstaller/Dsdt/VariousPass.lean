import NetbookInstaller.Dsdt.Text
import NetbookInstaller.Transition.Loops
import Mathlib.Data.Prod.Lex
import Mathlib.Order.MinMax

/-! The last pass of the DSDT patcher. Its fix of CPU aliases reads the rest of the
input and then goes on with the file it has just written. -/
namespace Dsdt

def PROCESSOR : Line := "Processor (".toList
def issue1 : Line := ", \"*".toList
def issue2 : Line := "Alias (".toList
def issue3 : Line := "Store (Local0, Local0)".toList
def fix3 : Line := "Store (\"Local0\", Local0)".toList
def issue5 : Line := "Acquire (MUTE, 0x????)".toList
def fix5 : Line := "Acquire (MUTE, 0xFFFF)\n".toList
def issue4 : Line := "_T_".toList

/-- What the C program leaves open: the text written for a format with a conversion,
and the bytes of uninitialised memory behind the two alias names. -/
structure Unspecified where
  conversion : Line → List Char
  junk : Option Char
  junk2 : Option Char

/-- The loop that looks for a free prefix, the outer loop, and the loop that replaces
an alias in the rest of the file. -/
inductive VariousPc where
  | prefixes | outer | replacing
  deriving DecidableEq, Repr

/-- `text`, `latest` and `latest2` are the contents of `patched_dsdt.dsl`,
`latest_dsdt.dsl` and `latest2_dsdt.dsl`. Once `reopened`, the pass reads the second
and writes the third. `buffer` is the memory of the line buffer, behind the end of
its string too. -/
structure VariousPass where
  pc : VariousPc
  text : List Line
  latest : List Char
  latest2 : List Char
  reopened : Bool
  rest : List Line
  buffer : List Char
  firstfreet : ℕ
  aliasName : Line
  aliasName2 : Line
  deriving DecidableEq, Repr

/-- `sprintf(freetprefix, "T%d_", firstfreet)`. -/
def freeTPrefix (firstfreet : ℕ) : Line := 'T' :: (Nat.toDigits 10 firstfreet ++ ['_'])

/-- The copy of a line with `issue1`, without its first asterisk. -/
def dropAsterisk (line : Line) : Line := line.erase '*'

/-- The copy of a line with every `issue4` replaced. -/
def replaceT (freet : Line) : Line → Line
  | [] => []
  | '_' :: 'T' :: '_' :: cs => freet ++ replaceT freet cs
  | c :: cs => c :: replaceT freet cs

/-- The two names of an alias line: what stands between the parenthesis and the
comma, and between the byte behind the comma's blank and the closing parenthesis. -/
def aliasNames (u : Unspecified) (line : Line) : Line × Line :=
  let inner := (line.dropWhile (· ≠ '(')).tail
  let name := inner.takeWhile (· ≠ ',')
  if ',' ∈ inner then
    let behind := inner.drop (name.length + 2)
    let name2 :=
      if ')' ∈ behind then behind.takeWhile (· ≠ ')') ++ u.junk2.toList
      else if inner.length < name.length + 2 then u.junk2.toList
      else behind
    (name ++ u.junk.toList, name2)
  else (name, u.junk2.toList)

/-- `while(!cmpStr2(buffer, ALIAS2, i)) i++` and `replaceAlias(buffer, ALIAS, i)`. -/
def replaceAlias (buffer : List Char) (name name2 : Line) : List Char :=
  let i := buffer.tails.findIdx fun t => name2.isPrefixOf t
  buffer.take i ++ name ++ buffer.drop (i + name.length)

namespace VariousPass

def startOn (lines : List Line) (memory : List Char) : VariousPass :=
  ⟨.prefixes, lines, [], [], false, lines, memory, 0, [], []⟩

/-- The file is one that `fprintf` has written, so that its lines are strings. -/
def start (file memory : List Char) : VariousPass := startOn (buffers file) memory

/-- A line read into the buffer. -/
def store (s : VariousPass) (line : Line) (rest : List Line) : VariousPass :=
  { s with rest, buffer := line ++ '\x00' :: s.buffer.drop (line.length + 1) }

/-- The string in the buffer. -/
def line (s : VariousPass) : Line := s.buffer.takeWhile (· ≠ '\x00')

def fprintf (u : Unspecified) (s : VariousPass) (format : Line) : VariousPass :=
  let written := (formatted format).getD (u.conversion format)
  if s.reopened then { s with latest2 := s.latest2 ++ written }
  else { s with latest := s.latest ++ written }

/-- The last three fixes, and the line as it is if none of them applies. -/
def fixLine (u : Unspecified) (s : VariousPass) (line : Line) : VariousPass :=
  if cmpStr line issue3 then s.fprintf u fix3
  else if cmpStr line issue4 then s.fprintf u (replaceT (freeTPrefix s.firstfreet) line)
  else if cmpStrWild line issue5 && !cmpStr line fix5 then s.fprintf u fix5
  else s.fprintf u line

/-- One pass of the outer loop that has read `line`. -/
def outerStep (u : Unspecified) (s : VariousPass) (line : Line) (rest : List Line) :
    VariousPass :=
  let s := s.store line rest
  if cmpStr line issue1 then s.fprintf u (dropAsterisk line)
  else if cmpStr line PROCESSOR then
    let s := s.fprintf u line
    match rest with
    | [] => s.fixLine u line
    | line :: rest =>
      let s := s.store line rest
      if cmpStr line issue2 then
        { s with
          pc := .replacing
          aliasName := (aliasNames u line).1
          aliasName2 := (aliasNames u line).2 }
      else s.fixLine u line
  else s.fixLine u line

def replacingStep (u : Unspecified) (s : VariousPass) (line : Line) (rest : List Line) :
    VariousPass :=
  let s := s.store line rest
  let s :=
    if cmpStr line s.aliasName2 then
      { s with buffer := replaceAlias s.buffer s.aliasName s.aliasName2 }
    else s
  s.fprintf u s.line

/-- The files are closed; `cp` names a file that does not exist and does nothing. -/
def reopen (u : Unspecified) (s : VariousPass) : VariousPass :=
  let s := { s with
    pc := .outer, reopened := true, rest := buffers s.latest, latest2 := [] }
  s.fixLine u s.line

def step (u : Unspecified) (s : VariousPass) : Option VariousPass :=
  match s.pc, s.rest with
  | .prefixes, [] => some { s with pc := .outer, rest := s.text }
  | .prefixes, line :: rest =>
    if cmpStr line (freeTPrefix s.firstfreet) then
      some { s.store line s.text with firstfreet := s.firstfreet + 1 }
    else some (s.store line rest)
  | .outer, [] => none
  | .outer, line :: rest => some (s.outerStep u line rest)
  | .replacing, [] => some (s.reopen u)
  | .replacing, line :: rest => some (s.replacingStep u line rest)

end VariousPass

/-- A line with `issue1` is copied into `char buff[100]`; the first copy is the longest. -/
def FitsBuff (line : Line) : Prop :=
  (if line.head? = some '*' then line.length else line.length + 1) ≤ 100

instance (line : Line) : Decidable (FitsBuff line) := inferInstanceAs (Decidable (_ ≤ _))

/-- The C program writes past the end of `buff`, or past the end of the line buffer when a name
longer than what it is put in place of stands there. -/
def VariousPass.Overruns (s : VariousPass) : Prop :=
  match s.pc, s.rest with
  | .outer, line :: _ => cmpStr line issue1 = true ∧ ¬ FitsBuff line
  | .replacing, line :: rest =>
    cmpStr line s.aliasName2 = true ∧
      BUFFER_SIZE ≤ ((s.store line rest).buffer.tails.findIdx fun t => s.aliasName2.isPrefixOf t) +
        s.aliasName.length
  | _, _ => False

/-- Whether the outer loop comes to a processor line followed by an alias line. -/
def meetsPair : List Line → Bool
  | [] => false
  | [_] => false
  | line :: line' :: rest =>
    if cmpStr line issue1 then meetsPair (line' :: rest)
    else if cmpStr line PROCESSOR then
      if cmpStr line' issue2 then true else meetsPair rest
    else meetsPair (line' :: rest)

/-- The lines with `issue1` that the outer loop comes to fit `buff`. It does not look at the
one behind a processor line, nor at those behind an alias. -/
def namesFit : List Line → Bool
  | [] => true
  | [line] => !cmpStr line issue1 || decide (FitsBuff line)
  | line :: line' :: rest =>
    if cmpStr line issue1 then decide (FitsBuff line) && namesFit (line' :: rest)
    else if cmpStr line PROCESSOR then cmpStr line' issue2 || namesFit rest
    else namesFit (line' :: rest)

namespace VariousPass

variable {u : Unspecified}

@[simp] theorem store_pc (s : VariousPass) (line : Line) (rest : List Line) :
    (s.store line rest).pc = s.pc := rfl

@[simp] theorem store_rest (s : VariousPass) (line : Line) (rest : List Line) :
    (s.store line rest).rest = rest := rfl

/-- The file that the pass has opened again still has a pair, and the pass has met
one in it or is going to. -/
def Stuck (s : VariousPass) : Prop :=
  s.reopened = true ∧ meetsPair (buffers s.latest) = true ∧
    (s.pc = .replacing ∨ s.pc = .outer ∧ meetsPair s.rest = true)

/-- What writing does not touch. -/
structure SameReader (s t : VariousPass) : Prop where
  pc : t.pc = s.pc
  text : t.text = s.text
  reopened : t.reopened = s.reopened
  rest : t.rest = s.rest
  latest : s.reopened = true → t.latest = s.latest

theorem fprintf_sameReader (s : VariousPass) (format : Line) : SameReader s (s.fprintf u format) := by
  unfold fprintf
  split
  next h => exact ⟨rfl, rfl, rfl, rfl, fun _ => rfl⟩
  next h => exact ⟨rfl, rfl, rfl, rfl, fun h' => absurd h' h⟩

theorem fixLine_sameReader (s : VariousPass) (line : Line) : SameReader s (s.fixLine u line) := by
  unfold fixLine
  split
  · exact fprintf_sameReader _ _
  · split
    · exact fprintf_sameReader _ _
    · split <;> exact fprintf_sameReader _ _

theorem SameReader.trans {s t v : VariousPass} (hst : SameReader s t) (htv : SameReader t v) :
    SameReader s v :=
  ⟨htv.pc.trans hst.pc, htv.text.trans hst.text, htv.reopened.trans hst.reopened,
    htv.rest.trans hst.rest, fun h =>
      (htv.latest (hst.reopened.trans h)).trans (hst.latest h)⟩

theorem meetsPair_cons {line : Line} {rest : List Line}
    (h : cmpStr line issue1 = true ∨ cmpStr line PROCESSOR = false) :
    meetsPair (line :: rest) = meetsPair rest := by
  cases rest with
  | nil => rfl
  | cons line' rest =>
    rw [meetsPair]
    rcases h with h | h
    · rw [if_pos h]
    · rw [h]
      simp

/-- What a pass of the outer loop does to the reader. -/
structure OuterRead (s : VariousPass) (lines : List Line) (t : VariousPass) : Prop where
  text : t.text = s.text
  reopened : t.reopened = s.reopened
  latest : s.reopened = true → t.latest = s.latest
  rest : t.rest.length < lines.length
  pc : t.pc = .outer ∧ meetsPair t.rest = meetsPair lines ∨
    t.pc = .replacing ∧ meetsPair lines = true

theorem SameReader.outerRead {s t v : VariousPass} {lines : List Line} (hpc : t.pc = .outer)
    (htext : t.text = s.text) (hreopened : t.reopened = s.reopened)
    (hlatest : s.reopened = true → t.latest = s.latest) (htv : SameReader t v)
    (hless : t.rest.length < lines.length) (hmeets : meetsPair t.rest = meetsPair lines) :
    OuterRead s lines v := by
  refine ⟨htv.text.trans htext, htv.reopened.trans hreopened, ?_, ?_, .inl ⟨?_, ?_⟩⟩
  · intro h
    exact (htv.latest (hreopened.trans h)).trans (hlatest h)
  · rw [htv.rest]
    exact hless
  · rw [htv.pc, hpc]
  · rw [htv.rest, hmeets]

theorem outerStep_outerRead {s : VariousPass} (line : Line) (rest : List Line)
    (hpc : s.pc = .outer) : OuterRead s (line :: rest) (s.outerStep u line rest) := by
  have hless : rest.length < (line :: rest).length := Nat.lt_succ_self _
  have hkept : ∀ {v}, SameReader (s.store line rest) v →
      meetsPair rest = meetsPair (line :: rest) → OuterRead s (line :: rest) v :=
    fun hv hmeets => SameReader.outerRead (s := s) (t := s.store line rest) hpc rfl rfl
      (fun _ => rfl) hv hless hmeets
  unfold outerStep
  dsimp only
  split
  next h => exact hkept (fprintf_sameReader _ _) (meetsPair_cons (.inl h)).symm
  next hissue =>
    split
    next hproc =>
      have hprinted := fprintf_sameReader (u := u) (s.store line rest) line
      cases rest with
      | nil => exact hkept (hprinted.trans (fixLine_sameReader _ _)) rfl
      | cons line' rest =>
        have hmeets : meetsPair (line :: line' :: rest) =
            if cmpStr line' issue2 then true else meetsPair rest := by
          rw [meetsPair, if_neg hissue, if_pos hproc]
        have hless' : rest.length < (line :: line' :: rest).length := by
          simp only [List.length_cons]
          omega
        dsimp only
        split
        next halias =>
          refine ⟨hprinted.text, hprinted.reopened, hprinted.latest, hless', .inr ⟨rfl, ?_⟩⟩
          rw [hmeets, if_pos halias]
        next halias =>
          refine SameReader.outerRead (s := s)
            (t := ((s.store line (line' :: rest)).fprintf u line).store line' rest)
            (hprinted.pc.trans hpc) hprinted.text hprinted.reopened hprinted.latest
            (fixLine_sameReader _ _) hless' ?_
          rw [hmeets, if_neg halias]
          rfl
    next hproc =>
      exact hkept (fixLine_sameReader _ _) (meetsPair_cons (.inr (by simpa using hproc))).symm

theorem replacingStep_sameReader (s : VariousPass) (line : Line) (rest : List Line) :
    SameReader { s with rest } (s.replacingStep u line rest) := by
  have hprinted : ∀ v : VariousPass, SameReader { s with rest } v →
      SameReader { s with rest } (v.fprintf u v.line) :=
    fun v hv => hv.trans (fprintf_sameReader v v.line)
  unfold replacingStep
  dsimp only
  split
  · exact hprinted _ ⟨rfl, rfl, rfl, rfl, fun _ => rfl⟩
  · exact hprinted _ ⟨rfl, rfl, rfl, rfl, fun _ => rfl⟩

theorem reopen_spec (s : VariousPass) :
    (s.reopen u).pc = .outer ∧ (s.reopen u).text = s.text ∧ (s.reopen u).reopened = true ∧
      (s.reopen u).rest = buffers s.latest ∧ (s.reopen u).latest = s.latest := by
  have h := fixLine_sameReader (u := u) { s with
    pc := .outer, reopened := true, rest := buffers s.latest, latest2 := [] } s.line
  exact ⟨h.pc, h.text, h.reopened, h.rest, h.latest rfl⟩

theorem Stuck.step {s : VariousPass} (h : s.Stuck) : ∃ t, VariousPass.step u s = some t ∧ t.Stuck := by
  obtain ⟨hreopened, hfile, hpc | ⟨hpc, hrest⟩⟩ := h
  · cases hs : s.rest with
    | nil =>
      obtain ⟨hpc', -, hreopened', hrest', hlatest'⟩ := reopen_spec (u := u) s
      refine ⟨s.reopen u, by simp only [VariousPass.step, hpc, hs], hreopened', ?_, .inr ⟨hpc', ?_⟩⟩
      · rw [hlatest', hfile]
      · rw [hrest', hfile]
    | cons line rest =>
      have hread := replacingStep_sameReader (u := u) s line rest
      refine ⟨_, by simp only [VariousPass.step, hpc, hs], hread.reopened.trans hreopened, ?_,
        .inl (hread.pc.trans hpc)⟩
      rw [hread.latest hreopened]
      exact hfile
  · cases hs : s.rest with
    | nil =>
      rw [hs] at hrest
      cases hrest
    | cons line rest =>
      have hread := outerStep_outerRead (u := u) line rest hpc
      rw [hs] at hrest
      refine ⟨_, by simp only [VariousPass.step, hpc, hs], hread.reopened.trans hreopened, ?_, ?_⟩
      · rw [hread.latest hreopened, hfile]
      · rcases hread.pc with ⟨hpc', hmeets⟩ | ⟨hpc', -⟩
        · exact .inr ⟨hpc', hmeets.trans hrest⟩
        · exact .inl hpc'

/-- The order of the loops; a second reading that meets a pair comes before the one
behind it. -/
def rank (s : VariousPass) : ℕ :=
  match s.pc, s.reopened with
  | .prefixes, _ => 5
  | .outer, false => 4
  | .replacing, false => 3
  | .outer, true => if meetsPair s.rest then 2 else 0
  | .replacing, true => 1

/-- No prefix `T%d_` with as many digits as the file has characters can be in it. -/
def prefixBound (s : VariousPass) : ℕ := 10 ^ max s.text.flatten.length s.rest.flatten.length

def measure (s : VariousPass) : ℕ ×ₗ ℕ ×ₗ ℕ :=
  toLex (s.rank, toLex (if s.pc = .prefixes then s.prefixBound - s.firstfreet else 0,
    s.rest.length))

/-- A prefix found in a line has fewer digits than the line has characters. -/
theorem lt_of_cmpStr_freeTPrefix {line : Line} {n : ℕ}
    (h : cmpStr line (freeTPrefix n) = true) : n < 10 ^ line.length := by
  have hlength := (cmpStr_iff.mp h).length_le
  simp only [freeTPrefix, List.length_cons, List.length_append, List.length_nil] at hlength
  exact (Nat.length_toDigits_le_iff (by decide) (by omega)).mp (by omega)

theorem measure_lt_of_rank {s t : VariousPass} (h : t.rank < s.rank) : t.measure < s.measure := by
  simp only [measure, Prod.Lex.toLex_lt_toLex]
  exact .inl h

theorem measure_lt_of_rest {s t : VariousPass} (hpc : t.pc = s.pc) (hrank : t.rank = s.rank)
    (hfree : s.pc = .prefixes → t.prefixBound - t.firstfreet ≤ s.prefixBound - s.firstfreet)
    (hrest : t.rest.length < s.rest.length) : t.measure < s.measure := by
  simp only [measure, Prod.Lex.toLex_lt_toLex, hpc, hrank, lt_irrefl, true_and, false_or]
  by_cases hs : s.pc = .prefixes
  · simp only [if_pos hs]
    have hle := hfree hs
    omega
  · simp only [if_neg hs, lt_irrefl, true_and, false_or]
    exact hrest

theorem length_le_flatten {line : Line} {lines : List Line} (h : line ∈ lines) :
    line.length ≤ lines.flatten.length :=
  (List.sublist_flatten_of_mem h).length_le

theorem prefixesStep_measure {s t : VariousPass} {line : Line} {rest : List Line}
    (hpc : s.pc = .prefixes) (hrest : s.rest = line :: rest) (ht : step u s = some t) :
    t.measure < s.measure := by
  simp only [step, hpc, hrest] at ht
  split at ht
  next hfound =>
    rw [Option.some.injEq] at ht
    subst ht
    have hdigits : s.firstfreet < s.prefixBound := by
      apply (lt_of_cmpStr_freeTPrefix hfound).trans_le
      apply Nat.pow_le_pow_right (by decide)
      exact (length_le_flatten (by simp [hrest])).trans (le_max_right _ _)
    have hbound : 10 ^ max s.text.flatten.length s.text.flatten.length ≤ s.prefixBound := by
      apply Nat.pow_le_pow_right (by decide)
      simp
    have hless : 10 ^ max s.text.flatten.length s.text.flatten.length - (s.firstfreet + 1) <
        s.prefixBound - s.firstfreet := by
      omega
    simp only [measure, Prod.Lex.toLex_lt_toLex, rank, store_pc, hpc, if_true]
    exact .inr ⟨trivial, .inl hless⟩
  next =>
    rw [Option.some.injEq] at ht
    subst ht
    apply measure_lt_of_rest (s := s) (store_pc s line rest)
    · simp only [rank, store_pc, hpc]
    · intro _
      apply Nat.sub_le_sub_right
      apply Nat.pow_le_pow_right (by decide)
      apply max_le_max_left
      simp only [store, hrest, List.flatten_cons, List.length_append]
      omega
    · simp [hrest]

/-- Every step gets nearer to the end or into `Stuck`. -/
theorem step_measure {s t : VariousPass} (ht : step u s = some t) :
    t.Stuck ∨ t.measure < s.measure := by
  cases hpc : s.pc with
  | prefixes =>
    right
    cases hrest : s.rest with
    | nil =>
      simp only [step, hpc, hrest, Option.some.injEq] at ht
      subst ht
      apply measure_lt_of_rank
      cases hreopened : s.reopened <;> simp only [rank, hpc, hreopened]
      · decide
      · split <;> decide
    | cons line rest => exact prefixesStep_measure hpc hrest ht
  | outer =>
    right
    cases hrest : s.rest with
    | nil =>
      simp only [step, hpc, hrest] at ht
      cases ht
    | cons line rest =>
      simp only [step, hpc, hrest, Option.some.injEq] at ht
      subst ht
      have hread := outerStep_outerRead (u := u) line rest hpc
      rcases hread.pc with ⟨hpc', hmeets⟩ | ⟨hpc', hmeets⟩
      · apply measure_lt_of_rest (hpc'.trans hpc.symm)
        · simp only [rank, hpc, hpc', hread.reopened, hrest, hmeets]
        · intro h
          rw [hpc] at h
          cases h
        · rw [hrest]
          exact hread.rest
      · apply measure_lt_of_rank
        cases hreopened : s.reopened
        · simp only [rank, hpc, hpc', hread.reopened, hreopened]
          decide
        · simp only [rank, hpc, hpc', hread.reopened, hreopened, hrest, hmeets]
          decide
  | replacing =>
    cases hrest : s.rest with
    | nil =>
      simp only [step, hpc, hrest, Option.some.injEq] at ht
      subst ht
      obtain ⟨hpc', -, hreopened', hrest', hlatest'⟩ := reopen_spec (u := u) s
      by_cases hmeets : meetsPair (buffers s.latest) = true
      · left
        refine ⟨hreopened', ?_, .inr ⟨hpc', ?_⟩⟩
        · rw [hlatest', hmeets]
        · rw [hrest', hmeets]
      · right
        apply measure_lt_of_rank
        cases hreopened : s.reopened <;>
          simp only [rank, hpc, hpc', hreopened, hreopened', hrest', hmeets] <;> decide
    | cons line rest =>
      simp only [step, hpc, hrest, Option.some.injEq] at ht
      subst ht
      have hread := replacingStep_sameReader (u := u) s line rest
      right
      apply measure_lt_of_rest (s := s) hread.pc
      · have hpc' := hread.pc.trans hpc
        cases hreopened : s.reopened <;> simp only [rank, hpc, hpc', hread.reopened, hreopened]
      · intro h
        rw [hpc] at h
        cases h
      · rw [hread.rest, hrest]
        exact Nat.lt_succ_self _

theorem halts_iff {s : VariousPass} :
    Transition.Halts (step u) s ↔ ∀ t, Transition.Reaches (step u) s t → ¬ t.Stuck :=
  Transition.halts_iff_not_stuck (InvImage.wf measure wellFounded_lt) (fun _ h => h.step)
    fun _ _ _ => step_measure

end VariousPass
end Dsdt
