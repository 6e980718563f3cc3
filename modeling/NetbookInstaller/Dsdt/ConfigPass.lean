import NetbookInstaller.Dsdt.BraceCount
import Mathlib.Data.List.Forall2

/-! The config pass of the DSDT patcher: the block behind the first line that
contains the search string is replaced by the patch file. -/
namespace Dsdt

/-- The line buffer and the files of the pass. `inBlock` tells the loop that reads
up to the end of the block from the outer one; `output` are the formats passed to
`fprintf`. -/
structure ConfigPass where
  rest : List Line
  buffer : Line
  openBrackets : Count
  patching : Bool
  inBlock : Bool
  output : List Line
  deriving DecidableEq, Repr

namespace ConfigPass

/-- The pass on the strings that the code sees of a file. -/
def startOn (lines : List Line) : ConfigPass := ⟨lines, [], 0, true, false, []⟩

/-- The lines of a file without null characters are the strings. -/
def start (dsdt : List Char) : ConfigPass := startOn (buffers dsdt)

/-- At the end of the file `fgets` fails and leaves the buffer as it is. -/
def fgets (s : ConfigPass) : ConfigPass :=
  match s.rest with
  | [] => s
  | line :: rest => { s with rest, buffer := line }

def fprintf (s : ConfigPass) (format : Line) : ConfigPass :=
  { s with output := s.output ++ [format] }

/-- The lines of the patch file pass through the same buffer. -/
def replace (patch : List Line) (s : ConfigPass) : ConfigPass :=
  { s with
    output := s.output ++ patch
    buffer := lastRead s.buffer patch
    patching := false
    inBlock := false }

/-- One pass of `while(patching)`. -/
def blockStep (patch : List Line) (s : ConfigPass) : ConfigPass :=
  let s := s.fgets
  let s := { s with openBrackets := s.openBrackets + bracketDelta s.buffer }
  if s.openBrackets = 0 then
    -- the line read here is written by the outer loop, also when there is none
    let s := (s.replace patch).fgets
    s.fprintf s.buffer
  else s

def step (searchString : Line) (patch : List Line) (s : ConfigPass) : Option ConfigPass :=
  if s.inBlock then some (s.blockStep patch)
  else match s.rest with
    | [] => none
    | _ :: _ =>
      let s := s.fgets
      if cmpStr s.buffer searchString && s.patching then some { s with inBlock := true }
      else some (s.fprintf s.buffer)

end ConfigPass

/-- The lines that a file holds after `fprintf` calls with these formats. -/
def Written (formats lines : List Line) : Prop :=
  List.Forall₂ (fun format line => formatted format = some line) formats lines

/-- The lines behind the one where the count of braces comes to zero, counting as
the patcher does. -/
def blockRest : Count → List Line → Option (List Line)
  | _, [] => none
  | openBrackets, line :: lines =>
    if openBrackets + bracketDelta line = 0 then some lines
    else blockRest (openBrackets + bracketDelta line) lines

def bracketSum (lines : List Line) : Count := (lines.map bracketDelta).sum

/-- The braces that a line opens and does not close. -/
def braceDepth (line : Line) : ℤ := line.count '{' - line.count '}'

def depthSum (lines : List Line) : ℤ := (lines.map braceDepth).sum

/-- Lines from one that opens a brace to the one that closes the last brace. -/
structure IsBlock (block : List Line) : Prop where
  opens : ∃ line lines, block = line :: lines ∧ '{' ∈ line
  inside : ∀ p q, block = p ++ q → p ≠ [] → q ≠ [] → 0 < depthSum p
  balanced : depthSum block = 0

@[simp] theorem bracketSum_nil : bracketSum [] = 0 := rfl

@[simp] theorem bracketSum_cons (line : Line) (lines : List Line) :
    bracketSum (line :: lines) = bracketDelta line + bracketSum lines := by
  simp [bracketSum]

theorem bracketSum_append (xs ys : List Line) :
    bracketSum (xs ++ ys) = bracketSum xs + bracketSum ys := by
  simp [bracketSum]

theorem written_self_iff {lines : List Line} :
    Written lines lines ↔ ∀ line ∈ lines, '%' ∉ line := by
  simp only [Written, List.forall₂_same, formatted_eq_self_iff]

theorem written_append {xs ys xs' ys' : List Line} (h : xs.length = xs'.length) :
    Written (xs ++ ys) (xs' ++ ys') ↔ Written xs xs' ∧ Written ys ys' := by
  constructor
  · intro hw
    have htake := List.forall₂_take xs.length hw
    have hdrop := List.forall₂_drop xs.length hw
    rw [List.take_left, h, List.take_left] at htake
    rw [List.drop_left, h, List.drop_left] at hdrop
    exact ⟨htake, hdrop⟩
  · rintro ⟨hx, hy⟩
    exact List.rel_append hx hy

theorem Written.length_eq {xs ys : List Line} (h : Written xs ys) : xs.length = ys.length :=
  List.Forall₂.length_eq h

theorem blockRest_append {openBrackets : Count} {xs ys : List Line} :
    blockRest openBrackets (xs ++ ys) =
      match blockRest openBrackets xs with
      | some rest => some (rest ++ ys)
      | none => blockRest (openBrackets + bracketSum xs) ys := by
  induction xs generalizing openBrackets with
  | nil => simp [blockRest, bracketSum]
  | cons x xs ih =>
    simp only [List.cons_append, blockRest]
    split
    · rfl
    · rw [ih, bracketSum_cons, add_assoc]

theorem blockRest_length {openBrackets : Count} {lines rest : List Line}
    (h : blockRest openBrackets lines = some rest) : rest.length < lines.length := by
  induction lines generalizing openBrackets with
  | nil => simp [blockRest] at h
  | cons line lines ih =>
    unfold blockRest at h
    split at h
    · rw [Option.some.injEq] at h
      rw [← h]
      exact Nat.lt_succ_self _
    · exact (ih h).trans (Nat.lt_succ_self _)

namespace ConfigPass

variable {searchString : Line} {patch : List Line}

section Fgets
variable (line buffer : Line) (rest output : List Line) (openBrackets : Count) (patching inBlock : Bool)

@[simp] theorem fgets_nil : fgets ⟨[], buffer, openBrackets, patching, inBlock, output⟩ =
    ⟨[], buffer, openBrackets, patching, inBlock, output⟩ := rfl

@[simp] theorem fgets_cons :
    fgets ⟨line :: rest, buffer, openBrackets, patching, inBlock, output⟩ =
      ⟨rest, line, openBrackets, patching, inBlock, output⟩ := rfl

end Fgets

section Step
variable {line buffer : Line} {rest output : List Line} {openBrackets : Count} {patching inBlock : Bool}

theorem step_search (hfound : cmpStr line searchString = true) :
    step searchString patch ⟨line :: rest, buffer, openBrackets, true, false, output⟩ =
      some ⟨rest, line, openBrackets, true, true, output⟩ := by
  simp [step, hfound]

theorem step_copy (h : cmpStr line searchString = true → patching = false) :
    step searchString patch ⟨line :: rest, buffer, openBrackets, patching, false, output⟩ =
      some ⟨rest, line, openBrackets, patching, false, output ++ [line]⟩ := by
  by_cases hfound : cmpStr line searchString = true
  · simp [step, fprintf, h hfound]
  · simp [step, fprintf, hfound]

theorem step_count (hzero : openBrackets + bracketDelta line ≠ 0) :
    step searchString patch ⟨line :: rest, buffer, openBrackets, patching, true, output⟩ =
      some ⟨rest, line, openBrackets + bracketDelta line, patching, true, output⟩ := by
  simp [step, blockStep, hzero]

theorem step_stale (hzero : openBrackets + bracketDelta buffer ≠ 0) :
    step searchString patch ⟨[], buffer, openBrackets, patching, true, output⟩ =
      some ⟨[], buffer, openBrackets + bracketDelta buffer, patching, true, output⟩ := by
  simp [step, blockStep, hzero]

end Step

/-- Lines that start no block are copied. -/
theorem reaches_copy {lines rest output : List Line} {buffer : Line} {openBrackets : Count}
    {patching : Bool}
    (h : ∀ line ∈ lines, cmpStr line searchString = true → patching = false) :
    Transition.Reaches (step searchString patch)
      ⟨lines ++ rest, buffer, openBrackets, patching, false, output⟩
      ⟨rest, lastRead buffer lines, openBrackets, patching, false, output ++ lines⟩ := by
  induction lines generalizing buffer output with
  | nil =>
    rw [List.append_nil]
    exact .refl _
  | cons line lines ih =>
    refine .head (step_copy (h line (List.mem_cons_self ..))) ?_
    have happend : output ++ line :: lines = output ++ [line] ++ lines := by simp
    rw [happend]
    exact ih fun l hl => h l (List.mem_cons_of_mem _ hl)

/-- What the pass writes behind the lines of the patch: the lines behind the block,
or the stale buffer if there are none. -/
def tail (patch : List Line) (closing : Line) (rest : List Line) : List Line :=
  if rest = [] then [lastRead closing patch] else rest

section Evaluates
variable (searchString patch)

/-- Once the block has been replaced, the rest of the file is copied. -/
theorem evaluates_copy {lines output : List Line} {buffer : Line} {openBrackets : Count} :
    ∃ t, Transition.Evaluates (step searchString patch)
        ⟨lines, buffer, openBrackets, false, false, output⟩ t ∧ t.output = output ++ lines := by
  have hcopy : Transition.Reaches (step searchString patch)
      ⟨lines ++ [], buffer, openBrackets, false, false, output⟩
      ⟨[], lastRead buffer lines, openBrackets, false, false, output ++ lines⟩ :=
    reaches_copy fun _ _ _ => rfl
  rw [List.append_nil] at hcopy
  exact ⟨_, hcopy.evaluates.mpr (.halt rfl), rfl⟩

/-- The next line, or the stale one at the end of the file, brings the count to zero. -/
theorem evaluates_close {s : ConfigPass} (hin : s.inBlock = true)
    (hzero : s.openBrackets + bracketDelta s.fgets.buffer = 0) :
    ∃ t, Transition.Evaluates (step searchString patch) s t ∧
      t.output = s.output ++ patch ++ tail patch s.fgets.buffer s.fgets.rest := by
  obtain ⟨lines, buffer, openBrackets, patching, inBlock, output⟩ := s
  simp only at hin hzero
  subst hin
  have hclose : ∀ (closing : Line) (rest : List Line),
      step searchString patch ⟨lines, buffer, openBrackets, patching, true, output⟩ =
        some (let s := fgets ⟨rest, lastRead closing patch, 0, false, false, output ++ patch⟩
          s.fprintf s.buffer) →
      ∃ t, Transition.Evaluates (step searchString patch)
          ⟨lines, buffer, openBrackets, patching, true, output⟩ t ∧
        t.output = output ++ patch ++ tail patch closing rest := by
    intro closing rest hstep
    cases rest with
    | nil => exact ⟨_, .next hstep (.halt rfl), rfl⟩
    | cons line rest =>
      obtain ⟨t, ht, hout⟩ := evaluates_copy searchString patch
      exact ⟨t, .next hstep ht, by simpa [tail, fprintf] using hout⟩
  apply hclose
  cases lines with
  | nil =>
    rw [fgets_nil] at hzero
    simp [step, blockStep, replace, hzero]
  | cons line rest =>
    rw [fgets_cons] at hzero
    simp [step, blockStep, replace, hzero]

/-- The lines of a block up to where the count comes to zero. -/
theorem evaluates_block {lines rest : List Line} {openBrackets : Count} (buffer : Line)
    (patching : Bool) (output : List Line) (h : blockRest openBrackets lines = some rest) :
    ∃ t, Transition.Evaluates (step searchString patch)
        ⟨lines, buffer, openBrackets, patching, true, output⟩ t ∧
      (rest = [] → t.output = output ++ patch ++ [lastRead (lastRead buffer lines) patch]) ∧
      (rest ≠ [] → t.output = output ++ patch ++ rest) := by
  induction lines generalizing buffer openBrackets with
  | nil => simp [blockRest] at h
  | cons line lines ih =>
    unfold blockRest at h
    split at h
    next hzero =>
      rw [Option.some.injEq] at h
      subst h
      obtain ⟨t, ht, hout⟩ := evaluates_close searchString patch
        (s := ⟨line :: lines, buffer, openBrackets, patching, true, output⟩) rfl hzero
      refine ⟨t, ht, ?_, ?_⟩
      · rintro rfl
        exact hout
      · intro hne
        simpa [tail, hne] using hout
    next hzero =>
      obtain ⟨t, ht, hout⟩ := ih line h
      exact ⟨t, .next (step_count hzero) ht, hout⟩

theorem reaches_block {lines : List Line} {openBrackets : Count} (buffer : Line) (patching : Bool)
    (output : List Line) (h : blockRest openBrackets lines = none) :
    Transition.Reaches (step searchString patch)
      ⟨lines, buffer, openBrackets, patching, true, output⟩
      ⟨[], lastRead buffer lines, openBrackets + bracketSum lines, patching, true, output⟩ := by
  induction lines generalizing buffer openBrackets with
  | nil =>
    rw [bracketSum_nil, add_zero]
    exact .refl _
  | cons line lines ih =>
    unfold blockRest at h
    split at h
    next => cases h
    next hzero =>
      have hnext := ih line h
      rw [add_assoc, ← bracketSum_cons] at hnext
      exact .head (step_count hzero) hnext

/-- At the end of the file the stale line is counted again and again. -/
theorem computes_stale (buffer : Line) (openBrackets : Count) (patching : Bool)
    (output : List Line) :
    Transition.Computes (step searchString patch) ConfigPass.output
      ⟨[], buffer, openBrackets, patching, true, output⟩
      ((spins openBrackets (bracketDelta buffer)).map fun _ => patch ++ [lastRead buffer patch]) := by
  have hspins := computes_spins (step searchString patch) ConfigPass.output
    (fun openBrackets output => ⟨[], buffer, openBrackets, patching, true, output⟩)
    [] (patch ++ [lastRead buffer patch]) (bracketDelta_cases buffer) (fun _ _ => rfl)
    (fun openBrackets output hne => by rw [step_stale hne, List.append_nil])
    (fun openBrackets output hzero => by
      obtain ⟨t, ht, hout⟩ := evaluates_close searchString patch
        (s := ⟨[], buffer, openBrackets, patching, true, output⟩) rfl hzero
      exact ⟨t, ht, by simpa [tail] using hout⟩)
    openBrackets output
  simpa using hspins

end Evaluates

/-- The one way in which a missed end of a block does no harm: one line follows, it
is also the last line of the patch, and it brings the count to zero. -/
def Coincides (patch block after : List Line) : Prop :=
  blockRest 0 block = none ∧ ∃ line, after = [line] ∧ lastRead line patch = line ∧
    ∃ m : ℕ, bracketSum block + (m + 1) • bracketDelta line = 0

/-- A stale line that is written as the line behind the block is that line. -/
theorem lastRead_eq_of_written {line : Line} (hpatch : Written patch patch)
    (h : Written [lastRead line patch] [line]) : lastRead line patch = line := by
  rcases eq_or_ne patch [] with rfl | hne
  · rfl
  · have hself := formatted_eq_self_iff.mpr (written_self_iff.mp hpatch _ (lastRead_mem line hne))
    have hline : formatted (lastRead line patch) = some line := by simpa [Written] using h
    rw [hself, Option.some.injEq] at hline
    exact hline

section Block
variable {header : Line} {block after output : List Line}

/-- The pass from the first line behind the header on: what it has written in the
end, if it ends. -/
theorem block_output {t : ConfigPass} {lines : List Line}
    (ht : Transition.Evaluates (step searchString patch) ⟨lines, header, 0, true, true, output⟩ t) :
    (∃ rest, blockRest 0 lines = some rest ∧ rest ≠ [] ∧ t.output = output ++ patch ++ rest) ∨
      (blockRest 0 lines = some [] ∨ blockRest 0 lines = none ∧
        ∃ m : ℕ, bracketSum lines + (m + 1) • bracketDelta (lastRead header lines) = 0) ∧
      t.output = output ++ patch ++ [lastRead (lastRead header lines) patch] := by
  cases hrest : blockRest 0 lines with
  | some rest =>
    obtain ⟨u, hu, hnil, hcons⟩ := evaluates_block searchString patch header true output hrest
    rw [hu.unique ht] at hnil hcons
    rcases eq_or_ne rest [] with rfl | hne
    · exact .inr ⟨.inl rfl, hnil rfl⟩
    · exact .inl ⟨rest, rfl, hne, hcons hne⟩
  | none =>
    have hreach := reaches_block searchString patch header true output hrest
    rw [zero_add] at hreach
    have hstale := computes_stale searchString patch (lastRead header lines) (bracketSum lines) true
      output
    have ht' := hreach.evaluates.mp ht
    cases hspins : spins (bracketSum lines) (bracketDelta (lastRead header lines)) with
    | none =>
      rw [hspins] at hstale
      exact absurd ⟨t, ht'⟩ hstale
    | some n =>
      rw [hspins] at hstale
      obtain ⟨u, hu, hout⟩ := hstale
      rw [hu.unique ht', ← List.append_assoc] at hout
      exact .inr ⟨.inr ⟨rfl, n, add_nsmul_of_spins (bracketDelta_cases _) hspins⟩, hout⟩

/-- A block that ends where the patcher's count does is all that is left out. -/
theorem blockRest_eq_of_length {openBrackets : Count} {rest : List Line}
    (hrest : blockRest openBrackets (block ++ after) = some rest)
    (hlength : rest.length = after.length) :
    blockRest openBrackets block = some [] ∧ rest = after := by
  rw [blockRest_append] at hrest
  cases hblock : blockRest openBrackets block with
  | some inner =>
    simp only [hblock, Option.some.injEq] at hrest
    subst hrest
    have hinner : inner = [] := List.length_eq_zero_iff.mp (by simpa using hlength)
    subst hinner
    exact ⟨rfl, rfl⟩
  | none =>
    simp only [hblock] at hrest
    have hless := blockRest_length hrest
    omega

/-- The end of the block is missed, and the stale line still makes the output right. -/
theorem coincides_of_end {line : Line} (hline : lastRead line patch = line)
    (hend : blockRest 0 (block ++ [line]) = some [] ∨ blockRest 0 (block ++ [line]) = none ∧
      ∃ m : ℕ, bracketSum (block ++ [line]) + (m + 1) • bracketDelta line = 0) :
    Coincides patch block [line] := by
  rw [blockRest_append] at hend
  cases hblock : blockRest 0 block with
  | some inner => simp [hblock] at hend
  | none =>
    refine ⟨hblock, line, rfl, hline, ?_⟩
    simp only [hblock, zero_add, blockRest] at hend
    rcases hend with hclosed | ⟨-, m, hzero⟩
    · refine ⟨0, ?_⟩
      by_contra hne
      rw [if_neg (by simpa using hne)] at hclosed
      cases hclosed
    · refine ⟨m + 1, ?_⟩
      rw [bracketSum_append, bracketSum_cons, bracketSum_nil] at hzero
      rw [succ_nsmul', ← hzero, add_zero, add_assoc]

theorem Coincides.evaluates (h : Coincides patch block after) :
    ∃ t, Transition.Evaluates (step searchString patch)
      ⟨block ++ after, header, 0, true, true, output⟩ t ∧ t.output = output ++ patch ++ after := by
  obtain ⟨hblock, line, rfl, hline, m, hzero⟩ := h
  have hlast : lastRead header (block ++ [line]) = line := lastRead_append_singleton ..
  by_cases hclose : bracketSum block + bracketDelta line = 0
  · have hrest : blockRest 0 (block ++ [line]) = some [] := by
      rw [blockRest_append, hblock]
      simp [blockRest, hclose]
    obtain ⟨t, ht, hout, -⟩ := evaluates_block searchString patch header true output hrest
    exact ⟨t, ht, by rw [hout rfl, hlast, hline]⟩
  · have hrest : blockRest 0 (block ++ [line]) = none := by
      rw [blockRest_append, hblock]
      simp [blockRest, hclose]
    have hspin : (spins (bracketSum (block ++ [line])) (bracketDelta line)).isSome := by
      refine (spins_isSome_iff (bracketDelta_cases line)).mpr ?_
      cases m with
      | zero => exact absurd (by simpa using hzero) hclose
      | succ m =>
        refine ⟨m, ?_⟩
        rw [bracketSum_append, bracketSum_cons, bracketSum_nil, add_zero, add_assoc, ← succ_nsmul',
          hzero]
    have hreach := reaches_block searchString patch header true output hrest
    rw [zero_add, hlast] at hreach
    have hstale := computes_stale searchString patch line (bracketSum (block ++ [line])) true output
    obtain ⟨n, hn⟩ := Option.isSome_iff_exists.mp hspin
    rw [hn] at hstale
    obtain ⟨t, ht, hout⟩ := hstale
    exact ⟨t, hreach.evaluates.mpr ht, by rw [hout, hline, List.append_assoc]⟩

theorem block_writes_iff (hafter : Written after after) (houtput : Written output output) :
    (∃ t, Transition.Evaluates (step searchString patch)
        ⟨block ++ after, header, 0, true, true, output⟩ t ∧
        Written t.output (output ++ patch ++ after)) ↔
      Written patch patch ∧
        ((blockRest 0 block = some [] ∧ after ≠ []) ∨ Coincides patch block after) := by
  constructor
  · rintro ⟨t, ht, hw⟩
    rcases block_output ht with ⟨rest, hrest, hne, hout⟩ | ⟨hend, hout⟩
    · rw [hout, written_append rfl, written_append rfl] at hw
      obtain ⟨hblock, rfl⟩ := blockRest_eq_of_length hrest hw.2.length_eq
      exact ⟨hw.1.2, .inl ⟨hblock, hne⟩⟩
    · rw [hout, written_append rfl, written_append rfl] at hw
      obtain ⟨line, rfl⟩ : ∃ line, after = [line] :=
        List.length_eq_one_iff.mp hw.2.length_eq.symm
      rw [lastRead_append_singleton] at hw hend
      exact ⟨hw.1.2, .inr (coincides_of_end (lastRead_eq_of_written hw.1.2 hw.2) hend)⟩
  · rintro ⟨hpatch, hblock⟩
    suffices hright : ∃ t, Transition.Evaluates (step searchString patch)
        ⟨block ++ after, header, 0, true, true, output⟩ t ∧ t.output = output ++ patch ++ after by
      obtain ⟨t, ht, hout⟩ := hright
      refine ⟨t, ht, ?_⟩
      rw [hout, written_append rfl, written_append rfl]
      exact ⟨⟨houtput, hpatch⟩, hafter⟩
    rcases hblock with ⟨hblock, hne⟩ | hcoincides
    · have hrest : blockRest 0 (block ++ after) = some after := by
        rw [blockRest_append, hblock]
        rfl
      obtain ⟨t, ht, -, hout⟩ := evaluates_block searchString patch header true output hrest
      exact ⟨t, ht, hout hne⟩
    · exact hcoincides.evaluates

end Block

/-- The file written by the config pass, for a text with a block behind the first
line that contains the search string. The lines are those before that line, the
patch and those behind the block exactly if the patch has no percent sign, a line
follows the block, and the block is one for the patcher's count of braces. -/
theorem configPass_replaces_block_iff (searchString : Line) (patchFile : List Char)
    (before : List Line) (header : Line) (block after : List Line)
    (hlines : LineStructured (before ++ header :: (block ++ after)))
    (hpercent : ∀ line ∈ before ++ header :: (block ++ after), '%' ∉ line)
    (hbefore : ∀ line ∈ before, cmpStr line searchString = false)
    (hheader : cmpStr header searchString = true) (_hblock : IsBlock block) :
    (∃ t, Transition.Evaluates (step searchString (buffers patchFile))
        (start (before ++ header :: (block ++ after)).flatten) t ∧
        Written t.output (before ++ buffers patchFile ++ after)) ↔
      (∀ line ∈ buffers patchFile, '%' ∉ line) ∧
        ((blockRest 0 block = some [] ∧ after ≠ []) ∨
          Coincides (buffers patchFile) block after) := by
  have hsearch : Transition.Reaches (step searchString (buffers patchFile))
      (start (before ++ header :: (block ++ after)).flatten)
      ⟨block ++ after, header, 0, true, true, before⟩ := by
    rw [start, hlines.buffers_flatten]
    have hcopy : Transition.Reaches (step searchString (buffers patchFile))
        ⟨before ++ header :: (block ++ after), [], 0, true, false, []⟩
        ⟨header :: (block ++ after), lastRead [] before, 0, true, false, [] ++ before⟩ :=
      reaches_copy fun line hl hfound => by simp [hbefore line hl] at hfound
    exact hcopy.trans (Transition.reaches_step (step_search hheader))
  have hoverall : Written (before ++ header :: (block ++ after)) _ := written_self_iff.mpr hpercent
  rw [written_append rfl] at hoverall
  have hafter : Written after after :=
    written_self_iff.mpr fun line hl => hpercent line (by simp [hl])
  simp only [hsearch.evaluates]
  rw [block_writes_iff hafter hoverall.1, written_self_iff]

/-- A battery device that is the last thing in the file. -/
def deviceAtEnd : List Line :=
  "Device (BAT1)\n".toList :: ([['{', '\n'], ['}', '\n']] ++ [])

def batteryPatch : List Char := "Name (_HID)\n".toList

theorem isBlock_braces : IsBlock [['{', '\n'], ['}', '\n']] where
  opens := ⟨_, _, rfl, by decide⟩
  inside := by
    intro p q hpq hp hq
    have hlength := congrArg List.length hpq
    rw [List.length_append] at hlength
    have hq' := List.length_pos_iff.mpr hq
    rcases p with - | ⟨a, - | ⟨b, p⟩⟩
    · exact absurd rfl hp
    · cases hpq
      decide
    · simp only [List.length_cons, List.length_nil] at hlength
      omega
  balanced := by decide

theorem lineStructured_deviceAtEnd : LineStructured deviceAtEnd :=
  .cons "Device (BAT1)".toList (by decide) (by decide)
    (.cons ['{'] (by decide) (by decide) (.cons ['}'] (by decide) (by decide) .nil))

/-- The line of the patch is written a second time. -/
theorem deviceAtEnd_repeats_patch :
    LineStructured deviceAtEnd ∧ (∀ line ∈ deviceAtEnd, '%' ∉ line) ∧
      cmpStr "Device (BAT1)\n".toList "Device (BAT1".toList = true ∧
      IsBlock [['{', '\n'], ['}', '\n']] ∧
      (∃ t, Transition.Evaluates (step "Device (BAT1".toList (buffers batteryPatch))
        (start deviceAtEnd.flatten) t ∧ t.output = buffers batteryPatch ++ buffers batteryPatch) ∧
      ¬ ∃ t, Transition.Evaluates (step "Device (BAT1".toList (buffers batteryPatch))
        (start deviceAtEnd.flatten) t ∧ Written t.output ([] ++ buffers batteryPatch ++ []) := by
  have hrun : ∃ t, Transition.Evaluates (step "Device (BAT1".toList (buffers batteryPatch))
      (start deviceAtEnd.flatten) t ∧ t.output = buffers batteryPatch ++ buffers batteryPatch :=
    ⟨_, Transition.evaluates_of_evaluate (n := 4) rfl, by decide⟩
  refine ⟨lineStructured_deviceAtEnd, by decide, by decide, isBlock_braces, hrun, ?_⟩
  rintro ⟨u, hu, hw⟩
  obtain ⟨t, ht, hout⟩ := hrun
  rw [← ht.unique hu, hout] at hw
  exact absurd hw.length_eq (by decide)

/-- The same device with a line behind it. -/
theorem deviceBeforeEnd_replaced :
    ∃ t, Transition.Evaluates (step "Device (BAT1".toList (buffers batteryPatch))
      (start (deviceAtEnd ++ [['}', '\n']]).flatten) t ∧
        Written t.output ([] ++ buffers batteryPatch ++ [['}', '\n']]) :=
  (configPass_replaces_block_iff "Device (BAT1".toList batteryPatch [] "Device (BAT1)\n".toList
    [['{', '\n'], ['}', '\n']] [['}', '\n']]
    (.cons "Device (BAT1)".toList (by decide) (by decide)
      (.cons ['{'] (by decide) (by decide) (.cons ['}'] (by decide) (by decide)
        (.cons ['}'] (by decide) (by decide) .nil))))
    (by decide) (by decide) (by decide) isBlock_braces).mpr ⟨by decide, .inl (by decide)⟩

end ConfigPass
end Dsdt
