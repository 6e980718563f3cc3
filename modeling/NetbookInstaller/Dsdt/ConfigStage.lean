import NetbookInstaller.Dsdt.ConfigPass
import NetbookInstaller.Dsdt.LineBuffer
import NetbookInstaller.Dsdt.VariousPass

/-! The config file that the installer writes, and the loop of the DSDT patcher's
`main` that reads it. `strtok` keeps its position in the buffer that the pass for
each pair reads the DSDT into. -/
namespace Dsdt

/-- A string of the property list `DSDT Patches`. Property lists are XML, which has
no null character. -/
structure PatchString where
  text : Line
  ne_nil : text ≠ []
  length_lt : text.length < 150
  plain : ∀ c ∈ text, c ≠ ':' ∧ c ≠ '\r' ∧ c ≠ '\n' ∧ c ≠ '\x00'

structure PatchEntry where
  name : PatchString
  search : PatchString

/-- The files of the directory `patches` by their names. -/
abbrev PatchFiles := Line → Option (List Char)

def configLine (e : PatchEntry) : Line :=
  ':' :: e.name.text ++ (':' :: e.search.text ++ [':', '\r', '\n'])

/-- The config file of `installDSDT`. It is written if it has any characters and
all of them are ASCII. -/
def installDSDT (patches : PatchFiles) (entries : List PatchEntry) : Option (List Char) :=
  let located := entries.filter fun e => (patches e.name.text).isSome
  let configFile := (located.map configLine).flatten
  if configFile ≠ [] ∧ configFile.all (·.val < 128) then some configFile else none

/-- The pass for one pair, on the memory of the buffer. -/
structure PairPass where
  rest : List Line
  buffer : LineBuffer
  openBrackets : Count
  patching : Bool
  inBlock : Bool
  output : List Line

namespace PairPass

def start (text : List Char) (buffer : LineBuffer) : PairPass :=
  ⟨buffers text, buffer, 0, true, false, []⟩

def fgets (s : PairPass) : PairPass :=
  match s.rest with
  | [] => s
  | line :: rest => { s with rest, buffer := s.buffer.load line }

def fprintf (s : PairPass) : PairPass := { s with output := s.output ++ [s.buffer.string] }

def replace (patch : List Line) (s : PairPass) : PairPass :=
  { s with
    output := s.output ++ patch.map stored
    buffer := patch.foldl LineBuffer.load s.buffer
    patching := false
    inBlock := false }

/-- The line that the block loop reads next ends the block. -/
def closesBlock (s : PairPass) : Bool :=
  s.inBlock && s.openBrackets + bracketDelta s.fgets.buffer.string == 0

def blockStep (patch : List Line) (s : PairPass) : PairPass :=
  let s := s.fgets
  let s := { s with openBrackets := s.openBrackets + bracketDelta s.buffer.string }
  if s.openBrackets = 0 then (s.replace patch).fgets.fprintf else s

def step (searchString : Line) (patch : List Line) (s : PairPass) : Option PairPass :=
  if s.inBlock then some (s.blockStep patch)
  else match s.rest with
    | [] => none
    | _ :: _ =>
      let s := s.fgets
      if cmpStr s.buffer.string searchString && s.patching then some { s with inBlock := true }
      else some s.fprintf

/-- The pass without the bytes behind the strings. -/
def view (s : PairPass) : ConfigPass :=
  ⟨s.rest.map stored, s.buffer.string, s.openBrackets, s.patching, s.inBlock, s.output⟩

end PairPass

/-- What is in `patched_dsdt.dsl` behind a pass: it is overwritten if a block has
been replaced. -/
def ConfigPass.result (u : Unspecified) (text : List Char) (s : ConfigPass) : List Char :=
  if s.patching then text
  else (s.output.map fun format => (formatted format).getD (u.conversion format)).flatten

/-- Where `main` is in the config loop; in the last case it has returned 1. -/
inductive ConfigPc where
  | lines
  | tokens (index : ℕ) (saved : Option (Fin BUFFER_SIZE))
  | pass (saved : Option (Fin BUFFER_SIZE))
  | exited

/-- The config loop. `config` are the lines of the config file still to be read and
`text` is `patched_dsdt.dsl`; the buffer is that of `pass`, also between the passes. -/
structure ConfigStage where
  pc : ConfigPc
  config : List Line
  text : List Char
  name : Line
  searchString : Line
  pass : PairPass

namespace ConfigStage

def start (config text : List Char) (buffer : LineBuffer) : ConfigStage :=
  ⟨.lines, buffers config, text, [], [], .start [] buffer⟩

def setBuffer (s : ConfigStage) (buffer : LineBuffer) : ConfigStage :=
  { s with pass := { s.pass with buffer } }

/-- `switch(index)`. -/
def useToken (s : ConfigStage) (index : ℕ) (token : LineBuffer.Token) : ConfigStage :=
  match index with
  | 0 => { s.setBuffer token.buffer with pc := .tokens 1 token.saved, name := token.text }
  | 1 =>
    { s with
      pc := .pass token.saved
      searchString := token.text
      pass := .start s.text token.buffer }
  | index + 2 => { s.setBuffer token.buffer with pc := .tokens (index + 3) token.saved }

/-- The files of the pass are closed, and `cp` follows if it has replaced a block. -/
def closePass (u : Unspecified) (s : ConfigStage) (saved : Option (Fin BUFFER_SIZE)) :
    ConfigStage :=
  { s with pc := .tokens 2 saved, text := s.pass.view.result u s.text }

def step (u : Unspecified) (patches : PatchFiles) (s : ConfigStage) : Option ConfigStage :=
  match s.pc with
  | .lines =>
    match s.config with
    | [] => none
    | line :: config =>
      let s := { s.setBuffer (s.pass.buffer.load line) with config }
      if s.pass.buffer.string.head? = some '/' then some s
      else some { s with pc := .tokens 0 (some ⟨0, by decide⟩) }
  | .tokens index saved =>
    match s.pass.buffer.strtok saved with
    | none => some { s with pc := .lines }
    | some token => some (s.useToken index token)
  | .pass saved =>
    if s.pass.closesBlock && (patches s.name).isNone then some { s with pc := .exited }
    else
      match s.pass.step s.searchString (buffers ((patches s.name).getD [])) with
      | none => some (s.closePass u saved)
      | some pass => some { s with pass }
  | .exited => none

end ConfigStage

/-- The replacement for a single pair: `text'` is in `patched_dsdt.dsl` behind a
pass over `text`, if the pass comes to an end. -/
def Replaces (u : Unspecified) (patch : List Char) (searchString : Line)
    (text text' : List Char) : Prop :=
  ∃ t, Transition.Evaluates (ConfigPass.step searchString (strings patch))
    ⟨strings text, [], 0, true, false, []⟩ t ∧ t.result u text = text'

/-- The replacements of the entries in the order of the list. -/
def Applied (u : Unspecified) (patches : PatchFiles) :
    List PatchEntry → List Char → List Char → Prop
  | [], text, text' => text = text'
  | e :: entries, text, text' =>
    ∃ middle, Replaces u ((patches e.name.text).getD []) e.search.text text middle ∧
      Applied u patches entries middle text'

/-- On files without null characters the replacement is the config pass. -/
theorem replaces_iff {u : Unspecified} {patch : List Char} {searchString : Line}
    {text text' : List Char} (hpatch : '\x00' ∉ patch) (htext : '\x00' ∉ text) :
    Replaces u patch searchString text text' ↔
      ∃ t, Transition.Evaluates (ConfigPass.step searchString (buffers patch))
        (ConfigPass.start text) t ∧ t.result u text = text' := by
  rw [Replaces, strings, strings, stored_buffers hpatch, stored_buffers htext, ConfigPass.start,
    ConfigPass.startOn]

/-- Nothing is replaced if no line contains the search string. -/
theorem replaces_of_absent {u : Unspecified} {patch : List Char} {searchString : Line}
    {text text' : List Char} (habsent : ∀ line ∈ strings text, cmpStr line searchString = false) :
    Replaces u patch searchString text text' ↔ text' = text := by
  have hcopy : Transition.Reaches (ConfigPass.step searchString (strings patch))
      ⟨strings text ++ [], [], 0, true, false, []⟩
      ⟨[], lastRead [] (strings text), 0, true, false, [] ++ strings text⟩ :=
    ConfigPass.reaches_copy fun line hl hfound => by simp [habsent line hl] at hfound
  rw [List.append_nil] at hcopy
  have hend := hcopy.evaluates.mpr (.halt rfl)
  constructor
  · rintro ⟨t, ht, rfl⟩
    rw [← hend.unique ht]
    rfl
  · rintro rfl
    exact ⟨_, hend, rfl⟩

namespace ConfigPass

variable {searchString : Line} {patch : List Line}

/-- The pass does not look at what was in the buffer before. -/
theorem evaluates_buffer {lines : List Line} (b b' : Line) {P : Bool → List Line → Prop} :
    (∃ t, Transition.Evaluates (step searchString patch) ⟨lines, b, 0, true, false, []⟩ t ∧
        P t.patching t.output) →
      ∃ t, Transition.Evaluates (step searchString patch) ⟨lines, b', 0, true, false, []⟩ t ∧
        P t.patching t.output := by
  rintro ⟨t, ht, hP⟩
  cases lines with
  | nil =>
    have hb : Transition.Evaluates (step searchString patch) ⟨[], b, 0, true, false, []⟩
      ⟨[], b, 0, true, false, []⟩ := .halt rfl
    rw [← hb.unique ht] at hP
    exact ⟨_, .halt rfl, hP⟩
  | cons line lines =>
    have hstep : step searchString patch ⟨line :: lines, b, 0, true, false, []⟩ =
        step searchString patch ⟨line :: lines, b', 0, true, false, []⟩ := rfl
    cases ht with
    | halt hnone =>
      rw [hstep] at hnone
      by_cases hfound : cmpStr line searchString = true
      · simp [step_search hfound] at hnone
      · simp [step_copy fun h => absurd h hfound] at hnone
    | next hnext ht => exact ⟨t, .next (hstep ▸ hnext) ht, hP⟩

end ConfigPass

namespace PairPass

variable {searchString : Line} {patch : List Line}

@[simp] theorem view_fgets (s : PairPass) : s.fgets.view = s.view.fgets := by
  obtain ⟨rest, buffer, openBrackets, patching, inBlock, output⟩ := s
  cases rest <;> simp [fgets, view, ConfigPass.fgets]

theorem view_fprintf (s : PairPass) : s.fprintf.view = s.view.fprintf s.view.buffer := rfl

theorem string_foldl_load (b : LineBuffer) (lines : List Line) :
    (lines.foldl LineBuffer.load b).string = lastRead b.string (lines.map stored) := by
  induction lines generalizing b with
  | nil => rfl
  | cons line lines ih => rw [List.foldl_cons, ih, LineBuffer.string_load, List.map_cons, lastRead]

theorem view_replace (s : PairPass) :
    (s.replace patch).view = s.view.replace (patch.map stored) := by
  simp [replace, view, ConfigPass.replace, string_foldl_load]

theorem view_blockStep (s : PairPass) :
    (s.blockStep patch).view = s.view.blockStep (patch.map stored) := by
  have hbuffer : s.fgets.buffer.string = s.view.fgets.buffer := by
    rw [← view_fgets]
    rfl
  have hcount : s.fgets.openBrackets = s.view.fgets.openBrackets := by
    rw [← view_fgets]
    rfl
  simp only [blockStep, ConfigPass.blockStep, ← hbuffer, ← hcount]
  split
  · rw [view_fprintf, view_fgets, view_replace, ← view_fgets s]
    rfl
  · rw [← view_fgets]
    rfl

/-- A step on the memory of the buffer is one on its string. -/
theorem view_step (s : PairPass) :
    (s.step searchString patch).map view =
      ConfigPass.step searchString (patch.map stored) s.view := by
  obtain ⟨rest, buffer, openBrackets, patching, inBlock, output⟩ := s
  cases inBlock with
  | true =>
    simp only [step, ConfigPass.step, if_true, Option.map_some]
    rw [view_blockStep]
    rfl
  | false =>
    cases rest with
    | nil => rfl
    | cons line rest =>
      by_cases h : cmpStr (stored line) searchString = true ∧ patching = true
      · obtain ⟨hfound, rfl⟩ := h
        simp [step, fgets, view, ConfigPass.step, hfound]
      · have hnot : (cmpStr (stored line) searchString && patching) = false := by
          simpa using h
        simp [step, fgets, fprintf, view, ConfigPass.step, ConfigPass.fprintf, hnot]

/-- What the pass writes does not depend on the memory of the buffer. -/
theorem replaces_iff {u : Unspecified} {patchFile text text' : List Char} {b : LineBuffer} :
    (∃ t, Transition.Evaluates (step searchString (buffers patchFile)) (start text b) t ∧
        t.view.result u text = text') ↔ Replaces u patchFile searchString text text' := by
  have hview : ∀ t, (∃ q, Transition.Evaluates (step searchString (buffers patchFile))
        (start text b) q ∧ q.view = t) ↔
      Transition.Evaluates (ConfigPass.step searchString (strings patchFile)) (start text b).view
        t :=
    fun _ => Transition.evaluates_view view_step
  have hresult : ∀ b b' : Line,
      (∃ t, Transition.Evaluates (ConfigPass.step searchString (strings patchFile))
        ⟨strings text, b, 0, true, false, []⟩ t ∧ t.result u text = text') →
      ∃ t, Transition.Evaluates (ConfigPass.step searchString (strings patchFile))
        ⟨strings text, b', 0, true, false, []⟩ t ∧ t.result u text = text' := fun b b' =>
    ConfigPass.evaluates_buffer b b' (P := fun patching output =>
      (if patching then text else (output.map fun format =>
        (formatted format).getD (u.conversion format)).flatten) = text')
  constructor
  · rintro ⟨t, ht, htext⟩
    exact hresult b.string [] ⟨t.view, (hview _).mp ⟨t, ht, rfl⟩, htext⟩
  · intro h
    obtain ⟨t, ht, htext⟩ := hresult [] b.string h
    obtain ⟨q, hq, rfl⟩ := (hview _).mpr ht
    exact ⟨q, hq, htext⟩

end PairPass

theorem length_configLine (e : PatchEntry) : (configLine e).length < BUFFER_SIZE - 1 := by
  have hname := e.name.length_lt
  have hsearch := e.search.length_lt
  simp only [configLine, List.cons_append, List.length_cons, List.length_append, List.length_nil,
    BUFFER_SIZE]
  omega

namespace ConfigStage

variable {u : Unspecified} {patches : PatchFiles}

theorem bytes_load_configLine (b : LineBuffer) (e : PatchEntry) :
    ∃ rest, (b.load (configLine e)).bytes =
      [':'] ++ e.name.text ++ ':' :: (e.search.text ++ ':' :: rest) := by
  have htake : (configLine e).take (BUFFER_SIZE - 1) = configLine e :=
    List.take_of_length_le (length_configLine e).le
  refine ⟨'\r' :: '\n' :: '\x00' :: b.bytes.drop ((configLine e).length + 1), ?_⟩
  simp only [LineBuffer.load, htake]
  simp [configLine]

/-- The first two tokens of a line of the config file. -/
theorem strtok_configLine (b : LineBuffer) (e : PatchEntry) :
    ∃ behind saved b₁ b₂,
      (b.load (configLine e)).strtok (some ⟨0, by decide⟩) =
        some ⟨e.name.text, b₁, some behind⟩ ∧
      b₁.strtok (some behind) = some ⟨e.search.text, b₂, some saved⟩ := by
  obtain ⟨rest, hbytes⟩ := bytes_load_configLine b e
  have hplain : ∀ field : PatchString, ∀ c ∈ field.text, c ≠ ':' ∧ c ≠ '\x00' := fun field c hc =>
    ⟨(field.plain c hc).1, (field.plain c hc).2.2.2⟩
  have hstart : (b.load (configLine e)).bytes.drop (⟨0, by decide⟩ : Fin BUFFER_SIZE) = _ := hbytes
  obtain ⟨behind, hbehind, hname⟩ :=
    LineBuffer.strtok_token hstart (by simp) e.name.ne_nil (hplain e.name)
  generalize hlast : 0 + [':'].length + e.name.text.length = last at hbehind hname
  have hdrop : ((b.load (configLine e)).terminate last).bytes.drop behind =
      [] ++ e.search.text ++ ':' :: rest := by
    have hcolon : [':'] ++ e.name.text ++ ':' :: (e.search.text ++ ':' :: rest) =
        ([':'] ++ e.name.text ++ [':']) ++ (e.search.text ++ ':' :: rest) := by simp
    rw [LineBuffer.terminate_drop _ (by omega), hbytes, hcolon, List.nil_append]
    refine List.drop_left' ?_
    rw [hbehind, ← hlast, List.length_append, List.length_append, List.length_singleton, zero_add]
  obtain ⟨saved, -, hsearch⟩ :=
    LineBuffer.strtok_token hdrop (by simp) e.search.ne_nil (hplain e.search)
  exact ⟨behind, saved, _, _, hname, hsearch⟩

/-- From a line of the config file `main` gets to the pass for its entry. -/
theorem reaches_pass (u : Unspecified) (patches : PatchFiles) (e : PatchEntry)
    (config : List Line) (text : List Char) (name searchString : Line) (pass : PairPass) :
    ∃ saved buffer, Transition.Reaches (step u patches)
      ⟨.lines, configLine e :: config, text, name, searchString, pass⟩
      ⟨.pass saved, config, text, e.name.text, e.search.text, .start text buffer⟩ := by
  obtain ⟨behind, saved, b₁, b₂, hname, hsearch⟩ := strtok_configLine pass.buffer e
  have hslash : (pass.buffer.load (configLine e)).string.head? ≠ some '/' := by
    obtain ⟨rest, hbytes⟩ := bytes_load_configLine pass.buffer e
    rw [LineBuffer.string, hbytes]
    simp
  have hline : step u patches ⟨.lines, configLine e :: config, text, name, searchString, pass⟩ =
      some (setBuffer ⟨.tokens 0 (some ⟨0, by decide⟩), config, text, name, searchString, pass⟩
        (pass.buffer.load (configLine e))) := by
    unfold step setBuffer
    exact if_neg hslash
  have hfirst : step u patches
      (setBuffer ⟨.tokens 0 (some ⟨0, by decide⟩), config, text, name, searchString, pass⟩
        (pass.buffer.load (configLine e))) =
      some (setBuffer ⟨.tokens 1 (some behind), config, text, e.name.text, searchString, pass⟩
        b₁) := by
    simp only [step, setBuffer, hname, useToken]
  have hsecond : step u patches
      (setBuffer ⟨.tokens 1 (some behind), config, text, e.name.text, searchString, pass⟩ b₁) =
      some ⟨.pass (some saved), config, text, e.name.text, e.search.text, .start text b₂⟩ := by
    simp only [step, setBuffer, hsearch, useToken]
  exact ⟨some saved, b₂, .head hline (.head hfirst (Transition.reaches_step hsecond))⟩

/-- The tokens behind the second one are passed over, whatever the pass has left in
the buffer. -/
theorem reaches_lines (u : Unspecified) (patches : PatchFiles) (index : ℕ)
    (saved : Option (Fin BUFFER_SIZE)) (config : List Line) (text : List Char)
    (name searchString : Line) (pass : PairPass) :
    ∃ pass', Transition.Reaches (step u patches)
      ⟨.tokens (index + 2) saved, config, text, name, searchString, pass⟩
      ⟨.lines, config, text, name, searchString, pass'⟩ := by
  cases saved with
  | none => exact ⟨pass, Transition.reaches_step rfl⟩
  | some position =>
    induction hn : BUFFER_SIZE - position.val using Nat.strong_induction_on
      generalizing index position pass with
    | _ n ih =>
      cases htoken : pass.buffer.strtok (some position) with
      | none => exact ⟨pass, Transition.reaches_step (by simp only [step, htoken])⟩
      | some token =>
        obtain ⟨tokenText, buffer, saved⟩ := token
        have hstep : step u patches
            ⟨.tokens (index + 2) (some position), config, text, name, searchString, pass⟩ =
            some (setBuffer ⟨.tokens (index + 3) saved, config, text, name, searchString, pass⟩
              buffer) := by
          simp only [step, htoken, useToken, setBuffer]
        cases saved with
        | none => exact ⟨_, .head hstep (Transition.reaches_step rfl)⟩
        | some saved =>
          have hlt := LineBuffer.strtok_lt htoken saved rfl
          rw [Fin.lt_def] at hlt
          obtain ⟨pass', hpass⟩ := ih (BUFFER_SIZE - saved.val) (by omega) (index + 1)
            { pass with buffer } saved rfl
          exact ⟨pass', .head hstep hpass⟩

/-- The config stage over the lines of entries that have a patch file each. -/
theorem evaluates_iff {entries : List PatchEntry}
    (hexists : ∀ e ∈ entries, (patches e.name.text).isSome) {text : List Char}
    {name searchString : Line} {pass : PairPass} {P : ConfigPc → List Char → Prop} :
    (∃ t, Transition.Evaluates (step u patches)
        ⟨.lines, entries.map configLine, text, name, searchString, pass⟩ t ∧ P t.pc t.text) ↔
      ∃ text', Applied u patches entries text text' ∧ P .lines text' := by
  induction entries generalizing text name searchString pass with
  | nil =>
    have hend : Transition.Evaluates (step u patches)
        ⟨.lines, [], text, name, searchString, pass⟩ _ := .halt rfl
    constructor
    · rintro ⟨t, ht, hP⟩
      rw [← hend.unique ht] at hP
      exact ⟨text, rfl, hP⟩
    · rintro ⟨text', rfl, hP⟩
      exact ⟨_, hend, hP⟩
  | cons e entries ih =>
    obtain ⟨saved, buffer, hreach⟩ :=
      reaches_pass u patches e (entries.map configLine) text name searchString pass
    obtain ⟨patch, hpatch⟩ := Option.isSome_iff_exists.mp (hexists e (List.mem_cons_self ..))
    let wrap (p : PairPass) : ConfigStage :=
      ⟨.pass saved, entries.map configLine, text, e.name.text, e.search.text, p⟩
    have hinner : ∀ p q, p.step e.search.text (buffers patch) = some q →
        step u patches (wrap p) = some (wrap q) := by
      intro p q hq
      simp [wrap, step, hpatch, hq]
    have hdone : ∀ p, p.step e.search.text (buffers patch) = none →
        step u patches (wrap p) = some ((wrap p).closePass u saved) := by
      intro p hp
      simp [wrap, step, hpatch, hp]
    have hafter : ∀ p, (∃ t, Transition.Evaluates (step u patches) ((wrap p).closePass u saved) t ∧
          P t.pc t.text) ↔
        ∃ text', Applied u patches entries (p.view.result u text) text' ∧ P .lines text' := by
      intro p
      obtain ⟨pass', hlines⟩ := reaches_lines u patches 0 saved (entries.map configLine)
        (p.view.result u text) e.name.text e.search.text p
      have hclose : (wrap p).closePass u saved = ⟨.tokens (0 + 2) saved, entries.map configLine,
        p.view.result u text, e.name.text, e.search.text, p⟩ := rfl
      rw [hclose]
      simp only [hlines.evaluates]
      exact ih fun e' he' => hexists e' (List.mem_cons_of_mem _ he')
    have hnested : ∀ p t, Transition.Evaluates (step u patches) (wrap p) t ↔
        ∃ q, Transition.Evaluates (PairPass.step e.search.text (buffers patch)) p q ∧
          Transition.Evaluates (step u patches) ((wrap q).closePass u saved) t :=
      fun _ _ => Transition.evaluates_nested hinner hdone
    rw [List.map_cons]
    simp only [hreach.evaluates]
    constructor
    · rintro ⟨t, ht, hP⟩
      obtain ⟨p, hp, ht⟩ := (hnested _ _).mp ht
      obtain ⟨text', happlied, hP⟩ := (hafter p).mp ⟨t, ht, hP⟩
      refine ⟨text', ⟨p.view.result u text, ?_, happlied⟩, hP⟩
      rw [hpatch]
      exact PairPass.replaces_iff.mp ⟨p, hp, rfl⟩
    · rintro ⟨text', ⟨middle, hreplaces, happlied⟩, hP⟩
      rw [hpatch] at hreplaces
      obtain ⟨p, hp, rfl⟩ := PairPass.replaces_iff.mpr hreplaces
      obtain ⟨t, ht, hP⟩ := (hafter p).mpr ⟨text', happlied, hP⟩
      exact ⟨t, (hnested _ _).mpr ⟨p, hp, ht⟩, hP⟩

/-- The lines of the config file are the entries'. -/
theorem buffers_configFile (entries : List PatchEntry) :
    buffers (entries.map configLine).flatten = entries.map configLine := by
  refine LineStructured.buffers_flatten ?_
  induction entries with
  | nil => exact .nil
  | cons e entries ih =>
    have hline : configLine e = (':' :: e.name.text ++ (':' :: e.search.text ++ [':', '\r'])) ++
        ['\n'] := by
      simp [configLine]
    have hlength := length_configLine e
    rw [List.map_cons, hline]
    rw [hline, List.length_append] at hlength
    refine .cons _ ?_ hlength.le ih
    have hname : '\n' ∉ e.name.text := fun h => (e.name.plain _ h).2.2.1 rfl
    have hsearch : '\n' ∉ e.search.text := fun h => (e.search.plain _ h).2.2.1 rfl
    simp [hname, hsearch]

/-- The config stage of `main` on the config file that `installDSDT` writes is the
replacement for each of its entries in turn; an entry whose search string is in no
line leaves the text as it is. -/
theorem configStage_applies (u : Unspecified) (patches : PatchFiles) (entries : List PatchEntry)
    (config text : List Char) (buffer : LineBuffer)
    (hexists : ∀ e ∈ entries, (patches e.name.text).isSome)
    (hconfig : installDSDT patches entries = some config) :
    (∀ text', (∃ t, Transition.Evaluates (step u patches) (start config text buffer) t ∧
        t.text = text') ↔ Applied u patches entries text text') ∧
      (∀ t, Transition.Evaluates (step u patches) (start config text buffer) t → t.pc = .lines) ∧
      ∀ e ∈ entries, ∀ before after,
        (∀ line ∈ strings before, cmpStr line e.search.text = false) →
        (Replaces u ((patches e.name.text).getD []) e.search.text before after ↔
          after = before) := by
  have hfilter : entries.filter (fun e => (patches e.name.text).isSome) = entries :=
    List.filter_eq_self.mpr hexists
  have hfile : config = (entries.map configLine).flatten := by
    have hwritten := (Option.ite_none_right_eq_some.mp hconfig).2
    rw [hfilter, Option.some.injEq] at hwritten
    exact hwritten.symm
  have hstage : ∀ P : ConfigPc → List Char → Prop,
      (∃ t, Transition.Evaluates (step u patches) (start config text buffer) t ∧
        P t.pc t.text) ↔ ∃ text', Applied u patches entries text text' ∧ P .lines text' := by
    intro P
    rw [start, hfile, buffers_configFile]
    exact evaluates_iff hexists
  refine ⟨fun text' => ?_, fun t ht => ?_, fun e _ before after => replaces_of_absent⟩
  · rw [hstage fun _ out => out = text']
    exact exists_eq_right
  · by_contra hpc
    obtain ⟨_, -, hlines⟩ := (hstage fun pc _ => pc ≠ .lines).mp ⟨t, ht, hpc⟩
    exact hlines rfl

def batteryEntries : List PatchEntry :=
  let patchString (text : String) (ne_nil : text.toList ≠ []) (length_lt : text.toList.length < 150)
      (plain : text.toList.all (fun c => c ≠ ':' ∧ c ≠ '\r' ∧ c ≠ '\n' ∧ c ≠ '\x00')) :
      PatchString :=
    ⟨text.toList, ne_nil, length_lt, fun c hc => of_decide_eq_true (List.all_eq_true.mp plain c hc)⟩
  let battery := patchString "battery" (by decide) (by decide) (by decide)
  [⟨battery, patchString "Method (_Q1C" (by decide) (by decide) (by decide)⟩,
    ⟨battery, patchString "Device (BAT1" (by decide) (by decide) (by decide)⟩]

/-- The first search string is in no line; the second one's block is replaced. -/
theorem batteryEntries_applied :
    ∃ config t, Transition.Evaluates (step ⟨id, none, none⟩ fun _ => some ConfigPass.batteryPatch)
        (start config (ConfigPass.deviceAtEnd ++ [['}', '\n']]).flatten .zero) t ∧
      t.text = ConfigPass.batteryPatch ++ ['}', '\n'] := by
  obtain ⟨config, hconfig⟩ : ∃ config,
      installDSDT (fun _ => some ConfigPass.batteryPatch) batteryEntries = some config :=
    Option.isSome_iff_exists.mp (by decide +kernel)
  have hstage := configStage_applies ⟨id, none, none⟩ (fun _ => some ConfigPass.batteryPatch)
    batteryEntries config (ConfigPass.deviceAtEnd ++ [['}', '\n']]).flatten .zero
    (by decide +kernel) hconfig
  have hmethod : Replaces ⟨id, none, none⟩ ConfigPass.batteryPatch "Method (_Q1C".toList
      (ConfigPass.deviceAtEnd ++ [['}', '\n']]).flatten
      (ConfigPass.deviceAtEnd ++ [['}', '\n']]).flatten :=
    (replaces_of_absent (by decide +kernel)).mpr rfl
  have hdevice : Replaces ⟨id, none, none⟩ ConfigPass.batteryPatch "Device (BAT1".toList
      (ConfigPass.deviceAtEnd ++ [['}', '\n']]).flatten (ConfigPass.batteryPatch ++ ['}', '\n']) :=
    ⟨_, Transition.evaluates_of_evaluate (n := 6) rfl, by decide +kernel⟩
  obtain ⟨t, ht, htext⟩ := (hstage.1 (ConfigPass.batteryPatch ++ ['}', '\n'])).mpr
    ⟨_, hmethod, _, hdevice, rfl⟩
  exact ⟨config, t, ht, htext⟩

end ConfigStage
end Dsdt
