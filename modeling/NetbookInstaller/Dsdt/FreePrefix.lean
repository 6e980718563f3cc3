import NetbookInstaller.Dsdt.VariousRuns
import NetbookInstaller.Text.Replacement
import Mathlib.Tactic.IntervalCases

/-! The `_T_` fix: the first prefix `T%d_` that is free is written for every `_T_`, and which
texts get the same names under it. -/
namespace Dsdt

open Transition Replacement

/-- A line with the places where `replaceT` finds `issue4`. -/
def tokens : Line → List (Option Char)
  | [] => []
  | '_' :: 'T' :: '_' :: cs => none :: tokens cs
  | c :: cs => some c :: tokens cs

/-- A file with the places where its lines, as they are read, have `issue4`. -/
def fileTokens (file : List Char) : List (Option Char) := (buffers file).flatMap tokens

/-- The characters between names. -/
def separates (c : Char) : Bool := !(c.isAlphanum || c == '_')

/-- A name segment of four characters, which does not start with a digit. -/
def FourCharacters (segment : Line) : Prop :=
  segment.length = 4 ∧ ∀ c ∈ segment.head?, c.isDigit = false

instance (segment : Line) : Decidable (FourCharacters segment) :=
  inferInstanceAs (Decidable (_ ∧ ∀ c ∈ segment.head?, c.isDigit = false))

/-- A text that the other fixes of the pass leave alone. -/
structure OnlyT (file : List Char) : Prop where
  percent : '%' ∉ file
  plain : ∀ line ∈ buffers file, cmpStr line issue1 = false ∧ cmpStr line PROCESSOR = false
  others : ∀ line ∈ buffers file, cmpStr line issue3 = false ∧
    (cmpStrWild line issue5 && !cmpStr line fix5) = false

/-- What renaming is to do with a file; `n` is the number of the prefix. -/
structure Renamed (file : List Char) (n : ℕ) (output : List Char) : Prop where
  fresh : ¬ freeTPrefix n <:+: file
  gone : ¬ issue4 <:+: output
  restores : replaceAll (freeTPrefix n) issue4 output = file
  segments : List.Forall₂ (fun segment segment' => FourCharacters segment → segment'.length ≤ 4)
    (file.splitOnP separates) (output.splitOnP separates)

/-- The file has all its prefixes, up to the first that no line has, in its lines as they
are read; no `_T_` is followed by `T_` or cut; and if all ten prefixes with one digit are in
use, no `_T_` is in a segment of four characters. -/
structure Renames (file : List Char) : Prop where
  uncut : ∀ n, FirstFree (buffers file) n → ¬ freeTPrefix n <:+: file
  apart : ¬ LeftOver 'T' '_' (fileTokens file)
  short : (∃ m < 10, ∀ line ∈ buffers file, cmpStr line (freeTPrefix m) = false) ∨
    ∀ segment ∈ (fileTokens file).splitOnP (Option.any separates),
      none ∈ segment → ¬ FourCharacters (expand issue4 segment)

theorem expand_issue4 (line : Line) : expand issue4 (tokens line) = line := by
  induction line using tokens.induct with
  | case1 => rfl
  | case2 cs ih =>
    rw [tokens, expand_none, ih]
    rfl
  | case3 c cs h ih =>
    rw [tokens]
    · rw [expand_some, ih]
    · exact h

theorem expand_tokens (freet line : Line) : expand freet (tokens line) = replaceT freet line := by
  induction line using tokens.induct with
  | case1 => rfl
  | case2 cs ih => rw [tokens, replaceT, expand_none, ih]
  | case3 c cs h ih =>
    rw [tokens, replaceT]
    · rw [expand_some, ih]
    · exact h
    · exact h

theorem replaceT_of_not_cmpStr {freet line : Line} (h : cmpStr line issue4 = false) :
    replaceT freet line = line := by
  have hnot : ¬ issue4 <:+: line := by
    rw [← cmpStr_iff, h]
    simp
  clear h
  induction line using replaceT.induct with
  | case1 => rfl
  | case2 cs ih => exact absurd ⟨[], cs, rfl⟩ hnot
  | case3 c cs h ih =>
    rw [replaceT]
    · rw [ih fun hin => hnot (hin.trans (List.suffix_cons c cs).isInfix)]
    · exact h

theorem expand_fileTokens (file : List Char) : expand issue4 (fileTokens file) = file := by
  have hlines : (buffers file).map (fun line => expand issue4 (tokens line)) = buffers file := by
    simp only [expand_issue4, List.map_id']
  rw [fileTokens, expand_flatMap, hlines, buffers_flatten]

theorem OnlyT.fixed_eq {file : List Char} (h : OnlyT file) {line : Line} (hl : line ∈ buffers file)
    (n : ℕ) : fixed n line = expand (freeTPrefix n) (tokens line) := by
  obtain ⟨hissue3, hissue5⟩ := h.others line hl
  rw [fixed, expand_tokens, hissue3, hissue5]
  cases hissue4 : cmpStr line issue4 with
  | true => rfl
  | false => exact (replaceT_of_not_cmpStr hissue4).symm

theorem digits_isDigit {n : ℕ} {c : Char} (hc : c ∈ Nat.toDigits 10 n) : c.isDigit = true :=
  Nat.isDigit_of_mem_toDigits (by decide) (by decide) hc

theorem notMem_digits {n : ℕ} {c : Char} (hc : c.isDigit = false) : c ∉ Nat.toDigits 10 n := by
  intro hmem
  rw [digits_isDigit hmem] at hc
  cases hc

/-- A character that the pattern and the prefixes do not have is not touched. -/
theorem mem_replaceT_iff {c : Char} (hissue4 : c ∉ issue4) (hdigit : c.isDigit = false)
    {firstfreet : ℕ} {line : Line} :
    c ∈ replaceT (freeTPrefix firstfreet) line ↔ c ∈ line := by
  have hword : c ∉ freeTPrefix firstfreet := by
    have hmem : ¬ c = '_' ∧ ¬ c = 'T' ∧ ¬ c = '_' := by simpa [issue4] using hissue4
    simp [freeTPrefix, notMem_digits hdigit, hmem]
  rw [← expand_tokens, mem_expand_iff hword, ← mem_expand_iff hissue4, expand_issue4]

/-- What the pass writes for a text that only has names to replace. -/
theorem OnlyT.evaluates {file : List Char} (h : OnlyT file) (u : Unspecified)
    (memory : List Char) {n : ℕ} (hn : FirstFree (buffers file) n) :
    ∃ t, Evaluates (VariousPass.step u) (VariousPass.start file memory) t ∧ t.firstfreet = n ∧
      t.output = expand (freeTPrefix n) (fileTokens file) := by
  obtain ⟨buffer, hreaches⟩ := VariousPass.reaches_firstFree (u := u) memory hn
  obtain ⟨t, ht, hfree, houtput⟩ := VariousPass.evaluates_outer_lines (u := u)
    (s := { VariousPass.start file memory with pc := .outer, buffer, firstfreet := n }) rfl h.plain
  refine ⟨t, hreaches.evaluates.mpr ht, hfree, ?_⟩
  have hfixed : (buffers file).map (fixed n) =
      (buffers file).map fun line => expand (freeTPrefix n) (tokens line) :=
    List.map_congr_left fun line hl => h.fixed_eq hl n
  have hpercent : ∀ line ∈ (buffers file).map fun line => expand (freeTPrefix n) (tokens line),
      '%' ∉ line := by
    intro format hformat
    obtain ⟨line, hl, rfl⟩ := List.mem_map.mp hformat
    rw [expand_tokens, mem_replaceT_iff (by decide) rfl]
    intro hmem
    exact h.percent (buffers_flatten file ▸ List.mem_flatten_of_mem hl hmem)
  refine houtput.trans ?_
  rw [fileTokens, expand_flatMap, ← printedFile_of_notMem hpercent, ← hfixed]
  rfl

/-- The length of a segment after the renaming. -/
theorem length_le_four_iff {n : ℕ} {segment : List (Option Char)} :
    (FourCharacters (expand issue4 segment) → (expand (freeTPrefix n) segment).length ≤ 4) ↔
      n < 10 ∨ (none ∈ segment → ¬ FourCharacters (expand issue4 segment)) := by
  have hdigits : n < 10 ↔ (Nat.toDigits 10 n).length ≤ 1 :=
    (Nat.length_toDigits_le_iff (b := 10) (k := 1) (by decide) (by decide)).symm
  have hpos : 0 < (Nat.toDigits 10 n).length := Nat.length_toDigits_pos
  have hword : (freeTPrefix n).length = (Nat.toDigits 10 n).length + 2 := by
    simp [freeTPrefix]
  have hnone : none ∈ segment ↔ 0 < segment.countP Option.isNone := by
    simp [List.countP_pos_iff]
  have hlength : (expand issue4 segment).length =
      segment.countP Option.isSome + 3 * segment.countP Option.isNone := expand_length ..
  rw [expand_length, hword, hnone, hdigits]
  by_cases hfour : FourCharacters (expand issue4 segment)
  · have hlength' := hlength.symm.trans hfour.1
    simp only [hfour, true_implies, not_true, imp_false, not_lt, Nat.le_zero]
    generalize (Nat.toDigits 10 n).length = digits at *
    generalize segment.countP Option.isSome = kept at *
    generalize segment.countP Option.isNone = places at *
    have hplaces : places ≤ 1 := by omega
    interval_cases places <;> omega
  · simp [hfour]

theorem segments_iff {n : ℕ} (ts : List (Option Char)) :
    List.Forall₂ (fun segment segment' => FourCharacters segment → segment'.length ≤ 4)
        ((expand issue4 ts).splitOnP separates)
        ((expand (freeTPrefix n) ts).splitOnP separates) ↔
      n < 10 ∨ ∀ segment ∈ ts.splitOnP (Option.any separates),
        none ∈ segment → ¬ FourCharacters (expand issue4 segment) := by
  have hword : ∀ c ∈ freeTPrefix n, separates c = false := by
    intro c hc
    simp only [freeTPrefix, List.mem_cons, List.mem_append, List.not_mem_nil, or_false] at hc
    rcases hc with rfl | hc | rfl
    · rfl
    · simp [separates, Char.isAlphanum, digits_isDigit hc]
    · rfl
  have hissue4 : ∀ c ∈ issue4, separates c = false := by
    change ∀ c ∈ ['_', 'T', '_'], separates c = false
    simp only [List.forall_mem_cons]
    exact ⟨rfl, rfl, rfl, by simp⟩
  rw [splitOnP_expand hissue4, splitOnP_expand hword, List.forall₂_map_left_iff,
    List.forall₂_map_right_iff, List.forall₂_same]
  simp only [length_le_four_iff]
  by_cases hn : n < 10
  · simp [hn]
  · simp [hn]

theorem FirstFree.lt_ten_iff {lines : List Line} {n : ℕ} (h : FirstFree lines n) :
    n < 10 ↔ ∃ m < 10, ∀ line ∈ lines, cmpStr line (freeTPrefix m) = false := by
  constructor
  · intro hn
    exact ⟨n, hn, h.free⟩
  · rintro ⟨m, hm, hfree⟩
    by_contra hn
    obtain ⟨line, hl, hfound⟩ := h.used m (by omega)
    rw [hfree line hl] at hfound
    cases hfound

theorem renamed_iff {file : List Char} {n : ℕ} (hn : FirstFree (buffers file) n) :
    Renamed file n (expand (freeTPrefix n) (fileTokens file)) ↔ Renames file := by
  have hgone : issue4 <:+: expand (freeTPrefix n) (fileTokens file) ↔
      LeftOver 'T' '_' (fileTokens file) :=
    infix_expand_iff (by decide) Nat.toDigits_ne_nil (notMem_digits rfl)
  have hsegments := segments_iff (n := n) (fileTokens file)
  rw [expand_fileTokens, hn.lt_ten_iff] at hsegments
  constructor
  · intro h
    refine ⟨fun m hm => ?_, fun hleft => h.gone (hgone.mpr hleft), hsegments.mp h.segments⟩
    rw [hm.unique hn]
    exact h.fresh
  · intro h
    refine ⟨h.uncut n hn, fun hin => h.apart (hgone.mp hin), ?_, hsegments.mpr h.short⟩
    have hfresh := h.uncut n hn
    rw [← expand_fileTokens file] at hfresh
    have hrestores := replaceAll_expand (a := 'T') (m := Nat.toDigits 10 n ++ ['_'])
      (by simp [notMem_digits]) hfresh
    rwa [expand_fileTokens] at hrestores

theorem patchVarious_renames_iff (u : Unspecified) (memory : List Char) {file : List Char}
    (h : OnlyT file) :
    (∃ t, Evaluates (VariousPass.step u) (VariousPass.start file memory) t ∧
        Renamed file t.firstfreet t.output) ↔ Renames file := by
  obtain ⟨n, hn⟩ := exists_firstFree (buffers file)
  obtain ⟨t, ht, hfree, houtput⟩ := h.evaluates u memory hn
  rw [← renamed_iff hn]
  constructor
  · rintro ⟨t', ht', hrenamed⟩
    rwa [ht'.unique ht, hfree, houtput] at hrenamed
  · intro hrenamed
    refine ⟨t, ht, ?_⟩
    rwa [hfree, houtput]

def oneName : List Char := "Name (_T_0, T0_1)\n".toList

theorem firstFree_oneName : FirstFree (buffers oneName) 1 :=
  ⟨by decide, by decide⟩

theorem patchVarious_renames_oneName :
    ∃ t, Evaluates (VariousPass.step ⟨id, none, none⟩) (VariousPass.start oneName []) t ∧
      Renamed oneName t.firstfreet t.output := by
  have honly : OnlyT oneName := ⟨by decide, by decide, by decide⟩
  refine (patchVarious_renames_iff ⟨id, none, none⟩ [] honly).mpr
    ⟨fun n hn => ?_, ?_, .inl ⟨1, by decide, by decide⟩⟩
  · rw [hn.unique firstFree_oneName]
    decide
  · rintro ⟨t, ht, hin⟩
    rcases ht with rfl | rfl
    · exact absurd hin (by decide)
    · exact absurd hin (by decide)

def twoNames : List Char := "_T_T_\n".toList

/-- The new prefix ends with an underscore that what follows the old one goes on with. -/
theorem patchVarious_leaves_issue4 :
    OnlyT twoNames ∧
      (∃ t, Evaluates (VariousPass.step ⟨id, none, none⟩) (VariousPass.start twoNames []) t ∧
        t.output = "T0_T_\n".toList) ∧
      ¬ ∃ t, Evaluates (VariousPass.step ⟨id, none, none⟩) (VariousPass.start twoNames []) t ∧
        Renamed twoNames t.firstfreet t.output := by
  have hrun : ∃ t, Evaluates (VariousPass.step ⟨id, none, none⟩)
      (VariousPass.start twoNames []) t ∧ t.output = "T0_T_\n".toList :=
    ⟨_, evaluates_of_evaluate (n := 3) rfl, by decide⟩
  refine ⟨⟨by decide, by decide, by decide⟩, hrun, ?_⟩
  rintro ⟨t', ht', hrenamed⟩
  obtain ⟨t, ht, houtput⟩ := hrun
  have hgone := hrenamed.gone
  rw [ht'.unique ht, houtput] at hgone
  exact hgone (by decide)

end Dsdt
