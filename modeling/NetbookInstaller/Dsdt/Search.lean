import NetbookInstaller.Dsdt.Text

/-! What the two searches of the DSDT patcher find, position by position. -/
namespace Dsdt

/-- The term matches the line at position `i`, one character of it after the other. -/
def MatchesFrom (fits : Char → Char → Prop) (searchString searchTerm : Line) (i : ℕ) : Prop :=
  ∀ j (hj : j < searchTerm.length),
    ∃ c, searchString[i + j]? = some c ∧ fits c searchTerm[j]

/-- A question mark stands for any character. -/
def Wild (c t : Char) : Prop := t = '?' ∨ c = t

theorem matchesFrom_drop {fits : Char → Char → Prop} {line term : Line} {i : ℕ} :
    MatchesFrom fits (line.drop i) term 0 ↔ MatchesFrom fits line term i := by
  simp only [MatchesFrom, List.getElem?_drop, Nat.zero_add]

theorem matchesFrom_cons {fits : Char → Char → Prop} {c t : Char} {cs ts : Line} :
    MatchesFrom fits (c :: cs) (t :: ts) 0 ↔ fits c t ∧ MatchesFrom fits cs ts 0 := by
  simp only [MatchesFrom, Nat.zero_add, List.length_cons]
  constructor
  · intro h
    obtain ⟨d, hd, hfits⟩ := h 0 (Nat.succ_pos _)
    obtain rfl : c = d := by simpa using hd
    refine ⟨hfits, fun j hj => ?_⟩
    obtain ⟨d, hd, hfits⟩ := h (j + 1) (Nat.succ_lt_succ hj)
    exact ⟨d, by simpa using hd, hfits⟩
  · rintro ⟨hfits, hrest⟩ j hj
    cases j with
    | zero => exact ⟨c, rfl, hfits⟩
    | succ j =>
      obtain ⟨d, hd, hfits⟩ := hrest j (Nat.lt_of_succ_lt_succ hj)
      exact ⟨d, by simpa using hd, hfits⟩

theorem matchesAt_iff {line term : Line} :
    matchesAt line term = true ↔ MatchesFrom Wild line term 0 := by
  induction line, term using matchesAt.induct with
  | case1 line => simp [matchesAt, MatchesFrom]
  | case2 t ts =>
    rw [matchesAt]
    refine iff_of_false (by simp) fun h => ?_
    obtain ⟨c, hc, -⟩ := h 0 (Nat.succ_pos _)
    simp at hc
  | case3 c cs t ts ih =>
    rw [matchesAt, matchesFrom_cons, Bool.and_eq_true, ih]
    simp [Wild, or_comm]

theorem cmpStr_iff_matchesFrom {haystack needle : Line} :
    cmpStr haystack needle = true ↔ ∃ i, MatchesFrom (· = ·) haystack needle i := by
  rw [cmpStr_iff]
  constructor
  · rintro ⟨a, b, rfl⟩
    refine ⟨a.length, fun j hj => ⟨needle[j], ?_, rfl⟩⟩
    rw [List.append_assoc, List.getElem?_append_right (Nat.le_add_right _ _), Nat.add_sub_cancel_left,
      List.getElem?_append_left hj, List.getElem?_eq_getElem hj]
  · rintro ⟨i, h⟩
    have hstarts : needle <+: haystack.drop i := by
      rw [List.prefix_iff_getElem?]
      intro j hj
      obtain ⟨c, hc, rfl⟩ := h j hj
      rw [List.getElem?_drop, hc]
    exact hstarts.isInfix.trans (List.drop_suffix i haystack).isInfix

/-- The loop of `cmpStrWild` stops before the last position. -/
theorem cmpStrWild_iff {line term : Line} :
    cmpStrWild line term = true ↔
      ∃ i, MatchesFrom Wild line term i ∧ i + term.length < line.length := by
  simp only [cmpStrWild, List.any_eq_true, List.mem_range, matchesAt_iff, matchesFrom_drop]
  constructor
  · rintro ⟨i, hi, h⟩
    exact ⟨i, h, by omega⟩
  · rintro ⟨i, h, hi⟩
    exact ⟨i, by omega, h⟩

theorem searches_find_iff (haystack needle line term : Line) :
    ((cmpStr haystack needle = true ↔ ∃ i, MatchesFrom (· = ·) haystack needle i) ∧
        (cmpStrWild line term = true ↔ ∃ i, MatchesFrom Wild line term i)) ↔
      ∀ i, MatchesFrom Wild line term i → line.length ≤ i + term.length →
        ∃ i', MatchesFrom Wild line term i' ∧ i' + term.length < line.length := by
  rw [and_iff_right cmpStr_iff_matchesFrom, cmpStrWild_iff]
  constructor
  · intro h i hi _
    exact h.mpr ⟨i, hi⟩
  · intro h
    constructor
    · rintro ⟨i, hi, -⟩
      exact ⟨i, hi⟩
    · rintro ⟨i, hi⟩
      rcases Nat.lt_or_ge (i + term.length) line.length with hless | hend
      · exact ⟨i, hi, hless⟩
      · exact h i hi hend

def muteAtEnd : Line := "Acquire (MUTE, 0x01F4)".toList
def muteTerm : Line := "Acquire (MUTE, 0x????)".toList

theorem cmpStrWild_misses_muteAtEnd :
    cmpStrWild muteAtEnd muteTerm = false ∧ MatchesFrom Wild muteAtEnd muteTerm 0 ∧
      ¬ (cmpStrWild muteAtEnd muteTerm = true ↔ ∃ i, MatchesFrom Wild muteAtEnd muteTerm i) := by
  have hmissed : cmpStrWild muteAtEnd muteTerm = false := by decide
  have hmatches : MatchesFrom Wild muteAtEnd muteTerm 0 := matchesAt_iff.mp (by decide)
  refine ⟨hmissed, hmatches, fun h => ?_⟩
  rw [h.mpr ⟨0, hmatches⟩] at hmissed
  cases hmissed

end Dsdt
