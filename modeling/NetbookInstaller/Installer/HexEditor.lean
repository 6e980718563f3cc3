import NetbookInstaller.Text.Replacement
import NetbookInstaller.Transition.Loops

/-! The hex editor of the installer: its loop over a buffer that changes under it. -/
namespace HexEditor

open Replacement Transition

variable {α : Type*} [DecidableEq α]

/-- The difference of two lengths, `NSUInteger`s of 32 bits: below zero it wraps around. -/
def lengthDifference (a b : ℕ) : ℕ := if b ≤ a then a - b else 2 ^ 32 + a - b

def getBytes (data : List α) (location length : ℕ) : Option (List α) :=
  if location + length ≤ data.length then some ((data.drop location).take length) else none

def replaceBytesInRange (data : List α) (location length : ℕ) (bytes : List α) : List α :=
  data.take location ++ bytes ++ data.drop (location + length)

/-- The loop of `find:andReplace:` before it compares again, and the exception for a range outside
the data. -/
inductive Find (α : Type*)
  | searching (index : ℕ) (data : List α)
  | raised

def Find.step (needle replace : List α) : Find α → Option (Find α)
  | .searching index data =>
    if index < lengthDifference data.length needle.length then
      match getBytes data index needle.length with
      | none => some .raised
      | some compare =>
        some (.searching (index + 1)
          (if compare = needle then replaceBytesInRange data index needle.length replace else data))
    else none
  | .raised => none

/-- The indices at which the steps from these states replace. -/
def replacedAt (needle : List α) (visited : List (Find α)) : List ℕ :=
  visited.filterMap fun
    | .searching index data => if getBytes data index needle.length = some needle then some index else none
    | .raised => none

/-- The loop ends with the data, and has written the replacement at these indices. -/
def Writes (needle replace : List α) (index : ℕ) (data result : List α) (written : List ℕ) : Prop :=
  ∃ visited stop, Trace (Find.step needle replace) (.searching index data) visited
    (.searching stop result) ∧ replacedAt needle visited = written

/-- What stands behind an occurrence does not let the loop miss it, nor find the needle in what it
has written there. -/
structure Apart (needle replace rest : List α) : Prop where
  inside : rest ≠ []
  behind : replace = [] → ¬ needle <+: rest
  written : ∀ p, 0 < p → p < replace.length → needle <+: (replace ++ rest).drop p →
    (replace ++ rest).drop p = needle

/-- The data is nowhere shorter than the needle, and its occurrences are apart. -/
structure Separate (needle replace data : List α) : Prop where
  long : needle.length ≤ data.length
  stays : needle.length ≤ (replaceAll needle replace data).length
  apart : ∀ rest, none :: rest <:+ tokens needle data → Apart needle replace (expand needle rest)

section Step
variable {needle replace done rest : List α} {written : List ℕ}

omit [DecidableEq α] in
theorem getBytes_append {n : ℕ} (h : n ≤ rest.length) :
    getBytes (done ++ rest) done.length n = some (rest.take n) := by
  rw [getBytes, if_pos (by simpa using h), List.drop_left]

omit [DecidableEq α] in
theorem replaceBytes_append (n : ℕ) (bytes : List α) :
    replaceBytesInRange (done ++ rest) done.length n bytes = done ++ (bytes ++ rest.drop n) := by
  rw [replaceBytesInRange, List.take_left, List.append_assoc, ← List.drop_drop, List.drop_left]

/-- A difference below zero is above every index. -/
theorem step_short (hfits : needle.length < 2 ^ 32)
    (h : done.length + rest.length < needle.length) :
    Find.step needle replace (.searching done.length (done ++ rest)) = some .raised := by
  have hwraps : done.length < lengthDifference (done ++ rest).length needle.length := by
    rw [lengthDifference, List.length_append, if_neg (by omega)]
    omega
  have hnone : getBytes (done ++ rest) done.length needle.length = none := by
    rw [getBytes, if_neg (by rw [List.length_append]; omega)]
  rw [Find.step, if_pos hwraps, hnone]

theorem step_end (replace : List α) (hlong : needle.length ≤ done.length + rest.length)
    (h : rest.length ≤ needle.length) :
    Find.step needle replace (.searching done.length (done ++ rest)) = none := by
  rw [Find.step, if_neg]
  rw [lengthDifference, List.length_append, if_pos hlong]
  omega

theorem step_find (replace done : List α) (h : needle.length < rest.length) :
    Find.step needle replace (.searching done.length (done ++ rest)) =
      some (.searching (done.length + 1)
        (done ++ if needle <+: rest then replace ++ rest.drop needle.length else rest)) := by
  have hbelow : done.length < lengthDifference (done ++ rest).length needle.length := by
    rw [lengthDifference, List.length_append, if_pos (by omega)]
    omega
  rw [Find.step, if_pos hbelow, getBytes_append h.le]
  simp only [List.prefix_iff_eq_take, eq_comm (a := needle)]
  split_ifs
  · rw [replaceBytes_append]
  · rfl

end Step

section Runs
variable {needle replace done rest result : List α} {written : List ℕ}

theorem le_of_mem_replacedAt {index j : ℕ} {data : List α} {visited : List (Find α)} {last : Find α}
    (h : Trace (Find.step needle replace) (.searching index data) visited last)
    (hj : j ∈ replacedAt needle visited) : index ≤ j := by
  generalize hs : Find.searching index data = s at h
  induction h generalizing index data with
  | halt _ => simp [replacedAt] at hj
  | next hstep hrest ih =>
    subst hs
    rw [replacedAt, List.mem_filterMap] at hj
    obtain ⟨s, hmem, hs⟩ := hj
    rcases List.mem_cons.mp hmem with rfl | hmem
    · simp only [Option.ite_none_right_eq_some, Option.some.injEq] at hs
      exact hs.2.le
    · have hj : j ∈ replacedAt needle _ := List.mem_filterMap.mpr ⟨s, hmem, hs⟩
      simp only [Find.step] at hstep
      split at hstep
      · split at hstep
        · cases hstep
          cases hrest with
          | halt _ => simp at hmem
          | next hraised _ => simp [Find.step] at hraised
        · cases hstep
          exact (Nat.le_succ _).trans (ih hj rfl)
      · cases hstep

theorem Writes.head_le {index : ℕ} {data : List α}
    (h : Writes needle replace index data result written) : ∀ j ∈ written, index ≤ j := by
  obtain ⟨visited, stop, htrace, rfl⟩ := h
  exact fun j hj => le_of_mem_replacedAt htrace hj

theorem not_writes_short (hfits : needle.length < 2 ^ 32)
    (h : done.length + rest.length < needle.length) :
    ¬ Writes needle replace done.length (done ++ rest) result written := by
  rintro ⟨visited, stop, htrace, -⟩
  cases htrace with
  | halt hstep =>
    rw [step_short hfits h] at hstep
    cases hstep
  | next hstep htrace =>
    rw [step_short hfits h, Option.some.injEq] at hstep
    subst hstep
    cases htrace with
    | next hraised _ => simp [Find.step] at hraised

theorem writes_end (hlong : needle.length ≤ done.length + rest.length)
    (h : rest.length ≤ needle.length) :
    Writes needle replace done.length (done ++ rest) result written ↔
      result = done ++ rest ∧ written = [] := by
  have hstep := step_end replace hlong h
  constructor
  · rintro ⟨visited, stop, htrace, rfl⟩
    cases htrace with
    | halt _ => exact ⟨rfl, rfl⟩
    | next hnext _ =>
      rw [hstep] at hnext
      cases hnext
  · rintro ⟨rfl, rfl⟩
    exact ⟨[], _, .halt hstep, rfl⟩

theorem writes_next (h : needle.length < rest.length) :
    Writes needle replace done.length (done ++ rest) result written ↔
      ∃ later, written = (if needle <+: rest then [done.length] else []) ++ later ∧
        Writes needle replace (done.length + 1)
          (done ++ if needle <+: rest then replace ++ rest.drop needle.length else rest)
          result later := by
  have hstep := step_find replace done h
  have hhere : replacedAt needle [.searching done.length (done ++ rest)] =
      if needle <+: rest then [done.length] else [] := by
    simp only [replacedAt, List.filterMap_cons, getBytes_append h.le, List.filterMap_nil,
      Option.some.injEq, List.prefix_iff_eq_take, eq_comm (a := needle)]
    split_ifs <;> rfl
  have hcons : ∀ visited, replacedAt needle (.searching done.length (done ++ rest) :: visited) =
      (if needle <+: rest then [done.length] else []) ++ replacedAt needle visited := by
    intro visited
    rw [← hhere]
    exact List.filterMap_append (l := [_])
  constructor
  · rintro ⟨visited, stop, htrace, rfl⟩
    cases htrace with
    | halt hnone =>
      rw [hstep] at hnone
      cases hnone
    | next hnext htrace =>
      rw [hstep, Option.some.injEq] at hnext
      subst hnext
      exact ⟨_, hcons _, _, _, htrace, rfl⟩
  · rintro ⟨later, rfl, visited, stop, htrace, rfl⟩
    exact ⟨_, stop, .next hstep htrace, hcons _⟩

theorem writes_hit (h : needle.length < rest.length) (hstands : needle <+: rest) :
    Writes needle replace done.length (done ++ rest) result written ↔
      ∃ later, written = done.length :: later ∧ Writes needle replace (done.length + 1)
        (done ++ (replace ++ rest.drop needle.length)) result later := by
  rw [writes_next h, if_pos hstands, if_pos hstands]
  rfl

theorem writes_keep {c : α} (h : needle.length < (c :: rest).length)
    (hnot : ¬ needle <+: c :: rest) :
    Writes needle replace done.length (done ++ c :: rest) result written ↔
      Writes needle replace (done ++ [c]).length (done ++ [c] ++ rest) result written := by
  rw [writes_next h, if_neg hnot, if_neg hnot]
  simp

/-- The loop does what is wanted from an index on, if the data before it is `done`. -/
def Edits (needle replace done rest : List α) : Prop :=
  Writes needle replace done.length (done ++ rest) (done ++ replaceAll needle replace rest)
    (places replace done.length (tokens needle rest))

/-- What is written is passed over if the needle is not found in it. -/
theorem writes_past (replace done w rest : List α) (hfits : needle.length < 2 ^ 32) :
    Writes needle replace done.length (done ++ (w ++ rest))
        (done ++ (w ++ replaceAll needle replace rest))
        (places replace (done ++ w).length (tokens needle rest)) ↔
      (∀ p < w.length, needle <+: (w ++ rest).drop p → (w ++ rest).drop p = needle) ∧
        Edits needle replace (done ++ w) rest := by
  unfold Edits
  induction w generalizing done with
  | nil => simp
  | cons c w ih =>
    rcases Nat.lt_or_ge (done.length + (c :: w ++ rest).length) needle.length with hshort | hlong
    · refine iff_of_false (not_writes_short hfits hshort) fun h => not_writes_short hfits ?_ h.2
      simpa only [List.length_append, Nat.add_assoc] using hshort
    · rcases Nat.lt_or_ge needle.length (c :: w ++ rest).length with hmore | hend
      · by_cases hstands : needle <+: c :: w ++ rest
        · -- the needle is found in what is written
          refine iff_of_false (fun h => ?_) fun h => ?_
          · obtain ⟨later, hlater, -⟩ := (writes_hit hmore hstands).mp h
            have hafter := le_of_mem_places (hlater ▸ List.mem_cons_self)
            rw [List.length_append, List.length_cons] at hafter
            omega
          · have hwhole := congrArg List.length (h.1 0 (Nat.succ_pos _) hstands)
            rw [List.drop_zero] at hwhole
            omega
        · have happend : ∀ l, done ++ c :: (w ++ l) = done ++ [c] ++ (w ++ l) := fun l => by simp
          have hdone : done ++ c :: w = done ++ [c] ++ w := by simp
          simp only [List.cons_append] at hmore hstands ⊢
          rw [writes_keep hmore hstands, happend, hdone, ih]
          refine and_congr_left fun _ => ⟨fun h p hp hfound => ?_, fun h p hp => ?_⟩
          · cases p with
            | zero => exact absurd hfound hstands
            | succ p => exact h p (Nat.lt_of_succ_lt_succ hp) hfound
          · exact h (p + 1) (Nat.succ_lt_succ hp)
      · -- too little is left to be searched
        have hless : rest.length < needle.length := by
          rw [List.length_append, List.length_cons] at hend
          omega
        have hlong' : needle.length ≤ (done ++ c :: w).length + rest.length := by
          simpa only [List.length_append, Nat.add_assoc] using hlong
        rw [replaceAll_short hless, tokens_short hless, places_map_some, writes_end hlong hend,
          writes_end hlong' hless.le]
        refine iff_of_true ⟨rfl, rfl⟩ ⟨fun p hp hfound => ?_, rfl, rfl⟩
        refine (hfound.eq_of_length_le ?_).symm
        exact (List.drop_suffix p _).length_le.trans hend

theorem edits_keep {c : α} (hfits : needle.length < 2 ^ 32) (hnot : ¬ needle <+: c :: rest) :
    Edits needle replace done (c :: rest) ↔ Edits needle replace (done ++ [c]) rest := by
  have hpast := writes_past replace done [c] rest hfits
  rw [List.singleton_append, List.singleton_append, List.length_append, List.length_singleton]
    at hpast
  rw [Edits, replaceAll_keep replace hnot, tokens_keep hnot, places, hpast]
  refine and_iff_right fun p hp hfound => ?_
  obtain rfl : p = 0 := Nat.lt_one_iff.mp hp
  exact absurd hfound hnot

theorem edits_needle (hne : needle ≠ []) (hfits : needle.length < 2 ^ 32)
    (hlong : needle.length ≤ done.length + (needle ++ rest).length) :
    Edits needle replace done (needle ++ rest) ↔
      Apart needle replace rest ∧ Edits needle replace (done ++ replace) rest := by
  have hreplaced : replaceAll needle replace (needle ++ rest) =
      replace ++ replaceAll needle replace rest := by
    rw [← expand_tokens, tokens_pattern hne, expand_none, expand_tokens]
  rw [Edits, tokens_pattern hne, hreplaced, places]
  cases rest with
  | nil =>
    rw [List.append_nil] at hlong ⊢
    rw [writes_end hlong (Nat.le_refl _)]
    exact iff_of_false (fun h => List.cons_ne_nil _ _ h.2) fun h => h.1.inside rfl
  | cons c cs =>
    have hmore : needle.length < (needle ++ c :: cs).length := by simp
    rw [writes_hit hmore (List.prefix_append _ _), List.drop_left]
    simp only [List.cons.injEq, true_and, exists_eq_left']
    cases replace with
    | nil =>
      by_cases hstands : needle <+: c :: cs
      · -- the byte behind what is deleted is not compared
        refine iff_of_false (fun h => ?_) fun h => h.1.behind rfl hstands
        obtain ⟨t, ht⟩ := hstands
        rw [← ht, tokens_pattern hne, places] at h
        have hafter := h.head_le _ List.mem_cons_self
        exact absurd hafter (Nat.not_succ_le_self _)
      · rw [List.append_nil, edits_keep hfits hstands, tokens_keep hstands,
          replaceAll_keep _ hstands, places]
        have hapart : Apart needle [] (c :: cs) :=
          ⟨List.cons_ne_nil _ _, fun _ => hstands, fun p _ hp => absurd hp (Nat.not_lt_zero p)⟩
        simp [Edits, hapart]
    | cons x xs =>
      have hpast := writes_past (x :: xs) (done ++ [x]) xs (c :: cs) hfits
      have happend : ∀ l, done ++ (x :: xs ++ l) = done ++ [x] ++ (xs ++ l) := fun l => by simp
      have hdone : done ++ x :: xs = done ++ [x] ++ xs := by simp
      have hindex : (done ++ [x] ++ xs).length = done.length + (x :: xs).length := by
        rw [← hdone, List.length_append]
      rw [hindex, ← happend, ← happend, List.length_append, List.length_singleton] at hpast
      rw [hpast, hdone]
      refine and_congr_left fun _ => ⟨fun h => ?_, fun h p hp hfound => ?_⟩
      · refine ⟨List.cons_ne_nil _ _, fun hnil => absurd hnil (List.cons_ne_nil _ _), ?_⟩
        rintro (_ | p) hpos hp hfound
        · exact absurd hpos (Nat.lt_irrefl 0)
        · exact h p (Nat.lt_of_succ_lt_succ hp) hfound
      · exact h.written (p + 1) (Nat.succ_pos p) (Nat.succ_lt_succ hp) hfound

/-- What the loop does from an index on, against what is left of the data there. -/
theorem edits_iff (replace done rest : List α) (hne : needle ≠ []) (hfits : needle.length < 2 ^ 32) :
    Edits needle replace done rest ↔
      needle.length ≤ done.length + rest.length ∧
        needle.length ≤ done.length + (replaceAll needle replace rest).length ∧
        ∀ ts, none :: ts <:+ tokens needle rest → Apart needle replace (expand needle ts) := by
  induction hn : rest.length using Nat.strong_induction_on generalizing done rest with
  | _ n ih =>
    subst hn
    rcases Nat.lt_or_ge (done.length + rest.length) needle.length with hshort | hlong
    · exact iff_of_false (not_writes_short hfits hshort) fun h => absurd h.1 (Nat.not_le.mpr hshort)
    · by_cases hstands : needle <+: rest
      · obtain ⟨t, rfl⟩ := hstands
        have hless : t.length < (needle ++ t).length := by
          rw [List.length_append]
          exact Nat.lt_add_of_pos_left (List.length_pos_of_ne_nil hne)
        rw [edits_needle hne hfits hlong, ih t.length hless _ _ rfl, ← expand_tokens, ← expand_tokens,
          tokens_pattern hne, expand_none]
        simp only [List.suffix_cons_iff, List.cons.injEq, true_and, List.length_append] at hlong ⊢
        constructor
        · rintro ⟨hapart, -, hstays, hrest⟩
          refine ⟨hlong, by omega, ?_⟩
          rintro ts (rfl | hts)
          · rwa [expand_tokens_self hne]
          · exact hrest ts hts
        · rintro ⟨-, hstays, hrest⟩
          have hapart := hrest _ (.inl rfl)
          rw [expand_tokens_self hne] at hapart
          refine ⟨hapart, ?_, by omega, fun ts hts => hrest ts (.inr hts)⟩
          -- between the two lengths, whether the replacement is longer or not
          rcases Nat.le_total replace.length needle.length with hle | hge
          · have := replaceAll_length_le hne hle t
            rw [← expand_tokens] at this
            omega
          · omega
      · cases rest with
        | nil =>
          have hends : Edits needle replace done [] :=
            (writes_end hlong (Nat.zero_le _)).mpr ⟨rfl, rfl⟩
          exact iff_of_true hends ⟨hlong, hlong, fun ts hts => by simp [tokens, tokensFrom] at hts⟩
        | cons c cs =>
          rw [edits_keep hfits hstands, ih cs.length (Nat.lt_succ_self _) _ _ rfl, tokens_keep hstands,
            replaceAll_keep _ hstands]
          simp only [List.length_append, List.length_cons, List.length_nil, Nat.zero_add,
            List.suffix_cons_iff, List.cons.injEq, reduceCtorEq, false_and, false_or,
            Nat.add_assoc, Nat.add_comm 1]

end Runs

/-- From the start the loop writes the replacement at each occurrence of the needle in the data, and
nothing else, exactly if the occurrences are apart and no length falls below the needle's. -/
theorem find_replaces_iff {needle : List α} (hne : needle ≠ []) (hfits : needle.length < 2 ^ 32)
    (replace data : List α) :
    Writes needle replace 0 data (replaceAll needle replace data)
        (places replace 0 (tokens needle data)) ↔
      Separate needle replace data := by
  have h := edits_iff replace [] data hne hfits
  simp only [Edits, List.nil_append, List.length_nil, Nat.zero_add] at h
  rw [h]
  exact ⟨fun ⟨hlong, hstays, hapart⟩ => ⟨hlong, hstays, hapart⟩,
    fun h => ⟨h.long, h.stays, h.apart⟩⟩

def gmaFind : List UInt8 := [0x86, 0x80, 0xA2, 0x27]
def gmaReplace : List UInt8 := [0x86, 0x80, 0xAE, 0x27]

theorem find_replaces_gma :
    Writes gmaFind gmaReplace 0 (0 :: gmaFind ++ [0])
      (replaceAll gmaFind gmaReplace (0 :: gmaFind ++ [0]))
      (places gmaReplace 0 (tokens gmaFind (0 :: gmaFind ++ [0]))) := by
  have htokens : tokens gmaFind (0 :: gmaFind ++ [0]) = [some 0, none, some 0] := by decide
  refine (find_replaces_iff (by decide) (by decide) gmaReplace _).mpr
    ⟨by decide, by decide, fun rest hrest => ?_⟩
  obtain rfl : rest = [some 0] := by
    rw [htokens] at hrest
    simpa [List.suffix_cons_iff] using hrest
  refine ⟨by decide, by decide, fun p hpos hp hfound => ?_⟩
  have hnone : ∀ p < 4, 0 < p →
      ¬ gmaFind <+: (gmaReplace ++ expand gmaFind [some 0]).drop p := by decide
  exact absurd hfound (hnone p hp hpos)

/-- An occurrence at the end of the data stays. -/
theorem lastBytes_not_replaced :
    Evaluates (Find.step gmaFind gmaReplace) (.searching 0 gmaFind) (.searching 0 gmaFind) ∧
      replaceAll gmaFind gmaReplace gmaFind = gmaReplace ∧
      ¬ ∃ stop, Evaluates (Find.step gmaFind gmaReplace) (.searching 0 gmaFind)
        (.searching stop (replaceAll gmaFind gmaReplace gmaFind)) := by
  have hrun : Evaluates (Find.step gmaFind gmaReplace) (.searching 0 gmaFind)
      (.searching 0 gmaFind) := .halt rfl
  have hreplaced : replaceAll gmaFind gmaReplace gmaFind = gmaReplace := by decide
  refine ⟨hrun, hreplaced, ?_⟩
  rintro ⟨stop, hstop⟩
  rw [hreplaced] at hstop
  have hsame := hrun.unique hstop
  simp [gmaFind, gmaReplace] at hsame

/-- A needle is still to be found, and not at the end. -/
def Ahead (needle : List α) (s : Find α) : Prop :=
  ∃ done front behind, behind ≠ [] ∧
    s = .searching done.length (done ++ (front ++ (needle ++ behind)))

omit [DecidableEq α] in
theorem ahead_searching {needle done front behind : List α} {c : α} (h : behind ≠ []) :
    Ahead needle (.searching (done.length + 1) (done ++ c :: (front ++ (needle ++ behind)))) :=
  ⟨done ++ [c], front, behind, h, by simp⟩

/-- A replacement that has the needle behind its first byte is searched again without end. -/
theorem not_halts_of_within {needle replace : List α} {c : α} {us vs : List α}
    (hwithin : replace = c :: (us ++ (needle ++ vs))) {front behind : List α}
    (hbehind : behind ≠ []) :
    ¬ Halts (Find.step needle replace) (.searching 0 (front ++ (needle ++ behind))) := by
  have hstart : Ahead needle (.searching 0 (front ++ (needle ++ behind))) :=
    ⟨[], front, behind, hbehind, rfl⟩
  refine not_halts_of_stuck ?_ hstart
  rintro s ⟨done, front, behind, hbehind, rfl⟩
  have hpos := List.length_pos_of_ne_nil hbehind
  have hmore : needle.length < (front ++ (needle ++ behind)).length := by
    simp only [List.length_append]
    omega
  rw [step_find _ _ hmore]
  refine ⟨_, rfl, ?_⟩
  split_ifs with hstands
  · obtain ⟨t, ht⟩ := hstands
    have htail : vs ++ t ≠ [] := by
      rintro hnil
      rw [← ht, (List.append_eq_nil_iff.mp hnil).2, List.append_nil] at hmore
      exact Nat.lt_irrefl _ hmore
    rw [← ht, List.drop_left, hwithin, List.cons_append, List.append_assoc, List.append_assoc]
    exact ahead_searching htail
  · cases front with
    | nil => exact absurd (List.prefix_append _ _) hstands
    | cons d front => exact ahead_searching hbehind

end HexEditor
