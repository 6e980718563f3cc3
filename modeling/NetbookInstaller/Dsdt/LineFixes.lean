import NetbookInstaller.Dsdt.FreePrefix
import NetbookInstaller.Dsdt.Verbatim

/-! The fixes of the last pass that look at one line only: what they write for the line, and
the line with the offending expressions fixed and everything else kept. -/
namespace Dsdt

open Replacement

/-- `issue1` without its asterisk. -/
def nameFixed : Line := ", \"".toList

/-- What stands before the free characters of `issue5`. -/
def muteStart : Line := "Acquire (MUTE, 0x".toList

/-- `fix5` without its line end. -/
def muteFixed : Line := "Acquire (MUTE, 0xFFFF)".toList

/-- The format that the outer loop writes for a line that it has read. -/
def lineFormat (firstfreet : ℕ) (line : Line) : Line :=
  if cmpStr line issue1 then dropAsterisk line
  else if cmpStr line PROCESSOR then line
  else fixed firstfreet line

def fixName : Line → Line := replaceFirst issue1.isPrefixOf issue1.length nameFixed
def fixStore : Line → Line := replaceFirst issue3.isPrefixOf issue3.length fix3
def fixMute : Line → Line := replaceFirst (fun t => matchesAt t issue5) issue5.length muteFixed

/-- A line with the offending expressions fixed. -/
def fixedLine (firstfreet : ℕ) (line : Line) : Line :=
  fixMute (replaceT (freeTPrefix firstfreet) (fixStore (fixName line)))

/-- The pass writes the fixed line for the line, and if the alias fix does not look at it,
nothing else. -/
structure LineFixed (firstfreet : ℕ) (line : Line) : Prop where
  fits : cmpStr line issue1 = true → FitsBuff line
  written : ∀ (u : Unspecified) (s : VariousPass) (rest : List Line), s.firstfreet = firstfreet →
    ∃ more, (s.outerStep u line rest).output = s.output ++ fixedLine firstfreet line ++ more ∧
      (cmpStr line issue1 = true ∨ cmpStr line PROCESSOR = false → more = [])

/-- The first `Acquire` that matches `issue5`, if there is one, waits for `0xFFFF` already. -/
def MuteDone (line : Line) : Prop :=
  ∀ front rest, FirstAt (fun t => matchesAt t issue5) line front rest → muteFixed <+: rest

/-- No other fix than that of the name is needed. -/
structure Clean (line : Line) : Prop where
  store : cmpStr line issue3 = false
  names : cmpStr line issue4 = false
  mute : MuteDone line

/-- The lines that the fixes are right for. -/
inductive FixesAlone (firstfreet : ℕ) (line : Line) : Prop
  | name (front rest : Line) (hsplit : line = front ++ issue1 ++ rest) (hfirst : '*' ∉ front)
      (hfits : FitsBuff line) (hpercent : '%' ∉ line) (hclean : Clean (front ++ nameFixed ++ rest))
  | store (hline : line = issue3)
  | names (hname : cmpStr line issue1 = false) (hprocessor : cmpStr line PROCESSOR = false)
      (hstore : cmpStr line issue3 = false) (hnames : cmpStr line issue4 = true)
      (hpercent : '%' ∉ line) (hmute : MuteDone (replaceT (freeTPrefix firstfreet) line))
  | mute (hline : ∃ digits, digits.length = 4 ∧
        line = muteStart ++ digits ++ [')', '\n'])
      (hname : cmpStr line issue1 = false) (hprocessor : cmpStr line PROCESSOR = false)
      (hstore : cmpStr line issue3 = false) (hnames : cmpStr line issue4 = false)
  | unchanged (hname : cmpStr line issue1 = false) (hpercent : '%' ∉ line) (hclean : Clean line)
      (hkept : cmpStr line PROCESSOR = true ∨
        (cmpStrWild line issue5 && !cmpStr line fix5) = false)

section Expressions
variable {line : Line}

theorem matchesAt_length {line term : Line} (h : matchesAt line term = true) :
    term.length ≤ line.length := by
  induction line, term using matchesAt.induct with
  | case1 line => exact Nat.zero_le _
  | case2 t ts => simp [matchesAt] at h
  | case3 c cs t ts ih =>
    rw [matchesAt, Bool.and_eq_true] at h
    exact Nat.succ_le_succ (ih h.2)

theorem matchesAt_append (line xs ys : Line) :
    matchesAt line (xs ++ ys) = (matchesAt line xs && matchesAt (line.drop xs.length) ys) := by
  induction xs generalizing line with
  | nil => simp [matchesAt]
  | cons x xs ih =>
    cases line with
    | nil => simp [matchesAt]
    | cons c cs => simp [matchesAt, ih, Bool.and_assoc]

theorem matchesAt_literal {term : Line} (h : '?' ∉ term) {line : Line} :
    matchesAt line term = true ↔ term <+: line := by
  induction term generalizing line with
  | nil => simp [matchesAt]
  | cons t ts ih =>
    simp only [List.mem_cons, not_or] at h
    cases line with
    | nil => simp [matchesAt]
    | cons c cs =>
      have ht : (t == '?') = false := beq_eq_false_iff_ne.mpr (Ne.symm h.1)
      rw [matchesAt, ht, Bool.or_false, Bool.and_eq_true, beq_iff_eq, ih h.2,
        List.cons_prefix_cons, eq_comm]

theorem matchesAt_any (n : ℕ) {line : Line} :
    matchesAt line (List.replicate n '?') = true ↔ n ≤ line.length := by
  induction n generalizing line with
  | zero => simp [matchesAt]
  | succ n ih =>
    cases line with
    | nil => simp [List.replicate_succ, matchesAt]
    | cons c cs => simp [List.replicate_succ, matchesAt, ih]

/-- Four characters of a match are free. -/
theorem matchesAt_issue5_iff :
    matchesAt line issue5 = true ↔ ∃ digits rest, digits.length = 4 ∧
      line = muteStart ++ digits ++ ')' :: rest := by
  have hsplit : issue5 = muteStart ++ (List.replicate 4 '?' ++ [')']) := by decide
  rw [hsplit, matchesAt_append, matchesAt_append, Bool.and_eq_true, Bool.and_eq_true,
    matchesAt_literal (by decide), matchesAt_any, matchesAt_literal (by decide)]
  constructor
  · rintro ⟨⟨behind, rfl⟩, hlength, hparen⟩
    rw [List.drop_left] at hlength hparen
    obtain ⟨rest, hrest⟩ := hparen
    rw [List.length_replicate, List.singleton_append] at hrest
    refine ⟨behind.take 4, rest, List.length_take_of_le hlength, ?_⟩
    rw [hrest, List.append_assoc, List.take_append_drop]
  · rintro ⟨digits, rest, hdigits, rfl⟩
    rw [List.append_assoc, List.drop_left, List.length_replicate, ← hdigits, List.drop_left]
    exact ⟨List.prefix_append .., by simp, ⟨rest, rfl⟩⟩

theorem drop_match {digits rest : Line} (hdigits : digits.length = 4) :
    (muteStart ++ digits ++ ')' :: rest).drop muteFixed.length = rest := by
  have hlength : muteFixed.length = muteStart.length + 5 := by decide
  have happend : muteStart ++ digits ++ ')' :: rest = muteStart ++ digits ++ [')'] ++ rest := by simp
  rw [happend]
  refine List.drop_left' ?_
  rw [hlength, List.length_append, List.length_append, hdigits, List.length_singleton]

theorem length_issue5 : issue5.length = muteFixed.length := by decide

theorem fixMute_of_firstAt {front rest : Line}
    (h : FirstAt (fun t => matchesAt t issue5) line front rest) :
    fixMute line = front ++ muteFixed ++ rest.drop muteFixed.length := by
  rw [fixMute, replaceFirst_of_firstAt h, length_issue5]

theorem fixMute_eq_self_iff : fixMute line = line ↔ MuteDone line := by
  constructor
  · intro heq front rest h
    rw [fixMute_of_firstAt h, List.append_assoc] at heq
    exact ⟨_, List.append_cancel_left (heq.trans h.split)⟩
  · intro hdone
    rcases firstAt_or (fun t => matchesAt t issue5) line with ⟨front, rest, h⟩ | ⟨-, hkept⟩
    · obtain ⟨more, rfl⟩ := hdone front rest h
      rw [fixMute_of_firstAt h, List.drop_left, h.split, List.append_assoc]
    · exact hkept _ _

/-- The characters of one match are changed at most. -/
theorem fixMute_cases (line : Line) :
    fixMute line = line ∨ ∃ front m rest, line = front ++ m ++ rest ∧
      m.length = muteFixed.length ∧ fixMute line = front ++ muteFixed ++ rest := by
  rcases firstAt_or (fun t => matchesAt t issue5) line with ⟨front, rest, h⟩ | ⟨-, hkept⟩
  · have hlength := matchesAt_length h.found
    rw [length_issue5] at hlength
    refine .inr ⟨front, rest.take muteFixed.length, rest.drop muteFixed.length, ?_,
      List.length_take_of_le hlength, fixMute_of_firstAt h⟩
    rw [List.append_assoc, List.take_append_drop, ← h.split]
  · exact .inl (hkept _ _)

theorem length_fixMute (line : Line) : (fixMute line).length = line.length := by
  rcases fixMute_cases line with h | ⟨front, m, rest, rfl, hm, h⟩
  · rw [h]
  · simp only [h, List.length_append, hm]

theorem count_fixMute_le {c : Char} (hc : c ∉ muteFixed) (line : Line) :
    (fixMute line).count c ≤ line.count c := by
  rcases fixMute_cases line with h | ⟨front, m, rest, rfl, -, h⟩
  · rw [h]
  · simp only [h, List.count_append, List.count_eq_zero_of_not_mem hc]
    omega

theorem map_beq_of_notMem {c : Char} {m : Line} (h : c ∉ m) :
    m.map (· == c) = List.replicate m.length false := by
  rw [List.eq_replicate_iff]
  refine ⟨List.length_map _, fun b hb => ?_⟩
  obtain ⟨d, hd, rfl⟩ := List.mem_map.mp hb
  rw [beq_eq_false_iff_ne]
  rintro rfl
  exact h hd

/-- If no character `c` is lost, all stay in their places. -/
theorem map_fixMute {c : Char} (hc : c ∉ muteFixed)
    (hcount : (fixMute line).count c = line.count c) :
    (fixMute line).map (· == c) = line.map (· == c) := by
  rcases fixMute_cases line with h | ⟨front, m, rest, rfl, hm, h⟩
  · rw [h]
  · have hnone : c ∉ m := by
      rw [← List.count_eq_zero]
      simp only [h, List.count_append, List.count_eq_zero_of_not_mem hc] at hcount
      omega
    simp only [h, List.map_append, map_beq_of_notMem hc, map_beq_of_notMem hnone, hm]

theorem fixName_of_split {front rest : Line} (hstar : '*' ∉ front)
    (hline : line = front ++ issue1 ++ rest) : fixName line = front ++ nameFixed ++ rest := by
  have hfirst : FirstAt issue1.isPrefixOf line front (issue1 ++ rest) := by
    refine ⟨by rw [hline, List.append_assoc], by simp [issue1], by simp, fun xs ys hsplit hne => ?_⟩
    have hys : '*' ∉ ys := fun hmem => hstar (hsplit ▸ List.mem_append_right xs hmem)
    rw [Bool.eq_false_iff, Ne, List.isPrefixOf_iff_prefix]
    change ¬ [',', ' ', '"', '*'] <+: ys ++ ([',', ' ', '"', '*'] ++ rest)
    -- an earlier match would bring its own asterisk
    rcases ys with - | ⟨c, - | ⟨d, - | ⟨e, - | ⟨f, ys⟩⟩⟩⟩
    · exact absurd rfl hne
    · simp
    · simp
    · simp
    · simp only [List.mem_cons, not_or] at hys
      simp [hys]
  rw [fixName, replaceFirst_of_firstAt hfirst]
  simp

/-- A line without the pattern is kept; otherwise one occurrence is replaced. -/
theorem replaceFirst_cases {pattern : Line} (hne : pattern ≠ []) (word line : Line) :
    cmpStr line pattern = false ∧
        replaceFirst pattern.isPrefixOf pattern.length word line = line ∨
      ∃ front rest, line = front ++ pattern ++ rest ∧
        replaceFirst pattern.isPrefixOf pattern.length word line = front ++ word ++ rest := by
  rcases firstAt_or pattern.isPrefixOf line with ⟨front, rest, h⟩ | ⟨hnone, hkept⟩
  · obtain ⟨more, rfl⟩ := List.isPrefixOf_iff_prefix.mp h.found
    refine .inr ⟨front, more, by rw [h.split, List.append_assoc], ?_⟩
    rw [replaceFirst_of_firstAt h, List.drop_left]
  · refine .inl ⟨?_, hkept _ _⟩
    rw [Bool.eq_false_iff]
    intro hfound
    obtain ⟨front, rest, rfl⟩ := cmpStr_iff.mp hfound
    have hno := hnone front (pattern ++ rest) (List.append_assoc ..) (by simp [hne])
    rw [List.isPrefixOf_iff_prefix.mpr (List.prefix_append ..)] at hno
    cases hno

theorem fixName_cases (line : Line) :
    cmpStr line issue1 = false ∧ fixName line = line ∨
      ∃ front rest, line = front ++ issue1 ++ rest ∧ fixName line = front ++ nameFixed ++ rest :=
  replaceFirst_cases (by decide) nameFixed line

theorem fixStore_cases (line : Line) :
    cmpStr line issue3 = false ∧ fixStore line = line ∨
      ∃ front rest, line = front ++ issue3 ++ rest ∧ fixStore line = front ++ fix3 ++ rest :=
  replaceFirst_cases (by decide) fix3 line

/-- The fix of a store makes a line longer. -/
theorem length_fixStore (line : Line) :
    line.length ≤ (fixStore line).length ∧
      ((fixStore line).length ≤ line.length → cmpStr line issue3 = false) := by
  rcases fixStore_cases line with ⟨hnone, h⟩ | ⟨front, rest, rfl, h⟩
  · rw [h]
    exact ⟨le_rfl, fun _ => hnone⟩
  · have hlength : fix3.length = issue3.length + 2 := by decide
    simp only [h, List.length_append, hlength]
    exact ⟨by omega, fun hle => by omega⟩

theorem fixStore_of_not_cmpStr {line : Line} (h : cmpStr line issue3 = false) :
    fixStore line = line := by
  rcases fixStore_cases line with ⟨-, hkept⟩ | ⟨front, rest, rfl, -⟩
  · exact hkept
  · rw [cmpStr_iff.mpr ⟨front, rest, rfl⟩] at h
    cases h

theorem fixName_of_not_cmpStr {line : Line} (h : cmpStr line issue1 = false) :
    fixName line = line := by
  rcases fixName_cases line with ⟨-, hkept⟩ | ⟨front, rest, rfl, -⟩
  · exact hkept
  · rw [cmpStr_iff.mpr ⟨front, rest, rfl⟩] at h
    cases h

theorem length_replaceT (firstfreet : ℕ) (line : Line) :
    line.length ≤ (replaceT (freeTPrefix firstfreet) line).length := by
  induction line using replaceT.induct with
  | case1 => exact le_rfl
  | case2 cs ih =>
    have hprefix : 3 ≤ (freeTPrefix firstfreet).length := by
      have hpos : 0 < (Nat.toDigits 10 firstfreet).length := Nat.length_toDigits_pos
      simp only [freeTPrefix, List.length_append, List.length_cons, List.length_nil]
      omega
    rw [replaceT, List.length_append]
    simp only [List.length_cons]
    omega
  | case3 c cs h ih =>
    rw [replaceT]
    · exact Nat.succ_le_succ ih
    · exact h

/-- A prefix has one underscore, what it is written for has two. -/
theorem count_replaceT (firstfreet : ℕ) (line : Line) :
    (replaceT (freeTPrefix firstfreet) line).count '_' ≤ line.count '_' ∧
      (line.count '_' ≤ (replaceT (freeTPrefix firstfreet) line).count '_' →
        cmpStr line issue4 = false) := by
  induction line using replaceT.induct with
  | case1 => exact ⟨le_rfl, fun _ => rfl⟩
  | case2 cs ih =>
    have hdigits : '_' ∉ Nat.toDigits 10 firstfreet := notMem_digits rfl
    have hprefix : (freeTPrefix firstfreet).count '_' = 1 := by
      simp [freeTPrefix, List.count_eq_zero_of_not_mem hdigits]
    have hcount : ('_' :: 'T' :: '_' :: cs).count '_' = cs.count '_' + 2 := by simp
    rw [replaceT, List.count_append, hprefix, hcount]
    exact ⟨by omega, fun hle => by omega⟩
  | case3 c cs h ih =>
    rw [replaceT, List.count_cons, List.count_cons]
    · refine ⟨by omega, fun hle => ?_⟩
      have hrest := ih.2 (by omega)
      rw [Bool.eq_false_iff, Ne, cmpStr_iff] at hrest ⊢
      rw [List.infix_cons_iff, not_or]
      refine ⟨?_, hrest⟩
      rintro ⟨more, hmore⟩
      obtain ⟨rfl, hcs⟩ := List.cons.inj hmore
      exact h more rfl hcs.symm
    · exact h

end Expressions

section Written
variable {firstfreet : ℕ} {line : Line}

theorem length_fixedLine (firstfreet : ℕ) (line : Line) :
    (fixStore (fixName line)).length ≤ (fixedLine firstfreet line).length := by
  rw [fixedLine, length_fixMute]
  exact length_replaceT firstfreet _

/-- The fixed line is not shorter than the format. -/
theorem length_lineFormat (firstfreet : ℕ) (line : Line) :
    (lineFormat firstfreet line).length ≤ (fixedLine firstfreet line).length := by
  have hfixed := length_fixedLine firstfreet line
  have hstore := (length_fixStore (fixName line)).1
  rcases fixName_cases line with ⟨hnone, hkept⟩ | ⟨front, rest, hline, hname⟩
  · rw [hkept] at hfixed hstore
    rw [lineFormat, hnone, if_neg Bool.false_ne_true]
    split
    · exact hstore.trans hfixed
    · unfold fixed
      split
      next hissue3 =>
        rcases fixStore_cases line with ⟨hno, -⟩ | ⟨front, rest, rfl, h⟩
        · rw [hno] at hissue3
          cases hissue3
        · rw [h, List.length_append, List.length_append] at hfixed
          omega
      next hissue3 =>
        split
        · rw [fixedLine, hkept, fixStore_of_not_cmpStr (by simpa using hissue3), length_fixMute]
        · split
          next hmute =>
            rw [Bool.and_eq_true] at hmute
            obtain ⟨i, -, hi⟩ := cmpStrWild_iff.mp hmute.1
            have hlength : fix5.length = issue5.length + 1 := by decide
            omega
          next => exact hstore.trans hfixed
  · have hfound : cmpStr line issue1 = true := cmpStr_iff.mpr ⟨front, rest, hline.symm⟩
    have hstar : '*' ∈ line := by
      rw [hline]
      simp [issue1]
    have hlength : issue1.length = nameFixed.length + 1 := by decide
    rw [lineFormat, if_pos hfound, dropAsterisk, List.length_erase_of_mem hstar]
    have hnamed := congrArg List.length hname
    have hsplit := congrArg List.length hline
    simp only [List.length_append] at hnamed hsplit
    omega

theorem outerStep_output (u : Unspecified) (s : VariousPass) (line : Line) (rest : List Line) :
    ∃ more, (s.outerStep u line rest).output =
        s.output ++ printed u (lineFormat s.firstfreet line) ++ more ∧
      (cmpStr line issue1 = true ∨ cmpStr line PROCESSOR = false → more = []) ∧
      (rest = [issue2] → more = []) := by
  have hstored : ∀ format, ((s.store line rest).fprintf u format).output =
      s.output ++ printed u format := fun format => VariousPass.output_append ..
  have hfixed : ∀ (t : VariousPass) (line' : Line), t.output = s.output ++ printed u line →
      (t.fixLine u line').output =
        s.output ++ printed u line ++ printed u (fixed t.firstfreet line') := by
    intro t line' ht
    rw [VariousPass.fixLine_eq, VariousPass.output_append, ht]
  unfold VariousPass.outerStep lineFormat
  dsimp only
  split
  next => exact ⟨[], by rw [hstored, List.append_nil], fun _ => rfl, fun _ => rfl⟩
  next hissue =>
    split
    next hprocessor =>
      have hplain : ¬ (cmpStr line issue1 = true ∨ cmpStr line PROCESSOR = false) := by
        simp [hissue, hprocessor]
      cases rest with
      | nil =>
        exact ⟨_, hfixed _ line (hstored line), fun h => absurd h hplain, fun h => nomatch h⟩
      | cons line' rest =>
        dsimp only
        split
        next =>
          refine ⟨[], ?_, fun _ => rfl, fun _ => rfl⟩
          rw [List.append_nil]
          exact hstored line
        next halias =>
          refine ⟨_, hfixed _ line' (hstored line), fun h => absurd h hplain, fun h => ?_⟩
          obtain ⟨rfl, -⟩ := List.cons.inj h
          exact absurd (by decide) halias
    next =>
      refine ⟨[], ?_, fun _ => rfl, fun _ => rfl⟩
      rw [VariousPass.fixLine_eq, List.append_nil]
      exact VariousPass.output_append ..

/-- The format can be told from what is written, since the fixed line is not shorter. -/
theorem lineFixed_iff :
    LineFixed firstfreet line ↔ (cmpStr line issue1 = true → FitsBuff line) ∧
      ∀ u, printed u (lineFormat firstfreet line) = fixedLine firstfreet line := by
  constructor
  · rintro ⟨hfits, hwritten⟩
    have hstarts : ∀ u, ∃ more,
        printed u (lineFormat firstfreet line) = fixedLine firstfreet line ++ more := by
      intro u
      let s : VariousPass := { VariousPass.start [] [] with firstfreet }
      obtain ⟨more, houtput, -, hnone⟩ := outerStep_output u s line [issue2]
      obtain ⟨more', houtput', -⟩ := hwritten u s [issue2] rfl
      rw [houtput, hnone rfl, List.append_nil, List.append_assoc] at houtput'
      exact ⟨more', List.append_cancel_left houtput'⟩
    refine ⟨hfits, fun u => ?_⟩
    obtain ⟨more, hmore⟩ := hstarts silent
    have hless := printed_silent_length_le (lineFormat firstfreet line)
    have hle := length_lineFormat firstfreet line
    have hlength := congrArg List.length hmore
    rw [List.length_append] at hlength
    have hpercent : '%' ∉ lineFormat firstfreet line := by
      intro hmem
      have hlt := printed_silent_length_lt hmem
      omega
    rw [printed_of_notMem hpercent] at hmore hlength ⊢
    have hnil : more = [] := List.length_eq_zero_iff.mp (by omega)
    rw [hmore, hnil, List.append_nil]
  · rintro ⟨hfits, hprinted⟩
    refine ⟨hfits, fun u s rest hs => ?_⟩
    obtain ⟨more, houtput, hplain, -⟩ := outerStep_output u s line rest
    exact ⟨more, by rw [houtput, hs, hprinted], hplain⟩

/-- The pass is right about a line exactly if the format is the fixed line, without a percent
sign. -/
theorem lineFixed_iff_format :
    LineFixed firstfreet line ↔ (cmpStr line issue1 = true → FitsBuff line) ∧
      '%' ∉ lineFormat firstfreet line ∧ lineFormat firstfreet line = fixedLine firstfreet line := by
  rw [lineFixed_iff]
  refine and_congr_right fun _ => ?_
  constructor
  · intro h
    have hpercent : '%' ∉ lineFormat firstfreet line := by
      intro hmem
      have hlt := printed_silent_length_lt hmem
      rw [h silent] at hlt
      have hle := length_lineFormat firstfreet line
      omega
    refine ⟨hpercent, ?_⟩
    rw [← h silent, printed_of_notMem hpercent]
  · rintro ⟨hpercent, heq⟩ u
    rw [printed_of_notMem hpercent, heq]

theorem fixedLine_eq_self_iff :
    fixMute (replaceT (freeTPrefix firstfreet) (fixStore line)) = line ↔ Clean line := by
  constructor
  · intro heq
    have hstore : cmpStr line issue3 = false := by
      refine (length_fixStore line).2 ?_
      have hle := length_replaceT firstfreet (fixStore line)
      rwa [← length_fixMute (replaceT _ _), heq] at hle
    rw [fixStore_of_not_cmpStr hstore] at heq
    have hnames : cmpStr line issue4 = false := by
      refine (count_replaceT firstfreet line).2 ?_
      have hle := count_fixMute_le (c := '_') (by decide) (replaceT (freeTPrefix firstfreet) line)
      rwa [heq] at hle
    rw [replaceT_of_not_cmpStr hnames] at heq
    exact ⟨hstore, hnames, fixMute_eq_self_iff.mp heq⟩
  · rintro ⟨hstore, hnames, hmute⟩
    rw [fixStore_of_not_cmpStr hstore, replaceT_of_not_cmpStr hnames, fixMute_eq_self_iff.mpr hmute]

/-- An asterisk before the match is not in the place of the one that is to go. -/
theorem notMem_of_map_erase {front rest : Line}
    (h : ((front ++ issue1 ++ rest).erase '*').map (· == '*') =
      (front ++ nameFixed ++ rest).map (· == '*')) : '*' ∉ front := by
  intro hmem
  obtain ⟨xs, ys, rfl, hxs⟩ := List.eq_append_cons_of_mem hmem
  have herase : (xs ++ '*' :: ys ++ issue1 ++ rest).erase '*' = xs ++ (ys ++ issue1 ++ rest) := by
    simp only [List.append_assoc, List.cons_append]
    rw [List.erase_append_right _ hxs, List.erase_cons_head]
  rw [herase] at h
  simp only [List.append_assoc, List.map_append, List.map_cons, List.append_cancel_left_eq] at h
  -- what stands before the place of the asterisk of the match has one more on the right
  have hcount := congrArg (fun l => (l.take (ys.length + 3)).count true) h
  have hissue1 : issue1.map (· == '*') = [false, false, false, true] := by decide
  have hnamed : nameFixed.map (· == '*') = [false, false, false] := by decide
  simp [hissue1, hnamed, List.take_append] at hcount
  rw [List.take_of_length_le (by simp), List.take_of_length_le (by simp)] at hcount
  omega

theorem erase_split {front rest : Line} (hfront : '*' ∉ front) :
    (front ++ issue1 ++ rest).erase '*' = front ++ nameFixed ++ rest := by
  rw [List.append_assoc, List.erase_append_right _ hfront]
  simp [issue1, nameFixed]

/-- A text of the same length, underscores and asterisks comes from no other fix than that of
the mute, which has then left the asterisks in place. -/
theorem eq_fixMute_of_counts {text named : Line}
    (heq : text = fixMute (replaceT (freeTPrefix firstfreet) (fixStore named)))
    (hlength : text.length = named.length) (hunderscores : text.count '_' = named.count '_')
    (hasterisks : text.count '*' = named.count '*') :
    cmpStr named issue3 = false ∧ cmpStr named issue4 = false ∧ text = fixMute named ∧
      text.map (· == '*') = named.map (· == '*') := by
  have hstore : cmpStr named issue3 = false := by
    refine (length_fixStore named).2 ?_
    have hle := length_replaceT firstfreet (fixStore named)
    rwa [← length_fixMute (replaceT _ _), ← heq, hlength] at hle
  rw [fixStore_of_not_cmpStr hstore] at heq
  have hnames : cmpStr named issue4 = false := by
    refine (count_replaceT firstfreet named).2 ?_
    have hle := count_fixMute_le (c := '_') (by decide) (replaceT (freeTPrefix firstfreet) named)
    rwa [← heq, hunderscores] at hle
  rw [replaceT_of_not_cmpStr hnames] at heq
  refine ⟨hstore, hnames, heq, ?_⟩
  rw [heq]
  exact map_fixMute (by decide) (by rw [← heq, hasterisks])

theorem name_iff {front rest : Line} (hline : line = front ++ issue1 ++ rest)
    (hname : fixName line = front ++ nameFixed ++ rest) :
    dropAsterisk line = fixedLine firstfreet line ↔
      '*' ∉ front ∧ Clean (front ++ nameFixed ++ rest) := by
  rw [fixedLine, hname, dropAsterisk]
  constructor
  · intro heq
    have hstar : '*' ∈ line := by
      rw [hline]
      simp [issue1]
    have hlength : (line.erase '*').length = (front ++ nameFixed ++ rest).length := by
      have hissue1 : issue1.length = nameFixed.length + 1 := by decide
      rw [List.length_erase_of_mem hstar, hline]
      simp only [List.length_append, hissue1]
      omega
    have hunderscores : (line.erase '*').count '_' = (front ++ nameFixed ++ rest).count '_' := by
      rw [List.count_erase_of_ne (by decide), hline]
      simp [issue1, nameFixed]
    have hasterisks : (line.erase '*').count '*' = (front ++ nameFixed ++ rest).count '*' := by
      rw [List.count_erase_self, hline]
      simp [issue1, nameFixed]
    obtain ⟨hstore, hnames, hmute, hplaces⟩ :=
      eq_fixMute_of_counts heq hlength hunderscores hasterisks
    rw [hline] at hplaces
    have hfront := notMem_of_map_erase hplaces
    rw [hline, erase_split hfront] at hmute
    exact ⟨hfront, hstore, hnames, fixMute_eq_self_iff.mp hmute.symm⟩
  · rintro ⟨hfront, hclean⟩
    rw [fixedLine_eq_self_iff.mpr hclean, hline, erase_split hfront]

theorem store_iff (h : cmpStr line issue3 = true) (hname : fixName line = line) :
    fix3 = fixedLine firstfreet line ↔ line = issue3 := by
  constructor
  · intro heq
    have hle := length_fixedLine firstfreet line
    rw [hname, ← heq] at hle
    rcases fixStore_cases line with ⟨hnone, -⟩ | ⟨front, rest, rfl, hstore⟩
    · rw [hnone] at h
      cases h
    · rw [hstore, List.length_append, List.length_append] at hle
      have hfront : front = [] := List.length_eq_zero_iff.mp (by omega)
      have hrest : rest = [] := List.length_eq_zero_iff.mp (by omega)
      rw [hfront, hrest, List.nil_append, List.append_nil]
  · rintro rfl
    have hstored : fixStore issue3 = fix3 := by decide
    have hkept : replaceT (freeTPrefix firstfreet) fix3 = fix3 := replaceT_of_not_cmpStr (by decide)
    rw [fixedLine, hname, hstored, hkept]
    decide

/-- The line end stands behind the expression only if nothing stands before it. -/
theorem eq_of_append_end {m front more : Line} {e : Char} (hne : m ≠ []) (he : e ∉ m)
    (h : m ++ [e] = front ++ m ++ more) : front = [] ∧ more = [e] := by
  have hlength := congrArg List.length h
  simp only [List.length_append, List.length_singleton] at hlength
  cases front with
  | nil =>
    rw [List.nil_append, List.append_cancel_left_eq] at h
    exact ⟨rfl, h.symm⟩
  | cons c front =>
    rw [List.length_cons] at hlength
    have hfront : front = [] := List.length_eq_zero_iff.mp (by omega)
    have hmore : more = [] := List.length_eq_zero_iff.mp (by omega)
    obtain ⟨d, m, rfl⟩ := List.exists_cons_of_ne_nil hne
    rw [hfront, hmore, List.append_nil, List.singleton_append, List.cons_append,
      List.cons.injEq] at h
    have hmem : e ∈ d :: m := by
      rw [← h.2]
      simp
    exact absurd hmem he

/-- Only a line that is the expression and its end is replaced by `fix5` rightly. -/
theorem mute_iff (h : cmpStrWild line issue5 = true) :
    fix5 = fixMute line ↔ ∃ digits, digits.length = 4 ∧
      line = muteStart ++ digits ++ [')', '\n'] := by
  have hfix5 : fix5 = muteFixed ++ ['\n'] := by decide
  constructor
  · intro heq
    obtain ⟨front, rest, hfirst⟩ : ∃ front rest,
        FirstAt (fun t => matchesAt t issue5) line front rest := by
      rcases firstAt_or (fun t => matchesAt t issue5) line with hfirst | ⟨hnone, -⟩
      · exact hfirst
      · obtain ⟨i, hi, hlt⟩ := cmpStrWild_iff.mp h
        rw [← matchesFrom_drop, ← matchesAt_iff] at hi
        have hne : line.drop i ≠ [] := by
          rw [Ne, List.drop_eq_nil_iff]
          omega
        rw [hnone (line.take i) (line.drop i) (List.take_append_drop i line).symm hne] at hi
        cases hi
    obtain ⟨digits, more, hdigits, hrest⟩ := matchesAt_issue5_iff.mp hfirst.found
    have hdrop : rest.drop muteFixed.length = more := by rw [hrest, drop_match hdigits]
    rw [fixMute_of_firstAt hfirst, hdrop, hfix5] at heq
    obtain ⟨hfront, hmore⟩ := eq_of_append_end (by decide) (by decide) heq
    refine ⟨digits, hdigits, ?_⟩
    rw [hfirst.split, hfront, hrest, hmore, List.nil_append]
  · rintro ⟨digits, hdigits, rfl⟩
    have hfound : matchesAt (muteStart ++ digits ++ [')', '\n']) issue5 = true :=
      matchesAt_issue5_iff.mpr ⟨digits, ['\n'], hdigits, rfl⟩
    have hfirst : FirstAt (fun t => matchesAt t issue5) (muteStart ++ digits ++ [')', '\n']) []
        (muteStart ++ digits ++ [')', '\n']) :=
      ⟨rfl, by simp, hfound, fun xs ys hxs hys => absurd (List.append_eq_nil_iff.mp hxs.symm).2 hys⟩
    rw [fixMute_of_firstAt hfirst, drop_match hdigits, List.nil_append, hfix5]

theorem cmpStrWild_of_mute (h : ∃ digits, digits.length = 4 ∧
    line = muteStart ++ digits ++ [')', '\n']) : cmpStrWild line issue5 = true := by
  obtain ⟨digits, hdigits, rfl⟩ := h
  refine cmpStrWild_iff.mpr ⟨0, matchesAt_iff.mp (matchesAt_issue5_iff.mpr
    ⟨digits, ['\n'], hdigits, rfl⟩), ?_⟩
  have hterm : issue5.length = muteStart.length + 5 := by decide
  simp only [List.length_append, hdigits, hterm, List.length_cons, List.length_nil]
  omega

theorem fixedLine_of_plain (hname : cmpStr line issue1 = false) (hstore : cmpStr line issue3 = false)
    (hnames : cmpStr line issue4 = false) : fixedLine firstfreet line = fixMute line := by
  rw [fixedLine, fixName_of_not_cmpStr hname, fixStore_of_not_cmpStr hstore,
    replaceT_of_not_cmpStr hnames]

theorem FixesAlone.lineFixed (h : FixesAlone firstfreet line) : LineFixed firstfreet line := by
  rw [lineFixed_iff_format]
  cases h with
  | name front rest hsplit hfirst hfits hpercent hclean =>
    have hfound : cmpStr line issue1 = true := cmpStr_iff.mpr ⟨front, rest, hsplit.symm⟩
    have hname := fixName_of_split hfirst hsplit
    rw [lineFormat, if_pos hfound, name_iff hsplit hname, dropAsterisk,
      List.mem_erase_of_ne (by decide)]
    exact ⟨fun _ => hfits, hpercent, hfirst, hclean⟩
  | store hline =>
    subst hline
    have hformat : lineFormat firstfreet issue3 = fix3 := by
      rw [lineFormat, if_neg (by decide), if_neg (by decide), fixed, if_pos (by decide)]
    rw [hformat, store_iff (by decide) (by decide)]
    exact ⟨fun h => absurd h (by decide), by decide, rfl⟩
  | names hname hprocessor hstore hnames hpercent hmute =>
    have hformat : lineFormat firstfreet line = replaceT (freeTPrefix firstfreet) line := by
      simp [lineFormat, fixed, hname, hprocessor, hstore, hnames]
    rw [hformat, mem_replaceT_iff (by decide) rfl, fixedLine, fixName_of_not_cmpStr hname,
      fixStore_of_not_cmpStr hstore, fixMute_eq_self_iff.mpr hmute]
    exact ⟨fun h => by simp [hname] at h, hpercent, rfl⟩
  | mute hline hname hprocessor hstore hnames =>
    have hwild := cmpStrWild_of_mute hline
    have hformat : lineFormat firstfreet line = fix5 := by
      rw [lineFormat, hname, hprocessor, if_neg Bool.false_ne_true, if_neg Bool.false_ne_true, fixed,
        hstore, hnames, if_neg Bool.false_ne_true, if_neg Bool.false_ne_true, hwild, Bool.true_and]
      cases hfix5 : cmpStr line fix5 with
      | true =>
        have hlength : fix5.length = line.length := by
          obtain ⟨digits, hdigits, rfl⟩ := hline
          have hstart : fix5.length = muteStart.length + 6 := by decide
          simp only [List.length_append, hdigits, hstart, List.length_cons, List.length_nil]
        exact ((cmpStr_iff.mp hfix5).eq_of_length hlength).symm
      | false => rfl
    rw [hformat, fixedLine_of_plain hname hstore hnames, (mute_iff hwild).mpr hline]
    refine ⟨fun h => by simp [hname] at h, ?_, rfl⟩
    rw [← (mute_iff hwild).mpr hline]
    decide
  | unchanged hname hpercent hclean hkept =>
    have hformat : lineFormat firstfreet line = line := by
      rcases hkept with hprocessor | hmute
      · simp [lineFormat, hname, hprocessor]
      · rw [lineFormat, hname, if_neg Bool.false_ne_true, fixed, hclean.store, hclean.names, hmute]
        simp
    rw [hformat, fixedLine, fixName_of_not_cmpStr hname, fixedLine_eq_self_iff.mpr hclean]
    exact ⟨fun h => by simp [hname] at h, hpercent, rfl⟩

theorem fixes_expressions_iff (firstfreet : ℕ) (line : Line) :
    LineFixed firstfreet line ↔ FixesAlone firstfreet line := by
  refine ⟨fun h => ?_, FixesAlone.lineFixed⟩
  obtain ⟨hfits, hpercent, heq⟩ := lineFixed_iff_format.mp h
  cases hname : cmpStr line issue1 with
  | true =>
    rcases fixName_cases line with ⟨hnone, -⟩ | ⟨front, rest, hline, hfixed⟩
    · rw [hname] at hnone
      cases hnone
    · rw [lineFormat, if_pos hname] at hpercent heq
      obtain ⟨hfirst, hclean⟩ := (name_iff hline hfixed).mp heq
      rw [dropAsterisk, List.mem_erase_of_ne (by decide)] at hpercent
      exact .name front rest hline hfirst (hfits hname) hpercent hclean
  | false =>
    have hkept := fixName_of_not_cmpStr hname
    cases hprocessor : cmpStr line PROCESSOR with
    | true =>
      have hformat : lineFormat firstfreet line = line := by simp [lineFormat, hname, hprocessor]
      rw [hformat] at hpercent heq
      rw [fixedLine, hkept] at heq
      exact .unchanged hname hpercent (fixedLine_eq_self_iff.mp heq.symm) (.inl hprocessor)
    | false =>
      have hformat : lineFormat firstfreet line = fixed firstfreet line := by
        simp [lineFormat, hname, hprocessor]
      rw [hformat] at hpercent heq
      cases hstore : cmpStr line issue3 with
      | true =>
        rw [fixed, if_pos hstore, store_iff hstore hkept] at heq
        exact .store heq
      | false =>
        cases hnames : cmpStr line issue4 with
        | true =>
          simp only [fixed, hstore, hnames, if_true, Bool.false_eq_true, if_false] at hpercent heq
          rw [mem_replaceT_iff (by decide) rfl] at hpercent
          rw [fixedLine, hkept, fixStore_of_not_cmpStr hstore] at heq
          exact .names hname hprocessor hstore hnames hpercent (fixMute_eq_self_iff.mp heq.symm)
        | false =>
          rw [fixedLine_of_plain hname hstore hnames] at heq
          cases hmute : cmpStrWild line issue5 && !cmpStr line fix5 with
          | true =>
            simp only [fixed, hstore, hnames, hmute, if_true, Bool.false_eq_true, if_false] at heq
            exact .mute ((mute_iff (Bool.and_eq_true_iff.mp hmute).1).mp heq) hname hprocessor
              hstore hnames
          | false =>
            simp only [fixed, hstore, hnames, hmute, Bool.false_eq_true, if_false]
              at hpercent heq
            exact .unchanged hname hpercent ⟨hstore, hnames, fixMute_eq_self_iff.mp heq.symm⟩
              (.inr hmute)

end Written

def storeLine : Line := "    Store (Local0, Local0)\n".toList
def twoIssues : Line := "Store (Arg0, _T_0) Acquire (MUTE, 0x0000)\n".toList

/-- A store loses its indentation and its line end, and of two fixes a line gets one. -/
theorem storeLine_not_fixed :
    lineFormat 0 storeLine = "Store (\"Local0\", Local0)".toList ∧
      fixedLine 0 storeLine = "    Store (\"Local0\", Local0)\n".toList ∧
      ¬ LineFixed 0 storeLine ∧
      lineFormat 0 twoIssues = "Store (Arg0, T0_0) Acquire (MUTE, 0x0000)\n".toList ∧
      fixedLine 0 twoIssues = "Store (Arg0, T0_0) Acquire (MUTE, 0xFFFF)\n".toList ∧
      ¬ LineFixed 0 twoIssues := by
  have hstore : lineFormat 0 storeLine ≠ fixedLine 0 storeLine := by decide +kernel
  have htwo : lineFormat 0 twoIssues ≠ fixedLine 0 twoIssues := by decide +kernel
  refine ⟨by decide +kernel, by decide +kernel, fun h => ?_, by decide +kernel, by decide +kernel,
    fun h => ?_⟩
  · exact hstore (lineFixed_iff_format.mp h).2.2
  · exact htwo (lineFixed_iff_format.mp h).2.2

end Dsdt
