import NetbookInstaller.Dsdt.Verbatim
import NetbookInstaller.Text.Replacement

/-! Texts with processors that have an alias each: what the alias fix of `patchVarious` is
to make of them, and of which it does. -/
namespace Dsdt

open Transition Replacement

/-- The other fixes of `patchVarious` do not apply to the line. -/
structure NoOtherFix (line : Line) : Prop where
  deviceName : cmpStr line issue1 = false
  store : cmpStr line issue3 = false
  names : cmpStr line issue4 = false
  mute : cmpStrWild line issue5 = false

/-- None of the patterns of `patchVarious`. -/
structure PlainLine (line : Line) : Prop extends NoOtherFix line where
  noProcessor : cmpStr line PROCESSOR = false
  noAlias : cmpStr line issue2 = false

structure ProcessorLine (line : Line) : Prop extends NoOtherFix line where
  processor : cmpStr line PROCESSOR = true
  noAlias : cmpStr line issue2 = false

/-- `Alias (name, name2)`, with anything before and behind it. -/
structure AliasLine (name name2 line : Line) : Prop extends NoOtherFix line where
  noProcessor : cmpStr line PROCESSOR = false
  shape : ∃ front behind, line = front ++ issue2 ++ name ++ [',', ' '] ++ name2 ++ ')' :: behind ∧
    '(' ∉ front
  comma : ',' ∉ name
  parenthesis : ')' ∉ name2
  nonempty : name2 ≠ []

/-- A text in which every processor is directly followed by its alias, and the text without
these aliases: in what follows an alias, the name of the processor stands for it. -/
inductive Aliased : List Line → List Char → Prop
  | plain {lines : List Line} (h : ∀ line ∈ lines, PlainLine line) : Aliased lines lines.flatten
  | pair {front rest : List Line} {processor line name name2 : Line} {expected : List Char}
      (hfront : ∀ line ∈ front, PlainLine line) (hprocessor : ProcessorLine processor)
      (hline : AliasLine name name2 line) (h : Aliased rest expected) :
      Aliased (front ++ processor :: line :: rest)
        (front.flatten ++ processor ++ replaceAll name2 name expected)

/-- Whatever the C program leaves open, it comes to an end with the expected file. -/
def AliasesFixed (lines : List Line) (expected : List Char) : Prop :=
  ∀ u memory, ∃ t, Evaluates (VariousPass.step u) (VariousPass.start lines.flatten memory) t ∧
    t.output = expected

section Lines

theorem takeWhile_ne_append {c : Char} {m : List Char} (hm : c ∉ m) (s : List Char) :
    (m ++ c :: s).takeWhile (· ≠ c) = m := by
  have hall : ∀ d ∈ m, decide (d ≠ c) = true := by
    intro d hd
    rw [decide_eq_true_iff]
    rintro rfl
    exact hm hd
  rw [List.takeWhile_append_of_pos hall]
  simp

theorem dropWhile_ne_append {c : Char} {m : List Char} (hm : c ∉ m) (s : List Char) :
    (m ++ c :: s).dropWhile (· ≠ c) = c :: s := by
  have hall : ∀ d ∈ m, decide (d ≠ c) = true := by
    intro d hd
    rw [decide_eq_true_iff]
    rintro rfl
    exact hm hd
  rw [List.dropWhile_append_of_pos hall]
  simp

/-- Two texts are the same up to their first separator and behind it. -/
theorem append_cons_inj {c : Char} {a m s t : List Char} (ha : c ∉ a) (hm : c ∉ m)
    (h : a ++ c :: s = m ++ c :: t) : a = m ∧ s = t := by
  have hfront := congrArg (List.takeWhile (· ≠ c)) h
  have hbehind := congrArg (List.dropWhile (· ≠ c)) h
  rw [takeWhile_ne_append ha, takeWhile_ne_append hm] at hfront
  rw [dropWhile_ne_append ha, dropWhile_ne_append hm] at hbehind
  exact ⟨hfront, (List.cons.inj hbehind).2⟩

theorem AliasLine.isAlias {name name2 line : Line} (h : AliasLine name name2 line) :
    cmpStr line issue2 = true := by
  obtain ⟨front, behind, rfl, -⟩ := h.shape
  rw [cmpStr_iff]
  refine ⟨front, name ++ [',', ' '] ++ name2 ++ ')' :: behind, ?_⟩
  simp only [List.append_assoc]

/-- The second name comes with whatever stands behind it in the memory. -/
theorem AliasLine.aliasNames {name name2 line : Line} (h : AliasLine name name2 line)
    (u : Unspecified) : (aliasNames u line).2 = name2 ++ u.junk2.toList := by
  obtain ⟨front, behind, rfl, hfront⟩ := h.shape
  have hopen : '(' ∉ front ++ "Alias ".toList := by
    rw [List.mem_append, not_or]
    exact ⟨hfront, by decide⟩
  have hsplit : front ++ issue2 ++ name ++ [',', ' '] ++ name2 ++ ')' :: behind =
      (front ++ "Alias ".toList) ++ '(' :: (name ++ (',' :: ' ' :: (name2 ++ ')' :: behind))) := by
    have hissue : issue2 = "Alias ".toList ++ ['('] := by decide
    rw [hissue]
    simp
  have hdrop : (name ++ (',' :: ' ' :: (name2 ++ ')' :: behind))).drop (name.length + 2) =
      name2 ++ ')' :: behind := by
    rw [← List.drop_drop, List.drop_left]
    rfl
  unfold Dsdt.aliasNames
  dsimp only
  rw [hsplit, dropWhile_ne_append hopen, List.tail_cons, takeWhile_ne_append h.comma, hdrop,
    takeWhile_ne_append h.parenthesis]
  simp

theorem NoOtherFix.fixed {line : Line} (h : NoOtherFix line) (n : ℕ) : fixed n line = line := by
  simp [Dsdt.fixed, h.store, h.names, h.mute]

theorem Aliased.noOtherFix {lines : List Line} {expected : List Char} (h : Aliased lines expected) :
    ∀ line ∈ lines, NoOtherFix line := by
  induction h with
  | plain h => exact fun line hl => (h line hl).toNoOtherFix
  | pair hfront hprocessor hline _ ih =>
    intro l hl
    rcases List.mem_append.mp hl with hl | hl
    · exact (hfront l hl).toNoOtherFix
    · rcases List.mem_cons.mp hl with rfl | hl
      · exact hprocessor.toNoOtherFix
      · rcases List.mem_cons.mp hl with rfl | hl
        · exact hline.toNoOtherFix
        · exact ih l hl

theorem lastRead_append (b : Line) (lines more : List Line) :
    lastRead b (lines ++ more) = lastRead (lastRead b lines) more := by
  induction lines generalizing b with
  | nil => rfl
  | cons line lines ih => exact ih line

/-- The last line is not that of a processor. -/
theorem Aliased.lastRead {lines : List Line} {expected : List Char} (h : Aliased lines expected)
    {b : Line} (hb : cmpStr b PROCESSOR = false) :
    cmpStr (lastRead b lines) PROCESSOR = false := by
  induction h generalizing b with
  | plain h =>
    rename_i lines
    by_cases hnil : lines = []
    · rw [hnil]
      exact hb
    · exact (h _ (lastRead_mem b hnil)).noProcessor
  | pair _ _ hline _ ih =>
    rw [lastRead_append]
    exact ih hline.noProcessor

end Lines

section Shifted
variable {L X Y : List Char} {F : List Line}

/-- Terminated lines that are the same one line further on are all the same. -/
theorem all_eq_of_shifted (hF : ∀ f ∈ F, ∃ m, '\n' ∉ m ∧ f = m ++ ['\n']) (hL : L ≠ [])
    (hline : ∃ m, '\n' ∉ m ∧ (L = m ∨ L = m ++ ['\n']))
    (h : L ++ (F.flatten ++ X) = F.flatten ++ Y) : ∀ f ∈ F, f = L := by
  induction F with
  | nil => simp
  | cons f F ih =>
    obtain ⟨m, hm, rfl⟩ := hF f List.mem_cons_self
    obtain ⟨a, ha, hend⟩ := hline
    simp only [List.flatten_cons, List.append_assoc, List.cons_append, List.nil_append] at h
    rcases hend with rfl | rfl
    · -- without a line end the line would be in front of the first one
      rw [← List.append_assoc] at h
      have hnone := (append_cons_inj (by simp [ha, hm]) hm h).1
      exact absurd (List.append_left_eq_self.mp hnone) hL
    · rw [List.append_assoc, List.singleton_append] at h
      obtain ⟨rfl, hrest⟩ := append_cons_inj ha hm h
      intro g hg
      rcases List.mem_cons.mp hg with rfl | hg
      · rfl
      · refine ih (fun f hf => hF f (List.mem_cons_of_mem _ hf)) ?_ g hg
        rw [← hrest]
        simp

end Shifted

namespace VariousPass

variable {u : Unspecified} {s : VariousPass}

@[simp] theorem output_store (s : VariousPass) (line : Line) (rest : List Line) :
    (s.store line rest).output = s.output := rfl

theorem fprintf_copy {line : Line} (hpercent : '%' ∉ line) : s.fprintf u line = s.append line := by
  rw [fprintf_eq, printed_of_notMem hpercent]

/-- A line of no other fix is written as it is. -/
theorem fixLine_copy {line : Line} (h : NoOtherFix line) (hpercent : '%' ∉ line) :
    s.fixLine u line = s.append line := by
  rw [fixLine_eq, h.fixed, printed_of_notMem hpercent]

/-- Without a pair the outer loop copies the lines; that of a processor at the end comes twice. -/
theorem evaluates_outer_noPair {lines : List Line} (hpc : s.pc = .outer) (hrest : s.rest = lines)
    (hpairs : meetsPair lines = false) (hlines : ∀ line ∈ lines, NoOtherFix line ∧ '%' ∉ line) :
    ∃ t more, Evaluates (step u) s t ∧ t.output = s.output ++ (lines.flatten ++ more) := by
  induction hlength : lines.length using Nat.strong_induction_on generalizing lines s with
  | _ n ih =>
    rcases lines with - | ⟨line, rest⟩
    · exact ⟨s, [], .halt (by simp only [step, hpc, hrest]), by simp⟩
    · obtain ⟨hline, hpercent⟩ := hlines line List.mem_cons_self
      have hfirst : step u s = some (s.outerStep u line rest) := by simp only [step, hpc, hrest]
      by_cases hprocessor : cmpStr line PROCESSOR = true
      · rcases rest with - | ⟨line', rest⟩
        · have hstep : s.outerStep u line [] = ((s.store line []).append line).append line := by
            unfold outerStep
            dsimp only
            rw [hline.deviceName, hprocessor, fixLine_copy hline hpercent,
              fprintf_copy hpercent]
            rfl
          refine ⟨_, line, .next hfirst (.halt ?_), ?_⟩
          · rw [hstep]
            simp only [step, append_pc, append_rest, store_pc, store_rest, hpc]
          · rw [hstep]
            simp
        · obtain ⟨hline', hpercent'⟩ :=
            hlines line' (List.mem_cons_of_mem _ List.mem_cons_self)
          rw [meetsPair, if_neg (by rw [hline.deviceName]; simp), if_pos hprocessor] at hpairs
          have hnot : cmpStr line' issue2 = false := by
            by_contra hfound
            rw [if_pos (Bool.not_eq_false _ ▸ hfound)] at hpairs
            cases hpairs
          rw [if_neg (by rw [hnot]; simp)] at hpairs
          have hstep : s.outerStep u line (line' :: rest) =
              (((s.store line (line' :: rest)).append line).store line' rest).append line' := by
            unfold outerStep
            dsimp only
            rw [hline.deviceName, hprocessor, hnot, fixLine_copy hline' hpercent',
              fprintf_copy hpercent]
            rfl
          rw [hstep] at hfirst
          have hless : rest.length < n := by
            simp only [← hlength, List.length_cons]
            omega
          obtain ⟨t, more, ht, houtput⟩ := ih rest.length hless
            (s := (((s.store line (line' :: rest)).append line).store line' rest).append line')
            (by rw [append_pc, store_pc, append_pc]; exact hpc) (by rw [append_rest]; rfl) hpairs
            (fun l hl => hlines l (List.mem_cons_of_mem _ (List.mem_cons_of_mem _ hl))) rfl
          refine ⟨t, more, .next hfirst ht, houtput.trans ?_⟩
          simp
      · have hnot : cmpStr line PROCESSOR = false := Bool.not_eq_true _ ▸ hprocessor
        have hstep : s.outerStep u line rest = (s.store line rest).append line := by
          rw [outerStep_of_plain hline.deviceName hnot, hline.fixed, printed_of_notMem hpercent]
        rw [hstep] at hfirst
        rw [meetsPair_cons (.inr hnot)] at hpairs
        obtain ⟨t, more, ht, houtput⟩ := ih rest.length (by simp [← hlength])
          (s := (s.store line rest).append line) (by rw [append_pc]; exact hpc)
          (by rw [append_rest]; rfl) hpairs
          (fun l hl => hlines l (List.mem_cons_of_mem _ hl)) rfl
        refine ⟨t, more, .next hfirst ht, houtput.trans ?_⟩
        simp

/-- The string in the buffer after a line has been read. -/
theorem line_store {line : Line} (h : '\x00' ∉ line) (rest : List Line) :
    (s.store line rest).line = line := takeWhile_ne_append h _

/-- A name with a percent sign is not found, so the rest of the file is copied. -/
theorem reaches_replaced {b : Line} {lines : List Line} (hpc : s.pc = .replacing)
    (hreopened : s.reopened = false) (hrest : s.rest = lines) (hname : '%' ∈ s.aliasName2)
    (hline : s.line = b) (hlines : ∀ line ∈ lines, '%' ∉ line ∧ '\x00' ∉ line) :
    ∃ t, Reaches (step u) s t ∧ t.pc = .replacing ∧ t.reopened = false ∧ t.rest = [] ∧
      t.latest = s.latest ++ lines.flatten ∧ t.line = lastRead b lines := by
  induction lines generalizing s b with
  | nil => exact ⟨s, .refl s, hpc, hreopened, hrest, by simp, hline⟩
  | cons line lines ih =>
    obtain ⟨hpercent, hnul⟩ := hlines line List.mem_cons_self
    have hnot : cmpStr line s.aliasName2 = false := by
      rw [Bool.eq_false_iff]
      intro hfound
      exact hpercent ((cmpStr_iff.mp hfound).subset hname)
    have hread : s.replacingStep u line lines = (s.store line lines).append line := by
      have hkept : (s.store line lines).line = line := line_store hnul lines
      unfold replacingStep
      dsimp only
      rw [show (s.store line lines).aliasName2 = s.aliasName2 from rfl, hnot]
      simp only [Bool.false_eq_true, if_false]
      rw [hkept, fprintf_copy hpercent]
    have happend : (s.store line lines).append line =
        { s.store line lines with latest := s.latest ++ line } := by
      unfold append
      rw [if_neg (by rw [show (s.store line lines).reopened = s.reopened from rfl, hreopened]
                     simp)]
      rfl
    have hfirst : step u s = some { s.store line lines with latest := s.latest ++ line } := by
      simp only [step, hpc, hrest]
      rw [hread, happend]
    obtain ⟨t, ht, hpc', hreopened', hrest', hlatest, hlast⟩ :=
      ih (s := { s.store line lines with latest := s.latest ++ line }) hpc hreopened rfl hname
        (line_store hnul lines) fun l hl => hlines l (List.mem_cons_of_mem _ hl)
    exact ⟨t, .head hfirst ht, hpc', hreopened', hrest', by simp [hlatest], hlast⟩

/-- The line in the buffer is written first to the file that is opened then. -/
theorem reopen_output {line : Line} (hline : s.line = line) (hfix : NoOtherFix line)
    (hpercent : '%' ∉ line) : (s.reopen u).output = line := by
  have hkept : VariousPass.line { s with
      pc := .outer, reopened := true, rest := buffers s.latest, latest2 := [] } = line := hline
  unfold reopen
  dsimp only
  rw [hkept, fixLine_copy hfix hpercent, output_append]
  exact List.nil_append _

/-- The run up to the second reading: of a text without the line of its first alias, with a
copy of the last line in front. -/
theorem reaches_reopened {front rest : List Line} {processor line name name2 : Line}
    (hjunk : u.junk2 = some '%') (memory : List Char)
    (hbuffers : buffers (front ++ processor :: line :: rest).flatten =
      front ++ processor :: line :: rest)
    (hfront : ∀ l ∈ front, PlainLine l) (hprocessor : ProcessorLine processor)
    (hline : AliasLine name name2 line) (hlast : NoOtherFix (lastRead line rest))
    (hclean : ∀ l ∈ front ++ processor :: line :: rest, '%' ∉ l ∧ '\x00' ∉ l) :
    ∃ t, Reaches (step u) (start (front ++ processor :: line :: rest).flatten memory) t ∧
      t.pc = .outer ∧ t.reopened = true ∧ t.latest = (front ++ processor :: rest).flatten ∧
      t.rest = buffers (front ++ processor :: rest).flatten ∧ t.output = lastRead line rest := by
  have hcleanFront : ∀ l ∈ front, '%' ∉ l := fun l hl => (hclean l (List.mem_append_left _ hl)).1
  have hcleanPair := fun l hl => hclean l (List.mem_append_right front hl)
  obtain ⟨hcleanProcessor, hcleanLine, hcleanRest⟩ :
      ('%' ∉ processor ∧ '\x00' ∉ processor) ∧ ('%' ∉ line ∧ '\x00' ∉ line) ∧
        ∀ l ∈ rest, '%' ∉ l ∧ '\x00' ∉ l := by
    simpa only [List.forall_mem_cons] using hcleanPair
  obtain ⟨n, hn⟩ := exists_firstFree (buffers (front ++ processor :: line :: rest).flatten)
  obtain ⟨b, hfree⟩ := reaches_firstFree (u := u) memory hn
  obtain ⟨b', hcopied⟩ := reaches_outer_lines (u := u)
    (s := { start (front ++ processor :: line :: rest).flatten memory with
      pc := .outer, buffer := b, firstfreet := n }) rfl hbuffers
    fun l hl => ⟨(hfront l hl).deviceName, (hfront l hl).noProcessor⟩
  have hfixed : front.map (Dsdt.fixed n) = front :=
    (List.map_congr_left fun l hl => (hfront l hl).fixed n).trans (List.map_id _)
  generalize hs : append _ _ = s at hcopied
  have hpc : s.pc = .outer := by rw [← hs, append_pc]
  have hreopened : s.reopened = false := by rw [← hs, append_reopened]; rfl
  have hrest : s.rest = processor :: line :: rest := by rw [← hs, append_rest]
  have hlatest : s.latest = front.flatten := by
    rw [← hs]
    show [] ++ printedFile u (front.map (Dsdt.fixed n)) = front.flatten
    rw [hfixed, printedFile_of_notMem hcleanFront]
    rfl
  -- the line of the processor is written, the line of the alias is not
  have hpair : step u s = some { (((s.store processor (line :: rest)).append processor).store
      line rest) with
        pc := .replacing
        aliasName := (aliasNames u line).1
        aliasName2 := (aliasNames u line).2 } := by
    simp only [step, hpc, hrest]
    unfold outerStep
    dsimp only
    rw [hprocessor.deviceName, hprocessor.processor, hline.isAlias,
      fprintf_copy hcleanProcessor.1]
    rfl
  have happend : (s.store processor (line :: rest)).append processor =
      { s.store processor (line :: rest) with latest := s.latest ++ processor } := by
    unfold append
    rw [if_neg (by rw [show (s.store processor (line :: rest)).reopened = s.reopened from rfl,
                     hreopened]
                   simp)]
    rfl
  rw [happend] at hpair
  have hname : '%' ∈ (aliasNames u line).2 := by
    rw [hline.aliasNames, hjunk]
    exact List.mem_append_right _ List.mem_cons_self
  obtain ⟨t, ht, hpc', hreopened', hrest', hlatest', hkept⟩ :=
    reaches_replaced (u := u) (s := { ({ s.store processor (line :: rest) with
        latest := s.latest ++ processor } : VariousPass).store line rest with
          pc := .replacing
          aliasName := (aliasNames u line).1
          aliasName2 := (aliasNames u line).2 }) rfl hreopened rfl hname
      (line_store hcleanLine.2 rest) hcleanRest
  have hreopen : step u t = some (t.reopen u) := by simp only [step, hpc', hrest']
  obtain ⟨hpc'', -, hreopened'', hrest'', hlatest''⟩ := reopen_spec (u := u) t
  have hfile : t.latest = (front ++ processor :: rest).flatten := by
    rw [hlatest']
    show s.latest ++ processor ++ rest.flatten = _
    rw [hlatest]
    simp
  have hlastClean : '%' ∉ lastRead line rest := by
    by_cases hnil : rest = []
    · rw [hnil]
      exact hcleanLine.1
    · exact (hcleanRest _ (lastRead_mem line hnil)).1
  refine ⟨t.reopen u, ?_, hpc'', hreopened'', hlatest''.trans hfile, ?_,
    reopen_output hkept hlast hlastClean⟩
  · exact (hfree.trans hcopied).trans
      ((reaches_step hpair).trans (ht.trans (reaches_step hreopen)))
  · rw [hrest'', hfile]

/-- Without a pattern the lines are printed as they are. -/
theorem plain_copies {lines : List Line} (u : Unspecified) (memory : List Char)
    (hbuffers : buffers lines.flatten = lines) (h : ∀ line ∈ lines, PlainLine line) :
    ∃ t, Evaluates (step u) (start lines.flatten memory) t ∧
      t.output = printedFile u (buffers lines.flatten) := by
  obtain ⟨n, hn⟩ := exists_firstFree (buffers lines.flatten)
  obtain ⟨b, hfree⟩ := reaches_firstFree (u := u) memory hn
  obtain ⟨t, ht, -, houtput⟩ := evaluates_outer_lines (u := u)
    (s := { start lines.flatten memory with pc := .outer, buffer := b, firstfreet := n }) rfl
    fun line hl => by
      have hplain := h line (hbuffers ▸ hl)
      exact ⟨hplain.deviceName, hplain.noProcessor⟩
  have hfixed : (buffers lines.flatten).map (Dsdt.fixed n) = buffers lines.flatten :=
    (List.map_congr_left fun l hl => (h l (hbuffers ▸ hl)).fixed n).trans (List.map_id _)
  refine ⟨t, hfree.evaluates.mpr ht, houtput.trans ?_⟩
  exact congrArg (printedFile u) hfixed

end VariousPass

section Structured
variable {front rest : List Line} {x y : Line} {lines : List Line}

theorem LineStructured.tail (h : LineStructured (x :: lines)) : LineStructured lines := by
  cases h with
  | last => exact .nil
  | cons _ _ _ h => exact h

theorem LineStructured.terminated (h : LineStructured (front ++ y :: rest)) :
    ∀ f ∈ front, ∃ m, '\n' ∉ m ∧ f = m ++ ['\n'] := by
  induction front with
  | nil => simp
  | cons f front ih =>
    intro g hg
    rcases List.mem_cons.mp hg with rfl | hg
    · rw [List.cons_append] at h
      generalize hmore : front ++ y :: rest = more at h
      cases h with
      | last => simp at hmore
      | cons m hnewline => exact ⟨m, hnewline, rfl⟩
    · exact ih h.tail g hg

theorem LineStructured.shape (h : LineStructured lines) :
    ∀ l ∈ lines, l ≠ [] ∧ ∃ m, '\n' ∉ m ∧ (l = m ∨ l = m ++ ['\n']) := by
  induction h with
  | nil => simp
  | last hne hnewline =>
    intro l hl
    rw [List.mem_singleton.mp hl]
    exact ⟨hne, _, hnewline, .inl rfl⟩
  | cons m hnewline _ _ ih =>
    intro l hl
    rcases List.mem_cons.mp hl with rfl | hl
    · exact ⟨by simp, m, hnewline, .inr rfl⟩
    · exact ih l hl

/-- A line that others precede can be left out. -/
theorem LineStructured.drop (h : LineStructured (front ++ x :: y :: rest)) :
    LineStructured (front ++ x :: rest) := by
  induction front with
  | nil =>
    rw [List.nil_append] at h ⊢
    cases h with
    | cons m hnewline hlength h => exact .cons m hnewline hlength h.tail
  | cons f front ih =>
    rw [List.cons_append] at h ⊢
    generalize hmore : front ++ x :: y :: rest = more at h
    cases h with
    | last => simp at hmore
    | cons m hnewline hlength h =>
      subst hmore
      exact .cons m hnewline hlength (ih h)

end Structured

section Pair
variable {front rest : List Line} {processor line name name2 : Line} {expected : List Char}

/-- A text with a pair does not become one that starts like it. -/
theorem not_aliasesFixed (more : List Char) (hfront : ∀ l ∈ front, PlainLine l)
    (hprocessor : ProcessorLine processor) (hline : AliasLine name name2 line)
    (hrest : Aliased rest expected)
    (hlines : LineStructured (front ++ processor :: line :: rest))
    (hnul : '\x00' ∉ (front ++ processor :: line :: rest).flatten)
    (hpercent : '%' ∉ (front ++ processor :: line :: rest).flatten) :
    ¬ AliasesFixed (front ++ processor :: line :: rest)
      ((front ++ [processor]).flatten ++ more) := by
  intro hfixed
  have hclean : ∀ l ∈ front ++ processor :: line :: rest, '%' ∉ l ∧ '\x00' ∉ l := fun l hl =>
    ⟨fun hc => hpercent (List.mem_flatten.mpr ⟨l, hl, hc⟩),
      fun hc => hnul (List.mem_flatten.mpr ⟨l, hl, hc⟩)⟩
  have hlast : lastRead line rest ∈ line :: rest := lastRead_mem [] (List.cons_ne_nil line rest)
  have hall := (Aliased.pair hfront hprocessor hline hrest).noOtherFix
  have hkept : ∀ l ∈ front ++ processor :: rest, l ∈ front ++ processor :: line :: rest := by
    intro l hl
    rcases List.mem_append.mp hl with hl | hl
    · exact List.mem_append_left _ hl
    · rcases List.mem_cons.mp hl with rfl | hl
      · exact List.mem_append_right _ List.mem_cons_self
      · exact List.mem_append_right _ (List.mem_cons_of_mem _ (List.mem_cons_of_mem _ hl))
  have hin : lastRead line rest ∈ front ++ processor :: line :: rest :=
    List.mem_append_right _ (List.mem_cons_of_mem _ hlast)
  obtain ⟨s, hs, hpc, hreopened, hlatest, hread, houtput⟩ :=
    VariousPass.reaches_reopened (u := ⟨fun _ => [], none, some '%'⟩) rfl []
      hlines.buffers_flatten hfront hprocessor hline (hall _ hin) hclean
  have hbuffers := hlines.drop.buffers_flatten
  obtain ⟨t, ht, hfile⟩ := hfixed ⟨fun _ => [], none, some '%'⟩ []
  by_cases hpairs : meetsPair (front ++ processor :: rest) = true
  · -- another pair is met again and again
    refine VariousPass.halts_iff.mp ⟨t, ht⟩ s hs ⟨hreopened, ?_, .inr ⟨hpc, ?_⟩⟩
    · rw [hlatest, hbuffers, hpairs]
    · rw [hread, hbuffers, hpairs]
  · obtain ⟨t', behind, ht', hcopied⟩ := VariousPass.evaluates_outer_noPair hpc
      (hread.trans hbuffers) (Bool.not_eq_true _ ▸ hpairs)
      fun l hl => ⟨hall l (hkept l hl), (hclean l (hkept l hl)).1⟩
    rw [ht.unique (hs.evaluates.mpr ht'), hcopied, houtput] at hfile
    -- the last line, which comes first, would be the line of the processor
    have hshifted : lastRead line rest ++ ((front ++ [processor]).flatten ++
        (rest.flatten ++ behind)) = (front ++ [processor]).flatten ++ more := by
      rw [← hfile]
      simp
    obtain ⟨hne, hshape⟩ := hlines.shape _ hin
    have hstructured : LineStructured ((front ++ [processor]) ++ line :: rest) := by
      simpa using hlines
    have hsame := all_eq_of_shifted hstructured.terminated hne hshape hshifted processor (by simp)
    have hno := hrest.lastRead hline.noProcessor
    rw [← hsame, hprocessor.processor] at hno
    cases hno

end Pair

/-- The alias fix leaves the expected file exactly if it has nothing to do and no line is
taken for a format. -/
theorem patchVarious_aliases_iff {lines : List Line} {expected : List Char}
    (h : Aliased lines expected) (hlines : LineStructured lines) (hnul : '\x00' ∉ lines.flatten)
    (hmixed : (∃ line ∈ lines, cmpStr line PROCESSOR = true) → '%' ∉ lines.flatten) :
    AliasesFixed lines expected ↔
      (∀ line ∈ lines, cmpStr line PROCESSOR = false) ∧ '%' ∉ lines.flatten := by
  cases h with
  | plain h =>
    have hno : ∀ line ∈ lines, cmpStr line PROCESSOR = false := fun l hl => (h l hl).noProcessor
    rw [and_iff_right hno]
    have hcopies := fun memory => evaluates_printed_iff fun u =>
      VariousPass.plain_copies u memory hlines.buffers_flatten h
    constructor
    · intro hfixed
      exact (hcopies []).mp fun u => hfixed u []
    · intro hpercent u memory
      exact (hcopies memory).mpr hpercent u
  | @pair front rest processor line name name2 expected hfront hprocessor hline hrest =>
    have hin : processor ∈ front ++ processor :: line :: rest :=
      List.mem_append_right _ List.mem_cons_self
    have hpercent := hmixed ⟨processor, hin, hprocessor.processor⟩
    constructor
    · intro hfixed
      have hstart : front.flatten ++ processor ++ replaceAll name2 name expected =
          (front ++ [processor]).flatten ++ replaceAll name2 name expected := by simp
      rw [hstart] at hfixed
      exact absurd hfixed
        (not_aliasesFixed _ hfront hprocessor hline hrest hlines hnul hpercent)
    · rintro ⟨hno, -⟩
      have hprocessorLine := hprocessor.processor
      rw [hno processor hin] at hprocessorLine
      cases hprocessorLine

def nameLine : Line := "Name (P000)\n".toList

theorem patchVarious_aliases_nameLine : AliasesFixed [nameLine] nameLine := by
  have hplain : PlainLine nameLine :=
    ⟨⟨by decide, by decide, by decide, by decide⟩, by decide, by decide⟩
  have haliased : Aliased [nameLine] [nameLine].flatten :=
    .plain fun line hl => List.mem_singleton.mp hl ▸ hplain
  have hstructured : LineStructured [nameLine] :=
    .cons "Name (P000)".toList (by decide) (by decide) .nil
  have hno : ∀ line ∈ [nameLine], cmpStr line PROCESSOR = false := by decide
  exact (patchVarious_aliases_iff haliased hstructured (by decide) fun _ => by decide).mpr
    ⟨hno, by decide⟩

def processorLine : Line := "Processor (CPU0)\n".toList
def aliasLine : Line := "Alias (CPU0, P000)\n".toList

/-- The last line comes out twice, once in front of the text. -/
theorem patchVarious_repeats_nameLine :
    Aliased [processorLine, aliasLine, nameLine] "Processor (CPU0)\nName (CPU0)\n".toList ∧
      (∃ t, Evaluates (VariousPass.step ⟨id, none, none⟩)
          (VariousPass.start [processorLine, aliasLine, nameLine].flatten []) t ∧
        t.output = "Name (CPU0)\nProcessor (CPU0)\nName (CPU0)\n".toList) ∧
      ¬ AliasesFixed [processorLine, aliasLine, nameLine]
        "Processor (CPU0)\nName (CPU0)\n".toList := by
  have hrun : ∃ t, Evaluates (VariousPass.step ⟨id, none, none⟩)
      (VariousPass.start [processorLine, aliasLine, nameLine].flatten []) t ∧
        t.output = "Name (CPU0)\nProcessor (CPU0)\nName (CPU0)\n".toList :=
    ⟨_, evaluates_of_evaluate (n := 10) rfl, by decide⟩
  refine ⟨?_, hrun, fun h => ?_⟩
  · have hplain : ∀ line ∈ [nameLine], PlainLine line := fun line hl =>
      List.mem_singleton.mp hl ▸
        ⟨⟨by decide, by decide, by decide, by decide⟩, by decide, by decide⟩
    have haliased : Aliased ([] ++ processorLine :: aliasLine :: [nameLine])
        ([].flatten ++ processorLine ++
          replaceAll "P000".toList "CPU0".toList [nameLine].flatten) :=
      .pair (by simp) ⟨⟨by decide, by decide, by decide, by decide⟩, by decide, by decide⟩
        ⟨⟨by decide, by decide, by decide, by decide⟩, by decide,
          ⟨[], ['\n'], by decide, by simp⟩, by decide, by decide, by decide⟩ (.plain hplain)
    exact haliased
  · obtain ⟨t, ht, houtput⟩ := hrun
    obtain ⟨t', ht', hfile⟩ := h ⟨id, none, none⟩ []
    rw [ht'.unique ht, houtput] at hfile
    exact absurd hfile (by decide)

end Dsdt
