import Mathlib.Data.List.Infix
import Mathlib.Data.List.Forall2

/-! Texts in which a pattern is replaced: the symbols that are kept and the places where the
pattern stood, whatever is written there. -/
namespace Replacement

variable {α : Type*}

/-- The pattern replaced by the word wherever it stands, from left to right; `skip` symbols of an
occurrence are still to be passed over. -/
def replaceFrom [BEq α] (pattern word : List α) : ℕ → List α → List α
  | _, [] => []
  | skip + 1, _ :: cs => replaceFrom pattern word skip cs
  | 0, c :: cs =>
    if pattern.isPrefixOf (c :: cs) then
      word ++ replaceFrom pattern word (pattern.length - 1) cs
    else c :: replaceFrom pattern word 0 cs

def replaceAll [BEq α] (pattern word text : List α) : List α := replaceFrom pattern word 0 text

/-- A text taken apart as `replaceAll` does it: the kept symbols and the occurrences. -/
def tokensFrom [BEq α] (pattern : List α) : ℕ → List α → List (Option α)
  | _, [] => []
  | skip + 1, _ :: cs => tokensFrom pattern skip cs
  | 0, c :: cs =>
    if pattern.isPrefixOf (c :: cs) then none :: tokensFrom pattern (pattern.length - 1) cs
    else some c :: tokensFrom pattern 0 cs

def tokens [BEq α] (pattern text : List α) : List (Option α) := tokensFrom pattern 0 text

/-- Where the words are written, if the text starts at index `i`. -/
def places (word : List α) : ℕ → List (Option α) → List ℕ
  | _, [] => []
  | i, none :: ts => i :: places word (i + word.length) ts
  | i, some _ :: ts => places word (i + 1) ts

/-- The first `n` symbols where the text `starts` as wanted replaced by the word. -/
def replaceFirst (starts : List α → Bool) (n : ℕ) (word : List α) : List α → List α
  | [] => []
  | c :: cs =>
    if starts (c :: cs) then word ++ (c :: cs).drop n else c :: replaceFirst starts n word cs

/-- A text that first `starts` as wanted behind `front`. -/
structure FirstAt (starts : List α → Bool) (text front rest : List α) : Prop where
  split : text = front ++ rest
  nonempty : rest ≠ []
  found : starts rest = true
  first : ∀ xs ys, front = xs ++ ys → ys ≠ [] → starts (ys ++ rest) = false

/-- A text with the word at each place. -/
def expand (word : List α) (tokens : List (Option α)) : List α :=
  tokens.flatMap fun t => t.elim word fun c => [c]

/-- A kept pattern `b a b`, of which a place may end with the first `b`. -/
def LeftOver (a b : α) (tokens : List (Option α)) : Prop :=
  ∃ t, (t = none ∨ t = some b) ∧ [t, some a, some b] <:+: tokens

section Expand
variable (word : List α) (c : α) (tokens : List (Option α))

@[simp] theorem expand_nil : expand word [] = [] := rfl
@[simp] theorem expand_none : expand word (none :: tokens) = word ++ expand word tokens := rfl
@[simp] theorem expand_some : expand word (some c :: tokens) = c :: expand word tokens := rfl

theorem expand_append (more : List (Option α)) :
    expand word (tokens ++ more) = expand word tokens ++ expand word more :=
  List.flatMap_append

theorem expand_flatMap {β : Type*} (f : β → List (Option α)) (xs : List β) :
    expand word (xs.flatMap f) = (xs.map fun x => expand word (f x)).flatten := by
  induction xs with
  | nil => rfl
  | cons x xs ih => rw [List.flatMap_cons, expand_append, ih, List.map_cons, List.flatten_cons]

theorem mem_expand_iff {word : List α} {c : α} (hword : c ∉ word) {tokens : List (Option α)} :
    c ∈ expand word tokens ↔ some c ∈ tokens := by
  induction tokens with
  | nil => simp
  | cons t tokens ih => cases t <;> simp [hword, ih]

theorem expand_length :
    (expand word tokens).length = tokens.countP Option.isSome + word.length * tokens.countP Option.isNone := by
  induction tokens with
  | nil => rfl
  | cons t tokens ih =>
    cases t with
    | none =>
      simp only [expand_none, List.length_append, ih, List.countP_cons, Option.isSome_none,
        Option.isNone_none, if_true, Bool.false_eq_true, if_false, Nat.mul_add]
      omega
    | some c =>
      simp only [expand_some, List.length_cons, ih, List.countP_cons, Option.isSome_some,
        Option.isNone_some, if_true, Bool.false_eq_true, if_false, Nat.mul_add]
      omega

end Expand

section First
variable {starts : List α → Bool} {text front rest : List α}

theorem replaceFirst_of_firstAt (h : FirstAt starts text front rest) (n : ℕ) (word : List α) :
    replaceFirst starts n word text = front ++ word ++ rest.drop n := by
  obtain ⟨rfl, hne, hfound, hfirst⟩ := h
  induction front with
  | nil =>
    obtain ⟨c, cs, rfl⟩ := List.exists_cons_of_ne_nil hne
    rw [List.nil_append, replaceFirst, if_pos hfound, List.nil_append]
  | cons c front ih =>
    have hnot := hfirst [] (c :: front) rfl (List.cons_ne_nil _ _)
    rw [List.cons_append] at hnot
    rw [List.cons_append, replaceFirst, hnot, if_neg Bool.false_ne_true,
      ih fun xs ys hfront => hfirst (c :: xs) ys (by rw [hfront, List.cons_append])]
    rfl

/-- A text starts as wanted somewhere, or nothing is replaced. -/
theorem firstAt_or (starts : List α → Bool) (text : List α) :
    (∃ front rest, FirstAt starts text front rest) ∨
      (∀ front rest, text = front ++ rest → rest ≠ [] → starts rest = false) ∧
        ∀ n word, replaceFirst starts n word text = text := by
  induction text with
  | nil =>
    right
    refine ⟨fun front rest h hne => ?_, fun _ _ => rfl⟩
    exact absurd (List.append_eq_nil_iff.mp h.symm).2 hne
  | cons c cs ih =>
    cases hc : starts (c :: cs) with
    | true =>
      refine .inl ⟨[], c :: cs, rfl, List.cons_ne_nil _ _, hc, fun xs ys h hne => ?_⟩
      exact absurd (List.append_eq_nil_iff.mp h.symm).2 hne
    | false =>
      rcases ih with ⟨front, rest, rfl, hne, hfound, hfirst⟩ | ⟨hnone, hkept⟩
      · refine .inl ⟨c :: front, rest, rfl, hne, hfound, fun xs ys h hys => ?_⟩
        cases xs with
        | nil =>
          rw [List.nil_append] at h
          rw [← h, List.cons_append, hc]
        | cons x xs =>
          rw [List.cons_append, List.cons.injEq] at h
          exact hfirst xs ys h.2 hys
      · refine .inr ⟨fun front rest h hne => ?_, fun n word => ?_⟩
        · cases front with
          | nil =>
            rw [List.nil_append] at h
            rw [← h, hc]
          | cons x front =>
            rw [List.cons_append, List.cons.injEq] at h
            exact hnone front rest h.2 hne
        · rw [replaceFirst, hc, if_neg Bool.false_ne_true, hkept]

end First

theorem replaceFrom_skip [BEq α] (pattern word xs ys : List α) :
    replaceFrom pattern word xs.length (xs ++ ys) = replaceFrom pattern word 0 ys := by
  induction xs with
  | nil => rfl
  | cons x xs ih => exact ih

theorem replaceAll_pattern [BEq α] [LawfulBEq α] (a : α) (m word text : List α) :
    replaceAll (a :: m) word (a :: m ++ text) = word ++ replaceAll (a :: m) word text := by
  have hstands : (a :: m).isPrefixOf (a :: (m ++ text)) = true := by simp
  rw [replaceAll, List.cons_append, replaceFrom, if_pos hstands, List.length_cons,
    Nat.add_sub_cancel, replaceFrom_skip]
  rfl

theorem replaceAll_keep [BEq α] [LawfulBEq α] {pattern : List α} (word : List α) {c : α}
    {text : List α} (h : ¬ pattern <+: c :: text) :
    replaceAll pattern word (c :: text) = c :: replaceAll pattern word text := by
  rw [replaceAll, replaceFrom, if_neg]
  · rfl
  · simpa using h

theorem expand_map_some (word w : List α) : expand word (w.map some) = w := by
  induction w with
  | nil => rfl
  | cons c w ih => rw [List.map_cons, expand_some, ih]

theorem tokensFrom_skip [BEq α] (pattern xs ys : List α) :
    tokensFrom pattern xs.length (xs ++ ys) = tokensFrom pattern 0 ys := by
  induction xs with
  | nil => rfl
  | cons x xs ih => exact ih

theorem tokens_pattern [BEq α] [LawfulBEq α] {pattern : List α} (hne : pattern ≠ [])
    (text : List α) : tokens pattern (pattern ++ text) = none :: tokens pattern text := by
  obtain ⟨a, m, rfl⟩ := List.exists_cons_of_ne_nil hne
  have hstands : (a :: m).isPrefixOf (a :: (m ++ text)) = true := by simp
  rw [tokens, List.cons_append, tokensFrom, if_pos hstands, List.length_cons, Nat.add_sub_cancel,
    tokensFrom_skip]
  rfl

theorem tokens_keep [BEq α] [LawfulBEq α] {pattern : List α} {c : α} {text : List α}
    (h : ¬ pattern <+: c :: text) :
    tokens pattern (c :: text) = some c :: tokens pattern text := by
  rw [tokens, tokensFrom, if_neg]
  · rfl
  · simpa using h

theorem tokens_short [BEq α] [LawfulBEq α] {pattern text : List α}
    (h : text.length < pattern.length) : tokens pattern text = text.map some := by
  induction text with
  | nil => rfl
  | cons c cs ih =>
    rw [tokens_keep, ih ((Nat.lt_succ_self _).trans h), List.map_cons]
    exact fun hstands => absurd hstands.length_le (Nat.not_le.mpr h)

theorem expand_tokensFrom [BEq α] (pattern word : List α) (skip : ℕ) (text : List α) :
    expand word (tokensFrom pattern skip text) = replaceFrom pattern word skip text := by
  induction skip, text using tokensFrom.induct pattern with
  | case1 skip => simp [tokensFrom, replaceFrom]
  | case2 skip c cs ih => simpa only [tokensFrom, replaceFrom] using ih
  | case3 c cs h ih => simp only [tokensFrom, replaceFrom, if_pos h, expand_none, ih]
  | case4 c cs h ih => simp only [tokensFrom, replaceFrom, if_neg h, expand_some, ih]

theorem expand_tokens [BEq α] (pattern word text : List α) :
    expand word (tokens pattern text) = replaceAll pattern word text :=
  expand_tokensFrom pattern word 0 text

theorem replaceAll_short [BEq α] [LawfulBEq α] {pattern word text : List α}
    (h : text.length < pattern.length) : replaceAll pattern word text = text := by
  rw [← expand_tokens, tokens_short h, expand_map_some]

theorem expand_tokens_self [BEq α] [LawfulBEq α] {pattern : List α} (hne : pattern ≠ [])
    (text : List α) : expand pattern (tokens pattern text) = text := by
  induction hn : text.length using Nat.strong_induction_on generalizing text with
  | _ n ih =>
    subst hn
    cases text with
    | nil => rfl
    | cons c cs =>
      by_cases hstands : pattern <+: c :: cs
      · obtain ⟨rest, hrest⟩ := hstands
        rw [← hrest, tokens_pattern hne, expand_none, ih rest.length ?_ rest rfl]
        rw [← hrest, List.length_append]
        exact Nat.lt_add_of_pos_left (List.length_pos_of_ne_nil hne)
      · rw [tokens_keep hstands, expand_some, ih cs.length (Nat.lt_succ_self _) cs rfl]

/-- A shorter word makes no text longer. -/
theorem replaceAll_length_le [BEq α] [LawfulBEq α] {pattern word : List α} (hne : pattern ≠ [])
    (h : word.length ≤ pattern.length) (text : List α) :
    (replaceAll pattern word text).length ≤ text.length := by
  rw [← expand_tokens, expand_length]
  conv_rhs => rw [← expand_tokens_self hne text, expand_length]
  exact Nat.add_le_add_left (Nat.mul_le_mul_right _ h) _

theorem places_map_some (word : List α) (i : ℕ) (text : List α) :
    places word i (text.map some) = [] := by
  induction text generalizing i with
  | nil => rfl
  | cons c cs ih => exact ih (i + 1)

theorem le_of_mem_places {word : List α} {i j : ℕ} {ts : List (Option α)}
    (h : j ∈ places word i ts) : i ≤ j := by
  induction ts generalizing i with
  | nil => simp [places] at h
  | cons t ts ih =>
    cases t with
    | none =>
      rcases List.mem_cons.mp h with rfl | h
      · exact Nat.le_refl j
      · exact (Nat.le_add_right i _).trans (ih h)
    | some c => exact (Nat.le_succ i).trans (ih h)

/-- Symbols that no place starts with are kept ones. -/
theorem map_some_of_expand {a : α} {m w : List α} (hw : a ∉ w) {tokens : List (Option α)}
    (h : w <+: expand (a :: m) tokens) : w.map some <+: tokens := by
  induction w generalizing tokens with
  | nil => exact List.nil_prefix
  | cons c w ih =>
    simp only [List.mem_cons, not_or] at hw
    rcases tokens with - | ⟨- | d, tokens⟩
    · simp at h
    · rw [expand_none, List.cons_append, List.cons_prefix_cons] at h
      exact absurd h.1.symm hw.1
    · rw [expand_some, List.cons_prefix_cons] at h
      rw [List.map_cons, h.1, List.cons_prefix_cons]
      exact ⟨rfl, ih hw.2 h.2⟩

/-- What is written at the places can be told from what is kept, if it is not in the text before
and its first symbol comes only once in it: replacing it gives the text before. -/
theorem replaceAll_expand [BEq α] [LawfulBEq α] {a : α} {m word : List α} (ha : a ∉ m)
    {tokens : List (Option α)} (h : ¬ a :: m <:+: expand word tokens) :
    replaceAll (a :: m) word (expand (a :: m) tokens) = expand word tokens := by
  induction tokens with
  | nil => rfl
  | cons t tokens ih =>
    cases t with
    | none =>
      rw [expand_none, expand_none, replaceAll_pattern, ih]
      exact fun hin => h (hin.trans (List.suffix_append word _).isInfix)
    | some c =>
      rw [expand_some, expand_some, replaceAll_keep, ih]
      · exact fun hin => h (hin.trans (List.suffix_cons c _).isInfix)
      · -- a new occurrence would have stood in the text before
        intro hstands
        obtain ⟨rfl, hrest⟩ := List.cons_prefix_cons.mp hstands
        obtain ⟨more, rfl⟩ := map_some_of_expand ha hrest
        rw [expand_some, expand_append, expand_map_some] at h
        exact h ⟨[], expand word more, by simp⟩

theorem leftOver_cons {a b : α} {t : Option α} {tokens : List (Option α)} :
    LeftOver a b (t :: tokens) ↔
      (t = none ∨ t = some b) ∧ [some a, some b] <+: tokens ∨ LeftOver a b tokens := by
  unfold LeftOver
  constructor
  · rintro ⟨u, hu, hin⟩
    rcases List.infix_cons_iff.mp hin with hstart | hin
    · obtain ⟨rfl, hrest⟩ := List.cons_prefix_cons.mp hstart
      exact .inl ⟨hu, hrest⟩
    · exact .inr ⟨u, hu, hin⟩
  · rintro (⟨ht, hrest⟩ | ⟨u, hu, hin⟩)
    · exact ⟨t, ht, (List.cons_prefix_cons.mpr ⟨rfl, hrest⟩).isInfix⟩
    · exact ⟨u, hu, hin.trans (List.suffix_cons t tokens).isInfix⟩

/-- A pattern is not in symbols that it does not start with. -/
theorem infix_append_iff {b : α} {pattern xs ys : List α} (hb : b ∉ xs) :
    b :: pattern <:+: xs ++ ys ↔ b :: pattern <:+: ys := by
  induction xs with
  | nil => rfl
  | cons x xs ih =>
    simp only [List.mem_cons, not_or] at hb
    rw [List.cons_append, List.infix_cons_iff, List.cons_prefix_cons, ih hb.2]
    simp [hb.1]

theorem start_expand_iff {a b : α} {ds : List α} (hab : a ≠ b) (hne : ds ≠ []) (hb : b ∉ ds)
    {tokens : List (Option α)} :
    [a, b] <+: expand (a :: ds ++ [b]) tokens ↔ [some a, some b] <+: tokens := by
  obtain ⟨d, ds, rfl⟩ := List.exists_cons_of_ne_nil hne
  simp only [List.mem_cons, not_or] at hb
  rcases tokens with - | ⟨- | c, - | ⟨- | d', tokens⟩⟩
  · simp
  · simp [hb.1]
  · simp [hb.1]
  · simp [hb.1]
  · simp
  · simp [hab.symm]
  · simp

/-- Whether a pattern `b a b` is in a text that has `a ds b` at the places. -/
theorem infix_expand_iff {a b : α} {ds : List α} (hab : a ≠ b) (hne : ds ≠ []) (hb : b ∉ ds)
    {tokens : List (Option α)} :
    [b, a, b] <:+: expand (a :: ds ++ [b]) tokens ↔ LeftOver a b tokens := by
  induction tokens with
  | nil => simp [LeftOver]
  | cons t tokens ih =>
    rw [leftOver_cons]
    cases t with
    | none =>
      have hnot : b ∉ a :: ds := by simpa using ⟨hab.symm, hb⟩
      rw [expand_none, List.append_assoc, infix_append_iff hnot, List.singleton_append,
        List.infix_cons_iff, List.cons_prefix_cons, ih, start_expand_iff hab hne hb]
      simp
    | some c =>
      rw [expand_some, List.infix_cons_iff, List.cons_prefix_cons, ih, start_expand_iff hab hne hb]
      simp [eq_comm]

theorem splitOnP_append {p : α → Bool} {xs : List α} (hxs : ∀ c ∈ xs, p c = false) (ys : List α) :
    (xs ++ ys).splitOnP p = (ys.splitOnP p).modifyHead (xs ++ ·) := by
  induction xs with
  | nil =>
    obtain ⟨part, parts, hparts⟩ := List.exists_cons_of_ne_nil (List.splitOnP_ne_nil p ys)
    rw [List.nil_append, hparts]
    rfl
  | cons x xs ih =>
    rw [List.cons_append, List.splitOnP_cons_eq_if_modifyHead,
      if_neg (by simp [hxs x List.mem_cons_self]), ih fun c hc => hxs c (List.mem_cons_of_mem x hc),
      List.modifyHead_modifyHead]
    rfl

/-- The parts of a text between separators, of which the word has none. -/
theorem splitOnP_expand {p : α → Bool} {word : List α} (hword : ∀ c ∈ word, p c = false)
    (tokens : List (Option α)) :
    (expand word tokens).splitOnP p = (tokens.splitOnP (Option.any p)).map (expand word) := by
  induction tokens with
  | nil => rfl
  | cons t tokens ih =>
    obtain ⟨part, parts, hparts⟩ :=
      List.exists_cons_of_ne_nil (List.splitOnP_ne_nil (Option.any p) tokens)
    rw [hparts] at ih
    rw [List.splitOnP_cons_eq_if_modifyHead (p := Option.any p), hparts]
    cases t with
    | none =>
      rw [expand_none, splitOnP_append hword, ih]
      rfl
    | some c =>
      rw [expand_some, List.splitOnP_cons_eq_if_modifyHead, ih]
      by_cases hc : p c = true
      · simp [hc]
      · simp [hc]

end Replacement
