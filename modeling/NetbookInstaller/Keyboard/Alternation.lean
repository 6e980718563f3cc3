import NetbookInstaller.Keyboard.StuckKeys
import Mathlib.Data.List.Chain

/-! When the events of each ADB key code alternate between down and up. -/
namespace Keyboard

open Transition

/-- Down and up events in turn, a down one first. -/
structure Alternating (directions : List Bool) : Prop where
  first : directions.head? ≠ some false
  turns : directions.IsChain (· ≠ ·)

def directions (adb : UInt8) (events : List (Edge UInt8)) : List Bool :=
  (events.filter (·.source = adb)).map (·.rising)

/-- Only a key that is down sends its break code. -/
def BreaksHeld (es : List KeyEvent) : Prop :=
  ∀ i : Fin es.length, es[i].rising = true ∨ level es[i].source (es.take i) = true

/-- The lines that the keys of a stream drive, one after the other. -/
def lineEvents (settings : Settings) (es : List KeyEvent) : List (Edge Line) :=
  es.flatMap fun e => (e.source.lines settings).map (⟨·, e.rising⟩)

/-- Those of them that belong to one ADB key code. -/
def codesOf (adb : UInt8) (ls : List (Edge Line)) : List (Edge Line) :=
  ls.filter (·.source.adbKeyCode = some adb)

def Line.isKeyed : Line → Bool
  | .keyed _ => true
  | _ => false

/-- Behind a make code comes its own break code, or a make code that the bit vector
takes for an autorepeat; behind a break code comes a make code. -/
def Follows (a b : Edge Line) : Prop :=
  if a.rising then b.source = a.source ∧ (b.rising = true → a.source.isKeyed = true)
  else b.rising = true

instance (es : List KeyEvent) : Decidable (BreaksHeld es) :=
  inferInstanceAs (Decidable (∀ _ : Fin es.length, _))

instance (a b : Edge Line) : Decidable (Follows a b) :=
  inferInstanceAs (Decidable (if a.rising then _ else _))

theorem Alternating.append_singleton {ds : List Bool} {d : Bool} (h : Alternating ds)
    (hd : ds.getLast? = some (!d) ∨ ds = [] ∧ d = true) : Alternating (ds ++ [d]) := by
  rcases hd with hlast | ⟨rfl, rfl⟩
  · constructor
    · cases ds with
      | nil => cases hlast
      | cons d' ds => exact h.first
    · rw [List.isChain_append]
      refine ⟨h.turns, List.isChain_singleton d, ?_⟩
      intro x hx y hy
      rw [hlast, Option.mem_some_iff] at hx
      rw [List.head?_cons, Option.mem_some_iff] at hy
      subst hx hy
      cases d <;> decide
  · exact ⟨by decide, List.isChain_singleton true⟩

/-- Behind a make code that has not been an autorepeat, the direction changes. -/
theorem rising_of_follows {a e : Edge Line} (h : Follows a e)
    (hfree : e.rising = true → ∀ n, e.source = .keyed n → a ≠ ⟨.keyed n, true⟩) :
    a.rising = !e.rising := by
  obtain ⟨source, rising⟩ := a
  cases rising with
  | false => exact congrArg (!·) h.symm
  | true =>
    obtain ⟨hsource, hkeyed⟩ := h
    simp only at hsource hkeyed hfree
    cases hdown : e.rising with
    | false => rfl
    | true =>
      cases source with
      | keyed n => exact absurd rfl (hfree hdown n hsource)
      | direct adb => cases hkeyed hdown
      | sleep => cases hkeyed hdown

@[simp] theorem directions_append (adb : UInt8) (xs ys : List (Edge UInt8)) :
    directions adb (xs ++ ys) = directions adb xs ++ directions adb ys := by
  simp [directions]

namespace ApplePS2Keyboard

/-- Where the driver stands with one ADB key code after line events. -/
structure InTurn (k : ApplePS2Keyboard) (ls : List (Edge Line)) (adb : UInt8) : Prop where
  alternating : Alternating (directions adb (keyEvents k.sent))
  last : (directions adb (keyEvents k.sent)).getLast? =
    (codesOf adb ls).getLast?.map (·.rising)
  bit : ∀ n : KeyCode, n.adbKeyCode = adb →
    (k.IsKeydown n ↔ (codesOf adb ls).getLast? = some ⟨.keyed n, true⟩)

theorem directions_emitted_of_ne {k : ApplePS2Keyboard} {l : Line} {adb : UInt8} {down : Bool}
    (h : l.adbKeyCode ≠ some adb) : directions adb (k.emitted down l) = [] := by
  cases l with
  | keyed n =>
    have hne : n.adbKeyCode ≠ adb := fun h' => h (congrArg some h')
    simp only [emitted]
    split
    · rfl
    · simp [directions, hne]
  | direct a =>
    have hne : a ≠ adb := fun h' => h (congrArg some h')
    simp [directions, emitted, hne]
  | sleep => rfl

/-- The bit vector holds a make code back exactly if its bit is set. -/
theorem directions_emitted_of_eq (k : ApplePS2Keyboard) (down : Bool) {l : Line} {adb : UInt8}
    (h : l.adbKeyCode = some adb) :
    directions adb (k.emitted down l) = [] ∧ down = true ∧ (∃ n, l = .keyed n ∧ k.IsKeydown n) ∨
      directions adb (k.emitted down l) = [down] ∧
        ¬ (down = true ∧ ∃ n, l = .keyed n ∧ k.IsKeydown n) := by
  cases l with
  | keyed n =>
    have heq : n.adbKeyCode = adb := Option.some.inj h
    simp only [emitted, IsKeydown, Bool.and_eq_true, Line.keyed.injEq, exists_eq_left']
    split
    next hheld => exact .inl ⟨rfl, hheld⟩
    next hheld => exact .inr ⟨by simp [directions, heq], hheld⟩
  | direct a =>
    have heq : a = adb := Option.some.inj h
    exact .inr ⟨by simp [directions, emitted, heq], by simp⟩
  | sleep => cases h

section Drive
variable {k : ApplePS2Keyboard} {ls : List (Edge Line)} {adb : UInt8} {e : Edge Line}

/-- A line of another ADB key code. -/
theorem InTurn.drive_of_ne (h : k.InTurn ls adb) (hadb : e.source.adbKeyCode ≠ some adb) :
    (k.drive e.rising e.source).InTurn (ls ++ [e]) adb := by
  have hcodes : codesOf adb (ls ++ [e]) = codesOf adb ls := by simp [codesOf, hadb]
  have hsent : directions adb (keyEvents (k.drive e.rising e.source).sent) =
      directions adb (keyEvents k.sent) := by
    rw [drive_keyEvents, directions_append, directions_emitted_of_ne hadb, List.append_nil]
  refine ⟨?_, ?_, ?_⟩
  · rw [hsent]
    exact h.alternating
  · rw [hsent, hcodes]
    exact h.last
  · intro n hn
    have hne : e.source ≠ .keyed n := by
      intro heq
      rw [heq] at hadb
      exact hadb (congrArg some hn)
    rw [drive_isKeydown, if_neg hne, hcodes]
    exact h.bit n hn

/-- Of the bits of an ADB key code, at most that of the last line is set. -/
theorem InTurn.drive_bit (h : k.InTurn ls adb)
    (hfollows : ∀ a ∈ (codesOf adb ls).getLast?, Follows a e) {n : KeyCode}
    (hn : n.adbKeyCode = adb) :
    (k.drive e.rising e.source).IsKeydown n ↔ e = ⟨.keyed n, true⟩ := by
  rw [drive_isKeydown]
  obtain ⟨source, rising⟩ := e
  simp only [Edge.mk.injEq]
  split
  next heq => simp [heq]
  next hne =>
    simp only [hne, false_and, iff_false]
    intro hheld
    have hlast := hfollows _ ((h.bit n hn).mp hheld)
    exact hne hlast.1

/-- An event that is sent turns the direction. -/
theorem InTurn.alternating_append (h : k.InTurn ls adb) (hadb : e.source.adbKeyCode = some adb)
    (hfree : ¬ (e.rising = true ∧ ∃ n, e.source = .keyed n ∧ k.IsKeydown n))
    (hfirst : codesOf adb ls = [] → e.rising = true)
    (hfollows : ∀ a ∈ (codesOf adb ls).getLast?, Follows a e) :
    Alternating (directions adb (keyEvents k.sent) ++ [e.rising]) := by
  apply h.alternating.append_singleton
  rw [h.last]
  cases hlast : (codesOf adb ls).getLast? with
  | none =>
    have hempty := List.getLast?_eq_none_iff.mp hlast
    refine .inr ⟨?_, hfirst hempty⟩
    rw [← List.getLast?_eq_none_iff, h.last, hlast, Option.map_none]
  | some a =>
    refine .inl (congrArg some ?_)
    apply rising_of_follows (hfollows a hlast)
    rintro hdown n hn rfl
    rw [hn] at hadb
    exact hfree ⟨hdown, n, hn, (h.bit n (Option.some.inj hadb)).mpr hlast⟩

theorem InTurn.drive_of_eq (h : k.InTurn ls adb) (hadb : e.source.adbKeyCode = some adb)
    (hfirst : codesOf adb ls = [] → e.rising = true)
    (hfollows : ∀ a ∈ (codesOf adb ls).getLast?, Follows a e) :
    (k.drive e.rising e.source).InTurn (ls ++ [e]) adb := by
  have hlast : (codesOf adb (ls ++ [e])).getLast? = some e := by simp [codesOf, hadb]
  have hbit : ∀ n : KeyCode, n.adbKeyCode = adb →
      ((k.drive e.rising e.source).IsKeydown n ↔
        (codesOf adb (ls ++ [e])).getLast? = some ⟨.keyed n, true⟩) := by
    intro n hn
    rw [hlast, Option.some.injEq]
    exact h.drive_bit hfollows hn
  rcases directions_emitted_of_eq k e.rising hadb with
    ⟨hnone, hdown, n, hn, hheld⟩ | ⟨hone, hfree⟩
  · -- an autorepeat, which the bit vector holds back
    have hsent : directions adb (keyEvents (k.drive e.rising e.source).sent) =
        directions adb (keyEvents k.sent) := by
      rw [drive_keyEvents, directions_append, hnone, List.append_nil]
    have hadb' : n.adbKeyCode = adb := by
      rw [hn] at hadb
      exact Option.some.inj hadb
    refine ⟨?_, ?_, hbit⟩
    · rw [hsent]
      exact h.alternating
    · rw [hsent, h.last, (h.bit n hadb').mp hheld, hlast, Option.map_some, Option.map_some, hdown]
  · have hsent : directions adb (keyEvents (k.drive e.rising e.source).sent) =
        directions adb (keyEvents k.sent) ++ [e.rising] := by
      rw [drive_keyEvents, directions_append, hone]
    refine ⟨?_, ?_, hbit⟩
    · rw [hsent]
      exact h.alternating_append hadb hfree hfirst hfollows
    · rw [hsent, hlast, List.getLast?_concat, Option.map_some]

end Drive

theorem InTurn.drive {k : ApplePS2Keyboard} {ls : List (Edge Line)} {adb : UInt8}
    (h : k.InTurn ls adb) (e : Edge Line)
    (hfirst : e.source.adbKeyCode = some adb → codesOf adb ls = [] → e.rising = true)
    (hfollows : e.source.adbKeyCode = some adb →
      ∀ a ∈ (codesOf adb ls).getLast?, Follows a e) :
    (k.drive e.rising e.source).InTurn (ls ++ [e]) adb := by
  by_cases hadb : e.source.adbKeyCode = some adb
  · exact h.drive_of_eq hadb (hfirst hadb) (hfollows hadb)
  · exact h.drive_of_ne hadb

theorem run_inTurn (settings : Settings) (adb : UInt8) {ls : List (Edge Line)}
    (hfirst : ∀ a ∈ (codesOf adb ls).head?, a.rising = true)
    (hcodes : (codesOf adb ls).IsChain Follows) :
    (ls.foldl (fun k e => k.drive e.rising e.source) (init settings)).InTurn ls adb := by
  induction ls using List.reverseRecOn with
  | nil =>
    refine ⟨⟨by simp [init, keyEvents, directions], by simp [init, keyEvents, directions]⟩, ?_, ?_⟩
    · simp [init, keyEvents, directions, codesOf]
    · simp [init, IsKeydown, codesOf]
  | append_singleton ls e ih =>
    have happend : codesOf adb (ls ++ [e]) = codesOf adb ls ++ codesOf adb [e] :=
      List.filter_append ..
    rw [happend] at hfirst hcodes
    rw [List.foldl_append, List.foldl_cons, List.foldl_nil]
    have hprev := ih
      (fun a ha => hfirst a (by
        rw [List.head?_append, Option.mem_def.mp ha]
        rfl))
      hcodes.left_of_append
    have hone : e.source.adbKeyCode = some adb → codesOf adb [e] = [e] := by
      intro hadb
      simp [codesOf, hadb]
    apply hprev.drive
    · intro hadb hempty
      rw [hempty, hone hadb] at hfirst
      exact hfirst e rfl
    · intro hadb a ha
      rw [hone hadb, List.isChain_append] at hcodes
      exact hcodes.2.2 a ha e rfl

theorem foldl_keyStep (settings : Settings) (es : List KeyEvent) (k : ApplePS2Keyboard) :
    es.foldl (keyStep settings) k =
      (lineEvents settings es).foldl (fun k e => k.drive e.rising e.source) k := by
  induction es generalizing k with
  | nil => rfl
  | cons e es ih =>
    rw [List.foldl_cons, ih]
    simp only [lineEvents, List.flatMap_cons, List.foldl_append, List.foldl_map]
    rfl

end ApplePS2Keyboard

theorem BreaksHeld.of_append_singleton {es : List KeyEvent} {e : KeyEvent}
    (h : BreaksHeld (es ++ [e])) : BreaksHeld es ∧ (e.rising = true ∨ level e.source es = true) := by
  constructor
  · intro i
    have hi := h ⟨i, by rw [List.length_append]; omega⟩
    simpa [List.getElem_append, List.take_append_of_le_length i.isLt.le] using hi
  · have hlast := h ⟨es.length, by simp⟩
    simpa using hlast

/-- The first line event of an ADB key code is a make code. -/
theorem head_rising {settings : Settings} {adb : UInt8} {es : List KeyEvent} (h : BreaksHeld es) :
    ∀ a ∈ (codesOf adb (lineEvents settings es)).head?, a.rising = true := by
  induction es using List.reverseRecOn with
  | nil => exact fun a ha => absurd ha (by simp [lineEvents, codesOf])
  | append_singleton es e ih =>
    obtain ⟨hes, he⟩ := h.of_append_singleton
    intro a ha
    have happend : codesOf adb (lineEvents settings (es ++ [e])) =
        codesOf adb (lineEvents settings es) ++ codesOf adb (lineEvents settings [e]) := by
      simp [codesOf, lineEvents]
    rw [happend, List.head?_append] at ha
    cases hcodes : codesOf adb (lineEvents settings es) with
    | cons b bs =>
      rw [hcodes] at ha ih
      exact ih hes a ha
    | nil =>
      rw [hcodes] at ha
      have hmem := List.mem_of_mem_head? ha
      simp only [codesOf, lineEvents, List.flatMap_cons, List.flatMap_nil, List.append_nil,
        List.mem_filter, List.mem_map, decide_eq_true_eq] at hmem
      obtain ⟨⟨l, hl, rfl⟩, hadb⟩ := hmem
      rcases he with he | he
      · exact he
      · have hmade : (⟨l, true⟩ : Edge Line) ∈ codesOf adb (lineEvents settings es) := by
          simp only [codesOf, lineEvents, List.mem_filter, List.mem_flatMap, List.mem_map,
            decide_eq_true_eq]
          exact ⟨⟨_, exists_rising_of_level he, l, hl, rfl⟩, hadb⟩
        rw [hcodes] at hmade
        cases hmade

/-- The events of an ADB key code alternate if, of the codes that belong to it, every
break code follows a make code of the same line and only the bit vector's autorepeats
follow a make code otherwise. -/
theorem keyEvents_alternate (settings : Settings) (es : List KeyEvent) (hkeys : BreaksHeld es)
    (hcodes : ∀ adb, (codesOf adb (lineEvents settings es)).IsChain Follows) (adb : UInt8) :
    Alternating (directions adb (keyEvents
      ((ApplePS2Keyboard.init settings).receive (es.flatMap KeyEvent.scanCodes)).sent)) := by
  rw [ApplePS2Keyboard.receive_stream rfl, ApplePS2Keyboard.foldl_keyStep]
  exact (ApplePS2Keyboard.run_inTurn settings adb (head_rising hkeys) (hcodes adb)).alternating

def repeatedCtrl : List KeyEvent :=
  [⟨leftCtrl, true⟩, ⟨leftCtrl, true⟩, ⟨leftAlt, true⟩, ⟨leftCtrl, false⟩, ⟨leftAlt, false⟩]

/-- The left control key autorepeats before the left alt key joins it. -/
theorem repeatedCtrl_alternates : Alternating (directions 0x3b (keyEvents
    ((ApplePS2Keyboard.init ⟨true, false, false⟩).receive
      (repeatedCtrl.flatMap KeyEvent.scanCodes)).sent)) := by
  have hcodes : ∀ n : Fin 256, (codesOf (UInt8.ofNat n)
      (lineEvents ⟨true, false, false⟩ repeatedCtrl)).IsChain Follows := by decide +kernel
  apply keyEvents_alternate ⟨true, false, false⟩ repeatedCtrl (by decide)
  intro adb
  simpa using hcodes ⟨adb.toNat, adb.toNat_lt⟩

def autorepeatedEject : List KeyEvent := [⟨eject, true⟩, ⟨eject, true⟩]

def overlappingCtrls : List KeyEvent :=
  [⟨rightCtrl, true⟩, ⟨capsLock, true⟩, ⟨rightCtrl, false⟩, ⟨capsLock, false⟩]

/-- `E0 34` goes past the bit vector and repeats its down events; with caps lock as a
control key, the second of two control keys to go up sends an up event for a key code
that is up. -/
theorem autorepeatedEject_overlappingCtrls_not_alternating :
    BreaksHeld autorepeatedEject ∧
    ¬ Alternating (directions 0x3a (keyEvents
      ((ApplePS2Keyboard.init ⟨false, false, false⟩).receive
        (autorepeatedEject.flatMap KeyEvent.scanCodes)).sent)) ∧
    BreaksHeld overlappingCtrls ∧
    ¬ Alternating (directions 0x3e (keyEvents
      ((ApplePS2Keyboard.init ⟨true, false, false⟩).receive
        (overlappingCtrls.flatMap KeyEvent.scanCodes)).sent)) := by
  refine ⟨by decide, ?_, by decide, ?_⟩
  · intro h
    exact absurd h.turns (by decide +kernel)
  · intro h
    exact absurd h.turns (by decide +kernel)

end Keyboard
