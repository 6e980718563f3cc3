import NetbookInstaller.Dsdt.DeviceText

/-! Which of the IRQ entries of an RTC device `patchRTC` leaves out. -/
namespace Dsdt

open Transition DevicePass

/-- The lines of a device and those behind it without the IRQ lines of the device and the
line that follows each; `skip` if the line before was one. -/
def withoutIRQ : Bool → List Line → List Line → List Line
  | skip, [], after => if skip then after.tail else after
  | skip, line :: inside, after =>
    if cmpStr line IRQ then withoutIRQ true inside after
    else if skip then withoutIRQ false inside after
    else line :: withoutIRQ false inside after

/-- What the pass comes to first in a device: the brace that brings the count to zero, an
IRQ line, behind which are these lines, or the end of the file. -/
inductive Found where
  | closes
  | entry (behind : List Line)
  | nothing
  deriving DecidableEq, Repr

def findEntry : Count → List Line → Found
  | _, [] => .nothing
  | openBrackets, line :: lines =>
    if openBrackets + bracketDelta line = 0 then .closes
    else if cmpStr line IRQ then .entry lines
    else findEntry (openBrackets + bracketDelta line) lines

theorem withoutIRQ_append_of_none {upTo : List Line} (h : ∀ line ∈ upTo, cmpStr line IRQ = false)
    (inside after : List Line) :
    withoutIRQ false (upTo ++ inside) after = upTo ++ withoutIRQ false inside after := by
  induction upTo with
  | nil => rfl
  | cons line upTo ih =>
    rw [List.cons_append, withoutIRQ, if_neg (by simp [h line List.mem_cons_self]),
      if_neg (by decide), ih fun l hl => h l (List.mem_cons_of_mem line hl)]
    rfl

theorem withoutIRQ_of_none {inside : List Line} (h : ∀ line ∈ inside, cmpStr line IRQ = false)
    (after : List Line) : withoutIRQ false inside after = inside ++ after := by
  have hall := withoutIRQ_append_of_none h [] after
  rwa [List.append_nil] at hall

/-- What is kept of the device has no IRQ line. -/
theorem withoutIRQ_eq (skip : Bool) (inside after : List Line) :
    ∃ kept k, withoutIRQ skip inside after = kept ++ after.drop k ∧
      ∀ line ∈ kept, cmpStr line IRQ = false := by
  induction inside generalizing skip with
  | nil =>
    cases skip with
    | false => exact ⟨[], 0, rfl, by simp⟩
    | true => exact ⟨[], 1, by simp [withoutIRQ], by simp⟩
  | cons line inside ih =>
    unfold withoutIRQ
    split
    · exact ih true
    next hline =>
      split
      · exact ih false
      · obtain ⟨kept, k, hkept, hno⟩ := ih false
        refine ⟨line :: kept, k, by rw [hkept]; rfl, ?_⟩
        intro l hl
        rcases List.mem_cons.mp hl with rfl | hl
        · simpa using hline
        · exact hno l hl

theorem withoutIRQ_subset (skip : Bool) (inside after : List Line) :
    withoutIRQ skip inside after ⊆ inside ++ after := by
  induction inside generalizing skip with
  | nil =>
    unfold withoutIRQ
    split
    · exact List.tail_subset after
    · exact List.Subset.refl after
  | cons line inside ih =>
    unfold withoutIRQ
    split
    · exact List.subset_cons_of_subset line (ih true)
    · split
      · exact List.subset_cons_of_subset line (ih false)
      · exact List.cons_subset_cons line (ih false)

theorem withoutIRQ_length_le (skip : Bool) (inside after : List Line) :
    (withoutIRQ skip inside after).length ≤ inside.length + after.length := by
  induction inside generalizing skip with
  | nil =>
    unfold withoutIRQ
    split <;> simp
  | cons line inside ih =>
    have hfalse := ih false
    have htrue := ih true
    unfold withoutIRQ
    split
    · simp only [List.length_cons]
      omega
    · split <;> simp only [List.length_cons] <;> omega

/-- Nothing is left out exactly if there is no entry. -/
theorem withoutIRQ_length_eq_iff (inside after : List Line) :
    (withoutIRQ false inside after).length = inside.length + after.length ↔
      ∀ line ∈ inside, cmpStr line IRQ = false := by
  induction inside with
  | nil => simp [withoutIRQ]
  | cons line inside ih =>
    by_cases hline : cmpStr line IRQ = true
    · have hle := withoutIRQ_length_le true inside after
      rw [withoutIRQ, if_pos hline]
      simp only [List.length_cons, List.mem_cons, forall_eq_or_imp, hline]
      refine iff_of_false (by omega) (by simp)
    · rw [withoutIRQ, if_neg hline, if_neg (by decide)]
      simp only [List.length_cons, List.mem_cons, forall_eq_or_imp]
      rw [← ih]
      simp only [Bool.not_eq_true] at hline
      simp only [hline, true_and]
      omega

/-- Behind an IRQ line at least one line more is left out. -/
theorem withoutIRQ_true_length_le (inside after : List Line) :
    (withoutIRQ true inside after).length ≤ (inside ++ after).length - 1 := by
  cases inside with
  | nil => simp [withoutIRQ]
  | cons line inside =>
    have hfalse := withoutIRQ_length_le false inside after
    have htrue := withoutIRQ_length_le true inside after
    unfold withoutIRQ
    simp only [List.cons_append, List.length_cons, List.length_append]
    split_ifs <;> omega

theorem withoutIRQ_true_eq_tail_iff {inside after : List Line} (h : 2 ≤ (inside ++ after).length) :
    (inside ++ after).tail = withoutIRQ true inside after ↔
      ∀ line ∈ inside, cmpStr line IRQ = false := by
  cases inside with
  | nil => simp [withoutIRQ]
  | cons value inside =>
    simp only [List.cons_append, List.tail_cons, List.length_cons, List.mem_cons,
      forall_eq_or_imp] at h ⊢
    by_cases hvalue : cmpStr value IRQ = true
    · have hless := withoutIRQ_true_length_le inside after
      rw [withoutIRQ, if_pos hvalue]
      refine iff_of_false (fun heq => ?_) (by simp [hvalue])
      rw [← heq] at hless
      omega
    · rw [withoutIRQ, if_neg hvalue, if_pos rfl, ← withoutIRQ_length_eq_iff inside after]
      simp only [Bool.not_eq_true] at hvalue
      simp only [hvalue, true_and]
      constructor
      · intro heq
        rw [← heq, List.length_append]
      · intro hlength
        exact (withoutIRQ_of_none ((withoutIRQ_length_eq_iff inside after).mp hlength) after).symm

/-- What is written from an IRQ line on: the pass goes on with the line that it has read
last, which it does not look at. -/
def leftBehind (entry : Line) : List Line → List Line
  | [] => [entry]
  | [value] => [value]
  | _ :: rest => rest

namespace patchRTC

variable {text lines output : List Line} {line buffer : Line} {openBrackets : Count}

theorem output_le_step {s t : DevicePass} (h : patchRTC.step s = some t) :
    s.output.length ≤ t.output.length := by
  unfold patchRTC.step at h
  split at h
  next => cases h
  next =>
    rw [Option.some.injEq] at h
    subst h
    unfold outerStep
    dsimp only
    split
    next t ht =>
      simp only [foundRTCDevice, Option.map_eq_some_iff] at ht
      obtain ⟨opened, -, rfl⟩ := ht
      simp [fprintf, fgets]
    next => simp [fprintf, fgets]
  next =>
    rw [Option.some.injEq] at h
    subst h
    unfold patchRTC.deviceStep
    dsimp only
    split_ifs <;> simp [fprintf, fgets, count]
  next => cases h

theorem output_le {s t : DevicePass} (h : Evaluates patchRTC.step s t) :
    s.output.length ≤ t.output.length := by
  induction h with
  | halt _ => exact le_rfl
  | next hstep _ ih => exact (output_le_step hstep).trans ih

/-- The rest of a text with no other device is copied. -/
theorem evaluates_rest (text : List Line) (buffer : Line) (openBrackets : Count)
    (output : List Line) (hname : ∀ l ∈ lines, cmpStr l RTCDevice = false) :
    ∃ t, Evaluates patchRTC.step
        ⟨.outer, text, lines, buffer, openBrackets, true, false, false, output⟩ t ∧
      t.output = output ++ lines := by
  refine DevicePass.evaluates_copy (s := ⟨.outer, text, lines, buffer, openBrackets, true, false,
    false, output⟩) step_outer step_halt rfl ?_
  intro t ht hfound _
  simp only [foundRTCDevice, Option.map_eq_none_iff, foundName_eq_none]
  exact ⟨hname _ ht, .inr hfound⟩

/-- At the end of the file the stale line is written once more at least. -/
theorem output_lt_of_end {t : DevicePass}
    (h : Evaluates patchRTC.step
      ⟨.device, text, [], buffer, openBrackets, true, false, false, output⟩ t) :
    output.length < t.output.length := by
  have hfirst : output.length < (patchRTC.deviceStep
      ⟨.device, text, [], buffer, openBrackets, true, false, false, output⟩).output.length := by
    unfold patchRTC.deviceStep
    dsimp only
    split_ifs <;> simp [fprintf, fgets, count]
  exact hfirst.trans_le (output_le ((evaluates_step (step_device _ rfl)).mp h))

/-- An IRQ line ends the loop. -/
theorem entry_output {entry : Line} {behind : List Line}
    (hname : ∀ l ∈ behind, cmpStr l RTCDevice = false)
    (hzero : openBrackets + bracketDelta entry ≠ 0) (hentry : cmpStr entry IRQ = true) :
    ∃ t, Evaluates patchRTC.step
        ⟨.device, text, entry :: behind, buffer, openBrackets, true, false, false, output⟩ t ∧
      t.output = output ++ [] ++ leftBehind entry behind := by
  have hskip (last : Line) (rest : List Line) (hrest : ∀ l ∈ rest, l ∈ behind)
      (hstep : patchRTC.deviceStep
        ⟨.device, text, entry :: behind, buffer, openBrackets, true, false, false, output⟩ =
        ⟨.outer, text, rest, last, openBrackets + bracketDelta entry, true, false, false,
          output ++ [last]⟩) :
      ∃ t, Evaluates patchRTC.step
          ⟨.device, text, entry :: behind, buffer, openBrackets, true, false, false, output⟩ t ∧
        t.output = output ++ last :: rest := by
    obtain ⟨t, ht, hout⟩ := evaluates_rest text last (openBrackets + bracketDelta entry)
      (output ++ [last]) fun l hl => hname l (hrest l hl)
    refine ⟨t, .next (step_device _ rfl) ?_, by simpa using hout⟩
    rw [hstep]
    exact ht
  rw [List.append_nil]
  rcases behind with - | ⟨value, - | ⟨line, rest⟩⟩
  · exact hskip entry [] (by simp)
      (by simp [patchRTC.deviceStep, fgets, count, fprintf, hzero, hentry])
  · exact hskip value [] (by simp)
      (by simp [patchRTC.deviceStep, fgets, count, fprintf, hzero, hentry])
  · exact hskip line rest (fun l hl => by simp [hl])
      (by simp [patchRTC.deviceStep, fgets, count, fprintf, hzero, hentry])

/-- What the loop makes of the lines behind the one that was recognized. -/
theorem device_output (text : List Line) (buffer : Line) (openBrackets : Count)
    (output : List Line) (hname : ∀ l ∈ lines, cmpStr l RTCDevice = false) :
    match findEntry openBrackets lines with
    | .closes => ∃ t, Evaluates patchRTC.step
        ⟨.device, text, lines, buffer, openBrackets, true, false, false, output⟩ t ∧
        t.output = output ++ lines
    | .entry behind => ∃ front entry, lines = front ++ entry :: behind ∧
        cmpStr entry IRQ = true ∧ (∀ l ∈ front, cmpStr l IRQ = false) ∧
        ∃ t, Evaluates patchRTC.step
          ⟨.device, text, lines, buffer, openBrackets, true, false, false, output⟩ t ∧
          t.output = output ++ front ++ leftBehind entry behind
    | .nothing => ∀ t, Evaluates patchRTC.step
        ⟨.device, text, lines, buffer, openBrackets, true, false, false, output⟩ t →
        output.length + lines.length < t.output.length := by
  induction lines generalizing buffer openBrackets output with
  | nil => exact fun t ht => output_lt_of_end ht
  | cons line lines ih =>
    have hrest : ∀ l ∈ lines, cmpStr l RTCDevice = false := fun l hl =>
      hname l (List.mem_cons_of_mem line hl)
    unfold findEntry
    by_cases hzero : openBrackets + bracketDelta line = 0
    · rw [if_pos hzero]
      obtain ⟨t, ht, hout⟩ := evaluates_rest text line (openBrackets + bracketDelta line)
        (output ++ [line]) hrest
      refine ⟨t, .next ?_ ht, by simpa using hout⟩
      rw [step_device _ rfl]
      simp [patchRTC.deviceStep, fgets, count, fprintf, hzero]
    rw [if_neg hzero]
    by_cases hirq : cmpStr line IRQ = true
    · rw [if_pos hirq]
      exact ⟨[], line, rfl, hirq, by simp, entry_output hrest hzero hirq⟩
    rw [if_neg hirq]
    have hstep : patchRTC.step
        ⟨.device, text, line :: lines, buffer, openBrackets, true, false, false, output⟩ =
        some ⟨.device, text, lines, line, openBrackets + bracketDelta line, true, false, false,
          output ++ [line]⟩ := by
      rw [step_device _ rfl]
      simp [patchRTC.deviceStep, fgets, count, fprintf, hzero, hirq]
    have hlines := ih line (openBrackets + bracketDelta line) (output ++ [line]) hrest
    cases hfind : findEntry (openBrackets + bracketDelta line) lines with
    | closes =>
      rw [hfind] at hlines
      obtain ⟨t, ht, hout⟩ := hlines
      exact ⟨t, .next hstep ht, by simpa using hout⟩
    | entry behind =>
      rw [hfind] at hlines
      obtain ⟨front, entry, hlines, hentry, hfront, t, ht, hout⟩ := hlines
      refine ⟨line :: front, entry, by rw [hlines]; rfl, hentry, ?_, t, .next hstep ht, ?_⟩
      · intro l hl
        rcases List.mem_cons.mp hl with rfl | hl
        · simpa using hirq
        · exact hfront l hl
      · simpa using hout
    | nothing =>
      rw [hfind] at hlines
      intro t ht
      have hless := hlines t ((evaluates_step hstep).mp ht)
      simp only [List.length_append, List.length_cons, List.length_nil] at hless ⊢
      omega

/-- The pass gets to the line that is recognized. -/
theorem reaches_device {front upTo inside after : List Line} {header : Line} {opened : Count}
    (hlines : LineStructured (front ++ header :: (upTo ++ inside ++ after)))
    (hdevice : OneDevice RTCDevice RTCDevice2 front header opened upTo inside after) :
    Reaches patchRTC.step (patchRTC.start (front ++ header :: (upTo ++ inside ++ after)).flatten)
      ⟨.device, front ++ header :: (upTo ++ inside ++ after), inside ++ after,
        lastRead header upTo, opened, true, false, false, front ++ header :: upTo⟩ := by
  rw [patchRTC.start, hlines.buffers_flatten]
  have hreach := DevicePass.reaches_device true false (inside ++ after) hdevice.toFirstDevice
    step_outer (s := ⟨.outer, front ++ header :: (upTo ++ inside ++ after),
      front ++ header :: (upTo ++ inside ++ after), [], 0, false, false, false, []⟩)
    rfl (by simp) fun t hrtc hhpet => by 
      have hhpet : t.hpetDeviceFound = false := hhpet
      simp [foundRTCDevice, hrtc, ← hhpet]
  simpa [patchRTC.startOn] using hreach

end patchRTC

/-- If a line of the device up to the one that is recognized is an IRQ line, the pass has
copied it, and no output that it comes to is the right one. -/
theorem withoutIRQ_ne_of_copied {device device2 header : Line} {opened : Count}
    {upTo inside after : List Line} (h : Recognized device device2 header opened upTo inside)
    (hafter : NoDevice device device2 after) (hirq : ∃ line ∈ upTo, cmpStr line IRQ = true)
    (rest : List Line) : upTo ++ rest ≠ withoutIRQ false (upTo ++ inside) after := by
  intro heq
  cases h with
  | name => simp at hirq
  | identifier front line inside hfront hname hid hinside =>
    obtain ⟨entry, hentry⟩ := Option.isSome_iff_exists.mp (List.find?_isSome.mpr hirq)
    obtain ⟨hentry, u, w, hsplit, hu⟩ := List.find?_eq_some_iff_append.mp hentry
    have hline : line ∈ entry :: w := by
      have hlast := congrArg List.getLast? hsplit
      rw [List.getLast?_append_cons, List.getLast?_append_cons] at hlast
      exact List.mem_of_getLast? (hlast ▸ rfl)
    rw [hsplit, List.append_assoc, List.append_assoc,
      withoutIRQ_append_of_none (fun l hl => by simpa using hu l hl), List.append_cancel_left_eq,
      List.cons_append, List.cons_append, withoutIRQ, if_pos hentry] at heq
    obtain ⟨kept, k, hkept, hno⟩ := withoutIRQ_eq true (w ++ inside) after
    rw [hkept] at heq
    cases kept with
    | cons first kept =>
      obtain ⟨rfl, -⟩ := List.cons.inj heq
      exact absurd (hno _ List.mem_cons_self) (by simp [hentry])
    | nil =>
      -- all that the right output has there stands behind the device, the recognized line too
      have hmem : line ∈ after.drop k := by
        rw [List.nil_append] at heq
        rw [← heq, ← List.cons_append]
        exact List.mem_append_left rest hline
      exact absurd (hafter line (List.mem_of_mem_drop hmem)).2 (by simp [hid])

theorem leftBehind_eq_cons_iff {entry : Line} {behind : List Line} :
    leftBehind entry behind = entry :: behind ↔ behind = [] := by
  rcases behind with - | ⟨value, - | ⟨line, rest⟩⟩
  · exact iff_of_true rfl rfl
  · exact iff_of_false (fun h => by simpa [leftBehind] using congrArg List.length h) (by simp)
  · refine iff_of_false (fun h => ?_) (by simp)
    have hlength := congrArg List.length h
    simp only [leftBehind, List.length_cons] at hlength
    omega

theorem leftBehind_eq_withoutIRQ_iff {entry : Line} {inside after : List Line} :
    leftBehind entry (inside ++ after) = withoutIRQ true inside after ↔
      2 ≤ (inside ++ after).length ∧ ∀ line ∈ inside, cmpStr line IRQ = false := by
  have hless := withoutIRQ_true_length_le inside after
  by_cases htwo : 2 ≤ (inside ++ after).length
  · have htail : leftBehind entry (inside ++ after) = (inside ++ after).tail := by
      rcases hbehind : inside ++ after with - | ⟨value, - | ⟨line, rest⟩⟩
      · rw [hbehind] at htwo
        exact absurd htwo (by decide)
      · rw [hbehind] at htwo
        exact absurd htwo (by simp)
      · rfl
    rw [htail, withoutIRQ_true_eq_tail_iff htwo]
    exact (and_iff_right htwo).symm
  · -- one line is written, and none is right
    have hone : (leftBehind entry (inside ++ after)).length = 1 := by
      rcases hbehind : inside ++ after with - | ⟨value, - | ⟨line, rest⟩⟩
      · rfl
      · rfl
      · rw [hbehind] at htwo
        exact absurd (by simp) htwo
    refine iff_of_false (fun heq => ?_) fun h => htwo h.1
    rw [heq] at hone
    omega

/-- The output of a pass that comes to an IRQ line is right if there is no other in the device
and this one is in it with two lines behind it, or if it is the last line of the file and not
in the device. -/
theorem entry_right_iff {inside after front behind : List Line} {entry : Line}
    (hsplit : inside ++ after = front ++ entry :: behind) (hentry : cmpStr entry IRQ = true)
    (hfront : ∀ line ∈ front, cmpStr line IRQ = false) :
    front ++ leftBehind entry behind = withoutIRQ false inside after ↔
      behind = [] ∧ (∀ line ∈ inside, cmpStr line IRQ = false) ∨
        2 ≤ behind.length ∧ after.length ≤ behind.length ∧
          inside.countP (fun line => cmpStr line IRQ) = 1 := by
  rcases List.append_eq_append_iff.mp hsplit with ⟨m, hfrontEq, hafter⟩ | ⟨m, hinside, hbehind⟩
  · -- the IRQ line stands behind the device
    have hnone : ∀ line ∈ inside, cmpStr line IRQ = false := fun line hl =>
      hfront line (by rw [hfrontEq]; exact List.mem_append_left m hl)
    have hlength : ¬ after.length ≤ behind.length := by
      rw [hafter]
      simp only [List.length_append, List.length_cons]
      omega
    rw [withoutIRQ_of_none hnone, hsplit, List.append_cancel_left_eq, leftBehind_eq_cons_iff]
    simp only [hlength, false_and, and_false, or_false]
    exact (and_iff_left hnone).symm
  · cases m with
    | nil =>
      rw [List.append_nil] at hinside
      rw [List.nil_append] at hbehind
      subst hinside
      have hlength : ¬ after.length ≤ behind.length := by
        rw [← hbehind, List.length_cons]
        omega
      rw [withoutIRQ_of_none hfront, List.append_cancel_left_eq, ← hbehind,
        leftBehind_eq_cons_iff, hbehind]
      simp only [hlength, false_and, and_false, or_false]
      exact (and_iff_left hfront).symm
    | cons first m =>
      obtain ⟨rfl, rfl⟩ : entry = first ∧ behind = m ++ after := List.cons.inj hbehind
      have hnot : ¬ ∀ line ∈ inside, cmpStr line IRQ = false := fun hall => by
        have hno := hall entry (by rw [hinside]; simp)
        rw [hentry] at hno
        exact absurd hno (by decide)
      have hcount : inside.countP (fun line => cmpStr line IRQ) = 1 ↔
          ∀ line ∈ m, cmpStr line IRQ = false := by
        have hzero : front.countP (fun line => cmpStr line IRQ) = 0 :=
          List.countP_eq_zero.mpr fun line hl => by simp [hfront line hl]
        rw [hinside, List.countP_append, List.countP_cons, hzero, if_pos hentry]
        simp [List.countP_eq_zero]
      have hlength : after.length ≤ (m ++ after).length := by simp
      rw [hcount, hinside, withoutIRQ_append_of_none hfront, List.append_cancel_left_eq,
        withoutIRQ, if_pos hentry, leftBehind_eq_withoutIRQ_iff, ← hinside]
      simp only [hnot, and_false, false_or, hlength, true_and]

/-- When the pass does leave out the entries of the device: it comes to the end of the device
or to the last line of the file, and there is no entry; or it comes to the only one, and two
lines or more follow it. -/
def OneEntry (opened : Count) (upTo inside after : List Line) : Prop :=
  match findEntry opened (inside ++ after) with
  | .closes => ∀ line ∈ upTo ++ inside, cmpStr line IRQ = false
  | .entry behind =>
    behind = [] ∧ (∀ line ∈ upTo ++ inside, cmpStr line IRQ = false) ∨
      2 ≤ behind.length ∧ after.length ≤ behind.length ∧
        (upTo ++ inside).countP (fun line => cmpStr line IRQ) = 1
  | .nothing => False

instance (opened : Count) (upTo inside after : List Line) :
    Decidable (OneEntry opened upTo inside after) := by
  unfold OneEntry
  split <;> infer_instance

/-- An IRQ line with all lines behind the device behind it is in the device. -/
theorem entry_mem {inside after front behind : List Line} {entry : Line}
    (hsplit : inside ++ after = front ++ entry :: behind) (hle : after.length ≤ behind.length) :
    entry ∈ inside := by
  rcases List.append_eq_append_iff.mp hsplit with ⟨m, -, hafter⟩ | ⟨m, hinside, hbehind⟩
  · have hlength := congrArg List.length hafter
    simp only [List.length_append, List.length_cons] at hlength
    omega
  · cases m with
    | nil =>
      have hlength := congrArg List.length hbehind
      simp only [List.nil_append, List.length_cons] at hlength
      omega
    | cons first m =>
      obtain ⟨rfl, -⟩ := List.cons.inj hbehind
      rw [hinside]
      simp

/-- `entry_right_iff` for a device whose lines up to the one that is recognized have been
copied. -/
theorem entry_right_upTo_iff (copied : List Line) {front behind upTo inside after : List Line}
    {device device2 header entry : Line} {opened : Count}
    (h : Recognized device device2 header opened upTo inside)
    (hafter : NoDevice device device2 after) (hsplit : inside ++ after = front ++ entry :: behind)
    (hentry : cmpStr entry IRQ = true) (hfront : ∀ line ∈ front, cmpStr line IRQ = false) :
    copied ++ (upTo ++ (front ++ leftBehind entry behind)) =
        copied ++ withoutIRQ false (upTo ++ inside) after ↔
      behind = [] ∧ (∀ line ∈ upTo ++ inside, cmpStr line IRQ = false) ∨
        2 ≤ behind.length ∧ after.length ≤ behind.length ∧
          (upTo ++ inside).countP (fun line => cmpStr line IRQ) = 1 := by
  rw [List.append_cancel_left_eq]
  by_cases hcopied : ∀ line ∈ upTo, cmpStr line IRQ = false
  · have hzero : upTo.countP (fun line => cmpStr line IRQ) = 0 :=
      List.countP_eq_zero.mpr fun line hl => by simp [hcopied line hl]
    rw [withoutIRQ_append_of_none hcopied, List.append_cancel_left_eq,
      entry_right_iff hsplit hentry hfront, List.countP_append, hzero, zero_add,
      List.forall_mem_append, and_iff_right hcopied]
  · push Not at hcopied
    simp only [ne_eq, Bool.not_eq_false] at hcopied
    refine iff_of_false (withoutIRQ_ne_of_copied h hafter hcopied _) ?_
    obtain ⟨line, hline, hirq⟩ := hcopied
    have hpositive {lines : List Line} {l : Line} (hl : l ∈ lines) (hl' : cmpStr l IRQ = true) :
        0 < lines.countP fun line => cmpStr line IRQ := List.countP_pos_iff.mpr ⟨l, hl, hl'⟩
    rintro (⟨-, hall⟩ | ⟨-, hle, hcount⟩)
    · rw [hall line (List.mem_append_left inside hline)] at hirq
      exact absurd hirq (by decide)
    · -- the line that is found is a second one
      have hupTo := hpositive hline hirq
      have hinside := hpositive (entry_mem hsplit hle) hentry
      rw [List.countP_append] at hcount
      omega

/-- For a text with one RTC device: the pass leaves out the IRQ entries of the device, and
nothing else, exactly if `OneEntry`. -/
theorem patchRTC_removes_entries_iff (front : List Line) (header : Line) (opened : Count)
    (upTo inside after : List Line)
    (hlines : LineStructured (front ++ header :: (upTo ++ inside ++ after)))
    (hpercent : ∀ line ∈ front ++ header :: (upTo ++ inside ++ after), '%' ∉ line)
    (hdevice : OneDevice RTCDevice RTCDevice2 front header opened upTo inside after) :
    (∃ t, Evaluates patchRTC.step
        (patchRTC.start (front ++ header :: (upTo ++ inside ++ after)).flatten) t ∧
        Written t.output (front ++ header :: withoutIRQ false (upTo ++ inside) after)) ↔
      OneEntry opened upTo inside after := by
  have hname : ∀ line ∈ inside ++ after, cmpStr line RTCDevice = false := by
    intro line hl
    rcases List.mem_append.mp hl with hl | hl
    · exact hdevice.recognized.inside_name line hl
    · exact (hdevice.behind line hl).1
  have houtput := patchRTC.device_output (front ++ header :: (upTo ++ inside ++ after))
    (lastRead header upTo) opened (front ++ header :: upTo) hname
  simp only [(patchRTC.reaches_device hlines hdevice).evaluates]
  have hexpected : ∀ line ∈ front ++ header :: withoutIRQ false (upTo ++ inside) after, '%' ∉ line := by
    intro line hl
    refine hpercent line ?_
    rw [List.mem_append, List.mem_cons] at hl ⊢
    exact hl.imp_right (Or.imp_right (withoutIRQ_subset false (upTo ++ inside) after ·))
  unfold OneEntry
  cases hfind : findEntry opened (inside ++ after) with
  | closes =>
    rw [hfind] at houtput
    have hlength := withoutIRQ_length_eq_iff (upTo ++ inside) after
    rw [evaluates_written_iff houtput hexpected, ← hlength]
    constructor
    · intro heq
      have hcong := congrArg List.length heq
      simp only [List.length_append, List.length_cons] at hcong ⊢
      omega
    · intro hcount
      rw [withoutIRQ_of_none (hlength.mp hcount)]
      simp
  | entry behind =>
    rw [hfind] at houtput
    obtain ⟨kept, entry, hsplit, hentry, hkept, hrun⟩ := houtput
    have hmain := entry_right_upTo_iff (front ++ [header]) hdevice.recognized
      hdevice.behind hsplit hentry hkept
    rw [evaluates_written_iff hrun hexpected]
    simpa using hmain
  | nothing =>
    rw [hfind] at houtput
    refine iff_of_false ?_ id
    rintro ⟨t, ht, hw⟩
    have hless := houtput t ht
    have hle := withoutIRQ_length_le false (upTo ++ inside) after
    rw [hw.length_eq] at hless
    simp only [List.length_append, List.length_cons] at hless hle
    omega

/-- The lines of an RTC device up to its first IRQ entry and that entry. -/
def rtcEntry : List Line :=
  ["\x7b\n".toList, "Name (_CRS, ResourceTemplate ()\n".toList, "\x7b\n".toList,
    "IRQNoFlags ()\n".toList, "\x7b8\x7d\n".toList]

def rtcEnd : List Line := ["\x7d)\n".toList, "\x7d\n".toList]

/-- One entry, with the end of the device and a line of another one behind it. -/
theorem patchRTC_removes_rtcEntry :
    (∃ t, Evaluates patchRTC.step (patchRTC.start ([] ++ "Device (RTC)\n".toList ::
        ([] ++ (rtcEntry ++ rtcEnd) ++ ["Device (TIMR)\n".toList])).flatten) t ∧
        Written t.output ([] ++ "Device (RTC)\n".toList ::
          withoutIRQ false ([] ++ (rtcEntry ++ rtcEnd)) ["Device (TIMR)\n".toList])) ∧
      withoutIRQ false (rtcEntry ++ rtcEnd) ["Device (TIMR)\n".toList] =
        ["\x7b\n".toList, "Name (_CRS, ResourceTemplate ()\n".toList, "\x7b\n".toList,
          "\x7d)\n".toList, "\x7d\n".toList, "Device (TIMR)\n".toList] :=
  ⟨(patchRTC_removes_entries_iff [] "Device (RTC)\n".toList 0 [] (rtcEntry ++ rtcEnd)
    ["Device (TIMR)\n".toList]
    (lineStructured_of_newlines (by decide))
    (by decide)
    ⟨⟨by unfold NoDevice; decide, .name _ (by decide) (by decide),
      isBlock_of_take (by decide) (by decide) (by decide)⟩, by unfold NoDevice; decide⟩).mpr (by decide), by decide⟩

/-- The second entry of a device is kept. -/
theorem patchRTC_keeps_second_entry :
    LineStructured ("Device (RTC)\n".toList :: (rtcEntry ++ rtcEntry.drop 3 ++ rtcEnd)) ∧
      (∀ line ∈ "Device (RTC)\n".toList :: (rtcEntry ++ rtcEntry.drop 3 ++ rtcEnd), '%' ∉ line) ∧
      OneDevice RTCDevice RTCDevice2 [] "Device (RTC)\n".toList 0 []
        (rtcEntry ++ rtcEntry.drop 3 ++ rtcEnd) [] ∧
      (∃ t, Evaluates patchRTC.step (patchRTC.start
        ("Device (RTC)\n".toList :: (rtcEntry ++ rtcEntry.drop 3 ++ rtcEnd)).flatten) t ∧
        t.output = "Device (RTC)\n".toList :: (rtcEntry.take 3 ++ rtcEntry.drop 3 ++ rtcEnd)) ∧
      ¬ ∃ t, Evaluates patchRTC.step (patchRTC.start
        ("Device (RTC)\n".toList :: (rtcEntry ++ rtcEntry.drop 3 ++ rtcEnd)).flatten) t ∧
        Written t.output ("Device (RTC)\n".toList ::
          withoutIRQ false (rtcEntry ++ rtcEntry.drop 3 ++ rtcEnd) []) := by
  have hrun : ∃ t, Evaluates patchRTC.step (patchRTC.start
      ("Device (RTC)\n".toList :: (rtcEntry ++ rtcEntry.drop 3 ++ rtcEnd)).flatten) t ∧
      t.output = "Device (RTC)\n".toList :: (rtcEntry.take 3 ++ rtcEntry.drop 3 ++ rtcEnd) :=
    ⟨_, evaluates_of_evaluate (n := 20) rfl, by decide⟩
  refine ⟨lineStructured_of_newlines (by decide), by decide,
    ⟨⟨by unfold NoDevice; decide, .name _ (by decide) (by decide),
      isBlock_of_take (by decide) (by decide) (by decide)⟩, by unfold NoDevice; decide⟩, hrun, ?_⟩
  rw [evaluates_written_iff hrun (by decide)]
  decide

end Dsdt
