import NetbookInstaller.Dsdt.ConfigPass
import NetbookInstaller.Dsdt.DevicePasses

/-! A text with one device that a device pass looks for, and how the outer loop of the pass
gets to it. -/
namespace Dsdt

open Transition

/-- A line without a percent sign is written for itself only. -/
theorem formatted_eq_some_iff {format line : Line} (h : '%' ∉ line) :
    formatted format = some line ↔ format = line := by
  constructor
  · intro hformat
    induction format using formatted.induct generalizing line with
    | case1 => simpa [formatted] using hformat
    | case2 cs =>
      simp only [formatted, Option.map_eq_some_iff] at hformat
      obtain ⟨rest, -, rfl⟩ := hformat
      exact absurd List.mem_cons_self h
    | case3 cs hcs => simp_all [formatted]
    | case4 c cs h₁ h₂ ih =>
      rw [formatted] at hformat
      · obtain ⟨rest, hrest, rfl⟩ := Option.map_eq_some_iff.mp hformat
        rw [ih (fun hmem => h (List.mem_cons_of_mem c hmem)) hrest]
      · exact h₁
      · exact h₂
  · rintro rfl
    exact formatted_eq_self_iff.mpr h

theorem written_iff_eq {output lines : List Line} (h : ∀ line ∈ lines, '%' ∉ line) :
    Written output lines ↔ output = lines := by
  constructor
  · intro hw
    induction hw with
    | nil => rfl
    | @cons format line output lines hline _ ih =>
      rw [(formatted_eq_some_iff (h line List.mem_cons_self)).mp hline,
        ih fun l hl => h l (List.mem_cons_of_mem line hl)]
  · rintro rfl
    exact written_self_iff.mpr h

theorem lineStructured_of_newlines {lines : List Line}
    (h : ∀ line ∈ lines, line.getLast? = some '\n' ∧ '\n' ∉ line.dropLast ∧
      line.length ≤ BUFFER_SIZE - 1) : LineStructured lines := by
  induction lines with
  | nil => exact .nil
  | cons line lines ih =>
    obtain ⟨hlast, hnewline, hlength⟩ := h line List.mem_cons_self
    obtain ⟨front, rfl⟩ := List.getLast?_eq_some_iff.mp hlast
    rw [List.dropLast_concat] at hnewline
    rw [List.length_append] at hlength
    exact .cons front hnewline hlength (ih fun l hl => h l (List.mem_cons_of_mem _ hl))

/-- A pass that writes these lines writes what is expected if they are that. -/
theorem evaluates_written_iff {step : DevicePass → Option DevicePass} {s : DevicePass}
    {lines expected : List Line} (hrun : ∃ t, Evaluates step s t ∧ t.output = lines)
    (hpercent : ∀ line ∈ expected, '%' ∉ line) :
    (∃ t, Evaluates step s t ∧ Written t.output expected) ↔ lines = expected := by
  obtain ⟨t, ht, rfl⟩ := hrun
  constructor
  · rintro ⟨u, hu, hw⟩
    rw [← ht.unique hu] at hw
    exact (written_iff_eq hpercent).mp hw
  · intro heq
    exact ⟨t, ht, (written_iff_eq hpercent).mpr heq⟩

/-- How the device with this header and block is recognized: by its name, which only the
header has, or else by its identifier in the block. `opened` is what that adds to the count
of braces, `upTo` what the block has up to the line that is recognized, and `inside` what
follows. -/
inductive Recognized (device device2 header : Line) :
    (opened : Count) → (upTo inside : List Line) → Prop
  | name (block : List Line) (hname : cmpStr header device = true)
      (hblock : ∀ line ∈ block, cmpStr line device = false) :
      Recognized device device2 header 0 [] block
  | identifier (front : List Line) (line : Line) (inside : List Line)
      (hfront : ∀ l ∈ header :: front, cmpStr l device = false ∧ cmpStr l device2 = false)
      (hname : cmpStr line device = false) (hid : cmpStr line device2 = true)
      (hinside : ∀ l ∈ inside, cmpStr l device = false) :
      Recognized device device2 header 1 (front ++ [line]) inside

/-- None of the lines names or identifies the device. -/
def NoDevice (device device2 : Line) (lines : List Line) : Prop :=
  ∀ line ∈ lines, cmpStr line device = false ∧ cmpStr line device2 = false

/-- The first device of a text has the block `upTo ++ inside`. -/
structure FirstDevice (device device2 : Line) (front : List Line) (header : Line) (opened : Count)
    (upTo inside : List Line) : Prop where
  before : NoDevice device device2 front
  recognized : Recognized device device2 header opened upTo inside
  block : IsBlock (upTo ++ inside)

/-- A text with one device. -/
structure OneDevice (device device2 : Line) (front : List Line) (header : Line) (opened : Count)
    (upTo inside after : List Line) : Prop
    extends FirstDevice device device2 front header opened upTo inside where
  behind : NoDevice device device2 after

theorem isBlock_of_take {line : Line} {lines : List Line} (hopens : '{' ∈ line)
    (hinside : ∀ n < lines.length, 0 < depthSum ((line :: lines).take (n + 1)))
    (hbalanced : depthSum (line :: lines) = 0) : IsBlock (line :: lines) where
  opens := ⟨line, lines, rfl, hopens⟩
  inside := by
    intro p q hpq hp hq
    have hlength := congrArg List.length hpq
    have hp' := List.length_pos_iff.mpr hp
    have hq' := List.length_pos_iff.mpr hq
    simp only [List.length_cons, List.length_append] at hlength
    have htake := hinside (p.length - 1) (by omega)
    rwa [Nat.sub_add_cancel hp', hpq, List.take_left] at htake
  balanced := hbalanced

theorem Recognized.inside_name {device device2 header : Line} {opened : Count}
    {upTo inside : List Line} (h : Recognized device device2 header opened upTo inside) :
    ∀ line ∈ inside, cmpStr line device = false := by
  cases h with
  | name _ _ hblock => exact hblock
  | identifier _ _ _ _ _ _ hinside => exact hinside

theorem foundName_eq_none {device device2 : Line} {found : Bool} {line : Line} :
    DevicePass.foundName device device2 found line = none ↔
      cmpStr line device = false ∧ (cmpStr line device2 = false ∨ found = true) := by
  unfold DevicePass.foundName
  cases cmpStr line device <;> cases cmpStr line device2 <;> cases found <;> simp

/-- The line of the first device that is recognized, and the lines before it. -/
theorem FirstDevice.recognizedLine {device device2 header : Line} {front upTo inside : List Line}
    {opened : Count} (h : FirstDevice device device2 front header opened upTo inside) :
    ∃ lines line, front ++ header :: upTo = lines ++ [line] ∧ lastRead header upTo = line ∧
      NoDevice device device2 lines ∧
      DevicePass.foundName device device2 false line = some opened := by
  cases h.recognized with
  | name block hname hblock =>
    exact ⟨front, header, rfl, rfl, h.before, by simp [DevicePass.foundName, hname]⟩
  | identifier middle line inside hmiddle hname hid hinside =>
    refine ⟨front ++ header :: middle, line, by simp, lastRead_append_singleton .., ?_,
      by simp [DevicePass.foundName, hname, hid]⟩
    intro l hl
    rcases List.mem_append.mp hl with hl | hl
    · exact h.before l hl
    · exact hmiddle l hl

namespace DevicePass

variable {found : DevicePass → Option DevicePass} {inner pc : DevicePc}
  {step : DevicePass → Option DevicePass}

theorem outerStep_of_none {s : DevicePass} (h : found s.fgets = none) :
    s.outerStep found inner = s.fgets.fprintf s.fgets.buffer := by
  unfold outerStep
  dsimp only
  rw [h]

theorem outerStep_of_some {s t : DevicePass} (h : found s.fgets = some t) :
    s.outerStep found inner = { t.fprintf t.buffer with pc := inner } := by
  unfold outerStep
  dsimp only
  rw [h]

/-- An outer loop copies the lines that it finds no device in. -/
theorem reaches_copy (hstep : ∀ s, s.pc = pc → s.rest ≠ [] → step s = some (s.outerStep found inner))
    {lines rest : List Line} {s : DevicePass} (hpc : s.pc = pc) (hrest : s.rest = lines ++ rest)
    (hnone : ∀ t : DevicePass, t.buffer ∈ lines → t.rtcDeviceFound = s.rtcDeviceFound →
      t.hpetDeviceFound = s.hpetDeviceFound → found t = none) :
    Reaches step s
      { s with rest, buffer := lastRead s.buffer lines, output := s.output ++ lines } := by
  induction lines generalizing s with
  | nil =>
    rw [List.nil_append] at hrest
    subst hrest
    rw [List.append_nil]
    exact .refl _
  | cons line lines ih =>
    have hread : s.fgets = { s with rest := lines ++ rest, buffer := line } := by
      simp [fgets, hrest]
    have hfirst : step s =
        some { s with rest := lines ++ rest, buffer := line, output := s.output ++ [line] } := by
      rw [hstep s hpc (by simp [hrest]), outerStep_of_none, hread]
      · rfl
      · rw [hread]
        exact hnone _ List.mem_cons_self rfl rfl
    refine .head hfirst ?_
    rw [List.append_cons s.output line lines]
    exact ih (s := { s with rest := lines ++ rest, buffer := line, output := s.output ++ [line] })
      hpc rfl fun t ht => hnone t (List.mem_cons_of_mem line ht)

/-- The outer loop copies the rest of a text in which it finds no device. -/
theorem evaluates_copy (hstep : ∀ s, s.pc = pc → s.rest ≠ [] → step s = some (s.outerStep found inner))
    (hhalt : ∀ s, s.pc = pc → s.rest = [] → step s = none) {s : DevicePass} (hpc : s.pc = pc)
    (hnone : ∀ t : DevicePass, t.buffer ∈ s.rest → t.rtcDeviceFound = s.rtcDeviceFound →
      t.hpetDeviceFound = s.hpetDeviceFound → found t = none) :
    ∃ t, Evaluates step s t ∧ t.output = s.output ++ s.rest := by
  have hcopy := reaches_copy hstep hpc (List.append_nil _).symm hnone
  exact ⟨_, hcopy.evaluates.mpr (.halt (hhalt _ hpc rfl)), rfl⟩

/-- The outer loop gets to the line of the first device that is recognized; `rtc` and `hpet` are
the flags that it sets there. -/
theorem reaches_device (rtc hpet : Bool) (rest : List Line) {device device2 header : Line}
    {front upTo inside : List Line} {opened : Count}
    (hdevice : FirstDevice device device2 front header opened upTo inside)
    (hstep : ∀ s, s.pc = pc → s.rest ≠ [] → step s = some (s.outerStep found inner)) {s : DevicePass}
    (hpc : s.pc = pc) (hrest : s.rest = front ++ header :: (upTo ++ rest))
    (hfound : ∀ t : DevicePass, t.rtcDeviceFound = s.rtcDeviceFound →
      t.hpetDeviceFound = s.hpetDeviceFound →
      found t = (foundName device device2 false t.buffer).map fun opened =>
        { t with
          rtcDeviceFound := rtc, hpetDeviceFound := hpet,
          openBrackets := t.openBrackets + opened }) :
    Reaches step s
      { s with
        pc := inner, rest, buffer := lastRead header upTo, openBrackets := s.openBrackets + opened,
        rtcDeviceFound := rtc, hpetDeviceFound := hpet,
        output := s.output ++ (front ++ header :: upTo) } := by
  obtain ⟨lines, line, hlines, hread, hnone, hline⟩ := hdevice.recognizedLine
  have hsplit : s.rest = lines ++ line :: rest := by
    rw [hrest, ← List.cons_append, ← List.append_assoc, hlines, List.append_assoc]
    rfl
  have hcopy := reaches_copy hstep hpc hsplit fun t ht hrtc hhpet => by
    obtain ⟨hname, hid⟩ := hnone _ ht
    rw [hfound t hrtc hhpet, foundName_eq_none.mpr ⟨hname, .inl hid⟩, Option.map_none]
  have hlast : found ({ s with
      rest := line :: rest, buffer := lastRead s.buffer lines,
      output := s.output ++ lines } : DevicePass).fgets = some
        { s with
          rest, buffer := line, openBrackets := s.openBrackets + opened,
          rtcDeviceFound := rtc, hpetDeviceFound := hpet, output := s.output ++ lines } := by
    have hread := hfound { s with rest, buffer := line, output := s.output ++ lines } rfl rfl
    rw [hline, Option.map_some] at hread
    exact hread
  refine hcopy.trans (reaches_step ?_)
  rw [hstep { s with
      rest := line :: rest, buffer := lastRead s.buffer lines,
      output := s.output ++ lines } hpc (by simp), outerStep_of_some hlast]
  simp [fprintf, hlines, hread]

end DevicePass
end Dsdt
