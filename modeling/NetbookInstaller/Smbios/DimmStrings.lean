import NetbookInstaller.Text.StringTable

/-! The strings of the memory slots, which the resolver rewrites in the device tree. -/
namespace Smbios

open StringTable

def unknown : List UInt8 := "Unknown".toList.map fun c => UInt8.ofNat c.toNat

/-- The loop over the bytes of a property: what it has appended, and whether nothing of the
current string has come yet. -/
structure DimmLoop where
  memData : List UInt8
  dimmZero : Bool

def DimmLoop.step (l : DimmLoop) (dimmData : UInt8) : DimmLoop :=
  if dimmData = 0 then
    if l.dimmZero then { l with memData := l.memData ++ (unknown ++ [0]) }
    else ⟨l.memData ++ [0], true⟩
  else ⟨l.memData ++ [if dimmData = 0x20 then 0 else dimmData], false⟩

/-- The bytes that the loops see, which count with eight bits. -/
def dimmBytes (property : List UInt8) : List UInt8 :=
  property.take (UInt8.ofNat property.length).toNat

/-- The manufacturers, the serial numbers and the part numbers are all rewritten like this. -/
def dimmStrings (property : List UInt8) : List UInt8 :=
  ((dimmBytes property).foldl DimmLoop.step ⟨[], true⟩).memData

/-- The speeds are replaced by the one of the dictionary, if it has one. -/
def dimmSpeeds (dimmDictData property : List UInt8) : List UInt8 :=
  if 1 < dimmDictData.length then
    (dimmBytes property).flatMap fun dimmData =>
      if dimmData = 0 then dimmDictData ++ [0] else []
  else property

/-- What is left of a string: a blank ends it. -/
def resolved (s : List UInt8) : List (List UInt8) :=
  if s = [] then [unknown] else s.splitOn 0x20

/-- Behind a table, multiples of 256 bytes are not seen. -/
theorem dimmBytes_table {strings : List (List UInt8)} {rest : List UInt8}
    (hlength : (table 0 strings).length < 256) (hrest : 256 ∣ rest.length) :
    dimmBytes (table 0 strings ++ rest) = table 0 strings := by
  have hseen : (UInt8.ofNat (table 0 strings ++ rest).length).toNat =
      (table 0 strings).length := by
    obtain ⟨k, hk⟩ := hrest
    rw [UInt8.toNat_ofNat', List.length_append, hk, Nat.add_mul_mod_self_left,
      Nat.mod_eq_of_lt hlength]
  rw [dimmBytes, hseen, List.take_left]

theorem DimmLoop.foldl_string {s : List UInt8} (hs : (0 : UInt8) ∉ s) (l : DimmLoop) :
    s.foldl DimmLoop.step l =
      ⟨l.memData ++ s.map fun x => if x = 0x20 then 0 else x, l.dimmZero && s.isEmpty⟩ := by
  induction s generalizing l with
  | nil => simp
  | cons x s ih =>
    rw [List.mem_cons, not_or] at hs
    rw [List.foldl_cons, ih hs.2, DimmLoop.step, if_neg (Ne.symm hs.1)]
    simp

theorem DimmLoop.foldl_entry {s : List UInt8} (hs : (0 : UInt8) ∉ s) (memData : List UInt8) :
    (s ++ [0]).foldl DimmLoop.step ⟨memData, true⟩ =
      ⟨memData ++ table 0 (resolved s), true⟩ := by
  rw [List.foldl_append, DimmLoop.foldl_string hs, List.foldl_cons, List.foldl_nil,
    DimmLoop.step, if_pos rfl]
  cases s with
  | nil => simp [resolved]
  | cons x s =>
    rw [resolved, if_neg (List.cons_ne_nil x s), ← table_splitOn]
    simp

theorem DimmLoop.foldl_table {strings : List (List UInt8)} (h : ∀ s ∈ strings, (0 : UInt8) ∉ s)
    (memData : List UInt8) :
    (table 0 strings).foldl DimmLoop.step ⟨memData, true⟩ =
      ⟨memData ++ table 0 (strings.flatMap resolved), true⟩ := by
  induction strings generalizing memData with
  | nil => simp
  | cons s strings ih =>
    rw [List.forall_mem_cons] at h
    rw [table_cons, List.append_cons, List.foldl_append, DimmLoop.foldl_entry h.1, ih h.2,
      List.flatMap_cons, table_append, List.append_assoc]

theorem resolved_terminated {s : List UInt8} (hs : (0 : UInt8) ∉ s) :
    ∀ piece ∈ resolved s, (0 : UInt8) ∉ piece := by
  intro piece hpiece
  rw [resolved] at hpiece
  split_ifs at hpiece with hempty
  · rw [List.mem_singleton.mp hpiece]
    decide
  · exact fun hmem => hs (mem_of_mem_splitOn hpiece hmem)

/-- The entries of the rewritten property. -/
theorem dimmStrings_entries {strings : List (List UInt8)} (h : ∀ s ∈ strings, (0 : UInt8) ∉ s)
    (hlength : (table 0 strings).length < 256) {rest : List UInt8} (hrest : 256 ∣ rest.length) :
    entries 0 (dimmStrings (table 0 strings ++ rest)) = strings.flatMap resolved := by
  rw [dimmStrings, dimmBytes_table hlength hrest, DimmLoop.foldl_table h, List.nil_append]
  refine entries_table fun piece hpiece => ?_
  obtain ⟨s, hs, hpiece⟩ := List.mem_flatMap.mp hpiece
  exact resolved_terminated (h s hs) piece hpiece

theorem length_resolved (s : List UInt8) : (resolved s).length = s.count 0x20 + 1 := by
  rw [resolved]
  split_ifs with h
  · rw [h]
    rfl
  · exact length_splitOn s

/-- Only the ends of the old speeds count. -/
theorem flatMap_ends {dimmDictData : List UInt8} {speeds : List (List UInt8)}
    (h : ∀ s ∈ speeds, (0 : UInt8) ∉ s) :
    ((table 0 speeds).flatMap fun dimmData => if dimmData = 0 then dimmDictData ++ [0] else []) =
      table 0 (List.replicate speeds.length dimmDictData) := by
  induction speeds with
  | nil => rfl
  | cons s speeds ih =>
    rw [List.forall_mem_cons] at h
    have hs :
        (s.flatMap fun dimmData => if dimmData = 0 then dimmDictData ++ [0] else []) = [] := by
      rw [List.flatMap_eq_nil_iff]
      rintro x hx
      exact if_neg fun hzero : x = 0 => h.1 (hzero ▸ hx)
    rw [table_cons, List.flatMap_append, hs, List.flatMap_cons, if_pos rfl, ih h.2,
      List.length_cons, List.replicate_succ, table_cons]
    simp

theorem dimmSpeeds_entries {dimmDictData : List UInt8} (hspeed : 1 < dimmDictData.length)
    (hdict : (0 : UInt8) ∉ dimmDictData) {speeds : List (List UInt8)}
    (h : ∀ s ∈ speeds, (0 : UInt8) ∉ s) (hlength : (table 0 speeds).length < 256)
    {rest : List UInt8} (hrest : 256 ∣ rest.length) :
    entries 0 (dimmSpeeds dimmDictData (table 0 speeds ++ rest)) =
      List.replicate speeds.length dimmDictData := by
  rw [dimmSpeeds, if_pos hspeed, dimmBytes_table hlength hrest, flatMap_ends h]
  refine entries_table fun s hs => ?_
  exact List.eq_of_mem_replicate hs ▸ hdict

/-- The strings of the slots become their words, and fall out of step with the speeds as soon as
one of them holds a blank. -/
theorem dimm_slots {names speeds : List (List UInt8)} (hslots : names.length = speeds.length)
    (hnames : ∀ s ∈ names, (0 : UInt8) ∉ s) (hspeeds : ∀ s ∈ speeds, (0 : UInt8) ∉ s)
    (hnamesLength : (table 0 names).length < 256) (hspeedsLength : (table 0 speeds).length < 256)
    {rest rest' : List UInt8} (hrest : 256 ∣ rest.length) (hrest' : 256 ∣ rest'.length)
    {dimmDictData : List UInt8} (hspeed : 1 < dimmDictData.length)
    (hdict : (0 : UInt8) ∉ dimmDictData) :
    entries 0 (dimmStrings (table 0 names ++ rest)) = names.flatMap resolved ∧
      ((entries 0 (dimmStrings (table 0 names ++ rest))).length =
          (entries 0 (dimmSpeeds dimmDictData (table 0 speeds ++ rest'))).length ↔
        ∀ name ∈ names, (0x20 : UInt8) ∉ name) := by
  have hentries := dimmStrings_entries hnames hnamesLength hrest
  refine ⟨hentries, ?_⟩
  rw [hentries, dimmSpeeds_entries hspeed hdict hspeeds hspeedsLength hrest',
    List.length_replicate, ← hslots,
    length_flatMap_eq_iff (fun s => by rw [length_resolved]; exact Nat.le_add_left 1 _)]
  refine forall₂_congr fun name _ => ?_
  rw [length_resolved, Nat.add_eq_right, List.count_eq_zero]

/-- A module of two words in front of an empty slot. -/
theorem dimm_slots_blank :
    entries 0 (dimmStrings [0x41, 0x20, 0x42, 0, 0]) = [[0x41], [0x42], unknown] ∧
      (entries 0 (dimmStrings [0x41, 0x20, 0x42, 0, 0])).length ≠
        (entries 0 (dimmSpeeds [0x35, 0x33] [0x31, 0, 0])).length := by
  obtain ⟨hentries, hcount⟩ := @dimm_slots [[0x41, 0x20, 0x42], []] [[0x31], []] rfl (by decide)
    (by decide) (by decide) (by decide) [] [] (by decide) (by decide) [0x35, 0x33] (by decide)
    (by decide)
  exact ⟨hentries, fun h => absurd (hcount.mp h) (by decide)⟩

end Smbios
