import NetbookInstaller.Transition.Chains
import NetbookInstaller.Transition.Runs
import Mathlib.Data.Set.Insert
import Mathlib.Logic.Function.Basic

/-! The hook that the kernel calls when the root is mounted: `PostbootMounter` takes it and
keeps taking it back, while other kexts write to it. -/
namespace PostbootMounter

open Transition

/-- The functions that the hook can hold: `run_mount`, or the one of another kext. -/
inductive Hook (κ : Type*) where
  | runMount
  | kext (k : κ)
  deriving DecidableEq

/-- Where `start` is: before it saves the hook, before it writes the hook, before it looks
at the hook in the loop, or before it saves what the loop has found. -/
inductive Pc where
  | save | write | look | saveFound
  deriving DecidableEq, Repr

/-- How far another kext is. -/
inductive Phase where
  | idle | saved | installed
  deriving DecidableEq, Repr

/-- `saved` is what each kext calls from its own hook; `looked` collects the kexts that were
called from the hook when `start` read it. -/
structure State (κ : Type*) where
  mountrootPostHook : Option (Hook κ)
  oldMountrootPostHook : Option (Hook κ)
  saved : κ → Option (Hook κ)
  phase : κ → Phase
  pc : Pc
  looked : Set κ

/-- One access of `start` to the hook, or one of another kext. A kext that installs its hook
without saving the old one overwrites it. -/
inductive Action (κ : Type*) where
  | start
  | save (k : κ)
  | install (k : κ)
  deriving DecidableEq

variable {κ : Type*}

namespace State

/-- What a function calls: `run_mount` the old hook, and a kext what it has saved. -/
def next (s : State κ) : Hook κ → Option (Hook κ)
  | .runMount => s.oldMountrootPostHook
  | .kext k => s.saved k

/-- What the kexts call, `run_mount` being taken for the end. -/
def below (s : State κ) : Hook κ → Option (Hook κ)
  | .runMount => none
  | .kext k => s.saved k

def look (s : State κ) : State κ :=
  { s with looked := s.looked ∪ {k | LeadsTo s.next s.mountrootPostHook (.kext k)} }

section Kext
variable [DecidableEq κ] (s : State κ) {j k : κ}

def save (k : κ) : State κ :=
  { s with
    saved := Function.update s.saved k s.mountrootPostHook
    phase := Function.update s.phase k .saved }

def install (k : κ) : State κ :=
  { s with
    mountrootPostHook := some (.kext k)
    phase := Function.update s.phase k .installed }

@[simp] theorem saved_save_self : (s.save k).saved k = s.mountrootPostHook :=
  Function.update_self ..

@[simp] theorem phase_save_self : (s.save k).phase k = .saved :=
  Function.update_self ..

theorem saved_save_of_ne (h : j ≠ k) : (s.save k).saved j = s.saved j :=
  Function.update_of_ne h ..

theorem phase_save_of_ne (h : j ≠ k) : (s.save k).phase j = s.phase j :=
  Function.update_of_ne h ..

@[simp] theorem phase_install_self : (s.install k).phase k = .installed :=
  Function.update_self ..

theorem phase_install_of_ne (h : j ≠ k) : (s.install k).phase j = s.phase j :=
  Function.update_of_ne h ..

end Kext
end State

/-- `start` comes here when the registry has no memory map, and its loop goes on as long as
`run_mount` has not been called. -/
def step [DecidableEq κ] (s : State κ) : Action κ → Option (State κ)
  | .start =>
    match s.pc with
    | .save => some { s.look with oldMountrootPostHook := s.mountrootPostHook, pc := .write }
    | .write => some { s with mountrootPostHook := some .runMount, pc := .look }
    | .look =>
      if s.mountrootPostHook ≠ some .runMount then
        some { s.look with pc := if s.oldMountrootPostHook = none then .saveFound else .write }
      else some s.look
    | .saveFound =>
      some { s.look with oldMountrootPostHook := s.mountrootPostHook, pc := .write }
  | .save k => if s.phase k = .idle then some (s.save k) else none
  | .install k => if s.phase k ≠ .installed then some (s.install k) else none

def initial : State κ :=
  ⟨none, none, fun _ => none, fun _ => .idle, .save, ∅⟩

/-- The call of the hook ends, runs `run_mount` once, and runs once the hook of each kext
that was there when `start` looked. -/
def CalledOnce [DecidableEq κ] (s : State κ) : Prop :=
  ∃ calls, Chain s.next s.mountrootPostHook calls ∧ calls.count .runMount = 1 ∧
    ∀ k ∈ s.looked, calls.count (.kext k) = 1

/-- `run_mount` is in the hook, or a kext that was chained on top of it. -/
def Holds (s : State κ) : Prop :=
  LeadsTo s.below s.mountrootPostHook .runMount

/-- What `start` finds in the hook is its own, or the first that it finds and not chained on
top of its own; and what is written before it saves that one calls all it has found. -/
def Safe (s : State κ) : Action κ → Prop
  | .start => s.pc = .look → s.mountrootPostHook ≠ some .runMount →
      s.oldMountrootPostHook = none ∧ ¬ Holds s
  | .save _ => True
  | .install k => s.pc = .saveFound → ∀ j ∈ s.looked, LeadsTo s.below (s.saved k) (.kext j)

/-- The hooks that somebody holds. -/
inductive Held (s : State κ) : Option (Hook κ) → Prop
  | slot : Held s s.mountrootPostHook
  | old : Held s s.oldMountrootPostHook
  | saved (k : κ) (hphase : s.phase k ≠ .idle) : Held s (s.saved k)

/-- What leads to the hooks that `start` has found. -/
def State.kept (s : State κ) : Option (Hook κ) :=
  if s.pc = .saveFound then s.mountrootPostHook else s.oldMountrootPostHook

/-- Every hook that somebody holds leads through installed kexts to an end, and `start` calls
what it has found without coming back to itself. -/
structure Kept (s : State κ) : Prop where
  idle : ∀ k, s.phase k = .idle → s.saved k = none
  held : ∀ o, Held s o → ∃ l, Chain s.below o l ∧ ∀ k, .kext k ∈ l → s.phase k = .installed
  old : ¬ LeadsTo s.below s.oldMountrootPostHook .runMount
  looked : ∀ k ∈ s.looked, LeadsTo s.below s.kept (.kext k)
  beforeSave : s.pc = .save →
    s.oldMountrootPostHook = none ∧ ∀ o, Held s o → ¬ LeadsTo s.below o .runMount
  found : s.pc = .saveFound →
    s.oldMountrootPostHook = none ∧ ¬ Holds s ∧ s.looked.Nonempty
  taken : s.pc = .look → s.mountrootPostHook ≠ none
  fresh : s.pc = .look → ∀ k, s.mountrootPostHook = some (.kext k) →
    ¬ LeadsTo s.below s.oldMountrootPostHook (.kext k)

section Calls
variable {s : State κ} {o : Option (Hook κ)} {l : List (Hook κ)}

/-- Below `run_mount` the two ways to follow the calls agree. -/
theorem chain_next (hl : Chain s.below o l) (hplain : ¬ LeadsTo s.below o .runMount) :
    Chain s.next o l := by
  refine hl.congr fun a ha => ?_
  cases a with
  | runMount => exact absurd (hl.mem_iff.mp ha) hplain
  | kext k => rfl

theorem leadsTo_next_iff (hl : Chain s.below o l) (hplain : ¬ LeadsTo s.below o .runMount)
    {a : Hook κ} : LeadsTo s.next o a ↔ LeadsTo s.below o a :=
  (chain_next hl hplain).mem_iff.symm.trans hl.mem_iff

/-- The first time that the calls come to `run_mount`, what it calls does not matter. -/
theorem leadsTo_runMount {f g : Hook κ → Option (Hook κ)} (hkext : ∀ k, f (.kext k) = g (.kext k))
    (h : LeadsTo f o .runMount) : LeadsTo g o .runMount := by
  generalize ha : Hook.runMount = a at h
  induction h with
  | here => exact .here _
  | @step b c h ih =>
    subst ha
    cases b with
    | runMount => exact .here _
    | kext k => exact .step (hkext k ▸ ih rfl)

/-- Nothing comes behind `run_mount`. -/
theorem not_leadsTo_below {k : κ} : ¬ LeadsTo s.below (some .runMount) (.kext k) := by
  intro h
  rcases leadsTo_some_iff.mp h with h | h
  · cases h
  · exact not_leadsTo_none h

/-- `run_mount` is called back by what it calls. -/
theorem not_chain_of_calledBack (hslot : s.mountrootPostHook = some .runMount)
    (hloop : LeadsTo s.next s.oldMountrootPostHook .runMount) :
    ¬ ∃ calls, Chain s.next s.mountrootPostHook calls := by
  rintro ⟨calls, hcalls⟩
  rw [hslot] at hcalls
  exact not_chain_of_loop (.here _) hloop hcalls

end Calls

theorem kept_initial : Kept (initial : State κ) := by
  have hheld (o : Option (Hook κ)) (ho : Held initial o) : o = none := by
    cases ho with
    | slot => rfl
    | old => rfl
    | saved k hphase => rfl
  refine ⟨fun _ _ => rfl, fun o ho => ?_, not_leadsTo_none, fun k hk => absurd hk id,
    fun _ => ⟨rfl, fun o ho => ?_⟩, nofun, nofun, nofun⟩
  · rw [hheld o ho]
    exact ⟨[], .nil, nofun⟩
  · rw [hheld o ho]
    exact not_leadsTo_none

namespace Kept
variable {s : State κ}

theorem kept_of_ne (hpc : s.pc ≠ .saveFound) {k : κ} (hs : Kept s) (hk : k ∈ s.looked) :
    LeadsTo s.below s.oldMountrootPostHook (.kext k) := by
  have hlooked := hs.looked k hk
  rw [State.kept, if_neg hpc] at hlooked
  exact hlooked

/-- What the loop finds in place of its own hook is the one of a kext. -/
theorem exists_kext (hs : Kept s) (hpc : s.pc = .look)
    (hown : s.mountrootPostHook ≠ some .runMount) :
    ∃ k, s.mountrootPostHook = some (.kext k) := by
  cases hslot : s.mountrootPostHook with
  | none => exact absurd hslot (hs.taken hpc)
  | some hook =>
    cases hook with
    | runMount => exact absurd hslot hown
    | kext k => exact ⟨k, rfl⟩

/-- What a kext calls was held by somebody, or is nothing. -/
theorem held_saved (hs : Kept s) (k : κ) : Held s (s.saved k) ∨ s.saved k = none := by
  by_cases hidle : s.phase k = .idle
  · exact .inr (hs.idle k hidle)
  · exact .inl (.saved k hidle)

theorem chain_saved (hs : Kept s) (k : κ) :
    ∃ l, Chain s.below (s.saved k) l ∧ ∀ j, .kext j ∈ l → s.phase j = .installed := by
  rcases hs.held_saved k with hsaved | hsaved
  · exact hs.held _ hsaved
  · exact ⟨[], hsaved ▸ .nil, nofun⟩

/-- What `start` saves is what it has just looked at, when that does not lead back to it. -/
theorem saveHook (hs : Kept s) (hplain : ¬ Holds s)
    (hlooked : ∀ k ∈ s.looked, LeadsTo s.below s.mountrootPostHook (.kext k)) :
    Kept { s.look with oldMountrootPostHook := s.mountrootPostHook, pc := .write } := by
  obtain ⟨l, hl, hinstalled⟩ := hs.held _ .slot
  have hheld (o : Option (Hook κ)) (ho : Held { s.look with
      oldMountrootPostHook := s.mountrootPostHook, pc := .write } o) : Held s o := by
    cases ho with
    | slot => exact .slot
    | old => exact .slot
    | saved k hphase => exact .saved k hphase
  refine ⟨hs.idle, fun o ho => hs.held o (hheld o ho), hplain, ?_, nofun, nofun, nofun, nofun⟩
  rintro k (hk | hk)
  · exact hlooked k hk
  · exact (leadsTo_next_iff hl hplain).mp hk

theorem writeHook (hs : Kept s) (hpc : s.pc = .write) :
    Kept { s with mountrootPostHook := some .runMount, pc := .look } := by
  refine ⟨hs.idle, fun o ho => ?_, hs.old, fun k hk => ?_, nofun, nofun, nofun,
    nofun⟩
  · cases ho with
    | slot => exact ⟨[.runMount], .cons .nil, by simp⟩
    | old => exact hs.held _ .old
    | saved k hphase => exact hs.held _ (.saved k hphase)
  · exact hs.kept_of_ne (by rw [hpc]; decide) hk

theorem lookOwn (hs : Kept s) (hpc : s.pc = .look)
    (hown : s.mountrootPostHook = some .runMount) : Kept s.look := by
  have hne : s.pc ≠ .saveFound := by
    rw [hpc]
    decide
  obtain ⟨l, hl, -⟩ := hs.held _ .old
  refine ⟨hs.idle, fun o ho => ?_, hs.old, ?_, ?_, ?_, hs.taken, hs.fresh⟩
  · cases ho with
    | slot => exact hs.held _ .slot
    | old => exact hs.held _ .old
    | saved k hphase => exact hs.held _ (.saved k hphase)
  · rw [State.kept, if_neg (show s.look.pc ≠ .saveFound from hne)]
    rintro k (hk | hk)
    · exact hs.kept_of_ne hne hk
    · rw [hown] at hk
      rcases leadsTo_some_iff.mp hk with hk | hk
      · cases hk
      · exact (leadsTo_next_iff hl hs.old).mp hk
  · intro (hsave : s.pc = .save)
    rw [hpc] at hsave
    cases hsave
  · exact fun hfound => absurd hfound hne

theorem lookFound (hs : Kept s) (hpc : s.pc = .look) (hold : s.oldMountrootPostHook = none)
    (hplain : ¬ Holds s) : Kept { s.look with pc := .saveFound } := by
  obtain ⟨l, hl, -⟩ := hs.held _ .slot
  have hnone (k : κ) : k ∉ s.looked := by
    intro hk
    have hlooked := hs.kept_of_ne (by rw [hpc]; decide) hk
    rw [hold] at hlooked
    exact not_leadsTo_none hlooked
  refine ⟨hs.idle, fun o ho => ?_, hs.old, ?_, nofun, fun _ => ⟨hold, hplain, ?_⟩, nofun,
    nofun⟩
  · cases ho with
    | slot => exact hs.held _ .slot
    | old => exact hs.held _ .old
    | saved k hphase => exact hs.held _ (.saved k hphase)
  · rintro k (hk | hk)
    · exact absurd hk (hnone k)
    · exact (leadsTo_next_iff hl hplain).mp hk
  · have hown : s.mountrootPostHook ≠ some .runMount := by
      intro hown
      refine hplain ?_
      rw [Holds, hown]
      exact .here _
    obtain ⟨k, hk⟩ := hs.exists_kext hpc hown
    refine ⟨k, .inr ?_⟩
    rw [hk]
    exact .here _

variable [DecidableEq κ]

/-- Once the hook leads to `run_mount`, a call runs everything once. -/
theorem calledOnce (hs : Kept s) (hholds : Holds s) : CalledOnce s := by
  obtain ⟨l, hl, -⟩ := hs.held _ .slot
  obtain ⟨lold, hlold, -⟩ := hs.held _ .old
  have hnext : ∀ b : Hook κ, b ≠ .runMount → s.next b = s.below b := by
    intro b hb
    cases b with
    | runMount => exact absurd rfl hb
    | kext k => rfl
  have hcalls : Chain s.next s.mountrootPostHook (l ++ lold) :=
    hl.splice (hl.mem_iff.mpr hholds) rfl hnext (chain_next hlold hs.old)
  refine ⟨l ++ lold, hcalls, ?_, fun k hk => ?_⟩
  · exact List.count_eq_one_of_mem hcalls.nodup
      (List.mem_append_left _ (hl.mem_iff.mpr hholds))
  · have hpc : s.pc ≠ .saveFound := fun hpc => (hs.found hpc).2.1 hholds
    have hlooked := hs.looked k hk
    rw [State.kept, if_neg hpc] at hlooked
    exact List.count_eq_one_of_mem hcalls.nodup
      (List.mem_append_right _ (hlold.mem_iff.mpr hlooked))

theorem install (hs : Kept s) {k : κ} (hphase : s.phase k ≠ .installed)
    (hsafe : Safe s (.install k)) : Kept (s.install k) := by
  have hinstalled (j : κ) (hj : s.phase j = .installed) : (s.install k).phase j = .installed := by
    by_cases h : j = k
    · exact h ▸ s.phase_install_self
    · rw [s.phase_install_of_ne h, hj]
  have hsaved := hs.held_saved k
  have hchain := hs.chain_saved k
  have hheld (o : Option (Hook κ)) (ho : Held (s.install k) o) :
      o = some (.kext k) ∨ o = s.saved k ∨ Held s o := by
    cases ho with
    | slot => exact .inl rfl
    | old => exact .inr (.inr .old)
    | saved j hphase =>
      by_cases hj : j = k
      · exact .inr (.inl (hj ▸ rfl))
      · rw [s.phase_install_of_ne hj] at hphase
        exact .inr (.inr (.saved j hphase))
  refine ⟨?_, ?_, hs.old, ?_, ?_, ?_, nofun, ?_⟩
  · intro j hj
    have hne : j ≠ k := by
      rintro rfl
      rw [State.phase_install_self] at hj
      cases hj
    exact hs.idle j (s.phase_install_of_ne hne ▸ hj)
  · intro o ho
    rcases hheld o ho with rfl | rfl | ho
    · obtain ⟨l, hl, hl'⟩ := hchain
      refine ⟨.kext k :: l, .cons hl, fun j hj => ?_⟩
      rcases List.mem_cons.mp hj with hj | hj
      · obtain rfl := Hook.kext.inj hj
        exact s.phase_install_self
      · exact hinstalled j (hl' j hj)
    · obtain ⟨l, hl, hl'⟩ := hchain
      exact ⟨l, hl, fun j hj => hinstalled j (hl' j hj)⟩
    · obtain ⟨l, hl, hl'⟩ := hs.held o ho
      exact ⟨l, hl, fun j hj => hinstalled j (hl' j hj)⟩
  · intro j hj
    by_cases hpc : s.pc = .saveFound
    · have hcalls := hsafe hpc j hj
      rw [State.kept, if_pos (show (s.install k).pc = .saveFound from hpc)]
      exact .step hcalls
    · have hlooked := hs.looked j hj
      rw [State.kept, if_neg hpc] at hlooked
      rw [State.kept, if_neg (show (s.install k).pc ≠ .saveFound from hpc)]
      exact hlooked
  · intro hpc
    obtain ⟨hold, hplain⟩ := hs.beforeSave hpc
    have hnew : ¬ LeadsTo s.below (s.saved k) .runMount := by
      rcases hsaved with hsaved | hsaved
      · exact hplain _ hsaved
      · rw [hsaved]
        exact not_leadsTo_none
    refine ⟨hold, fun o ho h => ?_⟩
    rcases hheld o ho with rfl | rfl | ho
    · rcases leadsTo_some_iff.mp h with h | h
      · cases h
      · exact hnew h
    · exact hnew h
    · exact hplain o ho h
  · intro (hpc : s.pc = .saveFound)
    obtain ⟨hold, hplain, j, hj⟩ := hs.found hpc
    refine ⟨hold, fun h => ?_, j, hj⟩
    have hfound := hs.looked j hj
    rw [State.kept, if_pos hpc] at hfound
    rcases leadsTo_some_iff.mp h with h | h
    · cases h
    · rcases (hsafe hpc j hj).linear h with h | h
      · exact hplain (hfound.trans h)
      · exact not_leadsTo_below h
  · intro _ j hj h
    obtain rfl := Hook.kext.inj (Option.some.inj hj)
    obtain ⟨l, hl, hl'⟩ := hs.held _ .old
    exact hphase (hl' k (hl.mem_iff.mpr h))

theorem save (hs : Kept s) {k : κ} (hidle : s.phase k = .idle) : Kept (s.save k) := by
  -- no call leads through a kext that has not installed its hook
  have hchain {o : Option (Hook κ)} (ho : Held s o) : ∃ l, Chain s.below o l ∧
      Chain (s.save k).below o l ∧ ∀ j, .kext j ∈ l → (s.save k).phase j = .installed := by
    obtain ⟨l, hl, hinstalled⟩ := hs.held _ ho
    have hne (j : κ) (hj : .kext j ∈ l) : j ≠ k := by
      rintro rfl
      have h := hinstalled j hj
      rw [hidle] at h
      cases h
    refine ⟨l, hl, hl.congr fun a ha => ?_, fun j hj => ?_⟩
    · cases a with
      | runMount => rfl
      | kext j => exact s.saved_save_of_ne (hne j ha)
    · rw [s.phase_save_of_ne (hne j hj)]
      exact hinstalled j hj
  have hleads {o : Option (Hook κ)} (ho : Held s o) (a : Hook κ) :
      LeadsTo (s.save k).below o a ↔ LeadsTo s.below o a := by
    obtain ⟨l, hl, hl', -⟩ := hchain ho
    exact hl'.mem_iff.symm.trans hl.mem_iff
  have hheld (o : Option (Hook κ)) (ho : Held (s.save k) o) : Held s o := by
    cases ho with
    | slot => exact .slot
    | old => exact .old
    | saved j hphase =>
      by_cases hj : j = k
      · rw [hj, State.saved_save_self]
        exact .slot
      · rw [s.saved_save_of_ne hj]
        exact .saved j (s.phase_save_of_ne hj ▸ hphase)
  have hkept : Held s s.kept := by
    rw [State.kept]
    split
    · exact .slot
    · exact .old
  refine ⟨?_, ?_, ?_, ?_, ?_, ?_, hs.taken, ?_⟩
  · intro j hj
    have hne : j ≠ k := by
      rintro rfl
      rw [State.phase_save_self] at hj
      cases hj
    rw [s.saved_save_of_ne hne]
    exact hs.idle j (s.phase_save_of_ne hne ▸ hj)
  · intro o ho
    obtain ⟨l, -, hl', hinstalled⟩ := hchain (hheld o ho)
    exact ⟨l, hl', hinstalled⟩
  · exact fun h => hs.old ((hleads .old _).mp h)
  · exact fun j hj => (hleads hkept _).mpr (hs.looked j hj)
  · intro hpc
    obtain ⟨hold, hplain⟩ := hs.beforeSave hpc
    exact ⟨hold, fun o ho h => hplain o (hheld o ho) ((hleads (hheld o ho) _).mp h)⟩
  · intro hpc
    obtain ⟨hold, hplain, hlooked⟩ := hs.found hpc
    exact ⟨hold, fun h => hplain ((hleads .slot _).mp h), hlooked⟩
  · exact fun hpc j hj h => hs.fresh hpc j hj ((hleads .old _).mp h)

theorem start (hs : Kept s) (hsafe : Safe s .start) {t : State κ} (ht : step s .start = some t) :
    Kept t := by
  cases hpc : s.pc with
  | save =>
    rw [step, hpc] at ht
    obtain rfl := Option.some.inj ht
    obtain ⟨hold, hplain⟩ := hs.beforeSave hpc
    refine hs.saveHook (hplain _ .slot) fun k hk => ?_
    have hnone := hs.kept_of_ne (by rw [hpc]; decide) hk
    rw [hold] at hnone
    exact absurd hnone not_leadsTo_none
  | write =>
    rw [step, hpc] at ht
    obtain rfl := Option.some.inj ht
    exact hs.writeHook hpc
  | look =>
    rw [step, hpc] at ht
    by_cases hown : s.mountrootPostHook = some .runMount
    · obtain rfl : s.look = t := by simpa [hown] using ht
      exact hs.lookOwn hpc hown
    · obtain ⟨hold, hplain⟩ := hsafe hpc hown
      obtain rfl : { s.look with pc := .saveFound } = t := by simpa [hown, hold] using ht
      exact hs.lookFound hpc hold hplain
  | saveFound =>
    rw [step, hpc] at ht
    obtain rfl := Option.some.inj ht
    refine hs.saveHook (hs.found hpc).2.1 fun k hk => ?_
    have hlooked := hs.looked k hk
    rw [State.kept, if_pos hpc] at hlooked
    exact hlooked

theorem step (hs : Kept s) {a : Action κ} (hsafe : Safe s a) {t : State κ}
    (ht : step s a = some t) : Kept t := by
  cases a with
  | start => exact hs.start hsafe ht
  | save k =>
    obtain ⟨hidle, rfl⟩ := Option.ite_none_right_eq_some.mp ht |>.imp_right Option.some.inj
    exact hs.save hidle
  | install k =>
    obtain ⟨hphase, rfl⟩ := Option.ite_none_right_eq_some.mp ht |>.imp_right Option.some.inj
    exact hs.install hphase hsafe

end Kept

section Unsafe
variable [DecidableEq κ] {s : State κ}

/-- The loop has saved what it has found and written the hook again. -/
def State.retaken (s : State κ) : State κ :=
  { s.look with
    mountrootPostHook := some .runMount
    oldMountrootPostHook := s.mountrootPostHook
    pc := .look }

theorem run_saveFound (hpc : s.pc = .saveFound) :
    run step s [.start, .start] = some s.retaken := by
  obtain ⟨slot, old, saved, phase, pc, looked⟩ := s
  obtain rfl : pc = .saveFound := hpc
  rfl

theorem not_calledOnce_of_loop (hslot : s.mountrootPostHook = some .runMount)
    (hloop : LeadsTo s.next s.oldMountrootPostHook .runMount) : ¬ CalledOnce s := by
  rintro ⟨calls, hcalls, -⟩
  exact not_chain_of_calledBack hslot hloop ⟨calls, hcalls⟩

theorem not_calledOnce_of_lost {k : κ} (hk : k ∈ s.looked)
    (hlost : ¬ LeadsTo s.next s.mountrootPostHook (.kext k)) : ¬ CalledOnce s := by
  rintro ⟨calls, hcalls, -, hlooked⟩
  refine hlost (hcalls.mem_iff.mp (List.count_pos_iff.mp ?_))
  rw [hlooked k hk]
  exact Nat.one_pos

namespace Kept

theorem calledOnce_iff (hs : Kept s) : CalledOnce s ↔ Holds s := by
  refine ⟨fun hcalled => ?_, hs.calledOnce⟩
  obtain ⟨calls, hcalls, hcount, -⟩ := hcalled
  have hmem : Hook.runMount ∈ calls := by
    rw [← List.count_pos_iff, hcount]
    exact Nat.one_pos
  exact leadsTo_runMount (f := s.next) (fun _ => rfl) (hcalls.mem_iff.mp hmem)

/-- What is found while another hook is saved already is dropped, and what was chained on
top of `run_mount` closes a cycle. -/
theorem unsafe_look (hs : Kept s) (hpc : s.pc = .look) (hown : s.mountrootPostHook ≠ some .runMount)
    (hnotSafe : s.oldMountrootPostHook ≠ none ∨ Holds s) {u : State κ}
    (hu : PostbootMounter.step s .start = some u) :
    ∃ n t, run PostbootMounter.step u (List.replicate n .start) = some t ∧
      t.mountrootPostHook = some .runMount ∧ ¬ CalledOnce t := by
  rw [PostbootMounter.step, hpc] at hu
  by_cases hold : s.oldMountrootPostHook = none
  · obtain rfl : { s.look with pc := .saveFound } = u := by simpa [hown, hold] using hu
    refine ⟨2, _, run_saveFound rfl, rfl, not_calledOnce_of_loop rfl ?_⟩
    exact leadsTo_runMount (f := s.below) (fun _ => rfl)
      (hnotSafe.resolve_left (not_not.mpr hold))
  · obtain rfl : { s.look with pc := .write } = u := by simpa [hown, hold] using hu
    refine ⟨1, _, rfl, rfl, ?_⟩
    obtain ⟨k, hk⟩ := hs.exists_kext hpc hown
    obtain ⟨l, hl, -⟩ := hs.held _ .old
    refine not_calledOnce_of_lost (k := k) (.inr ?_) fun h => ?_
    · rw [hk]
      exact .here _
    · rcases leadsTo_some_iff.mp h with h | h
      · cases h
      · exact hs.fresh hpc k hk ((leadsTo_next_iff hl hs.old).mp h)

/-- What is written before `start` saves what it has found replaces it. -/
theorem unsafe_install (hs : Kept s) (hpc : s.pc = .saveFound) {j k : κ}
    (hphase : s.phase k ≠ .installed) (hj : j ∈ s.looked)
    (hnotSafe : ¬ LeadsTo s.below (s.saved k) (.kext j)) :
    ∃ n t, run PostbootMounter.step (s.install k) (List.replicate n .start) = some t ∧
      t.mountrootPostHook = some .runMount ∧ ¬ CalledOnce t := by
  refine ⟨2, _, run_saveFound hpc, rfl, ?_⟩
  by_cases hloop : LeadsTo s.below (s.saved k) .runMount
  · exact not_calledOnce_of_loop rfl
      (.step (leadsTo_runMount (f := s.below) (fun _ => rfl) hloop))
  · refine not_calledOnce_of_lost (k := j) (.inl hj) fun h => ?_
    obtain ⟨l, hl, -⟩ := hs.chain_saved k
    rcases leadsTo_some_iff.mp h with h | h
    · cases h
    rcases leadsTo_some_iff.mp h with h | h
    · obtain rfl := Hook.kext.inj h
      have hfound := hs.looked k hj
      rw [State.kept, if_pos hpc] at hfound
      obtain ⟨l', hl', hinstalled⟩ := hs.held _ .slot
      exact hphase (hinstalled k (hl'.mem_iff.mpr hfound))
    · exact hnotSafe ((leadsTo_next_iff (s := (s.install k).retaken) hl hloop).mp h)

/-- After an unsafe step, `start` only has to take the hook back for the call to go wrong. -/
theorem unsafe_step (hs : Kept s) {a : Action κ} (hnotSafe : ¬ Safe s a) {u : State κ}
    (hu : PostbootMounter.step s a = some u) :
    ∃ n t, run PostbootMounter.step u (List.replicate n .start) = some t ∧
      t.mountrootPostHook = some .runMount ∧ ¬ CalledOnce t := by
  cases a with
  | start =>
    simp only [Safe, not_forall, not_and_or, not_not] at hnotSafe
    obtain ⟨hpc, hown, hnotSafe⟩ := hnotSafe
    exact hs.unsafe_look hpc hown hnotSafe hu
  | save k => exact absurd trivial hnotSafe
  | install k =>
    simp only [Safe, not_forall] at hnotSafe
    obtain ⟨hpc, j, hj, hnotSafe⟩ := hnotSafe
    obtain ⟨hphase, rfl⟩ := Option.ite_none_right_eq_some.mp hu |>.imp_right Option.some.inj
    exact hs.unsafe_install hpc hphase hj hnotSafe

end Kept
end Unsafe

/-- A run is safe when `start` finds at most one hook besides its own, not chained on top of
its own, and nobody replaces that one before it is saved. Behind a safe run the call of the
hook runs everything once as long as no kext has overwritten what `start` wrote; and a step
that is not safe makes it go wrong as soon as `start` takes the hook back. -/
theorem run_calledOnce_iff [DecidableEq κ] {as : List (Action κ)} {s : State κ}
    (hsafe : Guarded step Safe initial as) (hs : run step initial as = some s) :
    (CalledOnce s ↔ Holds s) ∧
      ∀ a u, step s a = some u → ¬ Safe s a →
        ∃ n t, run step u (List.replicate n .start) = some t ∧
          t.mountrootPostHook = some .runMount ∧ ¬ CalledOnce t := by
  have hkept := guarded_run_invariant (fun _ _ _ hs ha h => hs.step ha h) kept_initial hsafe hs
  exact ⟨hkept.calledOnce_iff, fun a u hu ha => hkept.unsafe_step ha hu⟩

/-- A kext overwrites the hook that `start` wrote, and `start` takes it back. -/
def overwritten : List (Action Bool) :=
  [.start, .start, .install true, .start, .start, .start]

/-- The second kext that does so is found and dropped. -/
theorem secondHook_dropped :
    ∃ t, run step initial (overwritten ++ [.install false, .start, .start]) = some t ∧
      t.mountrootPostHook = some .runMount ∧ ¬ CalledOnce t := by
  refine ⟨_, rfl, rfl, not_calledOnce_of_lost (k := false) (.inr (.here _)) fun h => ?_⟩
  rcases leadsTo_some_iff.mp h with h | h
  · cases h
  rcases leadsTo_some_iff.mp h with h | h
  · cases h
  · exact not_leadsTo_none h

/-- A kext that calls `run_mount` from its own hook is called by it in turn. -/
theorem savedRunMount_loops :
    ∃ t, run step initial [.start, .start, .save true, .install true, .start, .start, .start] =
        some t ∧ t.mountrootPostHook = some .runMount ∧
      ¬ ∃ calls, Chain t.next t.mountrootPostHook calls :=
  ⟨_, rfl, rfl, not_chain_of_calledBack rfl (.step (.here _))⟩

theorem overwritten_safe : Guarded step Safe (initial : State Bool) overwritten := by
  refine ⟨nofun, fun t ht => ?_⟩
  obtain rfl := Option.some.inj ht
  refine ⟨nofun, fun t ht => ?_⟩
  obtain rfl := Option.some.inj ht
  refine ⟨nofun, fun t ht => ?_⟩
  obtain rfl := Option.some.inj ht
  refine ⟨fun _ _ => ⟨rfl, fun h => ?_⟩, fun t ht => ?_⟩
  · rcases leadsTo_some_iff.mp h with h | h
    · cases h
    · exact not_leadsTo_none h
  obtain rfl := Option.some.inj ht
  refine ⟨nofun, fun t ht => ?_⟩
  obtain rfl := Option.some.inj ht
  exact ⟨nofun, fun t ht => trivial⟩

theorem overwritten_calledOnce :
    ∃ s, run step initial overwritten = some s ∧ CalledOnce s :=
  ⟨_, rfl, (run_calledOnce_iff overwritten_safe rfl).1.mpr (.here _)⟩

end PostbootMounter
