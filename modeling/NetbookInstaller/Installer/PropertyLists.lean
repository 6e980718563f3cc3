import NetbookInstaller.Transition.Runs
import Mathlib.Data.List.Induction

/-! The property lists for hibernation and quiet boot: how they are set and read, call after call.
`none` as a result is an exception, for an entry that is not of the class its message is for. -/
namespace PropertyLists

open Transition

/-- A value of a property list; dates, data and arrays are `other`. -/
inductive Value where
  | string (s : String)
  | number (n : ℤ)
  | other (description : String)
  | dict (entries : String → Option Value)

abbrev Dictionary := String → Option Value

def setObject (d : Dictionary) (object : Value) (key : String) : Dictionary :=
  fun k => if k = key then some object else d k

def removeObject (d : Dictionary) (key : String) : Dictionary :=
  fun k => if k = key then none else d k

def initWithDictionary : Option Value → Option Dictionary
  | none => some fun _ => none
  | some (.dict entries) => some entries
  | some _ => none

def objectForKey (key : String) : Option Value → Option (Option Value)
  | none => some none
  | some (.dict entries) => some (entries key)
  | some _ => none

/-- The number that a text starts with. -/
def stringIntValue (s : String) : ℤ :=
  match s.toList.dropWhile Char.isWhitespace with
  | '-' :: cs => -Nat.ofDigitChars 10 (cs.takeWhile Char.isDigit) 0
  | '+' :: cs => Nat.ofDigitChars 10 (cs.takeWhile Char.isDigit) 0
  | cs => Nat.ofDigitChars 10 (cs.takeWhile Char.isDigit) 0

/-- The result is an `int`: a number loses its higher bits, that of a string is the nearest one. -/
def intValue : Option Value → Option Int32
  | none => some 0
  | some (.number n) => some (.ofInt n)
  | some (.string s) => some (.ofInt (max (-2 ^ 31) (min (stringIntValue s) (2 ^ 31 - 1))))
  | some _ => none

def isEqualToString (s : String) : Option Value → Option Bool
  | none => some false
  | some (.string t) => some (t = s)
  | some _ => none

/-- `com.apple.PowerManagement.plist` and `/Extra/com.apple.Boot.plist` of the target. -/
structure Target where
  power : Option Dictionary
  boot : Option Dictionary

/-- The property lists that come with the installer: those of `General` and, if it has one, that of
the machine. -/
structure SupportFiles where
  generalPower : Dictionary
  machinePower : Option Dictionary
  generalBoot : Dictionary

/-- What is there after the default ones have been copied. -/
def SupportFiles.defaultPower (s : SupportFiles) : Dictionary := s.machinePower.getD s.generalPower

/-- What `disableHibernation:` makes of the property list. -/
def withHibernateMode (state : Int32) (propertyList : Dictionary) : Option Dictionary := do
  let powerStates ← initWithDictionary (propertyList "Custom Profile")
  let acPowerState ← initWithDictionary (powerStates "AC Power")
  let battPowerState ← initWithDictionary (powerStates "Battery Power")
  let acPowerState := setObject acPowerState (.number state.toInt) "Hibernate Mode"
  let battPowerState := setObject battPowerState (.number state.toInt) "Hibernate Mode"
  let powerStates := setObject powerStates (.dict acPowerState) "AC Power"
  let powerStates := setObject powerStates (.dict battPowerState) "Battery Power"
  some (setObject propertyList (.dict powerStates) "Custom Profile")

def disableHibernation (s : SupportFiles) (t : Target) (disable : Bool) : Option Target :=
  (withHibernateMode (if disable then 0 else 3) (t.power.getD s.defaultPower)).map fun propertyList =>
    { t with power := some propertyList }

/-- What `setQuietBoot:` makes of the settings in `General`. -/
def withQuietBoot (quietBoot : Bool) (bootSettings : Dictionary) : Option Dictionary := do
  let setting ← isEqualToString "Yes" (bootSettings "Quiet Boot")
  if setting && !quietBoot then
    -- Dissable Quiet Boot
    some (setObject (removeObject bootSettings "Quiet Boot") (.number 5) "Timeout")
  else if !setting && quietBoot then
    -- Enable quiet boot
    some (setObject (removeObject bootSettings "Timeout") (.string "Yes") "Quiet Boot")
  else some bootSettings

def setQuietBoot (s : SupportFiles) (t : Target) (quietBoot : Bool) : Option Target :=
  (withQuietBoot quietBoot s.generalBoot).map fun bootSettings => { t with boot := some bootSettings }

/-- Whether both modes are 0. -/
def hibernationDissabled (propertyList : Dictionary) : Option Bool := do
  let powerStates := propertyList "Custom Profile"
  let acPowerState ← objectForKey "AC Power" powerStates
  let battPowerState ← objectForKey "Battery Power" powerStates
  let acMode ← (objectForKey "Hibernate Mode" acPowerState).bind intValue
  if acMode ≠ 0 then some false
  else
    let battMode ← (objectForKey "Hibernate Mode" battPowerState).bind intValue
    some (battMode = 0)

def determineHibernateState (t : Target) : Option Bool :=
  match t.power with
  | none => some false
  | some propertyList => hibernationDissabled propertyList

def determineQuiteBootState (t : Target) : Option Bool :=
  isEqualToString "Yes" (t.boot.bind fun propertyList => propertyList "Quiet Boot")

inductive Call where
  | disableHibernation (disable : Bool)
  | setQuietBoot (quietBoot : Bool)

def step (s : SupportFiles) (t : Target) : Call → Option Target
  | .disableHibernation disable => disableHibernation s t disable
  | .setQuietBoot quietBoot => setQuietBoot s t quietBoot

def Call.disable? : Call → Option Bool
  | .disableHibernation disable => some disable
  | .setQuietBoot _ => none

def Call.quietBoot? : Call → Option Bool
  | .disableHibernation _ => none
  | .setQuietBoot quietBoot => some quietBoot

/-- The values last set. -/
def lastDisable (calls : List Call) : Option Bool := (calls.filterMap Call.disable?).getLast?
def lastQuietBoot (calls : List Call) : Option Bool := (calls.filterMap Call.quietBoot?).getLast?

/-- The value on a path of keys. -/
def lookup : Option Value → List String → Option Value
  | v, [] => v
  | some (.dict entries), key :: path => lookup (entries key) path
  | _, _ :: _ => none

/-- The path neither leads to an exempt value nor through one. -/
def Beside (exempt : List (List String)) (path : List String) : Prop :=
  ∀ e ∈ exempt, ¬ path <+: e ∧ ¬ e <+: path

/-- Every value beside the exempt ones is kept. -/
def Keeps (exempt : List (List String)) (old new : Option Dictionary) : Prop :=
  ∀ path, Beside exempt path → ∀ v, lookup (old.map .dict) path = some v →
    lookup (new.map .dict) path = some v

def hibernateModes : List (List String) :=
  [["Custom Profile", "AC Power", "Hibernate Mode"],
    ["Custom Profile", "Battery Power", "Hibernate Mode"]]

def quietBootKeys : List (List String) := [["Quiet Boot"], ["Timeout"]]

section Dictionaries
variable {d : Dictionary} {v : Option Value} {object : Value} {key k : String} {path : List String}

@[simp] theorem setObject_self : setObject d object key key = some object := if_pos rfl

theorem setObject_of_ne (h : k ≠ key) : setObject d object key k = d k := if_neg h

theorem setObject_again (object' : Value) :
    setObject (setObject d object key) object' key = setObject d object' key := by
  funext k
  by_cases hk : k = key
  · rw [hk, setObject_self, setObject_self]
  · rw [setObject_of_ne hk, setObject_of_ne hk, setObject_of_ne hk]

theorem setObject_comm (object' : Value) {key' : String} (h : key ≠ key') :
    setObject (setObject d object key) object' key' =
      setObject (setObject d object' key') object key := by
  funext k
  by_cases hk : k = key
  · rw [hk, setObject_of_ne h, setObject_self, setObject_self]
  · by_cases hk' : k = key'
    · rw [hk', setObject_self, setObject_of_ne h.symm, setObject_self]
    · rw [setObject_of_ne hk', setObject_of_ne hk, setObject_of_ne hk, setObject_of_ne hk']

theorem removeObject_of_ne (h : k ≠ key) : removeObject d key k = d k := if_neg h

@[simp] theorem lookup_dict : lookup (some (.dict d)) (k :: path) = lookup (d k) path := rfl

theorem lookup_init (h : initWithDictionary v = some d) :
    lookup v (k :: path) = lookup (d k) path := by
  match v, h with
  | none, h =>
    obtain rfl := Option.some.inj h
    cases path <;> rfl
  | some (.dict _), h =>
    obtain rfl := Option.some.inj h
    rfl

/-- A changed copy of a dictionary, on a path that starts with another key. -/
theorem lookup_setObject_init (h : initWithDictionary v = some d) (hne : path ≠ [])
    (hkey : ∀ rest, path ≠ key :: rest) :
    lookup (some (.dict (setObject d object key))) path = lookup v path := by
  obtain ⟨k, rest, rfl⟩ := List.exists_cons_of_ne_nil hne
  have hk : k ≠ key := by
    rintro rfl
    exact hkey rest rfl
  rw [lookup_dict, setObject_of_ne hk, lookup_init h]

@[simp] theorem init_dict : initWithDictionary (some (.dict d)) = some d := rfl

end Dictionaries

/-- The property list has room for the two hibernate modes. -/
def Profiles (propertyList : Dictionary) : Prop :=
  ∃ powerStates, initWithDictionary (propertyList "Custom Profile") = some powerStates ∧
    (initWithDictionary (powerStates "AC Power")).isSome ∧
    (initWithDictionary (powerStates "Battery Power")).isSome

section Hibernation
variable {p q powerStates ac batt : Dictionary} {state state' : Int32}

theorem withHibernateMode_of_init (hstates : initWithDictionary (p "Custom Profile") = some powerStates)
    (hac : initWithDictionary (powerStates "AC Power") = some ac)
    (hbatt : initWithDictionary (powerStates "Battery Power") = some batt) :
    withHibernateMode state p = some (setObject p (.dict
      (setObject (setObject powerStates
          (.dict (setObject ac (.number state.toInt) "Hibernate Mode")) "AC Power")
        (.dict (setObject batt (.number state.toInt) "Hibernate Mode")) "Battery Power"))
          "Custom Profile") := by
  simp only [withHibernateMode, Option.bind_eq_bind, hstates, hac, hbatt, Option.bind_some]

theorem init_of_withHibernateMode (h : withHibernateMode state p = some q) :
    ∃ powerStates ac batt, initWithDictionary (p "Custom Profile") = some powerStates ∧
      initWithDictionary (powerStates "AC Power") = some ac ∧
      initWithDictionary (powerStates "Battery Power") = some batt := by
  simp only [withHibernateMode, Option.bind_eq_bind, Option.bind_eq_some_iff] at h
  obtain ⟨powerStates, hstates, ac, hac, batt, hbatt, -⟩ := h
  exact ⟨powerStates, ac, batt, hstates, hac, hbatt⟩

theorem withHibernateMode_isSome : (withHibernateMode state p).isSome ↔ Profiles p := by
  rw [Option.isSome_iff_exists]
  constructor
  · rintro ⟨q, hq⟩
    obtain ⟨powerStates, ac, batt, hstates, hac, hbatt⟩ := init_of_withHibernateMode hq
    exact ⟨powerStates, hstates, by rw [hac]; rfl, by rw [hbatt]; rfl⟩
  · rintro ⟨powerStates, hstates, hac, hbatt⟩
    obtain ⟨ac, hac⟩ := Option.isSome_iff_exists.mp hac
    obtain ⟨batt, hbatt⟩ := Option.isSome_iff_exists.mp hbatt
    exact ⟨_, withHibernateMode_of_init hstates hac hbatt⟩

/-- Only the last mode counts. -/
theorem withHibernateMode_again (h : withHibernateMode state p = some q) :
    withHibernateMode state' q = withHibernateMode state' p := by
  obtain ⟨powerStates, ac, batt, hstates, hac, hbatt⟩ := init_of_withHibernateMode h
  rw [withHibernateMode_of_init hstates hac hbatt, Option.some.injEq] at h
  subst h
  have hne : "AC Power" ≠ "Battery Power" := by decide
  rw [withHibernateMode_of_init hstates hac hbatt,
    withHibernateMode_of_init (by rw [setObject_self]; exact init_dict)
      (by rw [setObject_of_ne hne, setObject_self]; exact init_dict)
      (by rw [setObject_self]; exact init_dict)]
  simp only [setObject_again, setObject_comm _ hne.symm]

theorem hibernationDissabled_of_withHibernateMode (h : withHibernateMode state p = some q) :
    hibernationDissabled q = some (decide (state = 0)) := by
  obtain ⟨powerStates, ac, batt, hstates, hac, hbatt⟩ := init_of_withHibernateMode h
  rw [withHibernateMode_of_init hstates hac hbatt, Option.some.injEq] at h
  subst h
  by_cases hstate : state = 0
  · simp [hibernationDissabled, objectForKey, intValue, setObject, hstate]
  · simp [hibernationDissabled, objectForKey, intValue, setObject, hstate]

/-- Beside the two modes everything stays. -/
theorem lookup_withHibernateMode (h : withHibernateMode state p = some q) {path : List String}
    (hbeside : Beside hibernateModes path) :
    lookup (some (.dict q)) path = lookup (some (.dict p)) path := by
  obtain ⟨powerStates, ac, batt, hstates, hac, hbatt⟩ := init_of_withHibernateMode h
  rw [withHibernateMode_of_init hstates hac hbatt, Option.some.injEq] at h
  subst h
  have hac' := hbeside _ List.mem_cons_self
  have hbatt' := hbeside _ (List.mem_cons_of_mem _ List.mem_cons_self)
  have habove : path ≠ [] := fun h => hac'.1 ⟨_, by rw [h, List.nil_append]⟩
  obtain ⟨key, path, rfl⟩ := List.exists_cons_of_ne_nil habove
  rw [lookup_dict, lookup_dict]
  by_cases hprofile : key = "Custom Profile"
  · subst hprofile
    have habove : path ≠ [] := fun h => hac'.1 ⟨_, by rw [h]; rfl⟩
    obtain ⟨key, path, rfl⟩ := List.exists_cons_of_ne_nil habove
    rw [setObject_self, lookup_dict, lookup_init hstates]
    by_cases hb : key = "Battery Power"
    · subst hb
      rw [setObject_self]
      refine lookup_setObject_init hbatt (fun h => hbatt'.1 ⟨_, by rw [h]; rfl⟩) fun rest h => ?_
      exact hbatt'.2 ⟨rest, by rw [h]; rfl⟩
    · rw [setObject_of_ne hb]
      by_cases ha : key = "AC Power"
      · subst ha
        rw [setObject_self]
        refine lookup_setObject_init hac (fun h => hac'.1 ⟨_, by rw [h]; rfl⟩) fun rest h => ?_
        exact hac'.2 ⟨rest, by rw [h]; rfl⟩
      · rw [setObject_of_ne ha]
  · rw [setObject_of_ne hprofile]

end Hibernation

section QuietBoot
variable {general d : Dictionary} {quietBoot : Bool}

theorem withQuietBoot_isSome : (withQuietBoot quietBoot general).isSome ↔
    (isEqualToString "Yes" (general "Quiet Boot")).isSome := by
  rw [withQuietBoot]
  cases isEqualToString "Yes" (general "Quiet Boot") with
  | none => rfl
  | some setting => cases setting <;> cases quietBoot <;> simp

theorem quietBoot_of_withQuietBoot (h : withQuietBoot quietBoot general = some d) :
    isEqualToString "Yes" (d "Quiet Boot") = some quietBoot := by
  have hne : "Quiet Boot" ≠ "Timeout" := by decide
  rw [withQuietBoot, Option.bind_eq_bind, Option.bind_eq_some_iff] at h
  obtain ⟨setting, hsetting, h⟩ := h
  split_ifs at h with hoff hon
  · obtain rfl := Option.some.inj h
    obtain ⟨rfl, hquiet⟩ : setting = true ∧ quietBoot = false := by simpa using hoff
    rw [setObject_of_ne hne, removeObject, if_pos rfl, hquiet, isEqualToString]
  · obtain rfl := Option.some.inj h
    obtain ⟨rfl, hquiet⟩ : setting = false ∧ quietBoot = true := by simpa using hon
    rw [setObject_self, hquiet, isEqualToString, decide_eq_true rfl]
  · obtain rfl := Option.some.inj h
    rw [hsetting]
    cases setting <;> cases quietBoot <;> simp_all

/-- Beside the two keys everything is as in `General`. -/
theorem lookup_withQuietBoot (h : withQuietBoot quietBoot general = some d) {path : List String}
    (hbeside : Beside quietBootKeys path) :
    lookup (some (.dict d)) path = lookup (some (.dict general)) path := by
  have hquiet := hbeside _ List.mem_cons_self
  have htimeout := hbeside _ (List.mem_cons_of_mem _ List.mem_cons_self)
  have habove : path ≠ [] := fun h => hquiet.1 ⟨_, by rw [h, List.nil_append]⟩
  obtain ⟨key, rest, rfl⟩ := List.exists_cons_of_ne_nil habove
  have hquiet' : key ≠ "Quiet Boot" := by
    rintro rfl
    exact hquiet.2 ⟨rest, rfl⟩
  have htimeout' : key ≠ "Timeout" := by
    rintro rfl
    exact htimeout.2 ⟨rest, rfl⟩
  rw [withQuietBoot, Option.bind_eq_bind, Option.bind_eq_some_iff] at h
  obtain ⟨setting, -, h⟩ := h
  rw [lookup_dict, lookup_dict]
  split_ifs at h with hoff hon
  · rw [← Option.some.inj h, setObject_of_ne htimeout', removeObject_of_ne hquiet']
  · rw [← Option.some.inj h, setObject_of_ne hquiet', removeObject_of_ne htimeout']
  · rw [← Option.some.inj h]

end QuietBoot

section Runs
variable {s : SupportFiles} {t u : Target} {calls : List Call}

/-- The property list of the target, or the default one if there is none. -/
def basePower (s : SupportFiles) (t : Target) : Dictionary := t.power.getD s.defaultPower

def hibernateMode (disable : Bool) : Int32 := if disable then 0 else 3

/-- The two property lists, of which only the values last set count. -/
def powerAfter (s : SupportFiles) (t : Target) : Option Bool → Option (Option Dictionary)
  | none => some t.power
  | some disable => (withHibernateMode (hibernateMode disable) (basePower s t)).map some

def bootAfter (s : SupportFiles) (t : Target) : Option Bool → Option (Option Dictionary)
  | none => some t.boot
  | some quietBoot => (withQuietBoot quietBoot s.generalBoot).map some

theorem lastDisable_append (call : Call) :
    lastDisable (calls ++ [call]) = call.disable?.or (lastDisable calls) := by
  cases call <;> simp [lastDisable, Call.disable?]

theorem lastQuietBoot_append (call : Call) :
    lastQuietBoot (calls ++ [call]) = call.quietBoot?.or (lastQuietBoot calls) := by
  cases call <;> simp [lastQuietBoot, Call.quietBoot?]

theorem powerAfter_again {last : Option Bool} (h : powerAfter s t last = some u.power) (state : Int32) :
    withHibernateMode state (basePower s u) = withHibernateMode state (basePower s t) := by
  cases last with
  | none =>
    obtain hsame := Option.some.inj h
    rw [basePower, basePower, hsame]
  | some disable =>
    obtain ⟨q, hq, hpower⟩ := Option.map_eq_some_iff.mp h
    rw [basePower, ← hpower, Option.getD_some]
    exact withHibernateMode_again hq

theorem powerAfter_isSome {last : Option Bool} :
    (powerAfter s t last).isSome ↔ (last.isSome → Profiles (basePower s t)) := by
  cases last with
  | none => simp [powerAfter]
  | some disable => simp [powerAfter, withHibernateMode_isSome]

theorem bootAfter_isSome {last : Option Bool} : (bootAfter s t last).isSome ↔
    (last.isSome → (isEqualToString "Yes" (s.generalBoot "Quiet Boot")).isSome) := by
  cases last with
  | none => simp [bootAfter]
  | some quietBoot => simp [bootAfter, withQuietBoot_isSome]

theorem run_iff : run (step s) t calls = some u ↔
    powerAfter s t (lastDisable calls) = some u.power ∧
      bootAfter s t (lastQuietBoot calls) = some u.boot := by
  induction calls using List.reverseRecOn generalizing u with
  | nil =>
    rw [run_nil]
    constructor
    · rintro h
      obtain rfl := Option.some.inj h
      exact ⟨rfl, rfl⟩
    · rintro ⟨hpower, hboot⟩
      obtain ⟨power, boot⟩ := u
      obtain rfl := Option.some.inj hpower
      obtain rfl := Option.some.inj hboot
      rfl
  | append_singleton calls call ih =>
    rw [run_append, lastDisable_append, lastQuietBoot_append]
    simp only [run_cons, run_nil, Option.some.injEq, exists_eq_right]
    cases call with
    | disableHibernation disable =>
      rw [Call.disable?, Call.quietBoot?, Option.some_or, Option.none_or]
      constructor
      · rintro ⟨v, hv, hstep⟩
        obtain ⟨hpower, hboot⟩ := ih.mp hv
        obtain ⟨p, hp, rfl⟩ := Option.map_eq_some_iff.mp hstep
        refine ⟨?_, hboot⟩
        rw [powerAfter, ← powerAfter_again hpower]
        exact Option.map_eq_some_iff.mpr ⟨p, hp, rfl⟩
      · rintro ⟨hpower, hboot⟩
        have hsome : (powerAfter s t (lastDisable calls)).isSome :=
          powerAfter_isSome.mpr fun _ =>
            powerAfter_isSome.mp (by rw [hpower]; rfl : (powerAfter s t (some disable)).isSome) rfl
        obtain ⟨power, hbefore⟩ := Option.isSome_iff_exists.mp hsome
        refine ⟨⟨power, u.boot⟩, ih.mpr ⟨hbefore, hboot⟩, ?_⟩
        obtain ⟨p, hp, hu⟩ := Option.map_eq_some_iff.mp hpower
        rw [← powerAfter_again (u := ⟨power, u.boot⟩) hbefore] at hp
        exact Option.map_eq_some_iff.mpr ⟨p, hp, by rw [hu]⟩
    | setQuietBoot quietBoot =>
      rw [Call.disable?, Call.quietBoot?, Option.some_or, Option.none_or]
      constructor
      · rintro ⟨v, hv, hstep⟩
        obtain ⟨hpower, hboot⟩ := ih.mp hv
        obtain ⟨d, hd, rfl⟩ := Option.map_eq_some_iff.mp hstep
        exact ⟨hpower, Option.map_eq_some_iff.mpr ⟨d, hd, rfl⟩⟩
      · rintro ⟨hpower, hboot⟩
        have hsome : (bootAfter s t (lastQuietBoot calls)).isSome :=
          bootAfter_isSome.mpr fun _ =>
            bootAfter_isSome.mp (by rw [hboot]; rfl : (bootAfter s t (some quietBoot)).isSome) rfl
        obtain ⟨boot, hbefore⟩ := Option.isSome_iff_exists.mp hsome
        refine ⟨⟨u.power, boot⟩, ih.mpr ⟨hpower, hbefore⟩, ?_⟩
        obtain ⟨d, hd, hu⟩ := Option.map_eq_some_iff.mp hboot
        exact Option.map_eq_some_iff.mpr ⟨d, hd, by rw [hu]⟩

/-- After the calls the readers report the values last set, and everything else is as it was. -/
def Sound (s : SupportFiles) (t : Target) (calls : List Call) : Prop :=
  ∃ u, run (step s) t calls = some u ∧
    (∀ disable ∈ lastDisable calls, determineHibernateState u = some disable) ∧
    (∀ quietBoot ∈ lastQuietBoot calls, determineQuiteBootState u = some quietBoot) ∧
    Keeps hibernateModes t.power u.power ∧ Keeps quietBootKeys t.boot u.boot

/-- Where hibernation is set there is room for the modes; where quiet boot is set, the target's
settings are those of `General`. -/
structure Suited (s : SupportFiles) (t : Target) (calls : List Call) : Prop where
  profiles : ∀ disable, .disableHibernation disable ∈ calls → Profiles (basePower s t)
  text : ∀ quietBoot, .setQuietBoot quietBoot ∈ calls →
    (isEqualToString "Yes" (s.generalBoot "Quiet Boot")).isSome
  general : ∀ quietBoot, .setQuietBoot quietBoot ∈ calls →
    Keeps quietBootKeys t.boot (some s.generalBoot)

theorem lastDisable_isSome :
    (lastDisable calls).isSome ↔ ∃ disable, .disableHibernation disable ∈ calls := by
  rw [lastDisable, List.getLast?_isSome, Ne, List.filterMap_eq_nil_iff]
  simp only [not_forall, exists_prop]
  constructor
  · rintro ⟨call, hcall, hsome⟩
    cases call with
    | disableHibernation disable => exact ⟨disable, hcall⟩
    | setQuietBoot quietBoot => exact absurd rfl hsome
  · rintro ⟨disable, hcall⟩
    exact ⟨_, hcall, Option.some_ne_none _⟩

theorem lastQuietBoot_isSome :
    (lastQuietBoot calls).isSome ↔ ∃ quietBoot, .setQuietBoot quietBoot ∈ calls := by
  rw [lastQuietBoot, List.getLast?_isSome, Ne, List.filterMap_eq_nil_iff]
  simp only [not_forall, exists_prop]
  constructor
  · rintro ⟨call, hcall, hsome⟩
    cases call with
    | disableHibernation disable => exact absurd rfl hsome
    | setQuietBoot quietBoot => exact ⟨quietBoot, hcall⟩
  · rintro ⟨quietBoot, hcall⟩
    exact ⟨_, hcall, Option.some_ne_none _⟩

theorem keeps_power {last : Option Bool} (h : powerAfter s t last = some u.power) :
    Keeps hibernateModes t.power u.power := by
  cases last with
  | none =>
    obtain hsame := Option.some.inj h
    exact fun path _ v hv => hsame ▸ hv
  | some disable =>
    obtain ⟨q, hq, hpower⟩ := Option.map_eq_some_iff.mp h
    intro path hbeside v hv
    rw [← hpower, Option.map_some, lookup_withHibernateMode hq hbeside]
    cases hold : t.power with
    | none =>
      rw [hold] at hv
      cases path <;> simp [lookup] at hv
    | some p =>
      rw [hold] at hv
      rwa [basePower, hold]

theorem keeps_boot_iff {quietBoot : Bool} {d : Dictionary} {old : Option Dictionary}
    (h : withQuietBoot quietBoot s.generalBoot = some d) :
    Keeps quietBootKeys old (some d) ↔ Keeps quietBootKeys old (some s.generalBoot) := by
  refine forall_congr' fun path => forall_congr' fun hbeside => ?_
  rw [Option.map_some, Option.map_some, lookup_withQuietBoot h hbeside]

/-- Exactly if the calls suit the property lists, they set what they set and nothing else. -/
theorem setters_sound_iff (s : SupportFiles) (t : Target) (calls : List Call) :
    Sound s t calls ↔ Suited s t calls := by
  constructor
  · rintro ⟨u, hrun, -, -, -, hkeeps⟩
    obtain ⟨hpower, hboot⟩ := run_iff.mp hrun
    refine ⟨fun disable hcall => ?_, fun quietBoot hcall => ?_, fun quietBoot hcall => ?_⟩
    · exact powerAfter_isSome.mp (by rw [hpower]; rfl) (lastDisable_isSome.mpr ⟨disable, hcall⟩)
    · exact bootAfter_isSome.mp (by rw [hboot]; rfl) (lastQuietBoot_isSome.mpr ⟨quietBoot, hcall⟩)
    · obtain ⟨last, hlast⟩ :=
        Option.isSome_iff_exists.mp (lastQuietBoot_isSome.mpr ⟨quietBoot, hcall⟩)
      rw [hlast] at hboot
      obtain ⟨d, hd, hu⟩ := Option.map_eq_some_iff.mp hboot
      rw [← hu] at hkeeps
      exact (keeps_boot_iff hd).mp hkeeps
  · intro h
    have hpower : (powerAfter s t (lastDisable calls)).isSome := powerAfter_isSome.mpr fun hsome => by
      obtain ⟨disable, hcall⟩ := lastDisable_isSome.mp hsome
      exact h.profiles disable hcall
    have hboot : (bootAfter s t (lastQuietBoot calls)).isSome := bootAfter_isSome.mpr fun hsome => by
      obtain ⟨quietBoot, hcall⟩ := lastQuietBoot_isSome.mp hsome
      exact h.text quietBoot hcall
    obtain ⟨power, hpower⟩ := Option.isSome_iff_exists.mp hpower
    obtain ⟨boot, hboot⟩ := Option.isSome_iff_exists.mp hboot
    refine ⟨⟨power, boot⟩, run_iff.mpr ⟨hpower, hboot⟩, fun disable hlast => ?_,
      fun quietBoot hlast => ?_, keeps_power (u := ⟨power, boot⟩) hpower, ?_⟩
    · rw [Option.mem_def.mp hlast] at hpower
      obtain ⟨q, hq, rfl⟩ := Option.map_eq_some_iff.mp hpower
      refine (hibernationDissabled_of_withHibernateMode hq).trans ?_
      cases disable <;> rfl
    · rw [Option.mem_def.mp hlast] at hboot
      obtain ⟨d, hd, rfl⟩ := Option.map_eq_some_iff.mp hboot
      exact quietBoot_of_withQuietBoot hd
    · cases hlast : lastQuietBoot calls with
      | none =>
        rw [hlast] at hboot
        obtain rfl := Option.some.inj hboot
        exact fun _ _ _ hv => hv
      | some quietBoot =>
        obtain ⟨q, hcall⟩ := lastQuietBoot_isSome.mp (by rw [hlast]; rfl)
        rw [hlast] at hboot
        obtain ⟨d, hd, rfl⟩ := Option.map_eq_some_iff.mp hboot
        exact (keeps_boot_iff hd).mpr (h.general q hcall)

end Runs

/-- The boot settings in `General`, without the device properties. -/
def generalBoot : Dictionary :=
  let d : Dictionary := fun _ => none
  let d := setObject d (.string "mach_kernel") "Kernel"
  let d := setObject d (.string "") "Kernel Flags"
  let d := setObject d (.string "5") "Timeout"
  let d := setObject d (.string "Yes") "Boot Graphics"
  setObject d (.string "No") "SMBIOSdefaults"

def shipped : SupportFiles where
  generalPower _ := none
  machinePower := none
  generalBoot := generalBoot

/-- A target that boots the 32-bit kernel. -/
def kernelFlags : Target where
  power := none
  boot := some (setObject generalBoot (.string "arch=i386") "Kernel Flags")

/-- A quiet boot takes the kernel flags away. -/
theorem setQuietBoot_loses_kernelFlags :
    (setQuietBoot shipped kernelFlags true).map (fun u => lookup (u.boot.map .dict) ["Kernel Flags"]) =
        some (some (.string "")) ∧
      ¬ Sound shipped kernelFlags [.setQuietBoot true] := by
  refine ⟨rfl, ?_⟩
  rintro ⟨u, hrun, -, -, -, hkeeps⟩
  obtain rfl := Option.some.inj hrun
  have hbeside : Beside quietBootKeys ["Kernel Flags"] := by
    unfold Beside
    decide
  have hflags : some (Value.string "") = some (.string "arch=i386") :=
    hkeeps ["Kernel Flags"] hbeside _ rfl
  simp at hflags

end PropertyLists
