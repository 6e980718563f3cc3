import NetbookInstaller.Ata.TimingRegisters
import NetbookInstaller.Transition.Runs

/-! The drivers of the two channels of the disk controller at work: they write their shares of the
timing registers one after the other, turn their drives off and on, and sleep. -/
namespace Ata

open Registers

inductive Phase
  | stopped
  | device0Reset
  | running
  deriving DecidableEq

/-- A driver at work: the registers that it has still to write, the word that it has read to turn
its drive off or on, and the configs that it has accepted since its start. -/
structure Driver where
  pata : AppleIntelPIIXPATA
  phase : Phase
  pending : List Register
  ideConfigBits : Option (BitVec 32)
  initTimingRegisters : Bool
  accepted : ATAUnitID → Option IOATADevConfig

structure Driver.Idle (d : Driver) : Prop where
  phase : d.phase = .running
  pending : d.pending = []
  ideConfigBits : d.ideConfigBits = none

instance (d : Driver) : Decidable d.Idle :=
  decidable_of_iff (d.phase = .running ∧ d.pending = [] ∧ d.ideConfigBits = none)
    ⟨fun ⟨h, h', h''⟩ => ⟨h, h', h''⟩, fun ⟨h, h', h''⟩ => ⟨h, h', h''⟩⟩

/-- All registers are written, and the chip has not been without power since. -/
structure Driver.Settled (d : Driver) : Prop where
  phase : d.phase = .running
  pending : d.pending = []
  initTimingRegisters : d.initTimingRegisters = false

instance (d : Driver) : Decidable d.Settled :=
  decidable_of_iff (d.phase = .running ∧ d.pending = [] ∧ d.initTimingRegisters = false)
    ⟨fun ⟨h, h', h''⟩ => ⟨h, h', h''⟩, fun ⟨h, h', h''⟩ => ⟨h, h', h''⟩⟩

/-- The chip and the drivers of its channels, which run on work loops of their own. -/
structure AtaSystem where
  regs : PciConfig
  driver : Channel → Driver

inductive AtaAction
  | start (c : Channel)
  | resetDevice1 (c : Channel)
  | selectConfig (c : Channel) (unit : ATAUnitID) (config : IOATADevConfig)
  | pciConfigWrite (c : Channel)
  | setPowerState (c : Channel) (on : Bool)
  | readIdeConfig (c : Channel)
  | turnDrive (c : Channel) (on : Bool)
  | powerLoss (regs : PciConfig)

/-- The bits that `turnOffDrive` and `turnOnDrive` write around those that they have read. -/
def drivePower (on : Bool) (ideConfigBits : BitVec 32) : BitVec 32 :=
  if on then ~~~0x30000 &&& ideConfigBits else 0x20000 ||| (ideConfigBits &&& ~~~0x30000)

namespace AtaSystem

variable (bitSigToNumeric : BitVec 8 → ℕ) (provider : Channel → AppleIntelPIIXATAChannel)

def initial (regs : PciConfig) : AtaSystem where
  regs
  driver _ :=
    { pata := ⟨fun _ => piixPIOTiming 0, fun _ => none, fun _ => none, fun _ => 0, 0, 0, 0, 0⟩
      phase := .stopped
      pending := []
      ideConfigBits := none
      initTimingRegisters := false
      accepted := fun _ => none }

def setDriver (s : AtaSystem) (c : Channel) (d : Driver) : AtaSystem :=
  { s with driver := Function.update s.driver c d }

def step (s : AtaSystem) : AtaAction → Option AtaSystem
  | .start c =>
    let d := s.driver c
    if d.phase = .stopped then
      let pata := { d.pata with ideConfig := (s.regs .IDECONFIG).setWidth 16 }
      some (s.setDriver c { d with
        pata := pata.resetTimingsForDevice c .device0
        phase := .device0Reset
        pending := writeTimingRegisters c })
    else none
  | .resetDevice1 c =>
    let d := s.driver c
    if d.phase = .device0Reset ∧ d.pending = [] then
      some (s.setDriver c { d with
        pata := d.pata.resetTimingsForDevice c .device1
        phase := .running
        pending := writeTimingRegisters c })
    else none
  | .selectConfig c unit config =>
    let d := s.driver c
    if d.Idle then
      if AppleIntelPIIXPATA.modeNotSupported (provider c) config then some s
      else
        (d.pata.selection bitSigToNumeric (provider c) c unit config).map fun selection =>
          s.setDriver c { d with
            pata := d.pata.setTimings c unit selection
            pending := writeTimingRegisters c
            accepted := Function.update d.accepted unit (some config) }
    else none
  | .pciConfigWrite c =>
    let d := s.driver c
    match d.pending with
    | [] => none
    | r :: pending =>
      some { s.setDriver c { d with pending } with
        regs := s.regs.write r (d.pata.values r) (writeMask c r) }
  | .setPowerState c on =>
    let d := s.driver c
    if d.Idle then
      if on then
        if d.initTimingRegisters then
          some (s.setDriver c { d with
            pending := writeTimingRegisters c
            initTimingRegisters := false })
        else some s
      else some (s.setDriver c { d with initTimingRegisters := true })
    else none
  | .readIdeConfig c =>
    let d := s.driver c
    if d.Idle then some (s.setDriver c { d with ideConfigBits := some (s.regs .IDECONFIG) })
    else none
  | .turnDrive c on =>
    let d := s.driver c
    d.ideConfigBits.map fun ideConfigBits =>
      { s.setDriver c { d with ideConfigBits := none } with
        regs := Function.update s.regs .IDECONFIG (drivePower on ideConfigBits) }
  | .powerLoss regs =>
    if ∀ c, (s.driver c).phase = .stopped ∨
        (s.driver c).Idle ∧ (s.driver c).initTimingRegisters = true then
      some { s with regs }
    else none

end AtaSystem

/-- The registers in which a driver may not find its values: those that are still to be written, and
that of the drive power where the drivers disturb each other. -/
def Driver.Stale (undisturbed : Prop) (d : Driver) (r : Register) : Prop :=
  r ∈ d.pending ∨ r = .IDECONFIG ∧ ¬undisturbed

/-- What a driver has kept, the chip holds, except while it has lost its settings. -/
structure SoundDriver (undisturbed : Prop) (bitSigToNumeric : BitVec 8 → ℕ)
    (provider : AppleIntelPIIXATAChannel) (regs : PciConfig) (c : Channel) (d : Driver) :
    Prop where
  device0 : d.phase ≠ .stopped → d.pata.Cached c .device0
  device1 : d.phase = .running → d.pata.Cached c .device1
  holds : d.phase ≠ .stopped → d.initTimingRegisters = false →
    Holds (shares c) d.pata.values (d.Stale undisturbed) regs
  saved : ∀ word ∈ d.ideConfigBits, d.phase = .running ∧ d.pending = [] ∧
    (undisturbed → ∀ c', word &&& shares c' .IDECONFIG = regs .IDECONFIG &&& shares c' .IDECONFIG)
  accepted : ∀ unit, ∀ config ∈ d.accepted unit, d.phase = .running ∧
    d.pata.dmaTiming unit = AppleIntelPIIXPATA.selectDMATiming bitSigToNumeric provider config ∧
    d.pata.pioTiming unit = AppleIntelPIIXPATA.compatiblePIOTiming bitSigToNumeric provider config

theorem holds_writeTimingRegisters (c : Channel) (values regs : PciConfig) {stale : Register → Prop}
    (hstale : ∀ r ∈ writeTimingRegisters c, stale r) : Holds (shares c) values stale regs := by
  intro r hr
  have hshare : shares c r = 0 := by
    rcases r with (c' | _ | _ | _ | _)
    · have hc : c' ≠ c := by
        rintro rfl
        exact hr (hstale _ List.mem_cons_self)
      exact if_neg hc
    all_goals exact absurd (hstale _ (by simp [writeTimingRegisters])) hr
  rw [hshare]
  exact BitVec.and_zero.trans BitVec.and_zero.symm

namespace SoundDriver

variable {undisturbed : Prop} {bitSigToNumeric : BitVec 8 → ℕ}
  {provider : AppleIntelPIIXATAChannel} {regs : PciConfig} {c : Channel} {d : Driver}
  {unit : ATAUnitID} {config : IOATADevConfig}

theorem ideConfigBits_eq_none (h : SoundDriver undisturbed bitSigToNumeric provider regs c d)
    (hd : d.phase ≠ .running ∨ d.pending ≠ []) : d.ideConfigBits = none := by
  rw [Option.eq_none_iff_forall_not_mem]
  intro word hword
  obtain ⟨hphase, hpending, -⟩ := h.saved word hword
  exact hd.elim (absurd hphase) (absurd hpending)

theorem accepted_eq_none (h : SoundDriver undisturbed bitSigToNumeric provider regs c d)
    (hd : d.phase ≠ .running) (unit : ATAUnitID) : d.accepted unit = none := by
  rw [Option.eq_none_iff_forall_not_mem]
  intro config hconfig
  exact hd (h.accepted unit config hconfig).1

theorem start (h : SoundDriver undisturbed bitSigToNumeric provider regs c d)
    (hphase : d.phase = .stopped) (ideConfig : BitVec 16) :
    SoundDriver undisturbed bitSigToNumeric provider regs c { d with
      pata := { d.pata with ideConfig }.resetTimingsForDevice c .device0
      phase := .device0Reset
      pending := writeTimingRegisters c } where
  device0 _ := @AppleIntelPIIXPATA.resetTimingsForDevice_cached c _ .device0
  device1 h1 := nomatch h1
  holds _ _ := holds_writeTimingRegisters c _ regs fun _ => .inl
  saved word hword := by
    have hnone := h.ideConfigBits_eq_none (.inl (by rw [hphase]; decide))
    exact absurd (hnone ▸ hword) (by simp)
  accepted unit config hconfig := by
    have hnone := h.accepted_eq_none (by rw [hphase]; decide) unit
    exact absurd (hnone ▸ hconfig) (by simp)

theorem resetDevice1 (h : SoundDriver undisturbed bitSigToNumeric provider regs c d)
    (hphase : d.phase = .device0Reset) :
    SoundDriver undisturbed bitSigToNumeric provider regs c { d with
      pata := d.pata.resetTimingsForDevice c .device1
      phase := .running
      pending := writeTimingRegisters c } where
  device0 _ :=
    @AppleIntelPIIXPATA.resetTimingsForDevice_cached_of_ne c d.pata .device1 .device0 (by decide)
      (h.device0 (by rw [hphase]; decide))
  device1 _ := @AppleIntelPIIXPATA.resetTimingsForDevice_cached c d.pata .device1
  holds _ _ := holds_writeTimingRegisters c _ regs fun _ => .inl
  saved word hword := by
    have hnone := h.ideConfigBits_eq_none (.inl (by rw [hphase]; decide))
    exact absurd (hnone ▸ hword) (by simp)
  accepted unit config hconfig := by
    have hnone := h.accepted_eq_none (by rw [hphase]; decide) unit
    exact absurd (hnone ▸ hconfig) (by simp)

theorem selectConfig (h : SoundDriver undisturbed bitSigToNumeric provider regs c d)
    (hidle : d.Idle) {s : Selection}
    (hs : d.pata.selection bitSigToNumeric provider c unit config = some s) :
    SoundDriver undisturbed bitSigToNumeric provider regs c { d with
      pata := d.pata.setTimings c unit s
      pending := writeTimingRegisters c
      accepted := Function.update d.accepted unit (some config) } where
  device0 hphase := (h.device0 hphase).setTimings (AppleIntelPIIXPATA.selection_inTables hs)
  device1 hphase := (h.device1 hphase).setTimings (AppleIntelPIIXPATA.selection_inTables hs)
  holds _ _ := holds_writeTimingRegisters c _ regs fun _ => .inl
  saved word hword := by
    have hnone : d.ideConfigBits = none := hidle.ideConfigBits
    exact absurd (hnone ▸ hword) (by simp)
  accepted unit' config' hconfig := by
    obtain ⟨hpio, hdma, -⟩ := @AppleIntelPIIXPATA.setTimings_timings c d.pata unit s
    obtain ⟨hspio, hsdma, -⟩ := AppleIntelPIIXPATA.selection_spec hs
    refine ⟨hidle.phase, ?_⟩
    dsimp only at hconfig ⊢
    rw [hpio, hdma]
    by_cases hunit : unit' = unit
    · subst hunit
      rw [Function.update_self] at hconfig ⊢
      cases hconfig
      rw [Function.update_self]
      exact ⟨hsdma, hspio⟩
    · rw [Function.update_of_ne hunit] at hconfig ⊢
      rw [Function.update_of_ne hunit]
      exact (h.accepted unit' config' hconfig).2

/-- A driver that sleeps forgets nothing, and writes all its registers when it wakes. -/
theorem sleep (h : SoundDriver undisturbed bitSigToNumeric provider regs c d) :
    SoundDriver undisturbed bitSigToNumeric provider regs c
      { d with initTimingRegisters := true } :=
  { h with holds := fun _ hinit => nomatch hinit }

theorem wake (h : SoundDriver undisturbed bitSigToNumeric provider regs c d) (hidle : d.Idle) :
    SoundDriver undisturbed bitSigToNumeric provider regs c { d with
      pending := writeTimingRegisters c
      initTimingRegisters := false } where
  device0 := h.device0
  device1 := h.device1
  holds _ _ := holds_writeTimingRegisters c _ regs fun _ => .inl
  saved word hword := by
    have hnone : d.ideConfigBits = none := hidle.ideConfigBits
    exact absurd (hnone ▸ hword) (by simp)
  accepted := h.accepted

theorem readIdeConfig (h : SoundDriver undisturbed bitSigToNumeric provider regs c d)
    (hidle : d.Idle) :
    SoundDriver undisturbed bitSigToNumeric provider regs c { d with
      ideConfigBits := some (regs .IDECONFIG) } :=
  { h with
    saved := by
      rintro word ⟨⟩
      exact ⟨hidle.phase, hidle.pending, fun _ _ => rfl⟩ }

theorem write_own (h : SoundDriver undisturbed bitSigToNumeric provider regs c d) {r : Register}
    {pending : List Register} (hpending : d.pending = r :: pending) :
    SoundDriver undisturbed bitSigToNumeric provider
      (regs.write r (d.pata.values r) (writeMask c r)) c { d with pending } where
  device0 := h.device0
  device1 := h.device1
  holds hphase hinit := by
    refine (h.holds hphase hinit).write_own (shares_and_writeMask c r) fun r' hne hstale => ?_
    exact hstale.imp_left fun hmem => List.mem_of_ne_of_mem hne (hpending ▸ hmem)
  saved word hword := by
    have hnone := h.ideConfigBits_eq_none (.inr (by simp [hpending]))
    exact absurd (hnone ▸ hword) (by simp)
  accepted := h.accepted

/-- What the other driver writes, this one does not see, unless it holds a word that it has read
before. -/
theorem write_other (h : SoundDriver undisturbed bitSigToNumeric provider regs c d) {c' : Channel}
    (hc : c ≠ c') (r : Register) (data : BitVec r.bits)
    (hsaved : undisturbed → r = .IDECONFIG → d.ideConfigBits = none) :
    SoundDriver undisturbed bitSigToNumeric provider (regs.write r data (writeMask c' r)) c d :=
  { h with
    holds := fun hphase hinit =>
      (h.holds hphase hinit).write_other (shares_and_other hc r) data
    saved := by
      intro word hword
      obtain ⟨hphase, hpending, hregs⟩ := h.saved word hword
      refine ⟨hphase, hpending, fun hu c'' => ?_⟩
      have hr : Register.IDECONFIG ≠ r := by
        rintro rfl
        rw [hsaved hu rfl] at hword
        exact absurd hword (by simp)
      rw [File.write_of_ne hr, hregs hu] }

theorem overwrite (h : SoundDriver undisturbed bitSigToNumeric provider regs c d)
    {word : BitVec 32} (hword : undisturbed → ∀ c',
      word &&& shares c' .IDECONFIG = regs .IDECONFIG &&& shares c' .IDECONFIG) :
    SoundDriver undisturbed bitSigToNumeric provider
      (Function.update regs .IDECONFIG word) c d :=
  { h with
    holds := by
      intro hphase hinit
      refine (h.holds hphase hinit).overwrite fun hstale => hword ?_ c
      by_contra hu
      exact hstale (.inr ⟨rfl, hu⟩)
    saved := by
      intro saved hsaved
      obtain ⟨hphase, hpending, hregs⟩ := h.saved saved hsaved
      refine ⟨hphase, hpending, fun hu c' => ?_⟩
      rw [Function.update_self, hword hu, hregs hu] }

theorem powerLoss (h : SoundDriver undisturbed bitSigToNumeric provider regs c d)
    (hd : d.phase = .stopped ∨ d.Idle ∧ d.initTimingRegisters = true) (regs' : PciConfig) :
    SoundDriver undisturbed bitSigToNumeric provider regs' c d :=
  { h with
    holds := by
      intro hphase hinit
      rcases hd with hstopped | ⟨-, hlost⟩
      · exact absurd hstopped hphase
      · rw [hlost] at hinit
        contradiction
    saved := by
      intro word hword
      have hnone : d.ideConfigBits = none := by
        rcases hd with hstopped | ⟨hidle, -⟩
        · exact h.ideConfigBits_eq_none (.inl (by rw [hstopped]; decide))
        · exact hidle.ideConfigBits
      exact absurd (hnone ▸ hword) (by simp) }

theorem settled (h : SoundDriver undisturbed bitSigToNumeric provider regs c d) (hd : d.Settled)
    (unit : ATAUnitID) :
    dmaClocks regs c unit = (d.pata.timing unit).clocks ∧
      pioClocks regs c unit = (d.pata.timing unit).clocks ∧
      (undisturbed → ultraTiming regs c unit =
        (d.pata.udmaTiming unit).map fun timing => (timing.udmatim, timing.udmaClock)) := by
  have hphase : d.phase ≠ .stopped := by
    rw [hd.phase]
    decide
  have h0 := h.device0 hphase
  have h1 := h.device1 hd.phase
  have hregs : ∀ r, (r = .IDECONFIG → undisturbed) →
      regs r &&& shares c r = d.pata.values r &&& shares c r := by
    intro r hr
    refine h.holds hphase hd.initTimingRegisters r ?_
    rintro (hmem | ⟨hr', hu⟩)
    · simp [hd.pending] at hmem
    · exact hu (hr hr')
  obtain ⟨hdma, hpio⟩ :=
    clocks_congr (hregs (.IDETIM c) nofun) (hregs .SIDETIM nofun) unit
  obtain ⟨hdmaClocks, hpioClocks⟩ := h0.clocks h1 unit
  refine ⟨hdma.trans hdmaClocks, hpio.trans hpioClocks, fun hu => ?_⟩
  rw [ultraTiming_congr fun r => hregs r fun _ => hu]
  cases unit with
  | device0 => exact h0.ultra
  | device1 => exact h1.ultra

end SoundDriver

theorem drivePower_and_shares (on : Bool) (word : BitVec 32) (c : Channel) :
    drivePower on word &&& shares c .IDECONFIG = word &&& shares c .IDECONFIG := by
  have hapart : shares c .IDECONFIG &&& 0x30000 = 0 := by cases c <;> decide
  cases on with
  | true =>
    rw [drivePower, if_pos rfl, BitVec.and_comm (~~~0x30000)]
    exact clear_and_of_disjoint hapart
  | false =>
    rw [drivePower, if_neg Bool.false_ne_true, BitVec.or_comm]
    exact clear_or_and_of_disjoint (by decide) hapart

namespace AtaSystem

variable (bitSigToNumeric : BitVec 8 → ℕ) (provider : Channel → AppleIntelPIIXATAChannel)

/-- No driver writes the register of the drive power between the reading and the writing of the
other one. -/
def Undisturbed (s : AtaSystem) : AtaAction → Prop
  | .pciConfigWrite c =>
    (s.driver c).pending.head? = some .IDECONFIG →
      ∀ c', c' ≠ c → (s.driver c').ideConfigBits = none
  | _ => True

instance (s : AtaSystem) : (a : AtaAction) → Decidable (s.Undisturbed a)
  | .pciConfigWrite c =>
    inferInstanceAs (Decidable ((s.driver c).pending.head? = some .IDECONFIG →
      ∀ c', c' ≠ c → (s.driver c').ideConfigBits = none))
  | .start _ | .resetDevice1 _ | .selectConfig .. | .setPowerState .. | .readIdeConfig _
  | .turnDrive .. | .powerLoss _ => .isTrue trivial

def Sound (undisturbed : Prop) (s : AtaSystem) : Prop :=
  ∀ c, SoundDriver undisturbed bitSigToNumeric (provider c) s.regs c (s.driver c)

theorem initial_sound (undisturbed : Prop) (regs : PciConfig) :
    (initial regs).Sound bitSigToNumeric provider undisturbed :=
  fun _ =>
    { device0 := fun h => absurd rfl h
      device1 := fun h => nomatch h
      holds := fun h => absurd rfl h
      saved := fun _ h => nomatch h
      accepted := fun _ _ h => nomatch h }

variable {bitSigToNumeric provider} {undisturbed : Prop} {s t : AtaSystem}

/-- After a step of one driver, it and the other one are to be looked at. -/
theorem sound_of_driver {c : Channel} {d : Driver} {regs : PciConfig}
    (hself : SoundDriver undisturbed bitSigToNumeric (provider c) regs c d)
    (hother : ∀ c', c' ≠ c →
      SoundDriver undisturbed bitSigToNumeric (provider c') regs c' (s.driver c')) :
    ({ s.setDriver c d with regs }).Sound bitSigToNumeric provider undisturbed :=
  (Function.forall_update_iff s.driver fun c' d' =>
    SoundDriver undisturbed bitSigToNumeric (provider c') regs c' d').mpr ⟨hself, hother⟩

theorem Sound.setDriver (h : s.Sound bitSigToNumeric provider undisturbed) {c : Channel}
    {d : Driver}
    (hd : SoundDriver undisturbed bitSigToNumeric (provider c) s.regs c d) :
    (s.setDriver c d).Sound bitSigToNumeric provider undisturbed :=
  sound_of_driver hd fun c' _ => h c'

theorem Sound.step (h : s.Sound bitSigToNumeric provider undisturbed) {a : AtaAction}
    (ha : undisturbed → s.Undisturbed a) (hstep : s.step bitSigToNumeric provider a = some t) :
    t.Sound bitSigToNumeric provider undisturbed := by
  cases a with
  | start c =>
    obtain ⟨hphase, hsome⟩ := Option.ite_none_right_eq_some.mp hstep
    cases hsome
    exact h.setDriver ((h c).start hphase _)
  | resetDevice1 c =>
    obtain ⟨⟨hphase, -⟩, hsome⟩ := Option.ite_none_right_eq_some.mp hstep
    cases hsome
    exact h.setDriver ((h c).resetDevice1 hphase)
  | selectConfig c unit config =>
    obtain ⟨hidle, hsome⟩ := Option.ite_none_right_eq_some.mp hstep
    split at hsome
    · cases hsome
      exact h
    · obtain ⟨selection, hselection, rfl⟩ := Option.map_eq_some_iff.mp hsome
      exact h.setDriver ((h c).selectConfig hidle hselection)
  | pciConfigWrite c =>
    simp only [AtaSystem.step] at hstep
    split at hstep
    · contradiction
    · rename_i r pending hpending
      cases hstep
      refine sound_of_driver ((h c).write_own hpending) fun c' hc => ?_
      refine (h c').write_other hc r _ fun hu hr => ?_
      subst hr
      exact ha hu (by rw [hpending]; rfl) c' hc
  | setPowerState c on =>
    obtain ⟨hidle, hsome⟩ := Option.ite_none_right_eq_some.mp hstep
    split_ifs at hsome
    · cases hsome
      exact h.setDriver ((h c).wake hidle)
    · cases hsome
      exact h
    · cases hsome
      exact h.setDriver (h c).sleep
  | readIdeConfig c =>
    obtain ⟨hidle, hsome⟩ := Option.ite_none_right_eq_some.mp hstep
    cases hsome
    exact h.setDriver ((h c).readIdeConfig hidle)
  | turnDrive c on =>
    obtain ⟨word, hword, rfl⟩ := Option.map_eq_some_iff.mp hstep
    have hshares : undisturbed → ∀ c', drivePower on word &&& shares c' .IDECONFIG =
        s.regs .IDECONFIG &&& shares c' .IDECONFIG := fun hu c' =>
      (drivePower_and_shares on word c').trans (((h c).saved word hword).2.2 hu c')
    refine sound_of_driver ?_ fun c' _ => (h c').overwrite hshares
    exact { (h c).overwrite hshares with saved := fun _ hnone => nomatch hnone }
  | powerLoss regs =>
    obtain ⟨hlost, hsome⟩ := Option.ite_none_right_eq_some.mp hstep
    cases hsome
    exact fun c => (h c).powerLoss (hlost c) regs

theorem sound_run {regs : PciConfig} {as : List AtaAction}
    (hrun : Transition.run (AtaSystem.step bitSigToNumeric provider) (initial regs) as = some s) :
    s.Sound bitSigToNumeric provider False :=
  Transition.run_invariant (fun _ _ _ h hstep => h.step False.elim hstep)
    (initial_sound bitSigToNumeric provider False regs) hrun

theorem sound_guarded_run {regs : PciConfig} {as : List AtaAction}
    (hguarded : Transition.Guarded (AtaSystem.step bitSigToNumeric provider) Undisturbed
      (initial regs) as)
    (hrun : Transition.run (AtaSystem.step bitSigToNumeric provider) (initial regs) as = some s) :
    s.Sound bitSigToNumeric provider True :=
  Transition.guarded_run_invariant (fun _ _ _ h ha hstep => h.step (fun _ => ha) hstep)
    (initial_sound bitSigToNumeric provider True regs) hguarded hrun

/-- Whatever the drivers of both channels do at the same time, a channel whose registers are
written runs each of its drives at the timings that its driver has selected last; PIO goes at the
speed of DMA even where the compatible timing was selected for it. The clock of Ultra DMA may be
lost to a driver that turns its drive off or on meanwhile. -/
theorem chip_has_selected_timings {regs : PciConfig} {as : List AtaAction}
    (hrun : Transition.run (AtaSystem.step bitSigToNumeric provider) (initial regs) as = some s)
    {c : Channel} (hsettled : (s.driver c).Settled) (unit : ATAUnitID) :
    dmaClocks s.regs c unit = ((s.driver c).pata.timing unit).clocks ∧
      pioClocks s.regs c unit = ((s.driver c).pata.timing unit).clocks ∧
      (Transition.Guarded (AtaSystem.step bitSigToNumeric provider) Undisturbed
          (initial regs) as →
        ultraTiming s.regs c unit = ((s.driver c).pata.udmaTiming unit).map fun timing =>
          (timing.udmatim, timing.udmaClock)) := by
  obtain ⟨hdma, hpio, -⟩ := (sound_run hrun c).settled hsettled unit
  refine ⟨hdma, hpio, fun hguarded => ?_⟩
  exact ((sound_guarded_run hguarded hrun c).settled hsettled unit).2.2 trivial

def pciConfigWrites (c : Channel) (n : ℕ) : List AtaAction := .replicate n (.pciConfigWrite c)

/-- Both channels start, and a disk with slow PIO is configured on the first while the drive of the
second is turned off. -/
def diskAndPower : List AtaAction :=
  .flatten
    [[.start .primary], pciConfigWrites .primary 5, [.resetDevice1 .primary, .start .secondary],
      pciConfigWrites .primary 5, pciConfigWrites .secondary 5, [.resetDevice1 .secondary],
      pciConfigWrites .secondary 5,
      [.selectConfig .primary .device0 ⟨0x04, 240, 0x04, 120, 0x10⟩],
      pciConfigWrites .primary 1, [.readIdeConfig .secondary], pciConfigWrites .primary 3,
      [.turnDrive .secondary false], pciConfigWrites .primary 1]

/-- A chip with cables of 80 conductors, which supports the modes of its tables. -/
def ich : Channel → AppleIntelPIIXATAChannel := fun _ => ⟨0x1d, 0x06, 0x3f, true⟩

def ichRegisters : PciConfig
  | .IDECONFIG => 0xf0
  | _ => 0

theorem diskAndPower_isSome :
    (Transition.run (AtaSystem.step (·.toNat.log2) ich) (initial ichRegisters)
      diskAndPower).isSome := by
  decide +kernel

def afterDiskAndPower : AtaSystem := Option.get _ diskAndPower_isSome

theorem diskAndPower_run :
    Transition.run (AtaSystem.step (·.toNat.log2) ich) (initial ichRegisters) diskAndPower =
      some afterDiskAndPower :=
  (Option.some_get diskAndPower_isSome).symm

theorem diskAndPower_timings :
    dmaClocks afterDiskAndPower.regs .primary .device0 = 4 ∧
      ultraTiming afterDiskAndPower.regs .primary .device0 =
        some (2, kPIIX_PCI_IDECONFIG_PCB0) := by
  obtain ⟨hdma, -, hultra⟩ :=
    @chip_has_selected_timings _ _ _ _ _ diskAndPower_run .primary (by decide +kernel) .device0
  refine ⟨hdma.trans ?_, (hultra ?_).trans ?_⟩
  all_goals decide +kernel

/-- Read before the clock of Ultra DMA is written, and written back after it, the word of the drive
power takes the clock away again. -/
example :
    (Transition.run (AtaSystem.step (·.toNat.log2) ich) (initial ichRegisters) <| .flatten
      [[.start .primary], pciConfigWrites .primary 5, [.resetDevice1 .primary, .start .secondary],
        pciConfigWrites .primary 5, pciConfigWrites .secondary 5, [.resetDevice1 .secondary],
        pciConfigWrites .secondary 5,
        [.selectConfig .primary .device0 ⟨0x04, 240, 0x04, 120, 0x10⟩, .readIdeConfig .secondary],
        pciConfigWrites .primary 5, [.turnDrive .secondary false]]).map
      (fun s => ultraTiming s.regs .primary .device0) = some (some (2, 0)) := by
  decide +kernel

/-- The chip is never faster with DMA than the drive has asked for, but with PIO it is so as soon as
a timing for DMA is selected that is too fast for PIO. -/
theorem drive_keeps_up {regs : PciConfig} {as : List AtaAction}
    (hrun : Transition.run (AtaSystem.step bitSigToNumeric provider) (initial regs) as = some s)
    {c : Channel} (hsettled : (s.driver c).Settled) {unit : ATAUnitID} {config : IOATADevConfig}
    (hconfig : config ∈ (s.driver c).accepted unit) (hpio : config.pioCycleTime ≤ 600)
    (hdma : config.dmaCycleTime ≤ 600) :
    (AppleIntelPIIXPATA.selectDMATiming bitSigToNumeric (provider c) config ≠ none →
        config.dmaCycleTime ≤ pciClock * dmaClocks s.regs c unit) ∧
      (config.pioCycleTime ≤ pciClock * pioClocks s.regs c unit ↔
        ∀ timing ∈ AppleIntelPIIXPATA.selectDMATiming bitSigToNumeric (provider c) config,
          config.pioCycleTime ≤ pciClock * timing.clocks) := by
  have hsound := sound_run hrun c
  obtain ⟨hdmaClocks, hpioClocks, -⟩ := hsound.settled hsettled unit
  obtain ⟨-, hdmaTiming, hpioTiming⟩ := hsound.accepted unit config hconfig
  rw [hdmaClocks, hpioClocks, AppleIntelPIIXPATA.timing, hdmaTiming, hpioTiming]
  cases hselected : AppleIntelPIIXPATA.selectDMATiming bitSigToNumeric (provider c) config with
  | none =>
    have hcompatible : AppleIntelPIIXPATA.compatiblePIOTiming bitSigToNumeric (provider c) config =
        AppleIntelPIIXPATA.selectPIOTiming bitSigToNumeric (provider c) config := by
      rw [AppleIntelPIIXPATA.compatiblePIOTiming, hselected]
      rfl
    refine ⟨fun hne => absurd rfl hne, iff_of_true ?_ fun _ hnone => ?_⟩
    · rw [Option.getD_none, hcompatible]
      exact AppleIntelPIIXPATA.selectPIOTiming_cycleTime hpio
    · exact absurd hnone (Option.not_mem_none _)
  | some timing =>
    refine ⟨fun _ => AppleIntelPIIXPATA.selectDMATiming_cycleTime hdma hselected, ?_⟩
    simp only [Option.getD_some, Option.mem_def, Option.some.injEq, forall_eq']

/-- The disk, whose PIO takes cycles of 240 ns, gets them of 120 ns. -/
theorem diskAndPower_keeps_up :
    120 ≤ pciClock * dmaClocks afterDiskAndPower.regs .primary .device0 ∧
      ¬240 ≤ pciClock * pioClocks afterDiskAndPower.regs .primary .device0 := by
  have hselected : AppleIntelPIIXPATA.selectDMATiming (·.toNat.log2) (ich .primary)
      ⟨0x04, 240, 0x04, 120, 0x10⟩ = some (piixDMATiming 2) := by decide
  have haccepted : (afterDiskAndPower.driver .primary).accepted .device0 =
      some ⟨0x04, 240, 0x04, 120, 0x10⟩ := rfl
  obtain ⟨hdma, hpio⟩ := @drive_keeps_up _ _ _ _ _ diskAndPower_run .primary (by decide +kernel)
    .device0 ⟨0x04, 240, 0x04, 120, 0x10⟩ haccepted (by decide) (by decide)
  refine ⟨hdma (by rw [hselected]; exact Option.some_ne_none _), fun h => ?_⟩
  exact absurd (hpio.mp h _ hselected) (by decide)

end AtaSystem

end Ata
