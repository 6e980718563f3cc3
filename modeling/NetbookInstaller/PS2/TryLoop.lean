import NetbookInstaller.PS2.CommandByte

/-! When the try loop of the drivers' `setCommandByte` comes to an end. -/
namespace PS2

def ApplePS2ALPSGlidePoint.setCommandByte (setBits clearBits : UInt8) : SetCommandByte :=
  .tryLoop setBits clearBits

def ApplePS2ElantechTouchpad.setCommandByte (setBits clearBits : UInt8) : SetCommandByte :=
  .tryLoop setBits clearBits

/-- All drivers that have the loop. -/
inductive Caller where
  | driver (d : Driver) | alpsGlidePoint | elantechTouchpad
  deriving DecidableEq, Repr

def Caller.setCommandByte : Caller → UInt8 → UInt8 → SetCommandByte
  | .driver d => d.setCommandByte
  | .alpsGlidePoint => ApplePS2ALPSGlidePoint.setCommandByte
  | .elantechTouchpad => ApplePS2ElantechTouchpad.setCommandByte

theorem Caller.setCommandByte_eq (c : Caller) (setBits clearBits : UInt8) :
    c.setCommandByte setBits clearBits = .tryLoop setBits clearBits := by
  cases c with
  | driver d => exact d.setCommandByte_eq setBits clearBits
  | alpsGlidePoint => rfl
  | elantechTouchpad => rfl

/-- What a request finds when its turn comes, other callers' requests having been executed
since the last one: any port and any keyboard queue. Its reads are given `passes`. -/
structure Surroundings (σ : Type*) where
  hardwareOffline : Bool
  passes : ℕ
  port : σ
  queue : List PortByte

section Read
variable {σ : Type*} (H : Controller σ) (s : Surroundings σ)

/-- What a read of the command byte returns, with and without an expected byte. -/
def Surroundings.asked (e : Option UInt8) : Option UInt8 :=
  (readDataPort H.toPort s.passes .keyboard e (H.write (.command kCPGetCommandByte) s.port)
    s.queue).result.value

def Surroundings.Answers (v : UInt8) : Prop :=
  ∀ e, s.asked H e = some v

def Surroundings.execute (request : PS2Request) : Option PS2Request :=
  (processRequest H s.passes request s.hardwareOffline s.port s.queue).map
    fun r => r.frame.complete

end Read

section Loop
variable {σ : Type*} (H : Controller σ) (env : ℕ → Surroundings σ)

/-- Where the call is after `i` of its requests. -/
def SetCommandByte.pcAt (call : SetCommandByte) : ℕ → Option (TestAndSet.Pc UInt8)
  | 0 => some .read
  | i + 1 => (call.pcAt i).bind fun pc =>
    match call.request pc with
    | none => some pc
    | some request => ((env i).execute H request).map (call.resume pc)

def SetCommandByte.Returns (call : SetCommandByte) : Prop :=
  ∃ i, call.pcAt H env i = some .returned

/-- From some point on no one changes the command byte, and the controller answers each read
of it with the same byte. -/
def Settles : Prop :=
  ∃ N v, ∀ i ≥ N, (env i).Answers H v

/-- No read goes on for ever. -/
def ReadsReturn : Prop :=
  ∀ i e, ((env i).asked H e).isSome = true

end Loop

section Requests
variable {σ : Type*} {H : Controller σ} {s : Surroundings σ}

theorem execute_offline (hoffline : s.hardwareOffline = true) (request : PS2Request) :
    s.execute H request = some { request with commandsCount := 0 } := by
  unfold Surroundings.execute processRequest
  rw [hoffline]
  cases request.commandsCount with
  | zero => rfl
  | succ k => simp [RequestRun.commands, ProcessFrame.enter, ProcessFrame.current,
      ProcessFrame.complete]

theorem execute_readCommandByte (honline : s.hardwareOffline = false) {v : UInt8}
    (hv : s.asked H none = some v) :
    s.execute H readCommandByte =
      some (.ofCommands [⟨.writeCommandPort, kCPGetCommandByte⟩, ⟨.readDataPort, v⟩]) := by
  unfold Surroundings.asked readDataPort at hv
  unfold Surroundings.execute
  rw [honline]
  simp [processRequest, RequestRun.commands, readCommandByte, PS2Request.ofCommands,
    ProcessFrame.enter, ProcessFrame.current, RequestRun.command, ProcessFrame.start, hv,
    ProcessFrame.finish, ProcessFrame.complete, kCPGetCommandByte_ne]

theorem execute_testAndSetCommandByte (honline : s.hardwareOffline = false) {v old : UInt8}
    (hv : s.asked H (some old) = some v) (new : UInt8) :
    (s.execute H (testAndSetCommandByte old new)).map PS2Request.commandsCount =
      some (if v = old then 4 else 1) := by
  unfold Surroundings.asked readDataPort at hv
  unfold Surroundings.execute
  rw [honline]
  by_cases hold : v = old <;>
    simp [processRequest, RequestRun.commands, testAndSetCommandByte, PS2Request.ofCommands,
      ProcessFrame.enter, ProcessFrame.current, RequestRun.command, ProcessFrame.start, hv,
      ProcessFrame.finish, ProcessFrame.complete, hold, kCPGetCommandByte_ne,
      kCPSetCommandByte_ne]

end Requests

section Iteration
variable {σ : Type*} {H : Controller σ} {env : ℕ → Surroundings σ} {setBits clearBits : UInt8}
  {i : ℕ} {old v : UInt8}

theorem pcAt_read_offline
    (hpc : (SetCommandByte.tryLoop setBits clearBits).pcAt H env i = some .read)
    (hoffline : (env i).hardwareOffline = true) :
    (SetCommandByte.tryLoop setBits clearBits).pcAt H env (i + 1) = some (.testAndSet 0) := by
  rw [SetCommandByte.pcAt, hpc]
  show ((env i).execute H readCommandByte).map _ = _
  rw [execute_offline hoffline]
  rfl

theorem pcAt_read_online
    (hpc : (SetCommandByte.tryLoop setBits clearBits).pcAt H env i = some .read)
    (honline : (env i).hardwareOffline = false) (hv : (env i).asked H none = some v) :
    (SetCommandByte.tryLoop setBits clearBits).pcAt H env (i + 1) = some (.testAndSet v) := by
  rw [SetCommandByte.pcAt, hpc]
  show ((env i).execute H readCommandByte).map _ = _
  rw [execute_readCommandByte honline hv]
  rfl

theorem pcAt_testAndSet_offline
    (hpc : (SetCommandByte.tryLoop setBits clearBits).pcAt H env i = some (.testAndSet old))
    (hoffline : (env i).hardwareOffline = true) :
    (SetCommandByte.tryLoop setBits clearBits).pcAt H env (i + 1) = some .read := by
  rw [SetCommandByte.pcAt, hpc]
  show ((env i).execute H (testAndSetCommandByte old _)).map _ = _
  rw [execute_offline hoffline]
  rfl

theorem pcAt_testAndSet_online
    (hpc : (SetCommandByte.tryLoop setBits clearBits).pcAt H env i = some (.testAndSet old))
    (honline : (env i).hardwareOffline = false) (hv : (env i).asked H (some old) = some v) :
    (SetCommandByte.tryLoop setBits clearBits).pcAt H env (i + 1) =
      some (if v = old then .returned else .read) := by
  rw [SetCommandByte.pcAt, hpc]
  show ((env i).execute H (testAndSetCommandByte old (updateBits setBits clearBits old))).map
    (fun request : PS2Request =>
      if request.commandsCount ≠ 4 then TestAndSet.Pc.read else .returned) = _
  obtain ⟨request, hrequest, hcount⟩ := Option.map_eq_some_iff.mp
    (execute_testAndSetCommandByte honline hv (updateBits setBits clearBits old))
  rw [hrequest, Option.map_some, hcount]
  by_cases hold : v = old
  · simp [hold]
  · simp [hold]

theorem pcAt_returned (hpc : (SetCommandByte.tryLoop setBits clearBits).pcAt H env i =
    some .returned) :
    (SetCommandByte.tryLoop setBits clearBits).pcAt H env (i + 1) = some .returned := by
  rw [SetCommandByte.pcAt, hpc]
  rfl

theorem pcAt_returned_add (hpc : (SetCommandByte.tryLoop setBits clearBits).pcAt H env i =
    some .returned) (j : ℕ) :
    (SetCommandByte.tryLoop setBits clearBits).pcAt H env (i + j) = some .returned := by
  induction j with
  | zero => exact hpc
  | succ j ih => exact pcAt_returned ih

/-- An iteration of the loop is two requests. -/
theorem pcAt_two_mul (hreturn : ReadsReturn H env) (k : ℕ) :
    (SetCommandByte.tryLoop setBits clearBits).pcAt H env (2 * k) = some .read ∨
      (SetCommandByte.tryLoop setBits clearBits).pcAt H env (2 * k) = some .returned := by
  induction k with
  | zero => exact .inl rfl
  | succ k ih =>
    rw [Nat.mul_succ]
    rcases ih with hread | hreturned
    · obtain ⟨old, hold⟩ : ∃ old, (SetCommandByte.tryLoop setBits clearBits).pcAt H env
          (2 * k + 1) = some (.testAndSet old) := by
        cases hoffline : (env (2 * k)).hardwareOffline with
        | true => exact ⟨0, pcAt_read_offline hread hoffline⟩
        | false =>
          obtain ⟨v, hv⟩ := Option.isSome_iff_exists.mp (hreturn (2 * k) none)
          exact ⟨v, pcAt_read_online hread hoffline hv⟩
      cases hoffline : (env (2 * k + 1)).hardwareOffline with
      | true => exact .inl (pcAt_testAndSet_offline hold hoffline)
      | false =>
        obtain ⟨v, hv⟩ := Option.isSome_iff_exists.mp (hreturn (2 * k + 1) (some old))
        have hnext := pcAt_testAndSet_online hold hoffline hv
        by_cases hsame : v = old
        · exact .inr (by rw [hnext, if_pos hsame])
        · exact .inl (by rw [hnext, if_neg hsame])
    · exact .inr (pcAt_returned (pcAt_returned hreturned))

/-- Both requests of an iteration are executed, and the read tells the truth. -/
theorem returns_of_online (hreturn : ReadsReturn H env) {k : ℕ}
    (hread : (env (2 * k)).hardwareOffline = false ∧ (env (2 * k)).Answers H v)
    (htest : (env (2 * k + 1)).hardwareOffline = false ∧ (env (2 * k + 1)).Answers H v) :
    (SetCommandByte.tryLoop setBits clearBits).Returns H env := by
  rcases pcAt_two_mul hreturn k with hpc | hpc
  · have hold := pcAt_read_online hpc hread.1 (hread.2 none)
    have hend := pcAt_testAndSet_online hold htest.1 (htest.2 (some v))
    rw [if_pos rfl] at hend
    exact ⟨_, hend⟩
  · exact ⟨_, hpc⟩

end Iteration

/-- A controller that is idle and in time answers with its command byte. -/
theorem answers_commandByte {h : Hardware} (hin : h.InTime) {n : ℕ} (hn : h.size < n)
    (hardwareOffline : Bool) :
    (⟨hardwareOffline, n + 1, h, []⟩ : Surroundings Hardware).Answers Hardware.controller
      h.commandByte := by
  intro e
  obtain ⟨r, hr, hvalue, -⟩ := passes_commandByte e hin hn
  unfold Surroundings.asked readDataPort
  rw [hr, hvalue]

/-- An idle controller with this command byte. -/
def idle (hardwareOffline : Bool) (commandByte : UInt8) : Surroundings Hardware :=
  ⟨hardwareOffline, 2, ⟨commandByte, 0, none, [], [], []⟩, []⟩

theorem answers_idle (hardwareOffline : Bool) (commandByte : UInt8) :
    (idle hardwareOffline commandByte).Answers Hardware.controller commandByte :=
  answers_commandByte (h := ⟨commandByte, 0, none, [], [], []⟩)
    (show 0 < 10000 by decide) (show 0 < 1 by decide) hardwareOffline

/-- Others change the command byte between the two requests of each of the first `N`
iterations, and leave it alone from then on. -/
def contended (offline : ℕ → Bool) (N i : ℕ) : Surroundings Hardware :=
  idle (offline i) (if i < 2 * N ∧ i % 2 = 0 then 2 else 1)

theorem settles_contended (offline : ℕ → Bool) (N : ℕ) :
    Settles Hardware.controller (contended offline N) := by
  refine ⟨2 * N, 1, fun i hi => ?_⟩
  rw [contended, if_neg (by omega)]
  exact answers_idle _ _

theorem readsReturn_contended (offline : ℕ → Bool) (N : ℕ) :
    ReadsReturn Hardware.controller (contended offline N) := by
  intro i e
  rw [contended, answers_idle]
  rfl

/-- If from some point on each iteration finds the hardware offline once, the call may
never return. -/
theorem pcAt_contended {setBits clearBits : UInt8} {offline : ℕ → Bool} {N : ℕ}
    (hoffline : ∀ k ≥ N, offline (2 * k) = true ∨ offline (2 * k + 1) = true) (k : ℕ) :
    (SetCommandByte.tryLoop setBits clearBits).pcAt Hardware.controller (contended offline N)
      (2 * k) = some .read := by
  induction k with
  | zero => rfl
  | succ k ih =>
    have hfirst : (contended offline N (2 * k)).Answers Hardware.controller
        (if k < N then 2 else 1) := by
      have hbyte : (if 2 * k < 2 * N ∧ 2 * k % 2 = 0 then 2 else 1 : UInt8) =
          if k < N then 2 else 1 :=
        if_congr (by omega) rfl rfl
      rw [contended, hbyte]
      exact answers_idle _ _
    have hsecond : (contended offline N (2 * k + 1)).Answers Hardware.controller 1 := by
      rw [contended, if_neg (by omega)]
      exact answers_idle _ _
    have htest {old : UInt8} (hpc : (SetCommandByte.tryLoop setBits clearBits).pcAt
        Hardware.controller (contended offline N) (2 * k + 1) = some (.testAndSet old))
        (hold : offline (2 * k + 1) = false → 1 ≠ old) :
        (SetCommandByte.tryLoop setBits clearBits).pcAt Hardware.controller (contended offline N)
          (2 * (k + 1)) = some .read := by
      rw [Nat.mul_succ]
      cases hoff : offline (2 * k + 1) with
      | true => exact pcAt_testAndSet_offline hpc hoff
      | false =>
        have hnext := pcAt_testAndSet_online hpc hoff (hsecond (some old))
        rwa [if_neg (hold hoff)] at hnext
    cases hoff : offline (2 * k) with
    | true => exact htest (pcAt_read_offline ih hoff) fun _ => by decide
    | false =>
      refine htest (pcAt_read_online ih hoff (hfirst none)) fun honline => ?_
      by_cases hk : k < N
      · rw [if_pos hk]
        decide
      · rcases hoffline k (Nat.le_of_not_lt hk) with h | h
        · rw [hoff] at h
          cases h
        · rw [honline] at h
          cases h

theorem not_returns_contended {setBits clearBits : UInt8} {offline : ℕ → Bool} {N : ℕ}
    (hoffline : ∀ k ≥ N, offline (2 * k) = true ∨ offline (2 * k + 1) = true) :
    ¬ (SetCommandByte.tryLoop setBits clearBits).Returns Hardware.controller
      (contended offline N) := by
  rintro ⟨i, hi⟩
  have hreturned := pcAt_returned_add hi i
  rw [← Nat.two_mul, pcAt_contended hoffline i] at hreturned
  cases hreturned

/-- For a given history of `_hardwareOffline`, as the requests of the call find it: the call
returns from every state in which others eventually stop and the controller answers, whatever
happens before and whatever the device is, if and only if again and again both requests of an
iteration find the hardware online. -/
theorem returns_iff (caller : Caller) (setBits clearBits : UInt8) (offline : ℕ → Bool) :
    (∀ (σ : Type) (H : Controller σ) (env : ℕ → Surroundings σ),
        (∀ i, (env i).hardwareOffline = offline i) → ReadsReturn H env → Settles H env →
          (caller.setCommandByte setBits clearBits).Returns H env) ↔
      ∀ N, ∃ k ≥ N, offline (2 * k) = false ∧ offline (2 * k + 1) = false := by
  rw [caller.setCommandByte_eq]
  constructor
  · intro hreturns
    by_contra hnot
    push Not at hnot
    obtain ⟨N, hN⟩ := hnot
    refine not_returns_contended (fun k hk => ?_) (hreturns Hardware Hardware.controller
      (contended offline N) (fun _ => rfl) (readsReturn_contended offline N)
      (settles_contended offline N))
    cases hread : offline (2 * k) with
    | true => exact .inl rfl
    | false => exact .inr (Bool.eq_true_of_not_eq_false (hN k hk hread))
  · intro honline σ H env hoffline hreturn ⟨N, v, hv⟩
    obtain ⟨k, hk, hread, htest⟩ := honline N
    refine returns_of_online hreturn ⟨(hoffline _).trans hread, hv _ ?_⟩
      ⟨(hoffline _).trans htest, hv _ ?_⟩
    · omega
    · omega

/-- `initKeyboard` with the hardware offline for good. -/
theorem offline_not_returns :
    ReadsReturn Hardware.controller (contended (fun _ => true) 0) ∧
      Settles Hardware.controller (contended (fun _ => true) 0) ∧
        ¬ ((Caller.driver .keyboard).setCommandByte 0x41 0x10).Returns Hardware.controller
          (contended (fun _ => true) 0) :=
  ⟨readsReturn_contended _ _, settles_contended _ _,
    not_returns_contended fun _ _ => .inl rfl⟩

end PS2
