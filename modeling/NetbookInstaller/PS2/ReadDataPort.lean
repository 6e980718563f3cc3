import NetbookInstaller.PS2.Device
import Mathlib.Data.List.Perm.Basic
import Mathlib.Data.List.Count

/-! The two `readDataPort` methods of the controller. One pass of their loop is
a function of the byte it obtained; the loop is run against an arbitrary port. -/
namespace PS2

def kKeyboardQueueSize : ℕ := 32

/-- `enqueueKeyboardData`: a byte that arrives while no element is unused is dropped. -/
def enqueueKeyboardData (queue : List PortByte) (key : PortByte) : List PortByte :=
  if queue.length < kKeyboardQueueSize then queue ++ [key] else queue

/-- The locals of a `readDataPort` call. `expectedByte` is `none` in the overload
without an expected byte; `firstByte` is `none` until `firstByteHeld`. -/
structure ReadFrame where
  deviceType : PS2DeviceType
  expectedByte : Option UInt8
  firstByte : Option PortByte
  timeoutCounter : ℕ
  deriving DecidableEq, Repr

def ReadFrame.enter (deviceType : PS2DeviceType) (expectedByte : Option UInt8) : ReadFrame :=
  ⟨deviceType, expectedByte, none, 10000⟩

/-- How a call stands after a pass of its loop. A call that timed out returns the
byte it held, and the fake value 0 if it held none. -/
inductive ReadResult where
  | again (frame : ReadFrame)
  | returned (byte : PortByte)
  | timedOut (held : Option PortByte)
  deriving DecidableEq, Repr

/-- The value returned to the caller, once there is one. -/
def ReadResult.value : ReadResult → Option UInt8
  | .again _ => none
  | .returned byte => some byte.data
  | .timedOut held => some ((held.map PortByte.data).getD 0)

/-- The effect of one byte: the arguments of `dispatchDriverInterrupt`, and how
the call goes on after the handler has returned. -/
structure ReadPass where
  dispatched : Option (PS2DeviceType × PortByte)
  result : ReadResult
  deriving DecidableEq, Repr

/-- The part of the loop behind `inb(kDataPort)` and `skipForwardToY`. -/
def ReadFrame.onByte (f : ReadFrame) (readByte : PortByte) : ReadPass :=
  if readByte.stream = f.deviceType then
    match f.expectedByte with
    | none => ⟨none, .returned readByte⟩
    | some expectedByte =>
      if readByte.data = expectedByte then
        match f.firstByte with
        | none => ⟨none, .returned readByte⟩
        | some firstByte => ⟨some (f.deviceType, firstByte), .returned readByte⟩
      else
        match f.firstByte with
        | none => ⟨none, .again { f with firstByte := some readByte }⟩
        | some firstByte => ⟨some (f.deviceType, readByte), .returned firstByte⟩
  else ⟨some (f.deviceType.other, readByte), .again f⟩

/-- The controller as a call sees it: the keyboard bytes that interrupts bring
while the lock is free, and one status poll with the byte it finds. -/
structure Port (σ : Type*) where
  interrupts : σ → List PortByte × σ
  poll : σ → Option PortByte × σ

variable {σ : Type*}

/-- The inner wait loop: the counter left and the byte, or `none` on timeout. -/
def Port.wait (P : Port σ) : ℕ → σ → Option (ℕ × PortByte) × σ
  | 0, s => (none, s)
  | t + 1, s =>
    match P.poll s with
    | (some byte, s') => (some (t + 1, byte), s')
    | (none, s') => P.wait t s'

/-- The state of the loop with everything the call has taken and dispatched so far. -/
structure ReadRun (σ : Type*) where
  result : ReadResult
  port : σ
  queue : List PortByte
  taken : List PortByte
  dispatched : List (PS2DeviceType × PortByte)

def ReadRun.onByte (r : ReadRun σ) (f : ReadFrame) (byte : PortByte) : ReadRun σ :=
  { r with
    result := (f.onByte byte).result
    taken := r.taken ++ [byte]
    dispatched := r.dispatched ++ (f.onByte byte).dispatched.toList }

/-- One pass of `while (1)`: keyboard interrupts first, then, under the lock, the
keyboard queue if the keyboard stream is wanted, else the port. -/
def ReadRun.pass (P : Port σ) (r : ReadRun σ) (f : ReadFrame) : ReadRun σ :=
  let port := (P.interrupts r.port).2
  let queue := (P.interrupts r.port).1.foldl enqueueKeyboardData r.queue
  match f.deviceType, queue with
  | .keyboard, byte :: rest => { r with port := port, queue := rest }.onByte f byte
  | _, _ =>
    match P.wait f.timeoutCounter port with
    | (none, port) => { r with port := port, queue := queue, result := .timedOut f.firstByte }
    | (some (timeoutCounter, byte), port) =>
      { r with port := port, queue := queue }.onByte { f with timeoutCounter } byte

/-- At most `n` passes of the loop. -/
def ReadRun.passes (P : Port σ) : ℕ → ReadRun σ → ReadRun σ
  | 0, r => r
  | n + 1, r =>
    match r.result with
    | .again f => ReadRun.passes P n (r.pass P f)
    | _ => r

/-- `n` passes of `readDataPort(deviceType)` or `readDataPort(deviceType, expectedByte)`. -/
def readDataPort (P : Port σ) (n : ℕ) (deviceType : PS2DeviceType)
    (expectedByte : Option UInt8) (port : σ) (queue : List PortByte) : ReadRun σ :=
  ReadRun.passes P n ⟨.again (.enter deviceType expectedByte), port, queue, [], []⟩

/-! What the controller offers to a call, whatever the call makes of it. -/

/-- A byte with what is left behind it. -/
structure Arrival (σ : Type*) where
  byte : PortByte
  timeoutCounter : ℕ
  port : σ
  queue : List PortByte

/-- The next byte for a call that reads stream `d`: the oldest of the keyboard queue, or the one
that the port has before the counter is used up. -/
def Port.arrival (P : Port σ) (d : PS2DeviceType) (timeoutCounter : ℕ) (port : σ)
    (queue : List PortByte) : Option (Arrival σ) :=
  let port' := (P.interrupts port).2
  let queue' := (P.interrupts port).1.foldl enqueueKeyboardData queue
  match d, queue' with
  | .keyboard, byte :: rest => some ⟨byte, timeoutCounter, port', rest⟩
  | _, _ => (P.wait timeoutCounter port').1.map fun ready =>
      ⟨ready.2, ready.1, (P.wait timeoutCounter port').2, queue'⟩

/-- The bytes that come in one after the other until the counter is used up, at most `n` of
them. -/
def Port.arrivals (P : Port σ) (d : PS2DeviceType) :
    ℕ → ℕ → σ → List PortByte → List PortByte
  | 0, _, _, _ => []
  | n + 1, timeoutCounter, port, queue =>
    match P.arrival d timeoutCounter port queue with
    | none => []
    | some a => a.byte :: P.arrivals d n a.timeoutCounter a.port a.queue

/-- The byte a call still holds, or hands back to its caller. -/
def ReadResult.kept : ReadResult → List PortByte
  | .again f => f.firstByte.toList
  | .returned byte => [byte]
  | .timedOut held => held.toList

/-- The bytes of the requested stream. -/
def own (deviceType : PS2DeviceType) (bytes : List PortByte) : List PortByte :=
  bytes.filter fun b => b.stream = deviceType

/-- The outcomes of a call by the bytes of its own stream: those it has taken and
those it has dispatched. -/
inductive OwnStream (d : PS2DeviceType) (e : Option UInt8) :
    ReadResult → List PortByte → List PortByte → Prop
  | waiting (t : ℕ) : OwnStream d e (.again ⟨d, e, none, t⟩) [] []
  | held (t : ℕ) {x : PortByte} {b : UInt8} (he : e = some b) (hx : x.data ≠ b) :
      OwnStream d e (.again ⟨d, e, some x, t⟩) [x] []
  | silent : OwnStream d e (.timedOut none) [] []
  | heldTimedOut {x : PortByte} {b : UInt8} (he : e = some b) (hx : x.data ≠ b) :
      OwnStream d e (.timedOut (some x)) [x] []
  | plain {x : PortByte} (he : ∀ b, e = some b → x.data = b) :
      OwnStream d e (.returned x) [x] []
  | secondMatched {x y : PortByte} {b : UInt8} (he : e = some b) (hx : x.data ≠ b)
      (hy : y.data = b) : OwnStream d e (.returned y) [x, y] [x]
  | secondMismatched {x y : PortByte} {b : UInt8} (he : e = some b) (hx : x.data ≠ b)
      (hy : y.data ≠ b) : OwnStream d e (.returned x) [x, y] [y]

/-- What every prefix of a call's passes keeps. -/
structure ReadRun.Accounted (d : PS2DeviceType) (e : Option UInt8) (r : ReadRun σ) : Prop where
  perm : r.taken.Perm (r.dispatched.map Prod.snd ++ r.result.kept)
  stream : ∀ x ∈ r.dispatched, x.1 = x.2.stream
  ownStream : OwnStream d e r.result (own d r.taken) (own d (r.dispatched.map Prod.snd))

@[simp] theorem own_nil (d : PS2DeviceType) : own d [] = [] := rfl

@[simp] theorem own_append (d : PS2DeviceType) (xs ys : List PortByte) :
    own d (xs ++ ys) = own d xs ++ own d ys := List.filter_append ..

theorem own_singleton {d : PS2DeviceType} {x : PortByte} (h : x.stream = d) :
    own d [x] = [x] := by simp [own, h]

theorem own_singleton_of_ne {d : PS2DeviceType} {x : PortByte} (h : x.stream ≠ d) :
    own d [x] = [] := by simp [own, h]

theorem other_eq_of_ne {a b : PS2DeviceType} (h : a ≠ b) : b.other = a := by
  cases a <;> cases b <;> first | rfl | exact absurd rfl h

/-- A frame of a call for stream `d`: what it holds came from `d` and mismatched. -/
structure ReadFrame.Holds (d : PS2DeviceType) (e : Option UInt8) (f : ReadFrame) : Prop where
  deviceType : f.deviceType = d
  expectedByte : f.expectedByte = e
  firstByte : ∀ x, f.firstByte = some x → x.stream = d ∧ ∃ b, e = some b ∧ x.data ≠ b

theorem ReadRun.Accounted.holds {d : PS2DeviceType} {e : Option UInt8} {r : ReadRun σ}
    {f : ReadFrame} (h : r.Accounted d e) (hf : r.result = .again f) :
    f.Holds d e ∧ own d r.taken = f.firstByte.toList ∧
      own d (r.dispatched.map Prod.snd) = [] := by
  have ho := h.ownStream
  rw [hf] at ho
  generalize hxs : own d r.taken = xs at ho
  generalize hys : own d (r.dispatched.map Prod.snd) = ys at ho
  cases ho with
  | waiting t => exact ⟨⟨rfl, rfl, by simp⟩, rfl, rfl⟩
  | @held t x b he hx =>
    have hmem : x ∈ own d r.taken := by simp [hxs]
    have hd : x.stream = d := by simpa [own] using (List.mem_filter.mp hmem).2
    refine ⟨⟨rfl, rfl, ?_⟩, rfl, rfl⟩
    rintro y hy
    cases hy
    exact ⟨hd, b, he, hx⟩

/-- One byte: with the held byte it is dispatched or kept, to the driver of its own
stream, and the outcome is the one for the bytes of the requested stream. -/
theorem ReadFrame.Holds.onByte {d : PS2DeviceType} {e : Option UInt8} {f : ReadFrame}
    (h : f.Holds d e) (x : PortByte) :
    (f.firstByte.toList ++ [x]).Perm
        ((f.onByte x).dispatched.toList.map Prod.snd ++ (f.onByte x).result.kept) ∧
      (∀ y ∈ (f.onByte x).dispatched, y.1 = y.2.stream) ∧
      OwnStream d e (f.onByte x).result (f.firstByte.toList ++ own d [x])
        (own d ((f.onByte x).dispatched.toList.map Prod.snd)) := by
  obtain ⟨fd, fe, ff, t⟩ := f
  obtain ⟨hd, he, hheld⟩ := h
  simp only at hd he hheld
  subst hd he
  by_cases hx : x.stream = fd
  · rw [own_singleton hx]
    cases ff with
    | none =>
      cases fe with
      | none => simpa [ReadFrame.onByte, hx, ReadResult.kept] using OwnStream.plain (by simp)
      | some b =>
        by_cases hb : x.data = b
        · have hplain : OwnStream fd (some b) (.returned x) [x] [] := .plain (by simp [hb])
          simpa [ReadFrame.onByte, hx, hb, ReadResult.kept] using hplain
        · have hnew := OwnStream.held (d := fd) t rfl hb
          simpa [ReadFrame.onByte, hx, hb, ReadResult.kept] using hnew
    | some y =>
      obtain ⟨hy, b, rfl, hyb⟩ := hheld y rfl
      by_cases hb : x.data = b
      · have hnew := OwnStream.secondMatched (d := fd) rfl hyb hb
        simpa [ReadFrame.onByte, hx, hy, hb, ReadResult.kept, own_singleton hy] using hnew
      · have hnew := OwnStream.secondMismatched (d := fd) rfl hyb hb
        simpa [ReadFrame.onByte, hx, hb, ReadResult.kept, own_singleton hx,
          List.Perm.swap] using hnew
  · have hother := other_eq_of_ne hx
    rw [own_singleton_of_ne hx, List.append_nil]
    refine ⟨?_, ?_, ?_⟩
    · simp [ReadFrame.onByte, hx, ReadResult.kept]
    · simp [ReadFrame.onByte, hx, hother]
    · cases ff with
      | none => simpa [ReadFrame.onByte, hx, own_singleton_of_ne hx] using OwnStream.waiting t
      | some y =>
        obtain ⟨hy, b, rfl, hyb⟩ := hheld y rfl
        have hnew := OwnStream.held (d := fd) t rfl hyb
        simpa [ReadFrame.onByte, hx, own_singleton_of_ne hx] using hnew

/-- The step lemma of the loop. -/
theorem ReadRun.Accounted.onByte {d : PS2DeviceType} {e : Option UInt8} {r : ReadRun σ}
    {f : ReadFrame} (h : r.Accounted d e) (hf : r.result = .again f) (t : ℕ) (x : PortByte) :
    (r.onByte { f with timeoutCounter := t } x).Accounted d e := by
  obtain ⟨⟨hd, he, hheld⟩, hxs, hys⟩ := h.holds hf
  obtain ⟨hp, hs, ho⟩ := ReadFrame.Holds.onByte (f := { f with timeoutCounter := t })
    ⟨hd, he, hheld⟩ x
  have hperm : r.taken.Perm (r.dispatched.map Prod.snd ++ f.firstByte.toList) := by
    simpa only [hf, ReadResult.kept] using h.perm
  refine ⟨?_, ?_, ?_⟩
  · have h₁ := (hperm.append_right [x]).trans
      (by simpa only [List.append_assoc] using hp.append_left (r.dispatched.map Prod.snd))
    simpa only [ReadRun.onByte, List.map_append, List.append_assoc] using h₁
  · intro y hy
    rcases List.mem_append.mp hy with hy | hy
    · exact h.stream y hy
    · exact hs y (by simpa using hy)
  · simpa only [ReadRun.onByte, List.map_append, own_append, hxs, hys, List.nil_append] using ho

theorem ReadRun.Accounted.timedOut {d : PS2DeviceType} {e : Option UInt8} {r : ReadRun σ}
    {f : ReadFrame} (h : r.Accounted d e) (hf : r.result = .again f) (port : σ)
    (queue : List PortByte) :
    ReadRun.Accounted d e { r with port, queue, result := .timedOut f.firstByte } := by
  obtain ⟨⟨hd, he, hheld⟩, hxs, hys⟩ := h.holds hf
  refine ⟨by simpa only [hf, ReadResult.kept] using h.perm, h.stream, ?_⟩
  rw [hxs, hys]
  cases hff : f.firstByte with
  | none => exact .silent
  | some y =>
    obtain ⟨-, b, hb, hy⟩ := hheld y hff
    exact .heldTimedOut hb hy

theorem ReadRun.Accounted.pass (P : Port σ) {d : PS2DeviceType} {e : Option UInt8}
    {r : ReadRun σ} {f : ReadFrame} (h : r.Accounted d e) (hf : r.result = .again f) :
    (r.pass P f).Accounted d e := by
  have hset (port : σ) (queue : List PortByte) :
      ReadRun.Accounted d e { r with port, queue } := ⟨h.perm, h.stream, h.ownStream⟩
  simp only [ReadRun.pass]
  split
  · refine (hset _ _).onByte ?_ f.timeoutCounter _
    exact hf
  · split
    · exact h.timedOut hf _ _
    · refine (hset _ _).onByte ?_ _ _
      exact hf

theorem ReadRun.Accounted.passes (P : Port σ) {d : PS2DeviceType} {e : Option UInt8} (n : ℕ)
    {r : ReadRun σ} (h : r.Accounted d e) : (ReadRun.passes P n r).Accounted d e := by
  induction n generalizing r with
  | zero => exact h
  | succ n ih =>
    unfold ReadRun.passes
    split
    next f hf => exact ih (h.pass P hf)
    next => exact h

theorem readDataPort_accounted (P : Port σ) (n : ℕ) (d : PS2DeviceType) (e : Option UInt8)
    (port : σ) (queue : List PortByte) : (readDataPort P n d e port queue).Accounted d e :=
  ReadRun.Accounted.passes P n ⟨by simp [ReadResult.kept, ReadFrame.enter], by simp, .waiting _⟩

/-- A pass of the loop is one arrival, or the timeout. -/
theorem ReadRun.pass_eq (P : Port σ) (r : ReadRun σ) (f : ReadFrame) :
    (∃ a, P.arrival f.deviceType f.timeoutCounter r.port r.queue = some a ∧
      r.pass P f = { r with port := a.port, queue := a.queue }.onByte
        { f with timeoutCounter := a.timeoutCounter } a.byte) ∨
      P.arrival f.deviceType f.timeoutCounter r.port r.queue = none ∧
        (r.pass P f).taken = r.taken ∧ (r.pass P f).result = .timedOut f.firstByte := by
  simp only [Port.arrival, ReadRun.pass]
  split
  · exact .inl ⟨_, rfl, rfl⟩
  · rcases P.wait f.timeoutCounter (P.interrupts r.port).2 with ⟨- | ⟨timeoutCounter, byte⟩, port⟩
    · exact .inr ⟨rfl, rfl, rfl⟩
    · exact .inl ⟨_, rfl, rfl⟩

/-- A byte that does not end the call leaves what it reads, and its counter. -/
theorem ReadFrame.onByte_again {f g : ReadFrame} {byte : PortByte}
    (h : (f.onByte byte).result = .again g) :
    g.deviceType = f.deviceType ∧ g.timeoutCounter = f.timeoutCounter := by
  unfold ReadFrame.onByte at h
  split at h
  · split at h
    · cases h
    · split at h
      · split at h <;> cases h
      · split at h
        · cases h
          exact ⟨rfl, rfl⟩
        · cases h
  · cases h
    exact ⟨rfl, rfl⟩

theorem ReadFrame.onByte_ne_timedOut (f : ReadFrame) (byte : PortByte)
    (held : Option PortByte) : (f.onByte byte).result ≠ .timedOut held := by
  unfold ReadFrame.onByte
  repeat' split
  all_goals nofun

theorem ReadRun.passes_of_ended (P : Port σ) (n : ℕ) {r : ReadRun σ}
    (h : ∀ f, r.result ≠ .again f) : ReadRun.passes P n r = r := by
  cases n with
  | zero => rfl
  | succ n =>
    unfold ReadRun.passes
    split
    next f hf => exact absurd hf (h f)
    next => rfl

/-- A call takes the bytes that are offered, from the first one on; it leaves one only when it has
a result, and it times out only behind the last one. -/
structure ReadRun.Takes (s : ReadRun σ) (offered : List PortByte) (n : ℕ) : Prop where
  taken : s.taken <+: offered
  again : ∀ f, s.result = .again f → s.taken = offered ∧ offered.length = n
  timedOut : ∀ held, s.result = .timedOut held → s.taken = offered

theorem ReadRun.passes_takes (P : Port σ) (n : ℕ) {r : ReadRun σ} {f : ReadFrame}
    (hf : r.result = .again f) :
    (ReadRun.passes P n r).Takes
      (r.taken ++ P.arrivals f.deviceType n f.timeoutCounter r.port r.queue)
      (r.taken.length + n) := by
  induction n generalizing r f with
  | zero =>
    rw [Port.arrivals, List.append_nil]
    exact ⟨List.prefix_refl _, fun _ _ => ⟨rfl, rfl⟩, fun _ _ => rfl⟩
  | succ n ih =>
    have hpasses : ReadRun.passes P (n + 1) r = ReadRun.passes P n (r.pass P f) := by
      simp only [ReadRun.passes, hf]
    rw [hpasses]
    rcases r.pass_eq P f with ⟨a, ha, hpass⟩ | ⟨hnone, htaken, htimedOut⟩
    · have hoffered : r.taken ++ P.arrivals f.deviceType (n + 1) f.timeoutCounter r.port r.queue =
          (r.pass P f).taken ++ P.arrivals f.deviceType n a.timeoutCounter a.port a.queue := by
        rw [Port.arrivals, ha, hpass]
        exact (List.append_assoc r.taken [a.byte] _).symm
      have hlength : r.taken.length + (n + 1) = (r.pass P f).taken.length + n := by
        rw [hpass]
        simp only [ReadRun.onByte, List.length_append, List.length_singleton]
        omega
      rw [hoffered, hlength]
      cases hresult : (r.pass P f).result with
      | again g =>
        have hg := hresult
        rw [hpass] at hg
        obtain ⟨hdevice, hcounter⟩ := ReadFrame.onByte_again hg
        have hrest := ih hresult
        rw [hdevice, hcounter] at hrest
        have hport : (r.pass P f).port = a.port ∧ (r.pass P f).queue = a.queue := by
          rw [hpass]
          exact ⟨rfl, rfl⟩
        rw [hport.1, hport.2] at hrest
        exact hrest
      | returned byte =>
        rw [passes_of_ended P n (by simp [hresult])]
        exact ⟨List.prefix_append _ _, by simp [hresult], by simp [hresult]⟩
      | timedOut held =>
        rw [hpass] at hresult
        exact absurd hresult (ReadFrame.onByte_ne_timedOut _ _ held)
    · have hoffered : P.arrivals f.deviceType (n + 1) f.timeoutCounter r.port r.queue = [] := by
        rw [Port.arrivals, hnone]
      rw [hoffered, List.append_nil, passes_of_ended P n (by simp [htimedOut])]
      exact ⟨htaken ▸ List.prefix_refl _, by simp [htimedOut], fun _ _ => htaken⟩

theorem readDataPort_takes (P : Port σ) (n : ℕ) (d : PS2DeviceType) (e : Option UInt8)
    (port : σ) (queue : List PortByte) :
    (readDataPort P n d e port queue).Takes (P.arrivals d n 10000 port queue) n := by
  have h := ReadRun.passes_takes P n
    (r := ⟨.again (.enter d e), port, queue, [], []⟩) (f := .enter d e) rfl
  rw [List.nil_append, List.length_nil, Nat.zero_add] at h
  exact h

theorem ReadRun.taken_of_not_returned {s : ReadRun σ} {offered : List PortByte} {n : ℕ}
    (h : s.Takes offered n) (hended : ∀ byte, s.result ≠ .returned byte) : s.taken = offered := by
  cases hresult : s.result with
  | again f => exact (h.again f hresult).1
  | returned byte => exact absurd hresult (hended byte)
  | timedOut held => exact h.timedOut held hresult

/-- By the bytes of its own stream that are offered, a call returns the first one if it expects it
or none; else it has put it aside, and ends with the second one. -/
theorem OwnStream.delivered {d : PS2DeviceType} {e : Option UInt8} {result : ReadResult}
    {taken dispatched offered : List PortByte} (h : OwnStream d e result taken dispatched)
    (htaken : taken <+: offered) (hall : (∀ byte, result ≠ .returned byte) → taken = offered) :
    (∀ x, [x] <+: offered → (∀ b, e = some b → x.data = b) →
      result = .returned x ∧ dispatched = []) ∧
    ∀ b, e = some b → ∀ x y, x.data ≠ b → [x, y] <+: offered →
      result = .returned (if y.data = b then y else x) ∧
        dispatched = [if y.data = b then x else y] := by
  cases h with
  | waiting t | silent =>
    obtain rfl := hall nofun
    exact ⟨fun x hx => by simp at hx, fun b hb x y _ hxy => by simp at hxy⟩
  | @held t z b he hz | @heldTimedOut z b he hz =>
    obtain rfl := hall nofun
    refine ⟨fun x hx hfirst => ?_, fun b hb x y _ hxy => by simp at hxy⟩
    simp only [List.cons_prefix_cons, List.nil_prefix, and_true] at hx
    exact absurd (hfirst b he) (hx ▸ hz)
  | @plain z he =>
    obtain ⟨later, rfl⟩ := htaken
    refine ⟨fun x hx _ => ?_, fun b hb x y hx hxy => ?_⟩
    · simp only [List.singleton_append, List.cons_prefix_cons, List.nil_prefix, and_true] at hx
      exact ⟨by rw [hx], rfl⟩
    · simp only [List.singleton_append, List.cons_prefix_cons] at hxy
      exact absurd (he b hb) (hxy.1 ▸ hx)
  | @secondMatched z w b he hz hw =>
    obtain ⟨later, rfl⟩ := htaken
    refine ⟨fun x hx hfirst => ?_, fun b' hb x y _ hxy => ?_⟩
    · simp only [List.cons_append, List.cons_prefix_cons, List.nil_prefix, and_true] at hx
      exact absurd (hfirst b he) (hx ▸ hz)
    · obtain rfl : b = b' := by simpa [he] using hb
      simp only [List.cons_append, List.cons_prefix_cons, List.nil_prefix, and_true] at hxy
      rw [hxy.1, hxy.2, if_pos hw, if_pos hw]
      exact ⟨rfl, rfl⟩
  | @secondMismatched z w b he hz hw =>
    obtain ⟨later, rfl⟩ := htaken
    refine ⟨fun x hx hfirst => ?_, fun b' hb x y _ hxy => ?_⟩
    · simp only [List.cons_append, List.cons_prefix_cons, List.nil_prefix, and_true] at hx
      exact absurd (hfirst b he) (hx ▸ hz)
    · obtain rfl : b = b' := by simpa [he] using hb
      simp only [List.cons_append, List.cons_prefix_cons, List.nil_prefix, and_true] at hxy
      rw [hxy.1, hxy.2, if_neg hw, if_neg hw]
      exact ⟨rfl, rfl⟩

/-- Every byte that a call takes is returned or dispatched to the driver of its stream, once, and
it takes the bytes that the controller offers in their order. A byte put aside is returned on
timeout and on a second mismatch, and is dispatched when the next byte of the stream is the
expected one, which is then returned. -/
theorem readDataPort_accounts (P : Port σ) (n : ℕ) (d : PS2DeviceType) (e : Option UInt8)
    (port : σ) (queue : List PortByte) :
    let offered := P.arrivals d n 10000 port queue
    let r := readDataPort P n d e port queue
    r.Takes offered n ∧
    r.taken.Perm (r.dispatched.map Prod.snd ++ r.result.kept) ∧
    (∀ x ∈ r.dispatched, x.1 = x.2.stream) ∧
    (∀ held, r.result = .timedOut held → own d r.taken = held.toList ∧
      r.result.value = some ((held.map PortByte.data).getD 0)) ∧
    (∀ x, [x] <+: own d offered → (∀ b, e = some b → x.data = b) →
      r.result = .returned x ∧ own d (r.dispatched.map Prod.snd) = []) ∧
    ∀ expected, e = some expected → ∀ x y, x.data ≠ expected → [x, y] <+: own d offered →
      r.result = .returned (if y.data = expected then y else x) ∧
        own d (r.dispatched.map Prod.snd) = [if y.data = expected then x else y] := by
  intro offered r
  have h : r.Accounted d e := readDataPort_accounted P n d e port queue
  have htakes : r.Takes offered n := readDataPort_takes P n d e port queue
  have htimedOut (held : Option PortByte) (hr : r.result = .timedOut held) :
      own d r.taken = held.toList ∧ r.result.value = some ((held.map PortByte.data).getD 0) := by
    have ho := h.ownStream
    rw [hr] at ho ⊢
    refine ⟨?_, rfl⟩
    generalize own d r.taken = xs, own d (r.dispatched.map Prod.snd) = ys at ho
    cases ho <;> rfl
  have hdelivered := h.ownStream.delivered (htakes.taken.filter _) fun hended =>
    congrArg (own d) (ReadRun.taken_of_not_returned htakes hended)
  exact ⟨htakes, h.perm, h.stream, htimedOut, hdelivered.1, hdelivered.2⟩

/-- A key is pressed before the keyboard acknowledges. -/
def lateAcknowledge : Port (List PortByte) where
  interrupts bytes := ([], bytes)
  poll bytes := (bytes.head?, bytes.tail)

theorem lateAcknowledge_accounts :
    let key : PortByte := ⟨.keyboard, 0x21, 0⟩
    let acknowledge : PortByte := ⟨.keyboard, kSCAcknowledge, 1⟩
    let r := readDataPort lateAcknowledge 2 .keyboard (some kSCAcknowledge) [key, acknowledge] []
    r.result = .returned acknowledge ∧ own .keyboard (r.dispatched.map Prod.snd) = [key] := by
  intro key acknowledge r
  have h := readDataPort_accounts lateAcknowledge 2 .keyboard (some kSCAcknowledge)
    [key, acknowledge] []
  exact h.2.2.2.2.2 kSCAcknowledge rfl key acknowledge (by decide) (by decide)

end PS2
