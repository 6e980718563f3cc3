import NetbookInstaller.PS2.Answers
import Mathlib.Data.Option.Basic

/-! What the commands of a request do to the two ports, and that `processRequest` does it: which
commands succeed is told by the bytes that they read. -/
namespace PS2

/-- What a command writes before it reads. -/
def PS2Command.writes (c : PS2Command) : List PortWrite :=
  match c.command with
  | .readDataPort | .readDataPortAndCompare => []
  | .writeDataPort => [.data c.inOrOut]
  | .writeCommandPort => [.command c.inOrOut]
  | .sendMouseCommandAndCompareAck => [.command kCPTransmitToMouse, .data c.inOrOut]

/-- The ports between two commands. -/
structure Exchange (σ : Type*) where
  port : σ
  queue : List PortByte
  dispatched : List (PS2DeviceType × PortByte)
  /-- The device that the last data byte was for. -/
  addressed : PS2DeviceType
  /-- The next data byte is for the mouse. -/
  toMouse : Bool

variable {σ : Type*}

/-- The bytes of a command are sent; each tells which device the next data byte is for. -/
def Exchange.written (H : Controller σ) (s : Exchange σ) (c : PS2Command) : Exchange σ :=
  { s with
    port := c.writes.foldl (fun port w => H.write w port) s.port
    addressed :=
      match c.command with
      | .writeDataPort => if s.toMouse then .mouse else .keyboard
      | .sendMouseCommandAndCompareAck => .mouse
      | _ => s.addressed
    toMouse :=
      match c.command with
      | .writeDataPort => false
      | .writeCommandPort => s.toMouse || c.inOrOut == kCPTransmitToMouse
      | _ => s.toMouse }

/-- A command takes a byte behind its writes. -/
def PS2Command.takes (c : PS2Command) : Bool :=
  match c.command with
  | .writeDataPort | .writeCommandPort => false
  | .readDataPort | .readDataPortAndCompare | .sendMouseCommandAndCompareAck => true

/-- What a command does to the ports: it writes its bytes and then, if it reads, takes a byte of
the device that was addressed. -/
inductive Executes (H : Controller σ) (n : ℕ) (c : PS2Command) (s : Exchange σ) :
    Option UInt8 → Exchange σ → Prop
  | writes (hc : c.takes = false) : Executes H n c s none (s.written H c)
  | reads {byte : UInt8} {read : ReadRun σ} (hc : c.takes = true)
      (hread : readDataPort H.toPort n (s.written H c).addressed c.expected
        (s.written H c).port s.queue = read) (hbyte : read.result.value = some byte) :
      Executes H n c s (some byte)
        { s.written H c with
          port := read.port, queue := read.queue, dispatched := s.dispatched ++ read.dispatched }

/-- A command succeeds if it reads the byte that it expects. -/
def PS2Command.Succeeds (c : PS2Command) (read : Option UInt8) : Prop :=
  ∀ byte ∈ c.expected, read = some byte

/-- The commands are executed one after the other, and each succeeds. -/
inductive Succeed (H : Controller σ) (n : ℕ) :
    List PS2Command → Exchange σ → List (Option UInt8) → Exchange σ → Prop
  | nil (s : Exchange σ) : Succeed H n [] s [] s
  | cons {c : PS2Command} {cs : List PS2Command} {s t u : Exchange σ} {read : Option UInt8}
      {reads : List (Option UInt8)} (hc : Executes H n c s read t) (hok : c.Succeeds read)
      (hcs : Succeed H n cs t reads u) : Succeed H n (c :: cs) s (read :: reads) u

/-- The ports before the first command. -/
def Exchange.start (port : σ) (queue : List PortByte) : Exchange σ :=
  ⟨port, queue, [], .keyboard, false⟩

/-- Every command of the request succeeds; offline, none is executed. -/
def AllSucceed (H : Controller σ) (n : ℕ) (request : PS2Request) (hardwareOffline : Bool)
    (port : σ) (queue : List PortByte) (reads : List (Option UInt8)) (t : Exchange σ) : Prop :=
  (hardwareOffline = true → request.commandsCount = 0) ∧
    Succeed H n (request.commands.take request.commandsCount) (.start port queue) reads t

/-- The command at `i` is the first to fail, and nothing is done behind it. -/
def FirstFails (H : Controller σ) (n : ℕ) (request : PS2Request) (hardwareOffline : Bool)
    (port : σ) (queue : List PortByte) (i : ℕ) (reads : List (Option UInt8)) (t : Exchange σ) :
    Prop :=
  i < request.commandsCount ∧
    ((hardwareOffline = true ∧ i = 0 ∧ reads = [] ∧ t = .start port queue) ∨
      (hardwareOffline = false ∧ ∃ c s before read, request.commands[i]? = some c ∧
        Succeed H n (request.commands.take i) (.start port queue) before s ∧
        Executes H n c s read t ∧ ¬c.Succeeds read ∧ reads = before ++ [read]))

/-- The commands with what they have read. -/
def readBy : List PS2Command → List (Option UInt8) → List PS2Command
  | c :: cs, read :: reads => (read.map c.filled).getD c :: readBy cs reads
  | cs, _ => cs

/-- The state before the first command. -/
def RequestRun.entered (request : PS2Request) (hardwareOffline : Bool) (port : σ)
    (queue : List PortByte) : RequestRun σ :=
  ⟨.enter request hardwareOffline, port, queue, []⟩

/-- The loop over the commands that are left. -/
def RequestRun.each (H : Controller σ) (n : ℕ) :
    List PS2Command → RequestRun σ → Option (RequestRun σ)
  | [], r => some r
  | c :: cs, r => if r.frame.failed then some r else (r.command H n c).bind (each H n cs)

theorem RequestRun.each_failed {H : Controller σ} {n : ℕ} {r : RequestRun σ}
    (hr : r.frame.failed = true) (cs : List PS2Command) : r.each H n cs = some r := by
  cases cs with
  | nil => rfl
  | cons c cs => exact if_pos hr

/-- What a command leaves of the frame. -/
structure ProcessFrame.Follows (f g : ProcessFrame) : Prop where
  commandsCount : g.request.commandsCount = f.request.commandsCount
  later : g.request.commands.drop (f.index + 1) = f.request.commands.drop (f.index + 1)
  index : g.index = if g.failed then f.index else f.index + 1

theorem ProcessFrame.follows_next {f : ProcessFrame} (hf : f.failed = false) :
    f.Follows { f with index := f.index + 1 } :=
  ⟨rfl, rfl, by simp [hf]⟩

theorem ProcessFrame.follows_fail (f : ProcessFrame) : f.Follows { f with failed := true } :=
  ⟨rfl, rfl, rfl⟩

theorem ProcessFrame.follows_finish {f : ProcessFrame} (hf : f.failed = false) (c : PS2Command)
    (byte : UInt8) : f.Follows (f.finish c byte) := by
  unfold ProcessFrame.finish
  split
  · refine ⟨rfl, ?_, by simp [hf]⟩
    rw [List.drop_set, if_pos (Nat.lt_succ_self _)]
  · split
    · exact ProcessFrame.follows_next hf
    · exact f.follows_fail
  · split
    · exact ProcessFrame.follows_next hf
    · exact f.follows_fail
  · exact ProcessFrame.follows_next hf

theorem RequestRun.follows_command {H : Controller σ} {n : ℕ} {r s : RequestRun σ} {c : PS2Command}
    (hr : r.frame.failed = false) (hs : r.command H n c = some s) : r.frame.Follows s.frame := by
  unfold RequestRun.command at hs
  dsimp only at hs
  split at hs
  · obtain rfl := Option.some.inj hs
    exact ⟨rfl, rfl, by simp [hr]⟩
  · obtain ⟨byte, -, rfl⟩ := Option.map_eq_some_iff.mp hs
    have h := ProcessFrame.follows_finish (f := { r.frame with
      deviceMode := (r.frame.start c).deviceMode
      transmitToMouse := (r.frame.start c).transmitToMouse }) hr c byte
    exact ⟨h.commandsCount, h.later, h.index⟩

/-- The commands that a frame has not come to. -/
def ProcessFrame.left (f : ProcessFrame) : List PS2Command :=
  (f.request.commands.take f.request.commandsCount).drop f.index

theorem ProcessFrame.Follows.left {f g : ProcessFrame} (h : f.Follows g) (hg : g.failed = false) :
    g.left = f.left.tail := by
  have hindex : g.index = f.index + 1 := by rw [h.index, hg]; rfl
  rw [ProcessFrame.left, ProcessFrame.left, hindex, h.commandsCount, List.tail_drop,
    List.drop_take, List.drop_take, h.later]

theorem ProcessFrame.current_eq {f : ProcessFrame} (hf : f.failed = false) :
    f.current = f.left.head? := by
  unfold ProcessFrame.current ProcessFrame.left
  rw [List.head?_drop, List.getElem?_take]
  simp [hf]

/-- The loop by its index and the loop over the list. -/
theorem RequestRun.commands_eq_each (H : Controller σ) (n k : ℕ) (r : RequestRun σ) :
    RequestRun.commands H n k r = r.each H n (r.frame.left.take k) := by
  induction k generalizing r with
  | zero => rw [List.take_zero]; rfl
  | succ k ih =>
    unfold RequestRun.commands
    by_cases hr : r.frame.failed = true
    · have hcurrent : r.frame.current = none := by simp [ProcessFrame.current, hr]
      rw [hcurrent, RequestRun.each_failed hr]
    · rw [Bool.not_eq_true] at hr
      rw [ProcessFrame.current_eq hr]
      cases hleft : r.frame.left with
      | nil => rfl
      | cons c cs =>
        rw [List.take_succ_cons, RequestRun.each, if_neg (by rw [hr]; decide)]
        show (r.command H n c).bind _ = _
        refine Option.bind_congr fun s hs => ?_
        rw [ih]
        by_cases hfailed : s.frame.failed = true
        · rw [RequestRun.each_failed hfailed, RequestRun.each_failed hfailed]
        · rw [Bool.not_eq_true] at hfailed
          rw [(RequestRun.follows_command hr hs).left hfailed, hleft, List.tail_cons]

theorem left_entered (request : PS2Request) (hardwareOffline : Bool) (port : σ)
    (queue : List PortByte) :
    (RequestRun.entered request hardwareOffline port queue).frame.left =
      request.commands.take request.commandsCount :=
  List.drop_zero ..

/-- The ports as a run leaves them. -/
def RequestRun.exchange (r : RequestRun σ) : Exchange σ :=
  ⟨r.port, r.queue, r.dispatched, r.frame.deviceMode, r.frame.transmitToMouse⟩

theorem readBy_nil (cs : List PS2Command) : readBy cs [] = cs := by
  cases cs <;> rfl

theorem readBy_append {cs ds : List PS2Command} {reads more : List (Option UInt8)}
    (h : reads.length = cs.length) :
    readBy (cs ++ ds) (reads ++ more) = readBy cs reads ++ readBy ds more := by
  induction cs generalizing reads with
  | nil =>
    rw [List.length_eq_zero_iff.mp h]
    rfl
  | cons c cs ih =>
    cases reads with
    | nil => cases h
    | cons read reads => exact congrArg (_ :: ·) (ih (Nat.succ.inj h))

theorem length_readBy (cs : List PS2Command) (reads : List (Option UInt8)) :
    (readBy cs reads).length = cs.length := by
  induction cs generalizing reads with
  | nil => rfl
  | cons c cs ih =>
    cases reads with
    | nil => rfl
    | cons read reads => exact congrArg (· + 1) (ih reads)

theorem Succeed.length {H : Controller σ} {n : ℕ} {cs : List PS2Command} {s u : Exchange σ}
    {reads : List (Option UInt8)} (h : Succeed H n cs s reads u) : reads.length = cs.length := by
  induction h with
  | nil => rfl
  | cons _ _ _ ih => exact congrArg (· + 1) ih

theorem Executes.unique {H : Controller σ} {n : ℕ} {c : PS2Command} {s t u : Exchange σ}
    {read read' : Option UInt8} (h : Executes H n c s read t) (h' : Executes H n c s read' u) :
    read = read' ∧ t = u := by
  cases h with
  | writes hc =>
    cases h' with
    | writes => exact ⟨rfl, rfl⟩
    | reads hc' => cases hc.symm.trans hc'
  | reads hc hread hbyte =>
    cases h' with
    | writes hc' => cases hc.symm.trans hc'
    | reads hc' hread' hbyte' =>
      subst hread hread'
      exact ⟨hbyte.symm.trans hbyte', rfl⟩

theorem PS2Command.of_not_takes {c : PS2Command} (hc : c.takes = false) :
    c.expected = none ∧ ∀ byte, c.filled byte = c := by
  obtain ⟨command, inOrOut⟩ := c
  cases command with
  | writeDataPort | writeCommandPort => exact ⟨rfl, fun _ => rfl⟩
  | readDataPort | readDataPortAndCompare | sendMouseCommandAndCompareAck => cases hc

theorem next_request {f : ProcessFrame} {c : PS2Command} {byte : UInt8}
    (h : ¬∀ b ∈ c.expected, byte = b) :
    (f.next c byte).request = f.request ∧ c.filled byte = c := by
  obtain ⟨command, inOrOut⟩ := c
  cases command with
  | readDataPort | writeDataPort | writeCommandPort => exact absurd (fun b hb => by cases hb) h
  | readDataPortAndCompare | sendMouseCommandAndCompareAck =>
    refine ⟨?_, rfl⟩
    unfold ProcessFrame.next ProcessFrame.finish
    dsimp only
    split <;> rfl

theorem ProcessFrame.finish_stream (f : ProcessFrame) (c : PS2Command) (byte : UInt8) :
    (f.finish c byte).deviceMode = f.deviceMode ∧
      (f.finish c byte).transmitToMouse = f.transmitToMouse := by
  unfold ProcessFrame.finish
  repeat' split
  all_goals exact ⟨rfl, rfl⟩

namespace RequestRun
variable {H : Controller σ} {n : ℕ} {r t : RequestRun σ} {c : PS2Command} {cs : List PS2Command}

theorem exchange_finish (f : ProcessFrame) (byte : UInt8) (port : σ) (queue : List PortByte)
    (dispatched : List (PS2DeviceType × PortByte)) :
    (⟨f.finish c byte, port, queue, dispatched⟩ : RequestRun σ).exchange =
      ⟨port, queue, dispatched, f.deviceMode, f.transmitToMouse⟩ := by
  obtain ⟨hmode, htransmit⟩ := f.finish_stream c byte
  rw [exchange, hmode, htransmit]

/-- The command that `processRequest` executes is the one that the ports see. -/
theorem command_executes (h : r.command H n c = some t) :
    ∃ read byte, Executes H n c r.exchange read t.exchange ∧ t.frame = r.frame.next c byte ∧
      read = if c.takes then some byte else none := by
  obtain ⟨command, inOrOut⟩ := c
  cases command with
  | writeDataPort | writeCommandPort =>
    obtain rfl := Option.some.inj h
    exact ⟨none, 0, .writes rfl, rfl, rfl⟩
  | readDataPort | readDataPortAndCompare | sendMouseCommandAndCompareAck =>
    obtain ⟨byte, hbyte, rfl⟩ := Option.map_eq_some_iff.mp h
    refine ⟨some byte, byte, ?_, rfl, rfl⟩
    rw [exchange_finish]
    exact .reads rfl rfl hbyte

theorem isSome_command {read : Option UInt8} {u : Exchange σ}
    (h : Executes H n c r.exchange read u) : ∃ t, r.command H n c = some t := by
  obtain ⟨command, inOrOut⟩ := c
  cases h with
  | writes hc =>
    cases command with
    | writeDataPort | writeCommandPort => exact ⟨_, rfl⟩
    | readDataPort | readDataPortAndCompare | sendMouseCommandAndCompareAck => cases hc
  | @reads byte read hc hread hbyte =>
    subst hread
    cases command with
    | writeDataPort | writeCommandPort => cases hc
    | readDataPort | readDataPortAndCompare | sendMouseCommandAndCompareAck =>
      exact ⟨_, Option.map_eq_some_iff.mpr ⟨byte, hbyte, rfl⟩⟩

theorem each_append (cs ds : List PS2Command) (r : RequestRun σ) :
    r.each H n (cs ++ ds) = (r.each H n cs).bind (each H n ds) := by
  induction cs generalizing r with
  | nil => rfl
  | cons c cs ih =>
    by_cases hr : r.frame.failed = true
    · rw [each_failed hr, each_failed hr, Option.bind_some, each_failed hr]
    · rw [List.cons_append, each, each, if_neg hr, if_neg hr, Option.bind_assoc]
      exact Option.bind_congr fun s _ => ih s

/-- A run in front of the commands `left`. -/
structure At (done left : List PS2Command) (r : RequestRun σ) : Prop where
  failed : r.frame.failed = false
  commands : r.frame.request.commands = done ++ left
  index : r.frame.index = done.length

theorem At.command {done left : List PS2Command} (h : r.At done (c :: left))
    (hcommand : r.command H n c = some t) :
    t.frame.request.commandsCount = r.frame.request.commandsCount ∧
    ∃ read, Executes H n c r.exchange read t.exchange ∧
      ((c.Succeeds read ∧ t.At (done ++ [(read.map c.filled).getD c]) left) ∨
        (¬c.Succeeds read ∧ t.frame.failed = true ∧ t.frame.index = done.length ∧
          t.frame.request.commands = done ++ (read.map c.filled).getD c :: left)) := by
  obtain ⟨read, byte, hexecutes, hframe, hread⟩ := command_executes hcommand
  have hfilled : (read.map c.filled).getD c = c.filled byte := by
    rw [hread]
    cases htakes : c.takes with
    | true => rfl
    | false => exact ((PS2Command.of_not_takes htakes).2 byte).symm
  have hsucceeds : c.Succeeds read ↔ ∀ b ∈ c.expected, byte = b := by
    unfold PS2Command.Succeeds
    rw [hread]
    cases htakes : c.takes with
    | true => exact forall₂_congr fun b _ => Option.some.injEq byte b ▸ Iff.rfl
    | false => simp [(PS2Command.of_not_takes htakes).1]
  by_cases hok : ∀ b ∈ c.expected, byte = b
  · obtain ⟨hrequest, hindex, hfailed⟩ := next_accepted byte h.commands h.index hok
    refine ⟨by rw [hframe, hrequest], read, hexecutes, .inl ⟨hsucceeds.mpr hok, ?_, ?_, ?_⟩⟩
    · rw [hframe, hfailed, h.failed]
    · rw [hframe, hrequest, hfilled, List.append_assoc]
      rfl
    · rw [hframe, hindex, h.index, List.length_append]
      rfl
  · obtain ⟨hfailed, hindex⟩ := next_refused (f := r.frame) hok
    obtain ⟨hrequest, hsame⟩ := next_request hok
    refine ⟨by rw [hframe, hrequest], read, hexecutes, .inr ⟨fun hread => hok (hsucceeds.mp hread),
      hframe ▸ hfailed, hframe ▸ hindex.trans h.index, ?_⟩⟩
    rw [hframe, hrequest, h.commands, hfilled, hsame]

/-- Commands that the ports see succeed are executed. -/
theorem At.each {s u : Exchange σ} {reads : List (Option UInt8)} (h : Succeed H n cs s reads u)
    {done later : List PS2Command} (hr : r.At done (cs ++ later)) (hs : r.exchange = s) :
    ∃ t, r.each H n cs = some t ∧ t.exchange = u ∧ t.At (done ++ readBy cs reads) later ∧
      t.frame.request.commandsCount = r.frame.request.commandsCount := by
  induction h generalizing r done with
  | nil => exact ⟨r, rfl, hs, by simpa [readBy] using hr, rfl⟩
  | @cons c cs s s' u read reads hc hok hcs ih =>
    subst hs
    obtain ⟨t, ht⟩ := isSome_command hc
    obtain ⟨hcount, read', hexecutes, hcases⟩ := At.command hr ht
    obtain ⟨rfl, rfl⟩ := hc.unique hexecutes
    rcases hcases with ⟨-, hat⟩ | ⟨hnot, -⟩
    · obtain ⟨v, hv, hexchange, hatv, hcountv⟩ := ih hat rfl
      refine ⟨v, ?_, hexchange, ?_, hcountv.trans hcount⟩
      · rw [RequestRun.each, if_neg (by rw [hr.failed]; decide), ht]
        exact hv
      · simpa [readBy] using hatv
    · exact absurd hok hnot

/-- A run over a list of commands succeeds throughout, or stops at the first that fails. -/
theorem At.outcome {done later : List PS2Command} (hr : r.At done (cs ++ later))
    (ht : r.each H n cs = some t) :
    (∃ reads u, Succeed H n cs r.exchange reads u) ∨
      ∃ i c before s read u, cs[i]? = some c ∧ Succeed H n (cs.take i) r.exchange before s ∧
        Executes H n c s read u ∧ ¬c.Succeeds read := by
  induction cs generalizing r done with
  | nil => exact .inl ⟨[], _, .nil _⟩
  | cons c cs ih =>
    rw [RequestRun.each, if_neg (by rw [hr.failed]; decide)] at ht
    obtain ⟨s, hs, ht⟩ := Option.bind_eq_some_iff.mp ht
    obtain ⟨-, read, hexecutes, ⟨hok, hat⟩ | ⟨hnot, -⟩⟩ := At.command hr hs
    · rcases ih hat ht with ⟨reads, u, h⟩ | ⟨i, d, before, v, read', u, hd, hv, hcommand, hlast⟩
      · exact .inl ⟨_, _, .cons hexecutes hok h⟩
      · exact .inr ⟨i + 1, d, _, v, read', u, hd, .cons hexecutes hok hv, hcommand, hlast⟩
    · exact .inr ⟨0, c, [], _, read, _, rfl, .nil _, hexecutes, hnot⟩

end RequestRun

section Request
variable (H : Controller σ) (n : ℕ) (request : PS2Request) (hardwareOffline : Bool) (port : σ)
  (queue : List PortByte)

theorem processRequest_eq_each :
    processRequest H n request hardwareOffline port queue =
      (RequestRun.entered request hardwareOffline port queue).each H n
        (request.commands.take request.commandsCount) := by
  have h := RequestRun.commands_eq_each H n request.commandsCount
    (.entered request hardwareOffline port queue)
  rw [left_entered, List.take_take, Nat.min_self] at h
  exact h

theorem entered_at : (RequestRun.entered request false port queue).At []
    (request.commands.take request.commandsCount ++
      request.commands.drop request.commandsCount) :=
  ⟨rfl, (List.take_append_drop _ _).symm, rfl⟩

variable {H n request hardwareOffline port queue}

/-- A request all of whose commands succeed completes as it was, with what it has read. -/
theorem AllSucceed.completes {reads : List (Option UInt8)} {t : Exchange σ}
    (h : AllSucceed H n request hardwareOffline port queue reads t) :
    ∃ r, processRequest H n request hardwareOffline port queue = some r ∧ r.exchange = t ∧
      r.frame.complete = ⟨request.commandsCount, readBy request.commands reads⟩ := by
  obtain ⟨hoffline, hall⟩ := h
  rw [processRequest_eq_each]
  cases hardwareOffline with
  | true =>
    obtain ⟨commandsCount, commands⟩ := request
    obtain rfl : commandsCount = 0 := hoffline rfl
    cases hall
    exact ⟨_, rfl, rfl, by rw [readBy_nil]; rfl⟩
  | false =>
    obtain ⟨r, hr, hexchange, hat, hcount⟩ :=
      RequestRun.At.each hall (entered_at request port queue) rfl
    refine ⟨r, hr, hexchange, ?_⟩
    have hcommands : r.frame.request.commands = readBy request.commands reads := by
      have hsplit := @readBy_append _ (request.commands.drop request.commandsCount) _ [] hall.length
      rw [List.take_append_drop, List.append_nil, readBy_nil] at hsplit
      rw [hat.commands, hsplit]
      rfl
    rw [ProcessFrame.complete, hat.failed, ← hcommands]
    exact congrArg (PS2Request.mk · _) hcount

/-- A request of which a command fails completes with its index. -/
theorem FirstFails.completes {i : ℕ} {reads : List (Option UInt8)} {t : Exchange σ}
    (h : FirstFails H n request hardwareOffline port queue i reads t) :
    ∃ r, processRequest H n request hardwareOffline port queue = some r ∧ r.exchange = t ∧
      r.frame.complete = ⟨i, readBy request.commands reads⟩ := by
  obtain ⟨hi, ⟨rfl, rfl, rfl, rfl⟩ | ⟨rfl, c, s, before, read, hc, hbefore, hexecutes, hnot, rfl⟩⟩ := h
  · rw [processRequest_eq_each, RequestRun.each_failed rfl]
    exact ⟨_, rfl, rfl, by rw [readBy_nil]; rfl⟩
  · obtain ⟨hlength, hget⟩ := List.getElem?_eq_some_iff.mp hc
    have hsplit : request.commands =
        request.commands.take i ++ c :: request.commands.drop (i + 1) := by
      rw [← hget, List.getElem_cons_drop, List.take_append_drop]
    have htake : request.commands.take request.commandsCount = request.commands.take i ++
        c :: (request.commands.drop (i + 1)).take (request.commandsCount - (i + 1)) := by
      have hrest : request.commandsCount - i = request.commandsCount - (i + 1) + 1 := by omega
      conv_lhs => rw [hsplit]
      rw [List.take_append, List.take_take, Nat.min_eq_right (Nat.le_of_lt hi), List.length_take,
        Nat.min_eq_left (Nat.le_of_lt hlength), hrest, List.take_succ_cons]
    have hentered : (RequestRun.entered request false port queue).At []
        (request.commands.take i ++ c :: request.commands.drop (i + 1)) :=
      ⟨rfl, hsplit, rfl⟩
    obtain ⟨v, hv, rfl, hat, -⟩ := RequestRun.At.each hbefore hentered rfl
    obtain ⟨r, hr⟩ := RequestRun.isSome_command hexecutes
    obtain ⟨-, read', hexecutes', hcases⟩ := hat.command hr
    obtain ⟨rfl, rfl⟩ := hexecutes.unique hexecutes'
    rcases hcases with ⟨hok, -⟩ | ⟨-, hfailed, hindex, hcommands⟩
    · exact absurd hok hnot
    refine ⟨r, ?_, rfl, ?_⟩
    · rw [processRequest_eq_each, htake, RequestRun.each_append, hv]
      show v.each H n _ = _
      rw [RequestRun.each, if_neg (by rw [hat.failed]; decide), hr]
      exact RequestRun.each_failed hfailed _
    · have hfilled : readBy request.commands (before ++ [read]) = r.frame.request.commands := by
        conv_lhs => rw [hsplit]
        rw [readBy_append hbefore.length, hcommands, readBy, readBy_nil]
        rfl
      rw [ProcessFrame.complete, if_pos hfailed, hindex, hfilled, List.nil_append, length_readBy,
        List.length_take, Nat.min_eq_left (Nat.le_of_lt hlength)]

theorem outcome_of_processRequest {r : RequestRun σ}
    (h : processRequest H n request hardwareOffline port queue = some r) :
    (∃ reads t, AllSucceed H n request hardwareOffline port queue reads t) ∨
      ∃ i reads t, FirstFails H n request hardwareOffline port queue i reads t := by
  rw [processRequest_eq_each] at h
  cases hardwareOffline with
  | true =>
    by_cases hcount : request.commandsCount = 0
    · exact .inl ⟨[], _, fun _ => hcount, by rw [hcount, List.take_zero]; exact .nil _⟩
    · exact .inr ⟨0, [], _, Nat.pos_of_ne_zero hcount, .inl ⟨rfl, rfl, rfl, rfl⟩⟩
  | false =>
    rcases (entered_at request port queue).outcome h with
      ⟨reads, u, hall⟩ | ⟨i, c, before, s, read, u, hc, hbefore, hexecutes, hnot⟩
    · exact .inl ⟨reads, u, nofun, hall⟩
    · obtain ⟨hi, hcommand⟩ : i < request.commandsCount ∧ request.commands[i]? = some c := by
        rw [List.getElem?_take] at hc
        split at hc
        next hi => exact ⟨hi, hc⟩
        next => cases hc
      rw [List.take_take, Nat.min_eq_left (Nat.le_of_lt hi)] at hbefore
      exact .inr ⟨i, _, u, hi, .inr ⟨rfl, c, s, before, read, hcommand, hbefore, hexecutes, hnot,
        rfl⟩⟩

/-- What `commandsCount` tells behind a request. -/
theorem complete_commandsCount {r : RequestRun σ}
    (hr : processRequest H n request hardwareOffline port queue = some r) :
    (r.frame.complete.commandsCount = request.commandsCount ↔
        ∃ reads t, AllSucceed H n request hardwareOffline port queue reads t) ∧
      (∀ reads t, AllSucceed H n request hardwareOffline port queue reads t →
        r.exchange = t ∧ r.frame.complete.commands = readBy request.commands reads) ∧
      (¬(∃ reads t, AllSucceed H n request hardwareOffline port queue reads t) →
        r.frame.complete.commandsCount < request.commandsCount ∧
          ∃ reads, FirstFails H n request hardwareOffline port queue
              r.frame.complete.commandsCount reads r.exchange ∧
            r.frame.complete.commands = readBy request.commands reads) := by
  have hsucceed (reads : List (Option UInt8)) (t : Exchange σ)
      (h : AllSucceed H n request hardwareOffline port queue reads t) : r.exchange = t ∧
        r.frame.complete = ⟨request.commandsCount, readBy request.commands reads⟩ := by
    obtain ⟨r', hr', hexchange, hcomplete⟩ := h.completes
    obtain rfl := Option.some.inj (hr.symm.trans hr')
    exact ⟨hexchange, hcomplete⟩
  have hfail (i : ℕ) (reads : List (Option UInt8)) (t : Exchange σ)
      (h : FirstFails H n request hardwareOffline port queue i reads t) : r.exchange = t ∧
        r.frame.complete = ⟨i, readBy request.commands reads⟩ := by
    obtain ⟨r', hr', hexchange, hcomplete⟩ := h.completes
    obtain rfl := Option.some.inj (hr.symm.trans hr')
    exact ⟨hexchange, hcomplete⟩
  refine ⟨⟨fun hcount => ?_, ?_⟩, fun reads t h => ?_, fun hnot => ?_⟩
  · rcases outcome_of_processRequest hr with hall | ⟨i, reads, t, h⟩
    · exact hall
    · rw [(hfail i reads t h).2] at hcount
      exact absurd hcount (Nat.ne_of_lt h.1)
  · rintro ⟨reads, t, h⟩
    rw [(hsucceed reads t h).2]
  · obtain ⟨hexchange, hcomplete⟩ := hsucceed reads t h
    exact ⟨hexchange, by rw [hcomplete]⟩
  · obtain ⟨i, reads, t, h⟩ := (outcome_of_processRequest hr).resolve_left hnot
    obtain ⟨rfl, hcomplete⟩ := hfail i reads t h
    rw [hcomplete]
    exact ⟨h.1, reads, h, rfl⟩

end Request

end PS2
