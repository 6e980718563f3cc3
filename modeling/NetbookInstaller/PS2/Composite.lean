import NetbookInstaller.PS2.Outcome

/-! The composite mouse command does what the three commands do that it stands for. -/
namespace PS2

/-- The commands that the composite is said to be equivalent to. -/
def PS2Command.expand (c : PS2Command) : List PS2Command :=
  match c.command with
  | .sendMouseCommandAndCompareAck =>
    [⟨.writeCommandPort, kCPTransmitToMouse⟩, ⟨.writeDataPort, c.inOrOut⟩,
      ⟨.readDataPortAndCompare, kSCAcknowledge⟩]
  | _ => [c]

def expand (cs : List PS2Command) : List PS2Command :=
  cs.flatMap PS2Command.expand

/-- No composite stands between a write of `kCP_TransmitToMouse` and its data write. -/
def NoneBetween : Bool → List PS2Command → Prop
  | _, [] => True
  | pending, c :: cs =>
    match c.command with
    | .writeCommandPort => NoneBetween (pending || c.inOrOut == kCPTransmitToMouse) cs
    | .writeDataPort => NoneBetween false cs
    | .sendMouseCommandAndCompareAck =>
      (pending = true → ∀ d ∈ cs, d.command ≠ .writeDataPort) ∧ NoneBetween pending cs
    | _ => NoneBetween pending cs

variable {σ : Type*}

/-- Two runs that a caller, a driver and the device cannot tell apart: the port has seen the
same writes and reads, and the next read is from the same stream. -/
structure RequestRun.Matches (r r' : RequestRun σ) : Prop where
  deviceMode : r'.frame.deviceMode = r.frame.deviceMode
  failed : r'.frame.failed = r.frame.failed
  commands : r'.frame.request.commands = expand r.frame.request.commands
  port : r'.port = r.port
  queue : r'.queue = r.queue
  dispatched : r'.dispatched = r.dispatched

theorem expand_cons (c : PS2Command) (cs : List PS2Command) :
    expand (c :: cs) = c.expand ++ expand cs :=
  List.flatMap_cons

theorem expand_append (cs ds : List PS2Command) : expand (cs ++ ds) = expand cs ++ expand ds :=
  List.flatMap_append

/-- The two runs in front of the commands `left`. -/
structure RequestRun.Expanded (left : List PS2Command) (r r' : RequestRun σ) : Prop where
  agrees : r.Matches r'
  transmitToMouse : r'.frame.transmitToMouse = r.frame.transmitToMouse ∨
    ∀ d ∈ left, d.command ≠ .writeDataPort
  noneBetween : NoneBetween r.frame.transmitToMouse left
  done : ∃ done, r.frame.request.commands = done ++ left ∧ r.frame.index = done.length ∧
    r'.frame.index = (expand done).length

/-- How the two runs stand behind a command. -/
def RequestRun.After (left : List PS2Command) (r r' : RequestRun σ) : Prop :=
  r.Matches r' ∧ (r.frame.failed = false → r.Expanded left r')

theorem rel_map {α β γ : Type*} {R : β → γ → Prop} (o : Option α) {f : α → β} {g : α → γ}
    (h : ∀ a, R (f a) (g a)) : Option.Rel R (o.map f) (o.map g) := by
  cases o with
  | none => exact .none
  | some a => exact .some (h a)

namespace RequestRun
variable {H : Controller σ} {n : ℕ} {r r' : RequestRun σ} {left : List PS2Command} {b : UInt8}

theorem each_singleton (hr : r.frame.failed = false) (c : PS2Command) :
    r.each H n [c] = r.command H n c := by
  rw [each, if_neg (by rw [hr]; decide)]
  cases r.command H n c <;> rfl

theorem each_cons {s : RequestRun σ} {c : PS2Command} {cs : List PS2Command}
    (hr : r.frame.failed = false) (hs : r.command H n c = some s) :
    r.each H n (c :: cs) = s.each H n cs := by
  rw [each, if_neg (by rw [hr]; decide), hs]
  rfl

/-- A command that both runs execute goes well when it leaves them alike. -/
theorem After.advance {s s' : RequestRun σ} (done : List PS2Command) (hm : s.Matches s')
    (htransmit : s'.frame.transmitToMouse = s.frame.transmitToMouse ∨
      ∀ d ∈ left, d.command ≠ .writeDataPort)
    (hnone : NoneBetween s.frame.transmitToMouse left)
    (hcommands : s.frame.request.commands = done ++ left) (hindex : s.frame.index = done.length)
    (hindex' : s'.frame.index = (expand done).length) : After left s s' :=
  ⟨hm, fun _ => ⟨hm, htransmit, hnone, done, hcommands, hindex, hindex'⟩⟩

theorem After.fail {s s' : RequestRun σ} (hm : s.Matches s') (hs : s.frame.failed = true) :
    After left s s' :=
  ⟨hm, fun h => absurd (hs.symm.trans h) (by decide)⟩

theorem Expanded.writeCommandPort (h : r.Expanded (⟨.writeCommandPort, b⟩ :: left) r') :
    Option.Rel (After left) (r.command H n ⟨.writeCommandPort, b⟩)
      (r'.command H n ⟨.writeCommandPort, b⟩) := by
  obtain ⟨⟨hmode, hfailed, hcommands, hport, hqueue, hdispatched⟩, htransmit, hnone, done, hdone,
    hindex, hindex'⟩ := h
  have hport' : H.write (.command b) r'.port = H.write (.command b) r.port := by rw [hport]
  refine .some (.advance (done ++ [⟨.writeCommandPort, b⟩])
    ⟨hmode, hfailed, hcommands, hport', hqueue, hdispatched⟩ ?_ hnone ?_ ?_ ?_)
  · rcases htransmit with heq | hnone
    · exact .inl (congrArg (· || b == kCPTransmitToMouse) heq)
    · exact .inr fun d hd => hnone d (List.mem_cons_of_mem _ hd)
  · rw [List.append_assoc]
    exact hdone
  · rw [List.length_append, ← hindex]
    rfl
  · rw [expand_append, List.length_append, ← hindex']
    rfl

theorem Expanded.writeDataPort (h : r.Expanded (⟨.writeDataPort, b⟩ :: left) r') :
    Option.Rel (After left) (r.command H n ⟨.writeDataPort, b⟩)
      (r'.command H n ⟨.writeDataPort, b⟩) := by
  obtain ⟨⟨hmode, hfailed, hcommands, hport, hqueue, hdispatched⟩, htransmit, hnone, done, hdone,
    hindex, hindex'⟩ := h
  have hport' : H.write (.data b) r'.port = H.write (.data b) r.port := by rw [hport]
  have heq : r'.frame.transmitToMouse = r.frame.transmitToMouse :=
    htransmit.resolve_right fun hnone => hnone _ List.mem_cons_self rfl
  have hmode' : (if r'.frame.transmitToMouse then PS2DeviceType.mouse else .keyboard) =
      if r.frame.transmitToMouse then .mouse else .keyboard := by rw [heq]
  refine .some (.advance (done ++ [⟨.writeDataPort, b⟩])
    ⟨hmode', hfailed, hcommands, hport', hqueue, hdispatched⟩ (.inl rfl) hnone ?_ ?_ ?_)
  · rw [List.append_assoc]
    exact hdone
  · rw [List.length_append, ← hindex]
    rfl
  · rw [expand_append, List.length_append, ← hindex']
    rfl

/-- Runs that match read the same, in a command that does nothing before its read. -/
theorem Matches.rel_read {r r' : RequestRun σ} (h : r.Matches r') {c : PS2Command}
    {e : Option UInt8} (hc : ∀ f : ProcessFrame,
      f.start c = ⟨[], f.deviceMode, f.transmitToMouse, some (.enter f.deviceMode e)⟩)
    {R : RequestRun σ → RequestRun σ → Prop}
    (hR : ∀ byte port queue dispatched, R ⟨r.frame.finish c byte, port, queue, dispatched⟩
      ⟨r'.frame.finish c byte, port, queue, dispatched⟩) :
    Option.Rel R (r.command H n c) (r'.command H n c) := by
  have hcommand (r : RequestRun σ) : r.command H n c =
      (PS2.readDataPort H.toPort n r.frame.deviceMode e r.port r.queue).result.value.map
        fun byte => ⟨r.frame.finish c byte,
          (PS2.readDataPort H.toPort n r.frame.deviceMode e r.port r.queue).port,
          (PS2.readDataPort H.toPort n r.frame.deviceMode e r.port r.queue).queue,
          r.dispatched ++
            (PS2.readDataPort H.toPort n r.frame.deviceMode e r.port r.queue).dispatched⟩ := by
    unfold RequestRun.command
    rw [hc]
    rfl
  rw [hcommand, hcommand, h.deviceMode, h.port, h.queue, h.dispatched]
  exact rel_map _ fun byte => hR byte _ _ _

theorem Expanded.readDataPort (h : r.Expanded (⟨.readDataPort, b⟩ :: left) r') :
    Option.Rel (After left) (r.command H n ⟨.readDataPort, b⟩)
      (r'.command H n ⟨.readDataPort, b⟩) := by
  refine h.agrees.rel_read (e := none) (fun _ => rfl) fun byte port queue dispatched => ?_
  obtain ⟨⟨hmode, hfailed, hcommands, -, -, -⟩, htransmit, hnone, done, hdone, hindex, hindex'⟩ := h
  refine .advance (done ++ [⟨.readDataPort, byte⟩]) ⟨hmode, hfailed, ?_, rfl, rfl, rfl⟩
    ?_ hnone ?_ ?_ ?_
  · show r'.frame.request.commands.set r'.frame.index _ =
      expand (r.frame.request.commands.set r.frame.index _)
    rw [hcommands, hdone, hindex, hindex', expand_append, List.set_append_right _ _ (Nat.le_refl _),
      List.set_append_right _ _ (Nat.le_refl _), Nat.sub_self, Nat.sub_self, expand_append]
    rfl
  · exact htransmit.imp_right fun hnone d hd => hnone d (List.mem_cons_of_mem _ hd)
  · show r.frame.request.commands.set r.frame.index _ = _
    rw [hdone, hindex, List.set_append_right _ _ (Nat.le_refl _), Nat.sub_self, List.append_assoc]
    rfl
  · rw [List.length_append, ← hindex]
    rfl
  · rw [expand_append, List.length_append, ← hindex']
    rfl

theorem Expanded.readDataPortAndCompare
    (h : r.Expanded (⟨.readDataPortAndCompare, b⟩ :: left) r') :
    Option.Rel (After left) (r.command H n ⟨.readDataPortAndCompare, b⟩)
      (r'.command H n ⟨.readDataPortAndCompare, b⟩) := by
  refine h.agrees.rel_read (e := some b) (fun _ => rfl) fun byte port queue dispatched => ?_
  obtain ⟨⟨hmode, hfailed, hcommands, -, -, -⟩, htransmit, hnone, done, hdone, hindex, hindex'⟩ := h
  by_cases hbyte : byte = b
  · have hfinish (f : ProcessFrame) : f.finish ⟨.readDataPortAndCompare, b⟩ byte =
        { f with index := f.index + 1 } := if_pos hbyte
    rw [hfinish, hfinish]
    refine .advance (done ++ [⟨.readDataPortAndCompare, b⟩])
      ⟨hmode, hfailed, hcommands, rfl, rfl, rfl⟩ ?_ hnone ?_ ?_ ?_
    · exact htransmit.imp_right fun hnone d hd => hnone d (List.mem_cons_of_mem _ hd)
    · rw [List.append_assoc]
      exact hdone
    · rw [List.length_append, ← hindex]
      rfl
    · rw [expand_append, List.length_append, ← hindex']
      rfl
  · have hfinish (f : ProcessFrame) : f.finish ⟨.readDataPortAndCompare, b⟩ byte =
        { f with failed := true } := if_neg hbyte
    rw [hfinish, hfinish]
    exact .fail ⟨hmode, rfl, hcommands, rfl, rfl, rfl⟩ rfl

/-- The composite against the three commands. -/
theorem Expanded.sendMouseCommandAndCompareAck
    (h : r.Expanded (⟨.sendMouseCommandAndCompareAck, b⟩ :: left) r')
    (hr : r.frame.failed = false) :
    Option.Rel (After left) (r.command H n ⟨.sendMouseCommandAndCompareAck, b⟩)
      (r'.each H n (PS2Command.expand ⟨.sendMouseCommandAndCompareAck, b⟩)) := by
  obtain ⟨⟨hmode, hfailed, hcommands, hport, hqueue, hdispatched⟩, htransmit,
    ⟨hclear, hnone⟩, done, hdone, hindex, hindex'⟩ := h
  have hr' : r'.frame.failed = false := hfailed.trans hr
  -- the two writes; whatever stood in `transmitToMouse`, the data goes to the mouse
  have hwritten : r'.each H n (PS2Command.expand ⟨.sendMouseCommandAndCompareAck, b⟩) =
      RequestRun.command H n ⟨⟨r'.frame.request, r'.frame.index + 1 + 1,
          if r'.frame.transmitToMouse || kCPTransmitToMouse == kCPTransmitToMouse then .mouse
          else .keyboard, false, r'.frame.failed⟩,
        H.write (.data b) (H.write (.command kCPTransmitToMouse) r'.port), r'.queue,
        r'.dispatched⟩ ⟨.readDataPortAndCompare, kSCAcknowledge⟩ := by
    refine (each_cons hr' rfl).trans ((each_cons ?_ rfl).trans (each_singleton ?_ _))
    · exact hr'
    · exact hr'
  have hmouse : (if r'.frame.transmitToMouse || kCPTransmitToMouse == kCPTransmitToMouse then
      PS2DeviceType.mouse else .keyboard) = .mouse := by
    rw [beq_self_eq_true, Bool.or_true, if_pos rfl]
  rw [hwritten, hmouse, hport, hqueue, hdispatched]
  refine rel_map (PS2.readDataPort H.toPort n .mouse (some kSCAcknowledge)
    (H.write (.data b) (H.write (.command kCPTransmitToMouse) r.port)) r.queue).result.value
    fun byte => ?_
  by_cases hbyte : byte = kSCAcknowledge
  · have hfinish (f : ProcessFrame) : f.finish ⟨.sendMouseCommandAndCompareAck, b⟩ byte =
        { f with index := f.index + 1 } := if_pos hbyte
    have hfinish' (f : ProcessFrame) : f.finish ⟨.readDataPortAndCompare, kSCAcknowledge⟩ byte =
        { f with index := f.index + 1 } := if_pos hbyte
    rw [hfinish, hfinish']
    refine .advance (done ++ [⟨.sendMouseCommandAndCompareAck, b⟩])
      ⟨rfl, hfailed, hcommands, rfl, rfl, rfl⟩ ?_ hnone ?_ ?_ ?_
    · show false = r.frame.transmitToMouse ∨ _
      cases htransmit : r.frame.transmitToMouse with
      | true => exact .inr (hclear htransmit)
      | false => exact .inl rfl
    · rw [List.append_assoc]
      exact hdone
    · rw [List.length_append, ← hindex]
      rfl
    · rw [expand_append, List.length_append, ← hindex']
      rfl
  · have hfinish (f : ProcessFrame) : f.finish ⟨.sendMouseCommandAndCompareAck, b⟩ byte =
        { f with failed := true } := if_neg hbyte
    have hfinish' (f : ProcessFrame) : f.finish ⟨.readDataPortAndCompare, kSCAcknowledge⟩ byte =
        { f with failed := true } := if_neg hbyte
    rw [hfinish, hfinish']
    exact .fail ⟨rfl, rfl, hcommands, rfl, rfl, rfl⟩ rfl

/-- The step lemma: one command against what it is expanded to. -/
theorem Expanded.command {c : PS2Command} (h : r.Expanded (c :: left) r')
    (hr : r.frame.failed = false) :
    Option.Rel (After left) (r.command H n c) (r'.each H n c.expand) := by
  have hr' : r'.frame.failed = false := h.agrees.failed.trans hr
  obtain ⟨command, b⟩ := c
  cases command with
  | readDataPort =>
    exact each_singleton (H := H) hr' _ ▸ h.readDataPort
  | readDataPortAndCompare => exact each_singleton (H := H) hr' _ ▸ h.readDataPortAndCompare
  | writeDataPort => exact each_singleton (H := H) hr' _ ▸ h.writeDataPort
  | writeCommandPort => exact each_singleton (H := H) hr' _ ▸ h.writeCommandPort
  | sendMouseCommandAndCompareAck => exact h.sendMouseCommandAndCompareAck hr

/-- The run lemma. -/
theorem Expanded.each {cs : List PS2Command} (later : List PS2Command)
    (h : r.Expanded (cs ++ later) r') :
    Option.Rel Matches (r.each H n cs) (r'.each H n (expand cs)) := by
  induction cs generalizing r r' with
  | nil => exact .some h.agrees
  | cons c cs ih =>
    by_cases hr : r.frame.failed = true
    · rw [each_failed hr, each_failed (h.agrees.failed.trans hr)]
      exact .some h.agrees
    · rw [Bool.not_eq_true] at hr
      rw [expand_cons, each_append, RequestRun.each, if_neg (by rw [hr]; decide)]
      have hrel := h.command (H := H) (n := n) hr
      generalize r.command H n c = o at hrel
      generalize r'.each H n c.expand = o' at hrel
      cases hrel with
      | none => exact .none
      | @some s s' hafter =>
        show Option.Rel Matches (s.each H n cs) (s'.each H n (expand cs))
        by_cases hs : s.frame.failed = true
        · rw [each_failed hs, each_failed (hafter.1.failed.trans hs)]
          exact .some hafter.1
        · rw [Bool.not_eq_true] at hs
          exact ih (hafter.2 hs)

end RequestRun

theorem expanded_entered {cs : List PS2Command} (hcs : NoneBetween false cs)
    (hardwareOffline : Bool) (port : σ) (queue : List PortByte) :
    (RequestRun.entered (.ofCommands cs) hardwareOffline port queue).Expanded cs
      (.entered (.ofCommands (expand cs)) hardwareOffline port queue) :=
  ⟨⟨rfl, rfl, rfl, rfl, rfl, rfl⟩, .inl rfl, hcs, [], rfl, rfl, rfl⟩

theorem left_ofCommands (cs : List PS2Command) (hardwareOffline : Bool) (port : σ)
    (queue : List PortByte) :
    (RequestRun.entered (.ofCommands cs) hardwareOffline port queue).frame.left = cs := by
  rw [left_entered]
  exact List.take_length

/-- The two requests, command by command. -/
theorem commands_expand (H : Controller σ) (n : ℕ) {cs : List PS2Command}
    (hcs : NoneBetween false cs) (hardwareOffline : Bool) (port : σ) (queue : List PortByte)
    (k : ℕ) :
    Option.Rel RequestRun.Matches
      (RequestRun.commands H n k (.entered (.ofCommands cs) hardwareOffline port queue))
      (RequestRun.commands H n (expand (cs.take k)).length
        (.entered (.ofCommands (expand cs)) hardwareOffline port queue)) := by
  have htake : (expand cs).take (expand (cs.take k)).length = expand (cs.take k) := by
    have hsplit : expand cs = expand (cs.take k) ++ expand (cs.drop k) := by
      rw [← expand_append, List.take_append_drop]
    rw [hsplit, List.take_left]
  rw [RequestRun.commands_eq_each, RequestRun.commands_eq_each, left_ofCommands, left_ofCommands,
    htake]
  refine RequestRun.Expanded.each (cs.drop k) ?_
  rw [List.take_append_drop]
  exact expanded_entered hcs hardwareOffline port queue

/-- `commandsCount` tells whether a request succeeded and where it failed, the bytes that its
commands read deciding about it; and the composite is equivalent to the commands that it stands
for, where none stands between a write of `kCP_TransmitToMouse` and its data write: the runs match
behind every command and its expansion, the last one included. -/
theorem processRequest_outcome (H : Controller σ) (n : ℕ) (hardwareOffline : Bool) (port : σ)
    (queue : List PortByte) :
    (∀ request,
      (∀ r, processRequest H n request hardwareOffline port queue = some r →
        (r.frame.complete.commandsCount = request.commandsCount ↔
          ∃ reads t, AllSucceed H n request hardwareOffline port queue reads t) ∧
        (∀ reads t, AllSucceed H n request hardwareOffline port queue reads t →
          r.exchange = t ∧ r.frame.complete.commands = readBy request.commands reads) ∧
        (¬(∃ reads t, AllSucceed H n request hardwareOffline port queue reads t) →
          r.frame.complete.commandsCount < request.commandsCount ∧
            ∃ reads, FirstFails H n request hardwareOffline port queue
                r.frame.complete.commandsCount reads r.exchange ∧
              r.frame.complete.commands = readBy request.commands reads)) ∧
      ((∃ reads t, AllSucceed H n request hardwareOffline port queue reads t) ∨
          (∃ i reads t, FirstFails H n request hardwareOffline port queue i reads t) →
        (processRequest H n request hardwareOffline port queue).isSome)) ∧
      ∀ cs, NoneBetween false cs →
        (∀ k, Option.Rel RequestRun.Matches
          (RequestRun.commands H n k (.entered (.ofCommands cs) hardwareOffline port queue))
          (RequestRun.commands H n (expand (cs.take k)).length
            (.entered (.ofCommands (expand cs)) hardwareOffline port queue))) ∧
        Option.Rel RequestRun.Matches
          (processRequest H n (.ofCommands cs) hardwareOffline port queue)
          (processRequest H n (.ofCommands (expand cs)) hardwareOffline port queue) := by
  refine ⟨fun request => ⟨fun r hr => complete_commandsCount hr, ?_⟩,
    fun cs hcs => ⟨commands_expand H n hcs hardwareOffline port queue, ?_⟩⟩
  · rintro (⟨reads, t, h⟩ | ⟨i, reads, t, h⟩)
    · obtain ⟨r, hr, -⟩ := h.completes
      exact Option.isSome_of_eq_some hr
    · obtain ⟨r, hr, -⟩ := h.completes
      exact Option.isSome_of_eq_some hr
  · have h := commands_expand H n hcs hardwareOffline port queue cs.length
    rw [List.take_length] at h
    exact h

/-- A mouse that acknowledges everything; the port keeps what is written to it. -/
def acknowledging : Controller (List PortWrite) where
  interrupts writes := ([], writes)
  poll writes := (some ⟨.mouse, kSCAcknowledge, 0⟩, writes)
  write w writes := writes ++ [w]

def enableMouse : List PS2Command :=
  [⟨.sendMouseCommandAndCompareAck, kDPEnable⟩]

theorem enableMouse_outcome :
    ∃ r, processRequest acknowledging 1 (.ofCommands enableMouse) false [] [] = some r ∧
      (∃ reads t, AllSucceed acknowledging 1 (.ofCommands enableMouse) false [] [] reads t) ∧
      r.port = [.command kCPTransmitToMouse, .data kDPEnable] ∧
      Option.Rel RequestRun.Matches (some r)
        (processRequest acknowledging 1 (.ofCommands (expand enableMouse)) false [] []) := by
  have h := processRequest_outcome acknowledging 1 false [] []
  exact ⟨_, rfl, ((h.1 (.ofCommands enableMouse)).1 _ rfl).1.mp rfl, rfl,
    (h.2 enableMouse ⟨nofun, trivial⟩).2⟩

end PS2
