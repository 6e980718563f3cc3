import NetbookInstaller.PS2.Escape
import Mathlib.Data.List.Perm.Basic
import Mathlib.Data.List.FinRange
import Mathlib.Logic.Function.Basic

/-! The two queues that the controller keeps its keyboard queue elements on, and what becomes
of the bytes offered to them. -/
namespace PS2

/-- An element is its place in the memory that `start` allocates. -/
abbrev KeyboardQueueElement := Fin kKeyboardQueueSize

/-- `_keyboardQueue`, `_keyboardQueueUnused` and the `data` of the elements. -/
structure KeyboardQueues where
  queue : List KeyboardQueueElement
  unused : List KeyboardQueueElement
  data : KeyboardQueueElement → UInt8

/-- A byte that is to be enqueued: how many elements are used then, and whether it gets one. -/
structure Offer where
  key : UInt8
  used : ℕ
  accepted : Bool
  deriving DecidableEq, Repr

namespace KeyboardQueues

/-- The queues behind `start`; the memory is not initialised. -/
def start (data : KeyboardQueueElement → UInt8) : KeyboardQueues :=
  ⟨[], List.finRange kKeyboardQueueSize, data⟩

def enqueueKeyboardData (s : KeyboardQueues) (key : UInt8) : KeyboardQueues :=
  match s.unused with
  | [] => s
  | element :: unused =>
    ⟨s.queue ++ [element], unused, Function.update s.data element key⟩

/-- `none` is the return value `false`. -/
def dequeueKeyboardData (s : KeyboardQueues) : Option (UInt8 × KeyboardQueues) :=
  match s.queue with
  | [] => none
  | element :: queue => some (s.data element, ⟨queue, s.unused ++ [element], s.data⟩)

/-- The bytes on the queue. -/
def bytes (s : KeyboardQueues) : List UInt8 := s.queue.map s.data

def offer (s : KeyboardQueues) (key : UInt8) : Offer :=
  ⟨key, s.queue.length, !s.unused.isEmpty⟩

/-- The bytes are enqueued one after the other. -/
def offers (s : KeyboardQueues) : List UInt8 → List Offer
  | [] => []
  | key :: keys => s.offer key :: (s.enqueueKeyboardData key).offers keys

def groupOffers (s : KeyboardQueues) : List (List UInt8) → List (List Offer)
  | [] => []
  | keys :: groups =>
    s.offers keys :: (keys.foldl enqueueKeyboardData s).groupOffers groups

end KeyboardQueues

/-- The codes that release the modifier keys, those of each key together. -/
def Escape.releaseGroups (e : Escape) : List (List UInt8) :=
  (modifierTable.filter fun entry => e.modifierState &&& entry.modifier != 0).map fun entry =>
    (if entry.extended then [kSCExtend] else []) ++ [entry.scancode ||| kSCUpBit]

inductive QueueAction where
  | enqueueKeyboardData (key : UInt8)
  | dequeueKeyboardData
  | doEscape (scancode : UInt8)
  deriving DecidableEq, Repr

/-- The queues with what has been offered to them, by `doEscape` for one key at a time, and
what has been taken off. -/
structure QueueHistory where
  queues : KeyboardQueues
  escape : Escape
  offers : List Offer
  released : List (List Offer)
  dequeued : List UInt8

namespace QueueHistory

def start (data : KeyboardQueueElement → UInt8) (debugFlag : Bool) : QueueHistory :=
  ⟨.start data, .start debugFlag, [], [], []⟩

def step (s : QueueHistory) : QueueAction → Option QueueHistory
  | .enqueueKeyboardData key =>
    some { s with
      queues := s.queues.enqueueKeyboardData key
      offers := s.offers ++ [s.queues.offer key] }
  | .dequeueKeyboardData =>
    match s.queues.dequeueKeyboardData with
    | none => some s
    | some (key, queues) => some { s with queues, dequeued := s.dequeued ++ [key] }
  | .doEscape scancode =>
    let escaped := s.escape.doEscape scancode
    let keys := enqueued escaped.effects
    some { s with
      queues := keys.foldl KeyboardQueues.enqueueKeyboardData s.queues
      escape := escaped.escape
      offers := s.offers ++ s.queues.offers keys
      released := s.released ++
        s.queues.groupOffers (if escaped.drop then s.escape.releaseGroups else []) }

/-- No element is lost or on both queues, the bytes accepted come off in order, and bytes are
dropped only if all elements are used. -/
structure Accounted (s : QueueHistory) : Prop where
  partition : (s.queues.queue ++ s.queues.unused).Perm (List.finRange kKeyboardQueueSize)
  inOrder : s.dequeued ++ s.queues.bytes = (s.offers.filter Offer.accepted).map Offer.key
  dropped : ∀ o ∈ s.offers, o.accepted = false ↔ o.used = kKeyboardQueueSize

/-- The codes of a key are accepted together or dropped together. -/
def Whole (codes : List Offer) : Prop :=
  (∀ o ∈ codes, o.accepted = true) ∨ ∀ o ∈ codes, o.accepted = false

/-- The unused elements do not come to an end inside a group. -/
def Fits : ℕ → List (List UInt8) → Prop
  | _, [] => True
  | free, keys :: groups => (keys.length ≤ free ∨ free = 0) ∧ Fits (free - keys.length) groups

/-- If the action calls the debugger, the codes that it enqueues then fit. -/
def ReleasesFit (s : QueueHistory) : QueueAction → Prop
  | .doEscape scancode =>
    (s.escape.doEscape scancode).drop = true →
      Fits s.queues.unused.length s.escape.releaseGroups
  | _ => True

end QueueHistory

namespace KeyboardQueues

variable {s : KeyboardQueues} {key : UInt8} {keys : List UInt8}

@[simp] theorem unused_enqueueKeyboardData (s : KeyboardQueues) (key : UInt8) :
    (s.enqueueKeyboardData key).unused = s.unused.tail := by
  unfold enqueueKeyboardData
  split
  next h => rw [h, List.tail_nil]
  next h => rw [h, List.tail_cons]

theorem unused_foldl (s : KeyboardQueues) (keys : List UInt8) :
    (keys.foldl enqueueKeyboardData s).unused = s.unused.drop keys.length := by
  induction keys generalizing s with
  | nil => rfl
  | cons key keys ih =>
    rw [List.foldl_cons, ih, unused_enqueueKeyboardData, List.length_cons, List.drop_tail]

theorem offers_accepted_iff :
    (∀ o ∈ s.offers keys, o.accepted = true) ↔ keys.length ≤ s.unused.length := by
  induction keys generalizing s with
  | nil => simp [offers]
  | cons key keys ih =>
    rw [offers, List.forall_mem_cons, ih, unused_enqueueKeyboardData, List.length_tail,
      List.length_cons]
    cases h : s.unused with
    | nil => simp [offer, h]
    | cons element unused => simp [offer, h]

theorem offers_dropped_iff :
    (∀ o ∈ s.offers keys, o.accepted = false) ↔ keys = [] ∨ s.unused.length = 0 := by
  induction keys generalizing s with
  | nil => simp [offers]
  | cons key keys ih =>
    rw [offers, List.forall_mem_cons, ih, unused_enqueueKeyboardData]
    cases h : s.unused with
    | nil => simp [offer, h]
    | cons element unused => simp [offer, h]

theorem groupOffers_whole_iff (groups : List (List UInt8)) :
    (∀ codes ∈ s.groupOffers groups, QueueHistory.Whole codes) ↔
      QueueHistory.Fits s.unused.length groups := by
  induction groups generalizing s with
  | nil => simp [groupOffers, QueueHistory.Fits]
  | cons keys groups ih =>
    rw [groupOffers, List.forall_mem_cons, ih, unused_foldl, List.length_drop, QueueHistory.Fits,
      QueueHistory.Whole, offers_accepted_iff, offers_dropped_iff]
    refine and_congr_left fun _ => ?_
    constructor
    · rintro (hfit | rfl | hnone)
      · exact .inl hfit
      · exact .inl (Nat.zero_le _)
      · exact .inr hnone
    · rintro (hfit | hnone)
      · exact .inl hfit
      · exact .inr (.inr hnone)

end KeyboardQueues

namespace QueueHistory

variable {s t : QueueHistory}

theorem Accounted.nodup (h : Accounted s) : (s.queues.queue ++ s.queues.unused).Nodup :=
  h.partition.nodup_iff.mpr (List.nodup_finRange _)

theorem Accounted.length (h : Accounted s) :
    s.queues.queue.length + s.queues.unused.length = kKeyboardQueueSize := by
  rw [← List.length_append, h.partition.length_eq, List.length_finRange]

/-- An enqueued byte is behind the others, which keep their elements. -/
theorem Accounted.enqueue (h : Accounted s) (key : UInt8) :
    Accounted { s with
      queues := s.queues.enqueueKeyboardData key
      offers := s.offers ++ [s.queues.offer key] } := by
  have hlength := h.length
  have hnodup := h.nodup
  obtain ⟨hpartition, hinOrder, hdropped⟩ := h
  unfold KeyboardQueues.bytes at hinOrder
  cases hunused : s.queues.unused with
  | nil =>
    rw [hunused] at hpartition hlength
    refine ⟨?_, ?_, ?_⟩
    · simpa [KeyboardQueues.enqueueKeyboardData, hunused] using hpartition
    · simpa [KeyboardQueues.enqueueKeyboardData, KeyboardQueues.bytes, KeyboardQueues.offer,
        hunused] using hinOrder
    · intro o ho
      rcases List.mem_append.mp ho with ho | ho
      · exact hdropped o ho
      · obtain rfl := List.mem_singleton.mp ho
        simpa [KeyboardQueues.offer, hunused] using hlength
  | cons element unused =>
    rw [hunused] at hpartition hlength hnodup
    have hfresh : element ∉ s.queues.queue := fun hmem =>
      (List.nodup_append.mp hnodup).2.2 element hmem element List.mem_cons_self rfl
    have hkept : s.queues.queue.map (Function.update s.queues.data element key) =
        s.queues.queue.map s.queues.data := by
      refine List.map_congr_left fun e he => Function.update_of_ne ?_ _ _
      rintro rfl
      exact hfresh he
    refine ⟨?_, ?_, ?_⟩
    · simpa [KeyboardQueues.enqueueKeyboardData, hunused] using hpartition
    · simp [KeyboardQueues.enqueueKeyboardData, KeyboardQueues.bytes, KeyboardQueues.offer,
        hunused, hkept, ← hinOrder]
    · intro o ho
      rcases List.mem_append.mp ho with ho | ho
      · exact hdropped o ho
      · obtain rfl := List.mem_singleton.mp ho
        simp only [KeyboardQueues.offer, hunused]
        simp only [List.length_cons] at hlength
        simp
        omega

theorem Accounted.enqueueAll (h : Accounted s) (keys : List UInt8) :
    Accounted { s with
      queues := keys.foldl KeyboardQueues.enqueueKeyboardData s.queues
      offers := s.offers ++ s.queues.offers keys } := by
  induction keys generalizing s with
  | nil => simpa [KeyboardQueues.offers] using h
  | cons key keys ih =>
    have hrest := ih (h.enqueue key)
    rw [List.append_assoc] at hrest
    exact hrest

theorem Accounted.dequeue (h : Accounted s) {key : UInt8} {queues : KeyboardQueues}
    (hq : s.queues.dequeueKeyboardData = some (key, queues)) :
    Accounted { s with queues, dequeued := s.dequeued ++ [key] } := by
  obtain ⟨hpartition, hinOrder, hdropped⟩ := h
  unfold KeyboardQueues.dequeueKeyboardData at hq
  split at hq
  · cases hq
  next element queue hqueue =>
    obtain ⟨rfl, rfl⟩ := Prod.mk.inj (Option.some.inj hq)
    rw [KeyboardQueues.bytes, hqueue, List.map_cons] at hinOrder
    rw [hqueue] at hpartition
    refine ⟨?_, ?_, hdropped⟩
    · refine List.Perm.trans ?_ hpartition
      rw [← List.append_assoc]
      exact List.perm_append_comm
    · rw [← hinOrder, List.append_assoc]
      rfl

theorem Accounted.step (h : Accounted s) {a : QueueAction} (ht : s.step a = some t) :
    Accounted t := by
  cases a with
  | enqueueKeyboardData key =>
    rw [QueueHistory.step, Option.some.injEq] at ht
    exact ht ▸ h.enqueue key
  | dequeueKeyboardData =>
    rw [QueueHistory.step] at ht
    split at ht
    next => exact Option.some.inj ht ▸ h
    next key queues hq => exact Option.some.inj ht ▸ h.dequeue hq
  | doEscape scancode =>
    simp only [QueueHistory.step, Option.some.injEq] at ht
    subst ht
    obtain ⟨hpartition, hinOrder, hdropped⟩ :=
      h.enqueueAll (enqueued (s.escape.doEscape scancode).effects)
    exact ⟨hpartition, hinOrder, hdropped⟩

theorem accounted_start (data : KeyboardQueueElement → UInt8) (debugFlag : Bool) :
    Accounted (start data debugFlag) := by
  refine ⟨?_, rfl, fun o ho => ?_⟩
  · rw [start, KeyboardQueues.start, List.nil_append]
  · cases ho

/-- An action keeps the codes of each key together exactly if those that it enqueues fit. -/
theorem whole_step_iff {a : QueueAction} (hs : ∀ codes ∈ s.released, Whole codes) :
    ReleasesFit s a ↔ ∀ t, s.step a = some t → ∀ codes ∈ t.released, Whole codes := by
  cases a with
  | enqueueKeyboardData key =>
    refine iff_of_true trivial fun t ht => ?_
    rw [step, Option.some.injEq] at ht
    exact ht ▸ hs
  | dequeueKeyboardData =>
    refine iff_of_true trivial fun t ht => ?_
    rw [step] at ht
    split at ht
    next => exact Option.some.inj ht ▸ hs
    next => exact Option.some.inj ht ▸ hs
  | doEscape scancode =>
    simp only [ReleasesFit, step, Option.some.injEq, forall_eq', List.forall_mem_append,
      KeyboardQueues.groupOffers_whole_iff]
    rw [and_iff_right hs]
    split
    next h => simp [h]
    next h => simp [h, Fits]

/-- Whatever the order of the calls, the queues keep account of elements and bytes; the
codes of an extended key stay together exactly as long as no release gets to a last unused
element in between. -/
theorem keyboardQueues_sound_iff (data : KeyboardQueueElement → UInt8) (debugFlag : Bool)
    (as : List QueueAction) :
    Transition.Throughout step (fun s => Accounted s ∧ ∀ codes ∈ s.released, Whole codes)
        (start data debugFlag) as ↔
      Transition.Guarded step ReleasesFit (start data debugFlag) as := by
  refine Transition.throughout_iff_guarded_of_forall Accounted (fun _ => True) ?_
    (fun s a t h ht => h.step ht) (accounted_start data debugFlag)
    ⟨accounted_start data debugFlag, fun codes h => nomatch h⟩ fun _ _ => trivial
  intro s a hinv hs _
  rw [whole_step_iff hs.2]
  constructor
  · intro h t ht
    exact ⟨hinv.step ht, h t ht⟩
  · intro h t ht
    exact (h t ht).2

/-- Both Alt keys are held, two elements are left, and the debugger is called. -/
def crowdedRelease : List QueueAction :=
  [.doEscape 0x38, .doEscape 0xE0, .doEscape 0x38] ++
    List.replicate 30 (.enqueueKeyboardData 0x1E) ++ [.doEscape 0x53]

/-- The second element gets the prefix of the right Alt key, and its code is dropped. -/
theorem crowdedRelease_splits :
    (∃ t, Transition.run step (start (fun _ => 0) true) crowdedRelease = some t ∧
      t.queues.bytes = List.replicate 30 0x1E ++ [0xB8, 0xE0]) ∧
      ¬ Transition.Throughout step (fun s => Accounted s ∧ ∀ codes ∈ s.released, Whole codes)
        (start (fun _ => 0) true) crowdedRelease := by
  have hrun : (Transition.run step (start (fun _ => 0) true) crowdedRelease).map
      (fun t => (t.queues.bytes, t.released)) =
        some (List.replicate 30 0x1E ++ [0xB8, 0xE0],
          [[⟨0xB8, 30, true⟩], [⟨0xE0, 31, true⟩, ⟨0xB8, 32, false⟩]]) := by decide +kernel
  obtain ⟨t, ht, heq⟩ := Option.map_eq_some_iff.mp hrun
  obtain ⟨hbytes, hreleased⟩ := Prod.mk.inj heq
  refine ⟨⟨t, ht, hbytes⟩, fun h => ?_⟩
  have hwhole := (h.last ht).2 [⟨0xE0, 31, true⟩, ⟨0xB8, 32, false⟩] (by simp [hreleased])
  rcases hwhole with hall | hnone
  · simp at hall
  · simp at hnone

end QueueHistory
end PS2
