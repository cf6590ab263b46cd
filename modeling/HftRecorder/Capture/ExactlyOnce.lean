import HftRecorder.Capture.Buffered

/-!
# The queue hands over everything once

`Control` is what the threads of the buffered writer know of each other, and `Delivery` what their
items have gone through: the ring holds what was accepted, and what the corpus writer took is the
beginning of it, in order, up to the reader's position. Both are kept by every action of every
thread, whatever the writer returns. At the end of `finish` and of `drainFrozen` the reader's position
is the end of the ring.
-/

namespace HftRecorder.Capture

open ByteLayout Corpus BufferedState ProducerPc

variable {finishLast : Bool} {s t : BufferedState}

/-! ## Control -/

/-- The producer has called `finish`. -/
def ProducerPc.stopped : ProducerPc → Bool
  | .joining | .finished _ | .draining _ | .frozenConsumed _ | .drained _ _ => true
  | _ => false

/-- `finish` has returned. -/
def ProducerPc.frozen : ProducerPc → Bool
  | .finished _ | .draining _ | .frozenConsumed _ | .drained _ _ => true
  | _ => false

/-- `drainFrozen` has been called. -/
def ProducerPc.retried : ProducerPc → Bool
  | .draining _ | .frozenConsumed _ | .drained _ _ => true
  | _ => false

/-- The worker has seen `stop_` set. -/
def WorkerPc.stopSeen : WorkerPc → Bool
  | .commitTest stop | .committing stop | .emptyTest stop => stop
  | _ => false

/-- What the threads know of each other. -/
structure Control (s : BufferedState) : Prop where
  stop_eq : s.stop = s.producer.stopped
  stopSeen : s.worker.stopSeen = true → s.stop = true
  frozen : s.producer.frozen = true → s.worker = .ended
  reading : s.worker = .consuming ∨ s.worker = .consumed → s.ring.read < s.ring.written
  retrying : ∀ status, s.producer = .frozenConsumed status → s.ring.read < s.ring.written
  /-- A worker that ended without a failure has emptied the queue. -/
  ended : s.worker = .ended → s.status = .ok → s.stop = true ∧ s.ring.read = s.ring.written
  finished : ∀ status, s.producer = .finished status → s.status = status
  failing : ∀ status, s.worker = .failing status → status ≠ .ok
  drained : ∀ status, s.producer = .drained status .ok → s.ring.read = s.ring.written
  read_le : s.ring.read ≤ s.ring.written

theorem control_started (capacity : ℕ) (slots : ℕ → Item) : Control (.started capacity slots) := by
  constructor <;> simp [started, stopped, ProducerPc.frozen, WorkerPc.stopSeen]

theorem ProducerPc.stopped_of_frozen {pc : ProducerPc} (h : pc.frozen = true) :
    pc.stopped = true := by
  cases pc with
  | finished | draining | frozenConsumed | drained => rfl
  | idle | statusLoaded | stopLoaded | readLoaded | stored | joining => cases h

variable {due : Bool} {result : Status}

theorem live_of_workerStep (h : s.workerStep result due = some t) : s.worker ≠ .ended := by
  intro hended
  rw [workerStep, hended] at h
  cases h

/-- The producer's operations. Before `finish` it only adds to the ring, and after it the worker has
ended, so nothing that the worker relies on changes under it. -/
theorem control_producerStep (h : s.producerStep result = some t) (hs : Control s) : Control t := by
  cases hs
  constructor <;> grind [producerStep, consume, stopped, ProducerPc.frozen, SlotRing.store,
    SlotRing.publish, SlotRing.advance]

/-- The worker's operations. It runs only while `finish` has not returned, so `drainFrozen` and the
worker never move the reader's position at one time. -/
theorem control_workerStep (h : s.workerStep result due = some t) (hs : Control s) : Control t := by
  cases hs
  constructor <;> grind [workerStep, consume, ProducerPc.frozen, WorkerPc.stopSeen,
    SlotRing.advance]

theorem control_step {a : BufferedAction} (h : s.step finishLast a = some t) (hs : Control s) :
    Control t := by
  cases a with
  | producer result => exact control_producerStep h hs
  | worker result due => exact control_workerStep h hs
  | appendReference | reference =>
    simp only [step] at h
    repeat' split at h
    all_goals cases h
    all_goals exact { hs with }
  | finish =>
    simp only [step] at h
    repeat' split at h
    all_goals cases h
    exact { hs with
      stop_eq := rfl, stopSeen := fun _ => rfl, frozen := nofun, retrying := nofun
      ended := fun hended hok => ⟨rfl, (hs.ended hended hok).2⟩, finished := nofun, drained := nofun }
  | enqueue | drainFrozen =>
    cases hs
    constructor <;> grind [step, stopped, ProducerPc.frozen]

/-! ## Delivery -/

/-- The calls that the corpus writer returned `Ok` for, in order. -/
def consumed (handed : List (WriterCall × Status)) : List WriterCall :=
  (handed.filter fun entry => entry.2 = .ok).map Prod.fst

/-- Every call that is handed over is the first one left, and it is gone once it returned `Ok`: calls
come in order, and one that fails comes again before any other. -/
def InOrder : List WriterCall → List (WriterCall × Status) → Prop
  | _, [] => True
  | calls, (call, status) :: handed =>
    calls.head? = some call ∧ InOrder (if status = .ok then calls.tail else calls) handed

theorem consumed_snoc (handed : List (WriterCall × Status)) (call : WriterCall) (status : Status) :
    consumed (handed ++ [(call, status)]) =
      consumed handed ++ if status = .ok then [call] else [] := by
  by_cases h : status = .ok <;> simp [consumed, List.filter_append, h]

theorem consumed_cons (handed : List (WriterCall × Status)) (call : WriterCall) (status : Status) :
    consumed ((call, status) :: handed) =
      if status = .ok then call :: consumed handed else consumed handed := by
  by_cases h : status = .ok <;> simp [consumed, h]

variable {handed : List (WriterCall × Status)}

theorem InOrder.snoc {calls : List WriterCall} (h : InOrder calls handed) {call : WriterCall}
    (hcall : calls[(consumed handed).length]? = some call) (status : Status) :
    InOrder calls (handed ++ [(call, status)]) := by
  induction handed generalizing calls with
  | nil =>
    rw [consumed, List.filter_nil, List.map_nil, List.length_nil, ← List.head?_eq_getElem?] at hcall
    exact ⟨hcall, trivial⟩
  | cons entry handed ih =>
    obtain ⟨c, st⟩ := entry
    obtain ⟨hhead, hrest⟩ := h
    refine ⟨hhead, ih hrest ?_⟩
    rw [consumed_cons] at hcall
    split at hcall
    · rename_i hok
      rw [if_pos hok, List.getElem?_tail]
      exact hcall
    · rename_i hok
      rwa [if_neg hok]

theorem InOrder.append {calls : List WriterCall} (h : InOrder calls handed)
    (more : List WriterCall) : InOrder (calls ++ more) handed := by
  induction handed generalizing calls with
  | nil => trivial
  | cons entry handed ih =>
    obtain ⟨c, st⟩ := entry
    obtain ⟨hhead, hrest⟩ := h
    cases calls with
    | nil => cases hhead
    | cons first calls =>
      refine ⟨hhead, ?_⟩
      have hmore := ih hrest
      split at hmore
      · rename_i hok
        rw [if_pos hok]
        exact hmore
      · rename_i hok
        rw [if_neg hok]
        exact hmore

/-- How many items the writer has taken: those that the reader is past, and one whose position is not
stored yet. -/
def BufferedState.taken (s : BufferedState) : ℕ :=
  match s.worker, s.producer with
  | .consumed, _ | _, .frozenConsumed _ => s.ring.read + 1
  | _, _ => s.ring.read

/-- What has become of the items. -/
structure Delivery (s : BufferedState) : Prop where
  holds : s.ring.Holds s.accepted
  room : ∀ item, s.producer = .readLoaded item ∨ s.producer = .stored item →
    s.ring.written < s.ring.read + s.ring.capacity
  slot : ∀ item, s.producer = .stored item → s.ring.item s.ring.written = item
  consumed_eq : consumed s.handed = (s.accepted.take s.taken).map Item.call
  inOrder : InOrder (s.accepted.map Item.call) s.handed
  /-- As long as nothing failed, every call returned `Ok`. -/
  clean : s.status = .ok → (∀ status, s.worker ≠ .failing status) → s.producer.retried = false →
    ∀ entry ∈ s.handed, entry.2 = .ok

theorem delivery_started (capacity : ℕ) (slots : ℕ → Item) :
    Delivery (.started capacity slots) := by
  refine ⟨SlotRing.holds_empty capacity slots, ?_, ?_, rfl, trivial, ?_⟩
  · rintro item (h | h) <;> cases h
  · intro item h
    cases h
  · intro _ _ _ entry h
    cases h

/-- A step that touches neither the ring nor the calls. -/
theorem Delivery.congr (h : Delivery s) (hring : t.ring = s.ring)
    (haccepted : t.accepted = s.accepted) (hhanded : t.handed = s.handed)
    (htaken : t.taken = s.taken)
    (hroom : ∀ item, t.producer = .readLoaded item ∨ t.producer = .stored item →
      s.ring.written < s.ring.read + s.ring.capacity)
    (hslot : ∀ item, t.producer = .stored item → s.producer = .stored item)
    (hclean : t.status = .ok → (∀ status, t.worker ≠ .failing status) →
      t.producer.retried = false →
      s.status = .ok ∧ (∀ status, s.worker ≠ .failing status) ∧ s.producer.retried = false) :
    Delivery t := by
  refine ⟨?_, ?_, ?_, ?_, ?_, ?_⟩
  · rw [hring, haccepted]
    exact h.holds
  · rw [hring]
    exact hroom
  · intro item hitem
    rw [hring]
    exact h.slot item (hslot item hitem)
  · rw [hhanded, haccepted, htaken]
    exact h.consumed_eq
  · rw [haccepted, hhanded]
    exact h.inOrder
  · intro h1 h2 h3
    obtain ⟨g1, g2, g3⟩ := hclean h1 h2 h3
    rw [hhanded]
    exact h.clean g1 g2 g3

theorem Delivery.consume (h : Delivery s) (htaken : s.taken = s.ring.read)
    (hlt : s.ring.read < s.ring.written) (result : Status) :
    consumed (s.consume result).handed =
        (s.accepted.take (s.ring.read + if result = .ok then 1 else 0)).map Item.call ∧
      InOrder (s.accepted.map Item.call) (s.consume result).handed := by
  have hitem := h.holds.item_eq le_rfl hlt
  have hconsumed := h.consumed_eq
  rw [htaken] at hconsumed
  have hlength : (consumed s.handed).length = s.ring.read := by
    rw [hconsumed, List.length_map, List.length_take, ← h.holds.written_eq, min_eq_left hlt.le]
  refine ⟨?_, h.inOrder.snoc ?_ result⟩
  · change consumed (s.handed ++ [((s.ring.item s.ring.read).call, result)]) = _
    rw [consumed_snoc, hconsumed]
    split
    · rw [List.take_add_one, hitem, List.map_append]
      rfl
    · rw [List.append_nil, Nat.add_zero]
  · rw [hlength, List.getElem?_map, hitem, Option.map_some]

/-- The producer's part: it fills the ring, and `drainFrozen` hands over what is left. -/
theorem delivery_producerStep (h : s.producerStep result = some t) (hs : Delivery s)
    (hc : Control s) : Delivery t := by
  have hworker := hc.frozen
  have hconsumed := hs.consumed_eq
  have hclean := hs.clean
  cases heq : s.producer with
  | readLoaded item =>
    have hroom := hs.room item (.inl heq)
    simp only [producerStep, heq] at h
    cases h
    refine ⟨hs.holds.store hroom item, fun _ _ => hroom, ?_, ?_, hs.inOrder, ?_⟩
    · intro _ hpc
      cases hpc
      exact SlotRing.item_store_written s.ring item
    · grind [taken, SlotRing.store]
    · grind [retried]
  | stored item =>
    have hroom := hs.room item (.inr heq)
    have htaken : s.taken ≤ s.accepted.length := by
      have hle := hs.holds.read_le
      have hreading := hc.reading
      rw [hs.holds.written_eq] at hle hreading
      grind [taken]
    simp only [producerStep, heq] at h
    cases h
    refine ⟨hs.holds.publish hroom (hs.slot item heq), by grind, nofun, ?_, ?_, ?_⟩
    · rw [List.take_append_of_le_length] <;> grind [taken, SlotRing.publish]
    · rw [List.map_append]
      exact hs.inOrder.append _
    · grind [retried]
  | draining status =>
    have hended := hworker (by rw [heq]; rfl)
    simp only [producerStep, heq] at h
    split at h
    · rename_i hlt
      have htaken : s.taken = s.ring.read := by
        rw [taken, heq, hended]
      obtain ⟨hmore, horder⟩ := hs.consume htaken hlt result
      cases h
      refine ⟨hs.holds, by grind, by grind, ?_, horder, by grind [retried]⟩
      refine hmore.trans ?_
      grind [taken, consume]
    · cases h
      refine hs.congr rfl rfl rfl ?_ ?_ ?_ ?_ <;>
        grind [taken, retried]
  | frozenConsumed status =>
    have hended := hworker (by rw [heq]; rfl)
    simp only [producerStep, heq] at h
    cases h
    refine ⟨hs.holds.advance (hc.retrying status heq), by grind, nofun, ?_, hs.inOrder, ?_⟩
    · grind [taken, SlotRing.advance]
    · grind [retried]
  -- Else nothing is stored in the ring and nothing is handed over.
  | statusLoaded | stopLoaded =>
    simp only [producerStep, heq] at h
    cases h
    refine hs.congr rfl rfl rfl ?_ ?_ ?_ ?_ <;> grind [taken, retried, SlotRing.hasRoom]
  | idle | joining | finished | drained =>
    simp only [producerStep, heq] at h
    repeat' split at h
    all_goals cases h
    all_goals refine hs.congr rfl rfl rfl ?_ ?_ ?_ ?_ <;> grind [taken, retried]

/-- The worker's part: it hands over one item after the other. -/
theorem delivery_workerStep (h : s.workerStep result due = some t) (hs : Delivery s)
    (hc : Control s) : Delivery t := by
  -- No other thread is past `finish` while the worker runs.
  have hproducer : s.producer.frozen = false :=
    Bool.eq_false_iff.mpr fun hfrozen => live_of_workerStep h (hc.frozen hfrozen)
  have hconsumed := hs.consumed_eq
  have hclean := hs.clean
  have hroom := hs.room
  cases heq : s.worker with
  | consuming =>
    have hlt := hc.reading (.inl heq)
    have htaken : s.taken = s.ring.read := by grind [taken, ProducerPc.frozen]
    obtain ⟨hmore, horder⟩ := hs.consume htaken hlt result
    simp only [workerStep, heq] at h
    cases h
    refine ⟨hs.holds, hs.room, hs.slot, ?_, horder, ?_⟩
    · refine hmore.trans ?_
      grind [taken, consume]
    · intro hstatus hworker hretried
      -- The call returned `Ok`, or the worker would be failing.
      have hok : result = .ok := by
        by_contra hne
        exact hworker result (if_neg hne)
      grind [consume]
  | consumed =>
    have hlt := hc.reading (.inr heq)
    simp only [workerStep, heq] at h
    cases h
    refine ⟨hs.holds.advance hlt, ?_, hs.slot, ?_, hs.inOrder, ?_⟩
    · grind [SlotRing.advance]
    · grind [taken, SlotRing.advance, ProducerPc.frozen]
    · grind
  | failing | top | loadStop | commitTest | emptyTest =>
    have hfailing := hc.failing
    simp only [workerStep, heq] at h
    cases h
    refine hs.congr rfl rfl rfl ?_ hroom (fun _ hpc => hpc) ?_ <;> grind [taken]
  | mailbox | committing | ended =>
    simp only [workerStep, heq] at h
    repeat' split at h
    all_goals cases h
    all_goals refine hs.congr rfl rfl rfl ?_ hroom (fun _ hpc => hpc) ?_ <;> grind [taken]

theorem delivery_step {a : BufferedAction} (h : s.step finishLast a = some t) (hs : Delivery s)
    (hc : Control s) : Delivery t := by
  cases a with
  | producer result => exact delivery_producerStep h hs hc
  | worker result due => exact delivery_workerStep h hs hc
  | enqueue | finish | drainFrozen | appendReference | reference =>
    have hroom := hs.room
    refine hs.congr ?_ ?_ ?_ ?_ ?_ ?_ ?_ <;>
      grind [step, taken, retried]

theorem run_control_delivery {capacity : ℕ} {slots : ℕ → Item} {actions : List BufferedAction}
    (h : Machine.run (step finishLast) (.started capacity slots) actions = some s) :
    Control s ∧ Delivery s :=
  Machine.run_invariant (P := fun s => Control s ∧ Delivery s)
    (fun _ _ _ hstep hs => ⟨control_step hstep hs.1, delivery_step hstep hs.2 hs.1⟩) h
    ⟨control_started capacity slots, delivery_started capacity slots⟩

/-! ## The end of a run -/

theorem Delivery.consumed_all (hs : Delivery s) (htaken : s.taken = s.ring.read)
    (hread : s.ring.read = s.ring.written) : consumed s.handed = s.accepted.map Item.call := by
  rw [hs.consumed_eq, htaken, hread, hs.holds.written_eq, List.take_length]

theorem handed_eq_of_clean (h : ∀ entry ∈ handed, entry.2 = .ok) :
    handed = (consumed handed).map fun call => (call, Status.ok) := by
  rw [consumed, List.filter_eq_self.mpr (by simpa using h), List.map_map]
  conv_lhs => rw [← List.map_id handed]
  refine List.map_congr_left fun entry hentry => ?_
  rw [Function.comp_apply, ← h entry hentry]
  rfl

/-- In every interleaving of the threads, whatever the corpus writer returns: the items are handed
over in the order in which they were accepted, a failed one again before any other; when `finish` has
returned `Ok` each of them was handed over once; and when `drainFrozen` has returned `Ok` after a
`finish` that returned `OutOfRange`, the calls that succeeded are the accepted items, each once and
in order. -/
theorem buffered_exactly_once (finishLast : Bool) (capacity : ℕ) (slots : ℕ → Item)
    (actions : List BufferedAction) (s : BufferedState)
    (h : Machine.run (BufferedState.step finishLast) (.started capacity slots) actions = some s) :
    InOrder (s.accepted.map Item.call) s.handed ∧
      (s.producer = .finished .ok →
        s.handed = s.accepted.map fun item => (item.call, Status.ok)) ∧
      (s.producer = .drained .outOfRange .ok →
        consumed s.handed = s.accepted.map Item.call) := by
  obtain ⟨hc, hd⟩ := run_control_delivery h
  refine ⟨hd.inOrder, fun hfinished => ?_, fun hdrained => ?_⟩
  · have hended := hc.frozen (by rw [hfinished]; rfl)
    have hstatus := hc.finished .ok hfinished
    have htaken : s.taken = s.ring.read := by rw [taken, hended, hfinished]
    have hclean := hd.clean hstatus (by rw [hended]; exact fun _ => WorkerPc.noConfusion)
      (by rw [hfinished]; rfl)
    rw [handed_eq_of_clean hclean, hd.consumed_all htaken (hc.ended hended hstatus).2, List.map_map]
    rfl
  · have hended := hc.frozen (by rw [hdrained]; rfl)
    have htaken : s.taken = s.ring.read := by rw [taken, hended, hdrained]
    exact hd.consumed_all htaken (hc.drained _ hdrained)

/-- The actions of a session that queues two items, of which the writer takes the first and refuses
the second until the frozen drain. -/
def refusedOnce (first second : Item) : List BufferedAction :=
  let enqueue := fun item : Item =>
    BufferedAction.enqueue item :: List.replicate 4 (.producer .ok)
  enqueue first ++ enqueue second ++
    -- One turn of the worker for the first item, and the beginning of the next one.
    List.replicate 7 (.worker .ok false) ++
    [.worker .ok false, .worker .outOfRange false, .worker .ok false] ++
    [.finish, .producer .ok, .drainFrozen] ++ List.replicate 3 (.producer .ok)

/-- The second item of such a session is written after all, once. -/
theorem buffered_exactly_once_refused :
    ∃ s, Machine.run (BufferedState.step false) (.started 2 fun _ => .progress {})
        (refusedOnce (.progress { lossEpoch := 1 }) (.progress { lossEpoch := 2 })) = some s ∧
      s.producer = .drained .outOfRange .ok ∧
      consumed s.handed =
        [.updateProgress { lossEpoch := 1 }, .updateProgress { lossEpoch := 2 }] :=
  ⟨_, rfl, rfl, (buffered_exactly_once false 2 (fun _ => .progress {})
    (refusedOnce (.progress { lossEpoch := 1 }) (.progress { lossEpoch := 2 })) _ rfl).2.2 rfl⟩

end HftRecorder.Capture
