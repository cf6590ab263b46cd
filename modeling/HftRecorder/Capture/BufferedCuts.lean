import HftRecorder.Capture.Mailbox
import HftRecorder.Writer.BlockLog

/-!
# The last cut has what the buffered writer accepted

The threads of `BufferedCorpusWriter.cpp` together with the corpus writer that they call, so that what
a call returns is no longer open. Every item that the worker hands over sets `dirty`, and only a commit
clears it. A worker that has seen `stop_` and ends with an empty queue has therefore published a cut
after the last item, and when `finish` returns `Ok` the latest cut has every record that `append`
accepted, whatever the interleaving was.
-/

namespace HftRecorder.Capture

open Corpus BufferedState

variable {X : Platform} {finishLast : Bool} {b c : BufferedState} {a : BufferedAction}

/-- The call of the corpus writer that an action makes, with the time of a commit. -/
def BufferedState.writerCall (b : BufferedState) (now : UInt64) : BufferedAction → Option WriterCall
  | .producer _ =>
    match b.producer with
    | .draining _ =>
      if b.ring.read < b.ring.written then some (b.ring.item b.ring.read).call else none
    | _ => none
  | .worker _ _ =>
    match b.worker with
    | .consuming => some (b.ring.item b.ring.read).call
    | .mailbox => if b.referencePending then some (.setReferencePayload b.referencePayload) else none
    | .committing _ => some (.publishCut now)
    | _ => none
  | _ => none

/-- What the corpus writer returns in an action that calls it. -/
def BufferedAction.result : BufferedAction → Status
  | .producer result | .worker result _ => result
  | _ => .ok

/-- The buffered writer and the corpus writer. -/
structure PipelineState where
  buffered : BufferedState
  writer : WriterState

/-- One action, with its time and the outcomes of its directory operations. It is possible if the
corpus writer returns what the action says. -/
def PipelineState.step (X : Platform) (finishLast : Bool) (s : PipelineState) :
    BufferedAction × UInt64 × List (Option ℕ) → Option PipelineState
  | (a, now, faults) =>
    match s.buffered.writerCall now a with
    | none => (s.buffered.step finishLast a).map ({ s with buffered := · })
    | some call =>
      let result := execWith X s.writer call faults
      if a.result = result.1 then (s.buffered.step finishLast a).map (⟨·, result.2⟩) else none

/-! ## The queue -/

theorem capacity_step (h : b.step finishLast a = some c) : c.ring.capacity = b.ring.capacity := by
  cases a <;> grind [step, producerStep, workerStep,
    consume, SlotRing.store, SlotRing.publish, SlotRing.advance]

/-- In every interleaving of the threads the queue has at most as many items as it has slots, and the
slot of each of them still has it. -/
theorem queued_items_kept (finishLast : Bool) (capacity : ℕ) (slots : ℕ → Item)
    (actions : List BufferedAction) {s : BufferedState}
    (h : Machine.run (BufferedState.step finishLast) (.started capacity slots) actions = some s) :
    s.accepted.length ≤ s.ring.read + capacity ∧
      ∀ i item, s.ring.read ≤ i → s.accepted[i]? = some item →
        s.ring.slots (i % capacity) = item := by
  have hcapacity : s.ring.capacity = capacity :=
    Machine.run_invariant (P := fun s => s.ring.capacity = capacity)
      (fun _ _ _ hstep hs => (capacity_step hstep).trans hs) h rfl
  have hholds := (run_control_delivery h).2.holds
  refine ⟨?_, fun i item hread hi => ?_⟩
  · rw [← hholds.written_eq, ← hcapacity]
    exact hholds.written_le
  · rw [← hcapacity]
    exact hholds.slot_eq i item hread hi

/-- Two items are queued, and the worker does not run. -/
def twoQueued (first second : Item) : List BufferedAction :=
  .enqueue first :: List.replicate 4 (.producer .ok) ++
    .enqueue second :: List.replicate 4 (.producer .ok)

/-- Both items are in the queue, which is full, and the second is where it was stored. -/
theorem queued_items_kept_full :
    ∃ s, Machine.run (BufferedState.step false) (.started 2 fun _ => .progress {})
        (twoQueued (.progress { lossEpoch := 1 }) (.progress { lossEpoch := 2 })) = some s ∧
      s.ring.read = 0 ∧ s.accepted.length = 2 ∧ s.accepted.length ≤ s.ring.read + 2 ∧
      s.ring.slots 1 = .progress { lossEpoch := 2 } := by
  obtain ⟨hlength, hslots⟩ := queued_items_kept false 2 (fun _ => .progress {})
    (twoQueued (.progress { lossEpoch := 1 }) (.progress { lossEpoch := 2 })) rfl
  exact ⟨_, rfl, rfl, rfl, hlength, hslots 1 _ (by decide) rfl⟩

/-! ## The commit before the end -/

/-- A worker that ends without a failure has committed since the last item: at its last test of the
queue, with `stop_` seen, only items that are left can be uncommitted. -/
structure CommitsLast (b : BufferedState) : Prop where
  testing : b.worker = .emptyTest true → b.dirty = true → b.ring.read ≠ b.ring.written
  ended : b.worker = .ended → b.status = .ok → b.producer.retried = false → b.dirty = false

theorem commitsLast_step (h : b.step finishLast a = some c) (hb : CommitsLast b)
    (hc : Control b) : CommitsLast c := by
  have htesting := hb.testing
  have hended := hb.ended
  constructor
  · -- Once the worker has seen `stop_`, no item is published.
    have hstop := hc.stop_eq
    have hseen := hc.stopSeen
    have hfrozen := hc.frozen
    cases a <;> grind [step, producerStep, workerStep, consume, ProducerPc.stopped,
      ProducerPc.frozen, WorkerPc.stopSeen]
  · -- The worker ends after the test, or because a call has failed.
    have hfailing := hc.failing
    cases a <;> grind [step, producerStep, workerStep, ProducerPc.retried]

/-- What the threads know of each other and of the items. -/
structure Threads (b : BufferedState) : Prop where
  control : Control b
  delivery : Delivery b
  commitsLast : CommitsLast b

theorem threads_step (h : b.step finishLast a = some c) (hb : Threads b) : Threads c :=
  ⟨control_step h hb.control, delivery_step h hb.delivery hb.control,
    commitsLast_step h hb.commitsLast hb.control⟩

/-- An action notes the call that it makes for an item, and no other call takes a record. -/
theorem handed_step (h : b.step finishLast a = some c) (now : UInt64) :
    (c.handed = b.handed ∧ ∀ call ∈ b.writerCall now a, ∀ k, call.taken a.result k = []) ∨
      ∃ call, b.writerCall now a = some call ∧ c.handed = b.handed ++ [(call, a.result)] := by
  cases a <;> grind [step, producerStep, workerStep,
    consume, writerCall, BufferedAction.result, WriterCall.taken]

/-- No item was handed over since the last commit. -/
structure Committed (b : BufferedState) : Prop where
  retried : b.producer.retried = false
  worker : b.worker ≠ .consumed
  dirty : b.dirty = false

/-- Everything is committed after a commit, and after an action that hands nothing over. -/
theorem committed_step (h : b.step finishLast a = some c) (hc : Committed c) (now : UInt64) :
    (Committed b ∧ (b.writerCall now a = none ∨ a.result ≠ .ok)) ∨
      (b.writerCall now a = some (.publishCut now) ∧ a.result = .ok) := by
  obtain ⟨hretried, hworker, hdirty⟩ := hc
  cases a <;> grind [step, producerStep, workerStep, consume, writerCall, BufferedAction.result,
    ProducerPc.retried, Committed]

/-! ## The records -/

/-- The records of a shard that calls took. -/
def takenIn (handed : List (WriterCall × Status)) (k : ℕ) : List BinaryMarketRecord :=
  handed.flatMap fun entry => entry.1.taken entry.2 k

/-- The records of a shard among items. -/
def recordsOf (items : List Item) (k : ℕ) : List BinaryMarketRecord :=
  items.flatMap fun item => item.call.taken .ok k

theorem takenIn_eq (handed : List (WriterCall × Status)) (k : ℕ) :
    takenIn handed k = (consumed handed).flatMap fun call => call.taken .ok k := by
  induction handed with
  | nil => rfl
  | cons entry handed ih =>
    obtain ⟨call, status⟩ := entry
    rw [takenIn, List.flatMap_cons, ← takenIn, ih, consumed_cons]
    split
    · rename_i hok
      rw [hok, List.flatMap_cons]
    · rename_i hne
      rw [taken_of_ne hne, List.nil_append]

/-- The calls took the records of the items that the reader is past. -/
theorem takenIn_handed (h : Delivery b) :
    takenIn b.handed = recordsOf (b.accepted.take b.taken) := by
  funext k
  rw [takenIn_eq, h.consumed_eq, List.flatMap_map, recordsOf]

theorem takenIn_step (h : b.step finishLast a = some c) (now : UInt64) :
    takenIn c.handed = fun k => takenIn b.handed k ++
      (b.writerCall now a).elim [] fun call => call.taken a.result k := by
  funext k
  rcases handed_step h now with ⟨hsame, hnone⟩ | ⟨call, hcall, hmore⟩
  · rw [hsame]
    cases hcall : b.writerCall now a with
    | none => exact (List.append_nil _).symm
    | some call => exact (congrArg _ (hnone call hcall k)).trans (List.append_nil _) |>.symm
  · rw [hmore, hcall, takenIn, List.flatMap_append, ← takenIn, List.flatMap_singleton]
    rfl

/-- The invariant: the corpus writer has what the calls took, and so does its latest cut if everything
is committed. -/
structure Piped (X : Platform) (shardCount : ℕ) (s : PipelineState) : Prop
    extends Threads s.buffered where
  prepaid : Prepaid X s.writer
  count : s.writer.shardCount = shardCount
  log : BlockLog X s.writer (takenIn s.buffered.handed)
  cut : Committed s.buffered → ∃ cut, s.writer.publication.latest = some cut ∧
    CutOf X cut shardCount (takenIn s.buffered.handed)

section Step

variable {shardCount : ℕ} {s t : PipelineState} {now : UInt64}

/-- An action without a call of the corpus writer. -/
theorem Piped.silent (hs : Piped X shardCount s) (hc : s.buffered.step finishLast a = some c)
    (hnone : s.buffered.writerCall now a = none) : Piped X shardCount { s with buffered := c } := by
  have htaken : takenIn c.handed = takenIn s.buffered.handed := by
    rw [takenIn_step hc now, hnone]
    exact funext fun k => List.append_nil _
  refine ⟨threads_step hc hs.toThreads, hs.prepaid, hs.count, htaken ▸ hs.log,
    fun hcommitted => ?_⟩
  rcases committed_step hc hcommitted now with ⟨hb, -⟩ | ⟨hcall, -⟩
  · rw [htaken]
    exact hs.cut hb
  · cases hnone.symm.trans hcall

/-- An action that calls the corpus writer. -/
theorem Piped.call {call : WriterCall} {faults : List (Option ℕ)} (hs : Piped X shardCount s)
    (hc : s.buffered.step finishLast a = some c) (hcall : s.buffered.writerCall now a = some call)
    (hresult : a.result = (execWith X s.writer call faults).1) :
    Piped X shardCount ⟨c, (execWith X s.writer call faults).2⟩ := by
  have hlogged := hs.log.logged hs.prepaid call faults
  have htaken : takenIn c.handed = fun k => takenIn s.buffered.handed k ++
      call.taken (execWith X s.writer call faults).1 k := by
    rw [takenIn_step hc now, hcall, hresult]
    rfl
  refine ⟨threads_step hc hs.toThreads, hs.prepaid.execWith call faults,
    (shardCount_congr hlogged.config).trans hs.count, htaken ▸ hlogged.log, fun hcommitted => ?_⟩
  rcases committed_step hc hcommitted now with ⟨hb, hnone | hne⟩ | ⟨hpublish, hok⟩
  · cases hnone.symm.trans hcall
  · -- A call that fails takes no record, so the cut of before has them all, or a new one has.
    rcases hlogged.cut with hsame | ⟨cut, hcut, hrecords⟩
    · obtain ⟨cut, hcut, hrecords⟩ := hs.cut hb
      refine ⟨cut, hsame.trans hcut, ?_⟩
      simpa only [htaken, taken_of_ne (hresult ▸ hne), List.append_nil] using hrecords
    · exact ⟨cut, hcut, hs.count ▸ htaken ▸ hrecords⟩
  · obtain rfl : call = .publishCut now := Option.some.inj (hcall.symm.trans hpublish)
    obtain ⟨cut, hcut, hrecords⟩ := hs.log.published (hresult.symm.trans hok)
    refine ⟨cut, hcut, hs.count ▸ ?_⟩
    simpa only [htaken, WriterCall.taken, List.append_nil] using hrecords

theorem piped_step {action : BufferedAction × UInt64 × List (Option ℕ)}
    (h : s.step X finishLast action = some t) (hs : Piped X shardCount s) :
    Piped X shardCount t := by
  unfold PipelineState.step at h
  dsimp only at h
  split at h
  · rename_i hnone
    obtain ⟨c, hc, rfl⟩ := Option.map_eq_some_iff.mp h
    exact hs.silent hc hnone
  · rename_i call hcall
    split at h
    · rename_i hresult
      obtain ⟨c, hc, rfl⟩ := Option.map_eq_some_iff.mp h
      exact hs.call hc hcall hresult
    · cases h

end Step

/-- In every interleaving of the threads, whatever directory operations fail, the corpus writer has
the records of the first items accepted, and when `finish` has returned `Ok` its latest cut has the
records of all of them. -/
theorem finished_records_published {config : BinaryMarketWriterConfig} {root : RootEntry}
    {faults : List (Option ℕ)} {writer : WriterState}
    (hstart : start X config root faults = (.ok, some writer)) (finishLast : Bool) (capacity : ℕ)
    (slots : ℕ → Item) (actions : List (BufferedAction × UInt64 × List (Option ℕ)))
    {s : PipelineState} (hrun : Machine.run (PipelineState.step X finishLast)
      ⟨.started capacity slots, writer⟩ actions = some s) :
    BlockLog X s.writer (recordsOf (s.buffered.accepted.take s.buffered.taken)) ∧
      (s.buffered.producer = .finished .ok → ∃ cut, s.writer.publication.latest = some cut ∧
        CutOf X cut writer.shardCount (recordsOf s.buffered.accepted)) := by
  have hbegin : Piped X writer.shardCount ⟨.started capacity slots, writer⟩ :=
    ⟨⟨control_started .., delivery_started .., ⟨WorkerPc.noConfusion, WorkerPc.noConfusion⟩⟩,
      prepaid_start hstart, rfl, blockLog_start hstart, fun h => Bool.noConfusion h.dirty⟩
  have hend := Machine.run_invariant (P := Piped X writer.shardCount)
    (fun _ _ _ hstep hs => piped_step hstep hs) hrun hbegin
  have hrecords := takenIn_handed hend.delivery
  refine ⟨hrecords ▸ hend.log, fun hfinished => ?_⟩
  have hended := hend.control.frozen (by rw [hfinished]; rfl)
  have hok := hend.control.finished .ok hfinished
  have hretried : s.buffered.producer.retried = false := by rw [hfinished]; rfl
  have htaken : s.buffered.taken = s.buffered.accepted.length := by
    rw [taken, hended, hfinished, ← hend.delivery.holds.written_eq]
    exact (hend.control.ended hended hok).2
  rw [htaken, List.take_length] at hrecords
  rw [← hrecords]
  exact hend.cut ⟨hretried, hended ▸ WorkerPc.noConfusion, hend.commitsLast.ended hended hok hretried⟩

/-- What `finish` has returned. -/
def ProducerPc.result? : ProducerPc → Option Status
  | .finished status => some status
  | _ => none

/-- A record is queued, and `finish` waits for the worker. -/
def recordThenFinish : List (BufferedAction × UInt64 × List (Option ℕ)) :=
  let actions : List BufferedAction := .enqueue (.record (smallRecord 10 10 1 0)) ::
    List.replicate 4 (.producer .ok) ++ .finish :: List.replicate 8 (.worker .ok false) ++
    [.producer .ok]
  actions.map fun a => (a, 1, [])

theorem finished_records_published_one :
    ∃ s cut, Machine.run (PipelineState.step .stored true)
        ⟨.started 1 fun _ => .progress {}, smallStart⟩ recordThenFinish = some s ∧
      s.writer.publication.latest = some cut ∧ s.buffered.accepted.length = 1 ∧
      CutOf .stored cut smallStart.shardCount (recordsOf s.buffered.accepted) := by
  have hrun : (Machine.run (PipelineState.step .stored true)
      ⟨.started 1 fun _ => .progress {}, smallStart⟩ recordThenFinish).map
        (fun s => (s.buffered.producer.result?, s.buffered.accepted.length)) =
      some (some .ok, 1) := by
    decide +kernel
  obtain ⟨s, hs, hend⟩ := Option.map_eq_some_iff.mp hrun
  obtain ⟨hresult, hlength⟩ := Prod.mk.inj hend
  have hfinished : s.buffered.producer = .finished .ok := by
    cases hpc : s.buffered.producer <;> rw [hpc] at hresult <;> cases hresult
    rfl
  obtain ⟨cut, hcut, hrecords⟩ := (finished_records_published start_smallConfig true 1
    (fun _ => .progress {}) recordThenFinish hs).2 hfinished
  exact ⟨s, cut, hs, hcut, hlength, hrecords⟩

end HftRecorder.Capture
