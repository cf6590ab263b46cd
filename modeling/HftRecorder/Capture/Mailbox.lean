import HftRecorder.Capture.ExactlyOnce
import Mathlib.Data.List.Induction

/-!
# The reference mailbox

A reference payload does not go through the queue: `appendReferencePayload` leaves it in a mailbox
that the worker looks into once in each turn of its loop. `Mailbox` says what the mailbox has gone
through: when it is empty, the last payload was written. So a payload is written exactly if the worker
comes to the mailbox once more after it was accepted (`LooksAfterLast`), and the writer takes it then.
Nothing looks into the mailbox after the worker has ended, `drainFrozen` included, and the payload that
the worker leaves behind is lost. The worker leaves one behind when it ends with a failure, and also
when the payload comes between its look into the mailbox and its look at `stop_`.
-/

namespace HftRecorder.Capture

open ByteLayout Corpus BufferedState

variable {finishLast : Bool} {s t : BufferedState}

/-! ## The mailbox in a run -/

/-- What the mailbox has gone through. -/
structure Mailbox (s : BufferedState) : Prop where
  full : s.referencePending = true → s.references.getLast? = some s.referencePayload
  empty : s.referencePending = false → ∀ payload, s.references.getLast? = some payload →
    (s.references.length, payload, Status.ok) ∈ s.passed
  passed_le : ∀ entry ∈ s.passed, entry.1 ≤ s.references.length

theorem mailbox_started (capacity : ℕ) (slots : ℕ → Item) : Mailbox (.started capacity slots) := by
  constructor <;> simp [started]

/-- The worker writes the payload of a full mailbox, and empties it if the writer takes it. -/
theorem mailbox_workerStep {result : Status} {due : Bool} (h : s.workerStep result due = some t)
    (hs : Mailbox s) : Mailbox t := by
  obtain ⟨hfull, hempty, hle⟩ := hs
  constructor <;> grind [workerStep, consume]

variable {a : BufferedAction}

/-- The other threads write nothing, and a new payload is one that nothing in the past of the run was
written for. -/
theorem mailbox_step (h : s.step finishLast a = some t) (hs : Mailbox s) : Mailbox t := by
  cases a with
  | worker result due => exact mailbox_workerStep h hs
  | enqueue | finish | drainFrozen | appendReference | reference | producer =>
    obtain ⟨hfull, hempty, hle⟩ := hs
    constructor <;> grind [step, producerStep, consume]

variable {session : List BufferedAction}

theorem mailbox_run {capacity : ℕ} {slots : ℕ → Item}
    (h : Machine.run (step finishLast) (.started capacity slots) session = some t) : Mailbox t :=
  Machine.run_invariant (fun _ _ _ hstep hs => mailbox_step hstep hs) h
    (mailbox_started capacity slots)

/-! ## The last turn at the mailbox -/

/-- The session has a turn of the worker at the mailbox, in which the writer returns `Ok` if it is
called, and after which no payload is accepted: `references` are those of the whole session. -/
def LooksAfterLast (start : BufferedState) (session : List BufferedAction)
    (references : List Bytes) : Prop :=
  ∃ before due after u, session = before ++ .worker .ok due :: after ∧
    Machine.run (step true) start before = some u ∧
    u.worker = .mailbox ∧ u.references = references

/-- If the last payload is written after an action, then no payload came with the action, and it was
written before it or in it. -/
theorem written_step (h : s.step finishLast a = some t) (hs : Mailbox s) {payload : Bytes}
    (hwritten : (t.references.length, payload, Status.ok) ∈ t.passed) :
    t.references = s.references ∧ ((s.references.length, payload, Status.ok) ∈ s.passed ∨
      s.worker = .mailbox ∧ ∃ due, a = .worker .ok due) := by
  have hle := hs.passed_le
  cases a <;> grind [step, producerStep, workerStep, consume]

theorem looksAfterLast_of_written {capacity : ℕ} {slots : ℕ → Item} {payload : Bytes}
    (h : Machine.run (step true) (.started capacity slots) session = some t)
    (hwritten : (t.references.length, payload, Status.ok) ∈ t.passed) :
    LooksAfterLast (.started capacity slots) session t.references := by
  -- From the end of the session back to the turn.
  induction session using List.reverseRecOn generalizing t with
  | nil =>
    cases h
    cases hwritten
  | append_singleton session a ih =>
    rw [Machine.run_append, Option.bind_eq_some_iff] at h
    obtain ⟨s, hs, hstep⟩ := h
    rw [Machine.run_singleton] at hstep
    obtain ⟨hreferences, hbefore | ⟨hmailbox, due, rfl⟩⟩ :=
      written_step hstep (mailbox_run hs) hwritten
    · obtain ⟨before, due, after, u, rfl, hu, hworker, hsame⟩ := ih hs hbefore
      exact ⟨before, due, after ++ [a], u, List.append_assoc .., hu, hworker,
        hsame.trans hreferences.symm⟩
    · exact ⟨session, due, [], s, rfl, hs, hmailbox, hreferences.symm⟩

/-- The mailbox is filled only with a payload that is accepted. -/
theorem pending_step (h : s.step finishLast a = some t) :
    s.references.length ≤ t.references.length ∧ (t.references.length = s.references.length →
      s.referencePending = false → t.referencePending = false) := by
  cases a <;> grind [step, producerStep, workerStep, consume]

theorem emptied_of_looksAfterLast {start : BufferedState}
    (h : Machine.run (step true) start session = some t)
    (hlook : LooksAfterLast start session t.references) : t.referencePending = false := by
  obtain ⟨before, due, after, u, rfl, hu, hworker, hreferences⟩ := hlook
  rw [Machine.run_append, hu, Option.bind_some, Machine.run] at h
  split at h
  · cases h
  · rename_i v hv
    have hturn : v.referencePending = false ∧ v.references = u.references := by
      grind [step, workerStep]
    obtain ⟨-, hle, hkept⟩ := Machine.run_relation (P := fun _ => True)
      (R := fun s t => s.references.length ≤ t.references.length ∧
        (t.references.length = s.references.length →
          s.referencePending = false → t.referencePending = false))
      (fun _ => ⟨le_rfl, fun _ h => h⟩) (fun _ _ _ h h' => by grind)
      (fun _ _ _ hstep _ => ⟨trivial, pending_step hstep⟩) h trivial
    exact hkept (by rw [hturn.2, hreferences]) hturn.1

/-! ## After the worker has ended -/

/-- With `finish` called last, no call of `appendReferencePayload` is under way after it. -/
theorem reference_idle_step (h : s.step true a = some t) (hc : Control s)
    (hs : s.producer.stopped = true → s.reference = .idle) :
    t.producer.stopped = true → t.reference = .idle := by
  have hstop := hc.stop_eq
  cases a <;> grind [step, producerStep, workerStep, consume, ProducerPc.stopped]

/-- What holds from the return of `finish` on. -/
structure Frozen (s : BufferedState) : Prop where
  control : Control s
  producer_frozen : s.producer.frozen = true
  reference_idle : s.reference = .idle

/-- From the return of `finish` on no payload is accepted and none is written. -/
theorem frozen_step (h : s.step true a = some t) (hs : Frozen s) :
    Frozen t ∧ t.references = s.references ∧ t.passed = s.passed := by
  obtain ⟨hc, hfrozen, hidle⟩ := hs
  have hended := hc.frozen hfrozen
  have hstop : s.stop = true := hc.stop_eq.trans (ProducerPc.stopped_of_frozen hfrozen)
  refine ⟨⟨control_step h hc, ?_, ?_⟩, ?_⟩ <;>
    cases a <;> grind [step, producerStep, workerStep, consume, ProducerPc.frozen]

/-- In every interleaving in which all calls of `appendReferencePayload` return before `finish` is
called, and whatever the corpus writer returns: at any time after `finish` has returned, so also when
`drainFrozen` returns `Ok`, the last payload accepted was written with result `Ok` exactly when the
session had a turn of the worker at the mailbox, with result `Ok`, after it was accepted. -/
theorem last_reference_written_iff (capacity : ℕ) (slots : ℕ → Item)
    (session shutdown : List BufferedAction) (t s : BufferedState) (status : Status)
    (payload : Bytes)
    (ht : Machine.run (BufferedState.step true) (.started capacity slots) session = some t)
    (hfinished : t.producer = .finished status)
    (hs : Machine.run (BufferedState.step true) t shutdown = some s)
    (hlast : s.references.getLast? = some payload) :
    (s.references.length, payload, Status.ok) ∈ s.passed ↔
      LooksAfterLast (.started capacity slots) session s.references := by
  obtain ⟨hc, hidle⟩ := Machine.run_invariant
    (P := fun s => Control s ∧ (s.producer.stopped = true → s.reference = .idle))
    (fun _ _ _ hstep hs => ⟨control_step hstep hs.1, reference_idle_step hstep hs.1 hs.2⟩) ht
    ⟨control_started capacity slots, fun _ => rfl⟩
  have hfrozen : Frozen t :=
    ⟨hc, by rw [hfinished]; rfl, hidle (by rw [hfinished]; rfl)⟩
  obtain ⟨-, hreferences, hpassed⟩ := Machine.run_relation (P := Frozen)
    (R := fun s t => t.references = s.references ∧ t.passed = s.passed) (fun _ => ⟨rfl, rfl⟩)
    (fun _ _ _ h h' => ⟨h'.1.trans h.1, h'.2.trans h.2⟩)
    (fun _ _ _ hstep hs => frozen_step hstep hs) hs hfrozen
  rw [hreferences] at hlast
  rw [hreferences, hpassed]
  exact ⟨looksAfterLast_of_written ht,
    fun hlook => (mailbox_run ht).empty (emptied_of_looksAfterLast ht hlook) payload hlast⟩

/-- A session in which a payload comes after the worker has looked into the mailbox, and `finish` is
called before it looks at `stop_`. -/
def lateReference : List BufferedAction :=
  [.worker .ok false, .worker .ok false, .appendReference [1], .reference true, .finish] ++
    List.replicate 4 (.worker .ok false) ++ [.producer .ok]

/-- The payload of such a session is lost: `finish` and `drainFrozen` return `Ok`, and the corpus
writer was never called with it. -/
theorem late_reference_lost :
    ∃ t s, Machine.run (BufferedState.step true) (.started 1 fun _ => .progress {}) lateReference =
        some t ∧
      t.producer = .finished .ok ∧
      Machine.run (BufferedState.step true) t [.drainFrozen, .producer .ok] = some s ∧
      s.producer = .drained .ok .ok ∧
      s.references = [[1]] ∧ s.passed = [] :=
  ⟨_, _, rfl, rfl, rfl, rfl, rfl, rfl⟩

/-- A session in which the writer takes the payload in the worker's first turn at the mailbox. -/
def timelyReference : List BufferedAction :=
  [.appendReference [1], .reference true] ++ List.replicate 3 (.worker .ok false) ++ [.finish] ++
    List.replicate 8 (.worker .ok false) ++ [.producer .ok]

/-- The payload of such a session is written. -/
theorem last_reference_written_timely :
    ∃ t s, Machine.run (BufferedState.step true) (.started 1 fun _ => .progress {}) timelyReference =
        some t ∧
      Machine.run (BufferedState.step true) t [.drainFrozen, .producer .ok] = some s ∧
      s.producer = .drained .ok .ok ∧ s.references = [[1]] ∧ (1, [1], Status.ok) ∈ s.passed := by
  refine ⟨_, _, rfl, rfl, rfl, rfl, ?_⟩
  refine (last_reference_written_iff 1 (fun _ => .progress {}) timelyReference
    [.drainFrozen, .producer .ok] _ _ .ok [1] rfl rfl rfl rfl).mpr ?_
  exact ⟨[.appendReference [1], .reference true, .worker .ok false], false, _, _, rfl, rfl, rfl, rfl⟩

end HftRecorder.Capture
