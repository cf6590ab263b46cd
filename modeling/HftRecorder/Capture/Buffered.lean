import HftRecorder.Lib.Machine
import HftRecorder.Lib.SlotRing
import HftRecorder.Writer.Run

/-!
# The buffered corpus writer

`BufferedCorpusWriter.cpp`: a queue with one producer between the capture thread and the corpus
writer, a worker thread that empties it, and a mailbox for the reference payload. The three threads
are program counters, and an action is one atomic operation of one of them: a load or a store of a
shared variable, a section under the mailbox's lock, or a call of the corpus writer. What the corpus
writer returns, whether a commit is due, and whether memory for a payload can be had are part of the
action. The lists at the end of `BufferedState` are not in the code: they record what was accepted
and what was handed to the writer.
-/

namespace HftRecorder.Capture

open ByteLayout Corpus

/-- `BufferedCorpusWriter::Item`, with its kind. -/
inductive Item
  | record (record : BinaryMarketRecord)
  | source (source : BinaryMarketSource)
  | progress (progress : CorpusProducerProgress)
  | gap (gap : BinaryMarketGap)

/-- The call of the corpus writer that `consume` makes for an item. -/
def Item.call : Item → WriterCall
  | .record r => .append r
  | .source s => .registerSources [s]
  | .progress p => .updateProgress p
  | .gap g => .appendGap g

/-- Where the producer is: between calls, in `enqueue` after one of its loads or stores, in `finish`,
after it, or in `drainFrozen`. -/
inductive ProducerPc
  | idle
  /-- `status_` was `Ok`. -/
  | statusLoaded (item : Item)
  /-- `stop_` was not set. -/
  | stopLoaded (item : Item)
  /-- There was room. -/
  | readLoaded (item : Item)
  /-- The item is in its slot. -/
  | stored (item : Item)
  /-- `finish` has set `stop_` and waits for the worker. -/
  | joining
  /-- `finish` has returned. -/
  | finished (status : Status)
  /-- `drainFrozen` is before an item. -/
  | draining (status : Status)
  /-- `drainFrozen` has consumed an item and not yet stored `read_`. -/
  | frozenConsumed (status : Status)
  /-- `drainFrozen` has returned, after a `finish` that returned `status`. -/
  | drained (status result : Status)

/-- Where the worker is in the loop of `run`. The argument `stop` is the value that it loaded from
`stop_`. -/
inductive WorkerPc
  | top
  | consuming
  /-- The writer took the item, and `read_` is not yet stored. -/
  | consumed
  /-- A call of the writer failed, and `status_` is not yet stored. -/
  | failing (status : Status)
  | mailbox
  | loadStop
  | commitTest (stop : Bool)
  | committing (stop : Bool)
  | emptyTest (stop : Bool)
  | ended

/-- Where the reference thread is: between calls, or past the tests of `appendReferencePayload`. -/
inductive ReferencePc
  | idle
  | tested (payload : Bytes)
  deriving DecidableEq

/-- The members of `BufferedCorpusWriter` and the threads that use them. -/
structure BufferedState where
  /-- `capacity_`, `records_`, `written_`, and `read_`. -/
  ring : SlotRing Item
  status : Status := .ok
  stop : Bool := false
  referencePayload : Bytes := []
  referencePending : Bool := false
  producer : ProducerPc := .idle
  worker : WorkerPc := .top
  dirty : Bool := true
  reference : ReferencePc := .idle
  /-- The items that `enqueue` returned `Ok` for. -/
  accepted : List Item := []
  /-- The calls of the corpus writer for items, with what they returned. -/
  handed : List (WriterCall × Status) := []
  /-- The payloads that `appendReferencePayload` returned `Ok` for. -/
  references : List Bytes := []
  /-- The calls of `setReferencePayload`: how many payloads were accepted by then, the payload, and
  what the call returned. -/
  passed : List (ℕ × Bytes × Status) := []

/-- What happens next. -/
inductive BufferedAction
  /-- The producer calls `append`, `appendSource`, `appendProgress`, or `appendGap`. -/
  | enqueue (item : Item)
  | finish
  | drainFrozen
  /-- The producer goes on, and the writer returns `result` if it is called. -/
  | producer (result : Status)
  /-- The worker goes on, the writer returns `result` if it is called, and `due` says whether the
  time for a commit has come. -/
  | worker (result : Status) (due : Bool)
  /-- The reference thread calls `appendReferencePayload`. -/
  | appendReference (payload : Bytes)
  /-- It goes on, and `allocated` says whether the payload can be copied. -/
  | reference (allocated : Bool)

namespace BufferedState

/-- `consume`: hand the item at the reader's position to the writer, which returns `result`. -/
def consume (s : BufferedState) (result : Status) : BufferedState :=
  { s with handed := s.handed ++ [((s.ring.item s.ring.read).call, result)] }

def producerStep (s : BufferedState) (result : Status) : Option BufferedState :=
  match s.producer with
  | .idle | .finished _ | .drained _ _ => none
  | .statusLoaded item =>
    some { s with producer := if s.stop then .idle else .stopLoaded item }
  | .stopLoaded item =>
    some { s with producer :=
      if !s.ring.hasRoom ∨ s.ring.written = maximumUInt64 then .idle else .readLoaded item }
  | .readLoaded item => some { s with ring := s.ring.store item, producer := .stored item }
  | .stored item =>
    some { s with
      ring := s.ring.publish
      producer := .idle
      accepted := s.accepted ++ [item] }
  | .joining =>
    match s.worker with
    | .ended => some { s with producer := .finished s.status }
    | _ => none
  | .draining status =>
    if s.ring.read < s.ring.written then
      let s := s.consume result
      some { s with producer := if result = .ok then .frozenConsumed status else .drained status result }
    else some { s with status := .ok, producer := .drained status .ok }
  | .frozenConsumed status => some { s with ring := s.ring.advance, producer := .draining status }

/-- The next operation of the worker, whose local `read` is always what it last stored in `read_`. -/
def workerStep (s : BufferedState) (result : Status) (due : Bool) : Option BufferedState :=
  match s.worker with
  | .top =>
    some { s with worker := if s.ring.read < s.ring.written then .consuming else .mailbox }
  | .consuming =>
    let s := s.consume result
    some { s with worker := if result = .ok then .consumed else .failing result }
  | .consumed => some { s with ring := s.ring.advance, dirty := true, worker := .mailbox }
  | .failing status => some { s with status, worker := .ended }
  | .mailbox =>
    if s.referencePending then
      let s := { s with
        passed := s.passed ++ [(s.references.length, s.referencePayload, result)] }
      some (if result = .ok then { s with referencePending := false, dirty := true, worker := .loadStop }
        else { s with worker := .failing result })
    else some { s with worker := .loadStop }
  | .loadStop => some { s with worker := .commitTest s.stop }
  | .commitTest stop =>
    some { s with worker :=
      if s.dirty && (due || (stop && s.ring.read = s.ring.written)) then .committing stop
      else .emptyTest stop }
  | .committing stop =>
    some (if result = .ok then { s with dirty := false, worker := .emptyTest stop }
      else { s with worker := .failing result })
  | .emptyTest stop =>
    some { s with worker := if stop && s.ring.read = s.ring.written then .ended else .top }
  | .ended => none

/-- One action. `finishLast` says that `finish` is called only while no call of
`appendReferencePayload` is under way. -/
def step (finishLast : Bool) (s : BufferedState) : BufferedAction → Option BufferedState
  | .enqueue item =>
    match s.producer with
    | .idle => some { s with producer := if s.status = .ok then .statusLoaded item else .idle }
    | _ => none
  | .finish =>
    match s.producer with
    | .idle =>
      if finishLast && s.reference ≠ .idle then none
      else some { s with stop := true, producer := .joining }
    | _ => none
  | .drainFrozen =>
    match s.producer with
    | .finished status | .drained status _ =>
      some { s with producer :=
        if s.status ≠ .ok ∧ s.status ≠ .outOfRange then .drained status s.status
        else .draining status }
    | _ => none
  | .producer result => s.producerStep result
  | .worker result due => s.workerStep result due
  | .appendReference payload =>
    match s.reference with
    | .idle =>
      some { s with reference :=
        if payload.length > 128 * 1024 * 1024 ∨ s.ring.capacity = 0 ∨ s.stop then .idle
        else .tested payload }
    | .tested _ => none
  | .reference allocated =>
    match s.reference with
    | .idle => none
    | .tested payload =>
      some (if allocated then
          { s with
            reference := .idle
            referencePayload := payload
            referencePending := true
            references := s.references ++ [payload] }
        else { s with reference := .idle })

/-- The state after a successful `start` with the given capacity. -/
def started (capacity : ℕ) (slots : ℕ → Item) : BufferedState := { ring := { capacity, slots } }

end BufferedState

end HftRecorder.Capture
