import HftRecorder.Capture.RingDrain
import HftRecorder.Writer.ShardHistory

/-!
# A client whose sinks are a writer

`drain` and `appendFrozenLosses` give `drainTo` and `publishProgressTo` a `BinaryMarketCorpusWriter`
for their sinks: each source, record, gap, and progress goes to the writer's own call, and the sink
returns what that returns. A `RecorderState` is the client with such a writer: where the client calls
a sink, its step is a call of the writer, with the outcomes that the writer's directory operations
meet. Between the client's calls the writer publishes cuts and takes reference payloads.

The second part says what is assumed of the producer. `cellHolds` relates a progress cell to the
records published in its shard, `cellAdvances` and `producerAdvances` say that the producer's counters
never go back, and `lawful` that this is so in every state of a run.
-/

namespace HftRecorder.Capture

open ByteLayout Corpus

variable {π σ : Type}

/-! ## The sinks -/

/-- The next call of a sink, if the client is about to call one, and what it returns. -/
def ClientState.nextCall (P : ParserProtocol π σ) (s : ClientState π σ) (result : Status) :
    Option (SinkCall π σ) :=
  match s.pc with
  | .draining call .registering =>
    match s.sources[s.registeredSourceCount]? with
    | none => none
    | some descriptor =>
      if call.sinks.source then
        some (.source ((P.convertSource descriptor).withInitiallyPresent 0) result)
      else none
  | .draining _ (.handing _ shard record output) =>
    some (.record (s.handed shard record output) result)
  | .publishing _ (.gaps _ (gap :: _)) => some (.gap gap result)
  | .publishing _ (.forward progress) => some (.progress progress result)
  | _ => none

/-- The call of the writer that a sink makes. -/
def SinkCall.writerCall : SinkCall π σ → WriterCall
  | .source entry _ => .registerSources [entry]
  | .record handed _ => .append handed.output
  | .gap loss _ => .appendGap loss
  | .progress value _ => .updateProgress value

def SinkCall.withResult (status : Status) : SinkCall π σ → SinkCall π σ
  | .source entry _ => .source entry status
  | .record handed _ => .record handed status
  | .gap loss _ => .gap loss status
  | .progress value _ => .progress value status

/-! ## The two together -/

/-- The client, and the writer of its sinks. -/
structure RecorderState (π σ : Type) where
  client : ClientState π σ
  writer : WriterState

/-- A call of the writer between the client's calls. -/
inductive UpkeepCall
  | setReferencePayload (payload : Bytes)
  | publishCut (now : UInt64)
  | beginFinalDrain

def UpkeepCall.writerCall : UpkeepCall → WriterCall
  | .setReferencePayload payload => .setReferencePayload payload
  | .publishCut now => .publishCut now
  | .beginFinalDrain => .beginFinalDrain

/-- What happens next. The outcomes are those of the directory operations, if the writer is called. -/
inductive RecorderAction (π σ : Type)
  /-- An action of the client or of the producer. -/
  | client (action : ClientAction π σ) (faults : List (Option ℕ))
  | upkeep (call : UpkeepCall) (faults : List (Option ℕ))

namespace RecorderState

/-- The client goes on, with the writer as its sinks. -/
def clientStep (P : ParserProtocol π σ) (L : LossProtocol) (X : Platform) (A : ArenaShape)
    (s : RecorderState π σ) (input : ClientInput) (faults : List (Option ℕ)) :
    Option (RecorderState π σ) :=
  match s.client.nextCall P .ok with
  | none => (s.client.clientStep P L X A input).map fun client => { s with client }
  | some call =>
    let result := execWith X s.writer call.writerCall faults
    (s.client.clientStep P L X A { input with result := result.1 }).map fun client =>
      { client, writer := result.2 }

def step (P : ParserProtocol π σ) (L : LossProtocol) (X : Platform) (A : ArenaShape)
    (s : RecorderState π σ) : RecorderAction π σ → Option (RecorderState π σ)
  | .client (.client input) faults => s.clientStep P L X A input faults
  | .client action _ => (s.client.step P L X A action).map fun client => { s with client }
  | .upkeep call faults =>
    match s.client.pc with
    | .idle => some { s with writer := (execWith X s.writer call.writerCall faults).2 }
    | _ => none

end RecorderState

/-! ## What is assumed of the producer -/

/-- The corpus record of a record is part of a depth transaction and does not end it. -/
def ParserProtocol.leavesOpen (P : ParserProtocol π σ) (r : MarketCaptureRecord π) : Bool :=
  P.outputChannel r = .depth && P.outputFlags r &&& recordDepthTransactionEnd = 0

/-- A progress cell is right about the records published in its shard: it counts some of them, none of
the later ones arrived before its time, its sequence is that of the last one counted, and this one
does not leave a depth transaction open. -/
def cellHolds (P : ParserProtocol π σ) (published : List (MarketCaptureRecord π))
    (cell : MarketCaptureShardProgress) : Bool :=
  cell.completedWrite ≤ published.length &&
    (published.drop cell.completedWrite).all
      (fun r => cell.receiveMonotonicNs ≤ r.receiveMonotonicNs) &&
    match (published.take cell.completedWrite).getLast? with
    | none => cell.completedShardSequence = 0
    | some r => cell.completedShardSequence = r.shardSequence && !P.leavesOpen r

end HftRecorder.Capture
