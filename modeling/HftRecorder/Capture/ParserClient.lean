import HftRecorder.Lib.Machine
import HftRecorder.Lib.SlotRing
import HftRecorder.Capture.CorpusConversion
import HftRecorder.Writer.State

/-!
# The parser capture client

`ParserMarketCaptureClient.cpp`: the recorder's side of the parser's shared memory. The memory has a
directory of sources, for each shard a ring of records and a cell with the producer's progress, and a
ledger of losses. The client is a program counter for each of `loadSourceDirectory`, `drainTo`, and
`publishProgressTo`, and an action is one load or store of the shared memory by the client, or one
call of a sink, or one store by the producer. What a sink returns, the readings of the clocks, and
whether memory can be had are part of the action. The protocol's own readings of a progress cell and
of a loss cell are single actions, since they are coherent. The metadata that `loadSourceDirectory`
prepares for instruments is not used here and is left out.

The producer writes the directory, the cells, and the ledger as it likes; into a ring it stores a
record only where there is room, and then publishes it. The lists at the end of `ClientState` are not
in the code: they record what was published and what the sinks were called with.
-/

namespace HftRecorder.Capture

open ByteLayout Corpus

/-! ## The shared memory -/

/-- `MarketCaptureShardProgress`. -/
structure MarketCaptureShardProgress where
  completedWrite : ℕ
  completedShardSequence : UInt64
  receiveMonotonicNs : UInt64
  lossEpoch : UInt64
  directoryRevision : UInt64

/-- `MarketCaptureLossCell`, as `readMarketCaptureLossCell` reads it. -/
structure MarketCaptureLossCell where
  gapEpoch : UInt64
  droppedRecords : UInt64
  lastSourceGeneration : UInt64
  lastShardIndex : UInt64
  firstDroppedEventSequence : UInt64
  lastDroppedEventSequence : UInt64
  minimumDroppedReceiveRealtimeNs : UInt64
  maximumDroppedReceiveRealtimeNs : UInt64
  flags : UInt32

/-- The constants of the loss ledger. -/
structure LossProtocol where
  channelCount : ℕ
  membershipIndex : ℕ
  lossArrivalUnavailable : UInt32
  knownLossFlags : UInt32

/-- The parts of the mapped arena that do not change. The ring's capacity is a power of two. -/
structure ArenaShape where
  producerEpoch : UInt64
  shardCount : UInt16
  directoryCapacity : ℕ
  ringBits : ℕ

/-- The parts that change. -/
structure CaptureArena (π σ : Type) where
  consumerEpoch : UInt64
  directoryGeneration : UInt64
  directoryCount : ℕ
  sourceDirectory : ℕ → σ
  rings : ℕ → SlotRing (MarketCaptureRecord π)
  progress : ℕ → MarketCaptureShardProgress
  lossSnapshotFlags : UInt32
  /-- The revision that `beginMarketCaptureLossSnapshot` reads. -/
  lossRevision : UInt64
  lossLedger : ℕ → MarketCaptureLossCell

/-- One store of the producer outside the rings. -/
inductive ArenaStore (σ : Type)
  | consumerEpoch (epoch : UInt64)
  | directoryGeneration (generation : UInt64)
  | directoryCount (count : ℕ)
  | sourceDirectory (index : ℕ) (source : σ)
  | progress (shard : ℕ) (value : MarketCaptureShardProgress)
  | lossSnapshotFlags (flags : UInt32)
  | lossRevision (revision : UInt64)
  | lossLedger (index : ℕ) (cell : MarketCaptureLossCell)

/-- The arena after a store of the producer. -/
def CaptureArena.store {π σ : Type} (a : CaptureArena π σ) : ArenaStore σ → CaptureArena π σ
  | .consumerEpoch consumerEpoch => { a with consumerEpoch }
  | .directoryGeneration directoryGeneration => { a with directoryGeneration }
  | .directoryCount directoryCount => { a with directoryCount }
  | .sourceDirectory index source =>
    { a with sourceDirectory := Function.update a.sourceDirectory index source }
  | .progress shard value => { a with progress := Function.update a.progress shard value }
  | .lossSnapshotFlags lossSnapshotFlags => { a with lossSnapshotFlags }
  | .lossRevision lossRevision => { a with lossRevision }
  | .lossLedger index cell => { a with lossLedger := Function.update a.lossLedger index cell }

/-- The record at a position of a ring: `records[position & (ringCapacity - 1)]`. -/
def ringRecord {π : Type} (ring : SlotRing (MarketCaptureRecord π)) (position : ℕ) :
    MarketCaptureRecord π :=
  ring.slots (position &&& (ring.capacity - 1))

/-! ## The client -/

/-- Which sinks of a call are there, the one for records aside. -/
structure CaptureSinks where
  source : Bool
  progress : Bool
  gap : Bool

/-- A call of the client. -/
inductive ClientCall
  | loadSourceDirectory
  | drainTo (maximumRecords : ℕ) (sinks : CaptureSinks)
  | publishProgressTo (sinks : CaptureSinks)

def ClientCall.sinks : ClientCall → CaptureSinks
  | .loadSourceDirectory => ⟨false, false, false⟩
  | .drainTo _ sinks | .publishProgressTo sinks => sinks

/-- `limit` of `drainTo`. -/
def ClientCall.limit : ClientCall → ℕ
  | .drainTo maximumRecords _ => if maximumRecords = 0 then maximumUInt64 else maximumRecords
  | _ => 0

/-- Where the client is in `loadSourceDirectory`. -/
inductive LoadPc (σ : Type)
  | generation
  | count (generation : UInt64)
  | copying (generation : UInt64) (count : ℕ) (copied : List σ)
  | confirmGeneration (generation : UInt64) (copied : List σ)
  | confirmCount (generation : UInt64) (copied : List σ)

/-- Where the client is in `drainTo`. -/
inductive DrainPc (π : Type)
  | checkGeneration
  | checkCount
  /-- Before the call of the sink for the next source, if there is one. -/
  | registering
  /-- Before it looks at a shard; `first` is the shard with the earliest head so far and the head's
  arrival. -/
  | scanning (drained candidate : ℕ) (first : Option (ℕ × ℕ))
  /-- Before it reads the head of a shard. -/
  | taking (drained shard : ℕ)
  /-- Before the call of the sink with a converted record. -/
  | handing (drained shard : ℕ) (record : MarketCaptureRecord π) (output : BinaryMarketRecord)
  /-- The sink has returned `Ok`, and the ring's `read` is not yet stored. -/
  | advancing (drained shard : ℕ) (record : MarketCaptureRecord π)

/-- The local variables of `publishProgressTo`. -/
structure ProgressWork where
  lossRevision : UInt64
  directory : UInt64
  count : ℕ
  safeMonotonicNs : UInt64 := 0xffffffffffffffff
  shardSequences : ℕ → UInt64 := fun _ => 0
  progressAvailable : Bool := true
  observed : ℕ := 0
  total : ℕ := 0
  gaps : List BinaryMarketGap := []

/-- Where the client is in `publishProgressTo`. -/
inductive ProgressPc
  | lossFlags
  | lossBegin
  | generation (lossRevision : UInt64)
  | count (lossRevision directory : UInt64)
  | cells (work : ProgressWork) (shard : ℕ)
  | clock (work : ProgressWork)
  | losses (work : ProgressWork) (cell : ℕ)
  | validate (work : ProgressWork)
  | validateGeneration (work : ProgressWork)
  | validateCount (work : ProgressWork)
  | validateEpoch (work : ProgressWork)
  /-- Before the call of the sink for the next gap, if there is one. -/
  | gaps (work : ProgressWork) (remaining : List BinaryMarketGap)
  /-- Before the call of the sink for the progress. -/
  | forward (progress : CorpusProducerProgress)

/-- Where the client is: between calls, or in one. -/
inductive ClientPc (π σ : Type)
  | idle
  | loading (call : ClientCall) (pc : LoadPc σ)
  | draining (call : ClientCall) (pc : DrainPc π)
  | publishing (call : ClientCall) (pc : ProgressPc)

/-- What an operation of the client gets from outside. -/
structure ClientInput where
  /-- What the sink returns, if one is called. -/
  result : Status := .ok
  expired : Bool := false
  disconnected : Bool := false
  clockFails : Bool := false
  allocationFails : Bool := false
  realtimeNs : UInt64 := 1
  snapshotBegun : Bool := true
  cellRead : Bool := true
  snapshotValid : Bool := true

/-- A record as it was handed to the sink: its shard and its position in the shard's ring, the
record, what it was converted to, and what the client knew of the directory. -/
structure Handed (π σ : Type) where
  shard : ℕ
  position : ℕ
  record : MarketCaptureRecord π
  output : BinaryMarketRecord
  sources : List σ
  directoryGeneration : UInt64

/-- A call of a sink, with what it returned. -/
inductive SinkCall (π σ : Type)
  | source (source : BinaryMarketSource) (result : Status)
  | record (handed : Handed π σ) (result : Status)
  | gap (gap : BinaryMarketGap) (result : Status)
  | progress (progress : CorpusProducerProgress) (result : Status)

/-- `ParserMarketCaptureClientState`, with the shared memory. -/
structure ClientState (π σ : Type) where
  arena : CaptureArena π σ
  sources : List σ := []
  consumerEpoch : UInt64
  directoryGeneration : UInt64 := 0
  registeredSourceCount : ℕ := 0
  recordsDrained : ℕ := 0
  gapsWritten : ℕ := 0
  stopped : Bool := false
  pc : ClientPc π σ := .idle
  /-- What the last call returned, and its text. -/
  status : Status := .ok
  error : String := ""
  /-- The record that the producer has stored in the free slot of a shard and not yet published. -/
  stored : ℕ → Option (MarketCaptureRecord π) := fun _ => none
  /-- The records published in a shard. -/
  published : ℕ → List (MarketCaptureRecord π) := fun _ => []
  /-- The calls of the sinks. -/
  log : List (SinkCall π σ) := []

/-- What happens next. -/
inductive ClientAction (π σ : Type)
  /-- The client is called. -/
  | call (call : ClientCall)
  /-- It goes on. -/
  | client (input : ClientInput)
  /-- The producer stores a record into the free slot of a shard. -/
  | store (shard : ℕ) (record : MarketCaptureRecord π)
  /-- It publishes the slot. -/
  | publish (shard : ℕ)
  /-- It stores something else. -/
  | arena (store : ArenaStore σ)

namespace ClientState

variable {π σ : Type}

def finish (s : ClientState π σ) (status : Status) (error : String) : ClientState π σ :=
  { s with pc := .idle, status, error }

def called (s : ClientState π σ) (call : SinkCall π σ) : ClientState π σ :=
  { s with log := s.log ++ [call] }

/-! ### `loadSourceDirectory` -/

/-- A copied directory is valid, and can be persisted. -/
def directoryError (P : ParserProtocol π σ) (copied : List σ) : Option String :=
  copied.zipIdx.findSome? fun (source, index) =>
    if !P.validSourceDescriptor source index then
      some "parser capture source directory is invalid"
    else if !validBinaryMarketSource (P.convertSource source) index then
      some "parser capture source directory cannot be persisted"
    else none

/-- The end of `loadSourceDirectory`, with a copy of the directory that is confirmed. -/
def installDirectory (P : ParserProtocol π σ) (s : ClientState π σ) (call : ClientCall)
    (generation : UInt64) (copied : List σ) (input : ClientInput) : ClientState π σ :=
  if input.clockFails then
    s.finish .ioError "parser capture activation timestamp is unavailable"
  else if input.allocationFails then
    s.finish .ioError "parser capture source directory allocation failed"
  else
    match directoryError P copied with
    | some error => s.finish .corruptData error
    | none =>
      if copied.length < s.sources.length then
        s.finish .corruptData
          "parser capture source IDs were retired instead of remaining stable"
      else
        let s :=
          if s.sources.length = 0 then
            { s with sources := copied, registeredSourceCount := copied.length }
          else
            { s with sources := s.sources ++ (copied.drop s.sources.length).map P.baseline }
        let s := { s with directoryGeneration := generation }
        match call with
        | .drainTo _ _ => { s with pc := .draining call .registering }
        | _ => s.finish .ok ""

/-- The next operation of `loadSourceDirectory`. -/
def loadStep (P : ParserProtocol π σ) (A : ArenaShape) (s : ClientState π σ) (call : ClientCall)
    (pc : LoadPc σ) (input : ClientInput) : ClientState π σ :=
  let retry := { s with pc := .loading call .generation }
  match pc with
  | .generation =>
    if input.expired then
      s.finish .ioError "parser capture source directory did not become ready"
    else { s with pc := .loading call (.count s.arena.directoryGeneration) }
  | .count generation =>
    let count := s.arena.directoryCount
    if generation = 0 ∨ count = 0 ∨ count > A.directoryCapacity then
      if input.disconnected then
        s.finish .ioError "parserd disconnected before publishing capture directory"
      else retry
    else { s with pc := .loading call (.copying generation count []) }
  | .copying generation count copied =>
    { s with
      pc :=
        if copied.length < count then
          .loading call
            (.copying generation count (copied ++ [s.arena.sourceDirectory copied.length]))
        else .loading call (.confirmGeneration generation copied) }
  | .confirmGeneration generation copied =>
    let confirmed := s.arena.directoryGeneration
    if confirmed = 0 ∨ confirmed ≠ generation then retry
    else { s with pc := .loading call (.confirmCount generation copied) }
  | .confirmCount generation copied =>
    if s.arena.directoryCount ≠ copied.length then retry
    else s.installDirectory P call generation copied input

/-! ### `drainTo` -/

/-- The head of the loop of `drainTo`. -/
def drainLoop (s : ClientState π σ) (call : ClientCall) (drained : ℕ) : ClientState π σ :=
  { s with
    pc :=
      if drained < call.limit then .draining call (.scanning drained 0 none)
      else .publishing call .lossFlags }

/-- The record's source and the revision that it announces are visible. -/
def visible (P : ParserProtocol π σ) (sources : List σ) (directoryGeneration : UInt64)
    (record : MarketCaptureRecord π) : Bool :=
  !(record.sourceId.toNat > sources.length ||
    (record.channel = .membership &&
      (P.membershipPayload record.payload).directoryRevision > directoryGeneration))

/-- The part of the loop that tests and converts the head of a shard. -/
def takeHead (P : ParserProtocol π σ) (X : Platform) (A : ArenaShape) (s : ClientState π σ)
    (call : ClientCall) (drained shard : ℕ) : ClientState π σ :=
  let ring := s.arena.rings shard
  let record := ringRecord ring ring.read
  if record.channel = .membership ∧ record.payloadBytes ≠ P.membershipPayloadBytes then
    s.finish .corruptData "parser capture membership payload size mismatch"
  else if !visible P s.sources s.directoryGeneration record then
    if record.sourceId.toNat > A.directoryCapacity then
      s.finish .corruptData "capture source exceeds admitted directory capacity"
    else { s with pc := .publishing call .lossFlags }
  else
    match P.convertRecord X record shard s.sources with
    | none => s.finish .corruptData "parser capture record contract mismatch"
    | some output => { s with pc := .draining call (.handing drained shard record output) }

/-- The head of a shard as the sink gets it. -/
def handed (s : ClientState π σ) (shard : ℕ) (record : MarketCaptureRecord π)
    (output : BinaryMarketRecord) : Handed π σ where
  shard := shard
  position := (s.arena.rings shard).read
  record := record
  output := output
  sources := s.sources
  directoryGeneration := s.directoryGeneration

/-- The end of the loop's body: the source of a membership marker is taken over, and the ring's `read`
is stored. -/
def advanceHead (P : ParserProtocol π σ) (s : ClientState π σ) (shard : ℕ)
    (record : MarketCaptureRecord π) : ClientState π σ :=
  { s with
    sources :=
      if record.channel = .membership then
        s.sources.set (record.sourceId.toNat - 1) (P.membershipPayload record.payload).source
      else s.sources
    arena := { s.arena with
      rings := Function.update s.arena.rings shard (s.arena.rings shard).advance }
    recordsDrained := s.recordsDrained + 1 }

/-- The next operation of `drainTo`. -/
def drainStep (P : ParserProtocol π σ) (X : Platform) (A : ArenaShape) (s : ClientState π σ)
    (call : ClientCall) (pc : DrainPc π) (input : ClientInput) : ClientState π σ :=
  match pc with
  | .checkGeneration =>
    { s with
      pc :=
        if s.arena.directoryGeneration ≠ s.directoryGeneration then .loading call .generation
        else .draining call .checkCount }
  | .checkCount =>
    { s with
      pc :=
        if s.arena.directoryCount ≠ s.sources.length then .loading call .generation
        else .draining call .registering }
  | .registering =>
    match s.sources[s.registeredSourceCount]? with
    | none => s.drainLoop call 0
    | some descriptor =>
      if !call.sinks.source then
        s.finish .unimplemented "capture sink has no source catalog consumer"
      else
        let source := (P.convertSource descriptor).withInitiallyPresent 0
        let s := s.called (.source source input.result)
        if input.result = .ok then
          { s with registeredSourceCount := s.registeredSourceCount + 1 }
        else s.finish input.result "capture source catalog registration failed"
  | .scanning drained candidate first =>
    if candidate < A.shardCount.toNat then
      let ring := s.arena.rings candidate
      if ring.read > ring.written ∨ ring.written - ring.read > ring.capacity then
        s.finish .corruptData "parser capture ring cursor invariant failed"
      else
        let arrival := (ringRecord ring ring.read).receiveMonotonicNs.toNat
        let first :=
          if ring.read = ring.written then first
          else
            match first with
            | none => some (candidate, arrival)
            | some (shard, firstArrival) =>
              if arrival < firstArrival then some (candidate, arrival)
              else some (shard, firstArrival)
        { s with pc := .draining call (.scanning drained (candidate + 1) first) }
    else
      { s with
        pc :=
          match first with
          | none => .publishing call .lossFlags
          | some (shard, _) => .draining call (.taking drained shard) }
  | .taking drained shard => s.takeHead P X A call drained shard
  | .handing drained shard record output =>
    let s := s.called (.record (s.handed shard record output) input.result)
    if input.result = .ok then { s with pc := .draining call (.advancing drained shard record) }
    else
      s.finish input.result
        (if input.result = .outOfRange then "binary market corpus byte quota reached"
        else "binary market corpus record write failed")
  | .advancing drained shard record =>
    (s.advanceHead P shard record).drainLoop call (drained + 1)

/-! ### `publishProgressTo` -/

/-- The loss cell is one that the ledger can hold. -/
def validLossCell (L : LossProtocol) (A : ArenaShape) (cell : MarketCaptureLossCell) : Bool :=
  let unavailable := cell.flags &&& L.lossArrivalUnavailable ≠ 0
  !(cell.droppedRecords = 0 || cell.gapEpoch ≠ cell.droppedRecords ||
    cell.lastSourceGeneration = 0 || cell.lastShardIndex.toNat ≥ A.shardCount.toNat ||
    cell.firstDroppedEventSequence = 0 || cell.lastDroppedEventSequence = 0 ||
    cell.flags &&& ~~~L.knownLossFlags ≠ 0 ||
    cell.maximumDroppedReceiveRealtimeNs.toNat > 2 ^ 63 - 1 ||
    (!unavailable && (cell.minimumDroppedReceiveRealtimeNs = 0 ||
      cell.maximumDroppedReceiveRealtimeNs < cell.minimumDroppedReceiveRealtimeNs)))

/-- The widths of the members of `BinaryMarketGap`, its padding last. -/
def gapWidths : List ℕ := [4, 4, 8, 8, 8, 8, 8, 8, 8, 8, 2, 1, 1, 4]

/-- The members of the gap for a loss cell. -/
def gapFields (L : LossProtocol) (work : ProgressWork) (index : ℕ) (cell : MarketCaptureLossCell) :
    List ℕ :=
  let channel := index % L.channelCount
  let unavailable : Bool := cell.flags &&& L.lossArrivalUnavailable ≠ 0
  [index / L.channelCount + 1, 0, cell.lastSourceGeneration.toNat, cell.gapEpoch.toNat,
    cell.droppedRecords.toNat, cell.firstDroppedEventSequence.toNat,
    cell.lastDroppedEventSequence.toNat,
    if unavailable then 0 else cell.minimumDroppedReceiveRealtimeNs.toNat,
    if unavailable then 0 else cell.maximumDroppedReceiveRealtimeNs.toNat,
    work.observed, cell.lastShardIndex.toNat,
    if channel = L.membershipIndex then BinaryMarketChannel.sourceLifecycle.code else channel + 1,
    0, 0]

def gapOf (L : LossProtocol) (work : ProgressWork) (index : ℕ) (cell : MarketCaptureLossCell) :
    BinaryMarketGap :=
  ⟨Raw.ofBytes 80 (pack gapWidths (gapFields L work index cell))⟩

/-- The progress of the shards, read as far as every cell can be used. -/
def readCell (s : ClientState π σ) (work : ProgressWork) (shard : ℕ) (cellRead : Bool) :
    Option ProgressWork :=
  let value := s.arena.progress shard
  if !cellRead ∨ (s.arena.rings shard).read < value.completedWrite ∨
      value.lossEpoch > work.lossRevision ∨ value.directoryRevision > work.directory then none
  else
    some { work with
      safeMonotonicNs := min work.safeMonotonicNs value.receiveMonotonicNs
      shardSequences := Function.update work.shardSequences shard value.completedShardSequence }

def progressOf (A : ArenaShape) (work : ProgressWork) : CorpusProducerProgress where
  producerEpoch := A.producerEpoch
  safeMonotonicNs := work.safeMonotonicNs
  lossEpoch := work.lossRevision
  directoryRevision := work.directory
  shardSequences := work.shardSequences
  shardCount := A.shardCount

/-- The loop over the loss ledger. A cell that is not valid ends the loop over its source. -/
def lossStep (L : LossProtocol) (A : ArenaShape) (s : ClientState π σ) (call : ClientCall)
    (work : ProgressWork) (index : ℕ) (input : ClientInput) : ClientState π σ :=
  if index < s.sources.length * L.channelCount then
    let cell := s.arena.lossLedger index
    if cell.gapEpoch = 0 then { s with pc := .publishing call (.losses work (index + 1)) }
    else if !validLossCell L A cell ∨ work.total > maximumUInt64 - cell.gapEpoch.toNat then
      { s with
        pc := .publishing call
          (.losses { work with progressAvailable := false, total := maximumUInt64 }
            ((index / L.channelCount + 1) * L.channelCount)) }
    else if input.allocationFails then
      s.finish .ioError "parser progress snapshot allocation failed"
    else
      { s with
        pc := .publishing call
          (.losses
            { work with
              total := work.total + cell.gapEpoch.toNat
              gaps := work.gaps ++ [gapOf L work index cell] }
            (index + 1)) }
  else { s with pc := .publishing call (.validate work) }

/-- The next operation of `publishProgressTo`. -/
def progressStep (L : LossProtocol) (A : ArenaShape) (s : ClientState π σ) (call : ClientCall)
    (pc : ProgressPc) (input : ClientInput) : ClientState π σ :=
  match pc with
  | .lossFlags =>
    if s.arena.lossSnapshotFlags ≠ 0 then
      s.finish .corruptData "Parser loss ledger cannot certify an exact prefix"
    else { s with pc := .publishing call .lossBegin }
  | .lossBegin =>
    if !input.snapshotBegun then s.finish .ok ""
    else { s with pc := .publishing call (.generation s.arena.lossRevision) }
  | .generation lossRevision =>
    { s with pc := .publishing call (.count lossRevision s.arena.directoryGeneration) }
  | .count lossRevision directory =>
    let count := s.arena.directoryCount
    if directory = 0 ∨ directory ≠ s.directoryGeneration ∨ count ≠ s.sources.length then
      s.finish .ok ""
    else { s with pc := .publishing call (.cells { lossRevision, directory, count } 0) }
  | .cells work shard =>
    { s with
      pc :=
        if shard < A.shardCount.toNat then
          match s.readCell work shard input.cellRead with
          | none => .publishing call (.clock { work with progressAvailable := false })
          | some work => .publishing call (.cells work (shard + 1))
        else .publishing call (.clock work) }
  | .clock work =>
    if input.realtimeNs = 0 ∨ input.realtimeNs.toNat > 2 ^ 63 - 1 then s.finish .ioError ""
    else
      { s with
        pc := .publishing call (.losses { work with observed := input.realtimeNs.toNat } 0) }
  | .losses work index => s.lossStep L A call work index input
  | .validate work =>
    if !input.snapshotValid then s.finish .ok ""
    else { s with pc := .publishing call (.validateGeneration work) }
  | .validateGeneration work =>
    if s.arena.directoryGeneration ≠ work.directory then s.finish .ok ""
    else { s with pc := .publishing call (.validateCount work) }
  | .validateCount work =>
    if s.arena.directoryCount ≠ work.count then s.finish .ok ""
    else { s with pc := .publishing call (.validateEpoch work) }
  | .validateEpoch work =>
    if !s.stopped ∧ s.arena.consumerEpoch ≠ s.consumerEpoch then s.finish .ok ""
    else if work.total ≠ work.lossRevision.toNat then
      s.finish .corruptData "consistent parser capture loss ledger mismatch"
    else if work.gaps ≠ [] ∧ !call.sinks.gap then
      s.finish .unimplemented "capture sink has no live loss consumer"
    else { s with pc := .publishing call (.gaps work work.gaps) }
  | .gaps work (gap :: remaining) =>
    let s := s.called (.gap gap input.result)
    if input.result = .ok then { s with pc := .publishing call (.gaps work remaining) }
    else s.finish input.result ""
  | .gaps work [] =>
    let s := { s with gapsWritten := work.gaps.length }
    if work.progressAvailable ∧ call.sinks.progress then
      { s with pc := .publishing call (.forward (progressOf A work)) }
    else s.finish .ok ""
  | .forward progress =>
    (s.called (.progress progress input.result)).finish input.result ""

/-! ### Actions -/

/-- The client is called while it is between calls. -/
def enter (A : ArenaShape) (s : ClientState π σ) (call : ClientCall) : ClientState π σ :=
  match call with
  | .loadSourceDirectory => { s with pc := .loading call .generation }
  | .drainTo _ _ =>
    if s.sources.length = 0 then
      s.finish .invalidArgument "parser capture directory was not loaded"
    else if A.producerEpoch = 0 then
      s.finish .corruptData "parser capture producer epoch is unavailable"
    else { s with pc := .draining call .checkGeneration }
  | .publishProgressTo _ => { s with pc := .publishing call .lossFlags }

def clientStep (P : ParserProtocol π σ) (L : LossProtocol) (X : Platform) (A : ArenaShape)
    (s : ClientState π σ) (input : ClientInput) : Option (ClientState π σ) :=
  match s.pc with
  | .idle => none
  | .loading call pc => some (s.loadStep P A call pc input)
  | .draining call pc => some (s.drainStep P X A call pc input)
  | .publishing call pc => some (s.progressStep L A call pc input)

/-- The producer stores a record into the free slot of a shard, if there is one. -/
def storeRecord (s : ClientState π σ) (shard : ℕ) (record : MarketCaptureRecord π) :
    Option (ClientState π σ) :=
  if (s.arena.rings shard).hasRoom then
    some { s with
      arena := { s.arena with
        rings := Function.update s.arena.rings shard ((s.arena.rings shard).store record) }
      stored := Function.update s.stored shard (some record) }
  else none

/-- The producer publishes the slot that it has stored a record into. -/
def publishRecord (s : ClientState π σ) (shard : ℕ) : Option (ClientState π σ) :=
  match s.stored shard with
  | none => none
  | some record =>
    some { s with
      arena := { s.arena with
        rings := Function.update s.arena.rings shard (s.arena.rings shard).publish }
      stored := Function.update s.stored shard none
      published := Function.update s.published shard (s.published shard ++ [record]) }

def step (P : ParserProtocol π σ) (L : LossProtocol) (X : Platform) (A : ArenaShape)
    (s : ClientState π σ) : ClientAction π σ → Option (ClientState π σ)
  | .call call =>
    match s.pc with
    | .idle => some (s.enter A call)
    | _ => none
  | .client input => s.clientStep P L X A input
  | .store shard record => s.storeRecord shard record
  | .publish shard => s.publishRecord shard
  | .arena store => some { s with arena := s.arena.store store }

/-- The client after it has attached to an arena whose rings are empty. -/
def attached (A : ArenaShape) (arena : CaptureArena π σ) (slots : ℕ → ℕ → MarketCaptureRecord π)
    (consumerEpoch : UInt64) : ClientState π σ :=
  { arena := { arena with rings := fun shard => { capacity := 2 ^ A.ringBits, slots := slots shard } }
    consumerEpoch }

end ClientState

end HftRecorder.Capture
