import HftRecorder.Lib.Loop
import HftRecorder.Reader.Index
import HftRecorder.Format.DepthTransaction
import HftRecorder.Format.SourceState

/-!
# The cursor over a sealed corpus

`BinaryMarketCorpusCursor` of `BinaryMarketCorpusReader.cpp`. `open` reads the corpus three times:
segment by segment against the index, merged in arrival order against the source states, and once
more to prime the shards for `next`, which then merges a second time. The loops that read until a
segment or the merge is exhausted are bounded by the bytes that are left to read.
-/

namespace HftRecorder.Corpus

open ByteLayout Codec BinaryMarketChannel Loop

/-! ## Shards -/

/-- `BinaryMarketCorpusCursorState::Shard`. -/
structure CursorShard where
  segments : List SegmentKey := []
  /-- The entries of `segments` from `position` on. -/
  remaining : List SegmentKey := []
  decoder : Option SegmentDecoder := none
  /-- `head` where `ready` is set. -/
  head : Option BinaryMarketRecord := none
  previousSequence : ℕ := 0
  previousMonotonic : ℕ := 0
  depthTransaction : BinaryMarketDepthTransactionState := {}

/-- `BinaryMarketCorpusCursorState`. -/
structure CursorState where
  request : BinaryMarketSelectionRequest
  manifest : BinaryMarketManifest
  sources : List BinaryMarketSource
  sourceStates : List BinaryMarketSourceState
  shards : List CursorShard
  includedSources : ℕ → Bool
  failed : Bool := false

/-- The row does not come before the one with the given sequence and time, where zero means that there
is none. -/
def rowInOrder (previousSequence previousMonotonic : ℕ) (row : BinaryMarketRecord) : Bool :=
  !((previousSequence ≠ 0 && row.shardSequence ≤ previousSequence) ||
    (previousMonotonic ≠ 0 && row.receiveMonotonicNs < previousMonotonic))

/-- The loop of `fillHead` once it has no decoder: the first row of the segments that are left. -/
def openRow (X : Platform) (disk : Disk CorpusFile) (epoch sourceCount : ℕ) :
    List SegmentKey → Except String (Option (BinaryMarketRecord × SegmentDecoder) × List SegmentKey)
  | [] => .ok (none, [])
  | key :: keys =>
    match SegmentDecoder.open disk key epoch with
    | .error e => .error e
    | .ok decoder =>
      match decoder.next X sourceCount with
      | .error e => .error e
      | .ok (some row, decoder) => .ok (some (row, decoder), keys)
      | .ok (none, _) => openRow X disk epoch sourceCount keys

/-- The loop of `fillHead`: the next row of the decoder, or else of the segments that are left. -/
def pullRow (X : Platform) (disk : Disk CorpusFile) (epoch sourceCount : ℕ) (shard : CursorShard) :
    Except String (Option (BinaryMarketRecord × SegmentDecoder) × List SegmentKey) :=
  match shard.decoder with
  | none => openRow X disk epoch sourceCount shard.remaining
  | some decoder =>
    match decoder.next X sourceCount with
    | .error e => .error e
    | .ok (some row, decoder) => .ok (some (row, decoder), shard.remaining)
    | .ok (none, _) => openRow X disk epoch sourceCount shard.remaining

/-- `fillHead`. -/
def fillHead (X : Platform) (disk : Disk CorpusFile) (epoch sourceCount : ℕ) (shard : CursorShard) :
    Except String CursorShard :=
  match pullRow X disk epoch sourceCount shard with
  | .error e => .error e
  | .ok (none, remaining) => .ok { shard with head := none, decoder := none, remaining }
  | .ok (some (row, decoder), remaining) =>
    if rowInOrder shard.previousSequence shard.previousMonotonic row then
      .ok { shard with
        head := some row
        decoder := some decoder
        remaining
        previousSequence := row.shardSequence
        previousMonotonic := row.receiveMonotonicNs }
    else .error "binary corpus arrival order crosses shard segments"

/-- `fillHead` on every shard, in order. -/
def fillHeads (X : Platform) (disk : Disk CorpusFile) (epoch sourceCount : ℕ) :
    List CursorShard → Except String (List CursorShard)
  | [] => .ok []
  | shard :: shards =>
    match fillHead X disk epoch sourceCount shard with
    | .error e => .error e
    | .ok shard =>
      match fillHeads X disk epoch sourceCount shards with
      | .error e => .error e
      | .ok shards => .ok (shard :: shards)

/-- The bytes that a decoder has left bound the rows that it has left. -/
def SegmentDecoder.rowBound (d : SegmentDecoder) : ℕ := d.decoded.length + 256 * d.stream.length

/-- A bound on the rows that a shard has left, its head included. -/
def CursorShard.rowBound (disk : Disk CorpusFile) (shard : CursorShard) : ℕ :=
  (if shard.head.isSome then 1 else 0) + (shard.decoder.map SegmentDecoder.rowBound).getD 0 +
    (shard.remaining.map fun key => 256 * disk.fileBytes (segmentPath key)).sum

/-! ## Segment by segment -/

/-- What the first pass counts for one more record of an index entry. -/
def observeCount (e : BinaryMarketIndexEntry) (r : BinaryMarketRecord) : BinaryMarketIndexEntry :=
  let e := { e with
    recordCount := e.recordCount + 1
    firstEventSequence := if e.firstEventSequence = 0 then r.eventSequence else e.firstEventSequence
    lastEventSequence := r.eventSequence
    firstReceiveNs :=
      if e.firstReceiveNs = 0 ∨ r.receiveRealtimeNs < e.firstReceiveNs then r.receiveRealtimeNs
      else e.firstReceiveNs
    lastReceiveNs := max e.lastReceiveNs r.receiveRealtimeNs }
  let e := if r.hasFlag recordTraderReplayCompatible then e
    else { e with flags := e.flags ||| indexHasRecordedOnly, compatibility := .recordedOnly }
  if r.hasFlag recordGapBoundary then
    { e with flags := e.flags ||| indexHasGap, gapCount := e.gapCount + 1 }
  else e

/-- The index entry is the one of the record's source, generation, and channel. -/
def observes (r : BinaryMarketRecord) (e : BinaryMarketIndexEntry) : Bool :=
  e.sourceId = r.sourceId && e.sourceGeneration = r.sourceGeneration && e.channel = r.channel

/-- The observed index of a segment after one more record. -/
def observeRecord (key : SegmentKey) (observed : List BinaryMarketIndexEntry)
    (r : BinaryMarketRecord) : List BinaryMarketIndexEntry :=
  match observed.findIdx? (observes r) with
  | some position => observed.modify position fun e => observeCount e r
  | none =>
    observed ++ [observeCount (.fresh key.number key.shard r.sourceId r.sourceGeneration r.channel) r]

/-- The variables of the first pass over one segment. -/
structure SegmentPass where
  decoder : SegmentDecoder
  previousSequence : ℕ
  previousMonotonic : ℕ
  observed : List BinaryMarketIndexEntry := []
  observedRecords : ℕ := 0

/-- The body of the loop over the records of one segment. -/
def segmentRound (X : Platform) (sourceCount : ℕ) (key : SegmentKey) (p : SegmentPass) :
    Except String (Round SegmentPass SegmentPass) :=
  match p.decoder.next X sourceCount with
  | .error e => .error e
  | .ok (none, _) => .ok (.leave p)
  | .ok (some row, decoder) =>
    if rowInOrder p.previousSequence p.previousMonotonic row then
      .ok (.again {
        decoder
        previousSequence := row.shardSequence
        previousMonotonic := row.receiveMonotonicNs
        observed := observeRecord key p.observed row
        observedRecords := p.observedRecords + 1 })
    else .error "binary corpus arrival order crosses segments"

/-- The indexed entry has the observed counts. -/
def sameIndexCounts (expected actual : BinaryMarketIndexEntry) : Bool :=
  expected.sourceGeneration = actual.sourceGeneration &&
    expected.recordCount = actual.recordCount && expected.gapCount = actual.gapCount &&
    expected.firstEventSequence = actual.firstEventSequence &&
    expected.lastEventSequence = actual.lastEventSequence &&
    expected.firstReceiveNs = actual.firstReceiveNs &&
    expected.lastReceiveNs = actual.lastReceiveNs &&
    expected.flags = actual.flags && expected.compatibility = actual.compatibility

/-- The index has an entry with the observed counts. -/
def indexed (index : List BinaryMarketIndexEntry) (number : ℕ) (actual : BinaryMarketIndexEntry) :
    Bool :=
  match index.find? fun e => e.segmentNumber = number && e.sourceId = actual.sourceId &&
      e.sourceGeneration = actual.sourceGeneration && e.channel = actual.channel with
  | some expected => sameIndexCounts expected actual
  | none => false

/-- The check of the observed index of a segment against the index table. -/
def checkObserved (index : List BinaryMarketIndexEntry) (number : ℕ)
    (observed : List BinaryMarketIndexEntry) : Except String Unit :=
  if index.countP (fun e => e.segmentNumber = number) ≠ observed.length then
    .error "binary corpus index identity totals mismatch"
  else if observed.all (indexed index number) then .ok ()
  else .error "binary corpus index disagrees with compressed records"

/-- The variables of the first pass over the corpus. -/
structure CorpusPass where
  shards : List CursorShard
  physicalBytes : ℕ
  observedCorpusRecords : ℕ := 0

/-- The size of a segment file by its header. -/
def segmentBytes (header : BinaryMarketSegmentHeader) : ℕ := 128 + header.storedBlockBytes + 64

def metadataBytes (sources : List BinaryMarketSource) (index : List BinaryMarketIndexEntry)
    (gaps : List BinaryMarketGap) : ℕ :=
  192 + 3 * 64 + sources.length * 272 + index.length * 72 + gaps.length * 80

/-- The body of the loop over the segments. -/
def checkSegment (X : Platform) (disk : Disk CorpusFile) (m : BinaryMarketManifest)
    (sourceCount : ℕ) (index : List BinaryMarketIndexEntry) (segmentShards : ℕ → ℕ) (p : CorpusPass)
    (number : ℕ) : Except String CorpusPass :=
  let key : SegmentKey := ⟨number, segmentShards number⟩
  match SegmentDecoder.open disk key m.producerEpoch with
  | .error e => .error e
  | .ok decoder =>
    if p.physicalBytes > m.projectedBytes ∨
        segmentBytes decoder.header > m.projectedBytes - p.physicalBytes then
      .error "binary corpus physical storage exceeds sealed quota"
    else
      -- Every segment number has an index entry, so that its shard is one of the manifest's.
      let shard := p.shards.getD key.shard {}
      match loop (segmentRound X sourceCount key) (decoder.rowBound + 1)
          { decoder
            previousSequence := shard.previousSequence
            previousMonotonic := shard.previousMonotonic } with
      | none => .error ""
      | some (.error e) => .error e
      | some (.ok pass) =>
        match checkObserved index number pass.observed with
        | .error e => .error e
        | .ok () =>
          .ok {
            shards := p.shards.set key.shard { shard with
              segments := shard.segments ++ [key]
              previousSequence := pass.previousSequence
              previousMonotonic := pass.previousMonotonic }
            physicalBytes := p.physicalBytes + segmentBytes decoder.header
            observedCorpusRecords := p.observedCorpusRecords + pass.observedRecords }

/-- The loop over the segments with the given numbers. -/
def checkSegments (X : Platform) (disk : Disk CorpusFile) (m : BinaryMarketManifest)
    (sourceCount : ℕ) (index : List BinaryMarketIndexEntry) (segmentShards : ℕ → ℕ) :
    CorpusPass → List ℕ → Except String CorpusPass
  | p, [] => .ok p
  | p, number :: numbers =>
    match checkSegment X disk m sourceCount index segmentShards p number with
    | .error e => .error e
    | .ok p => checkSegments X disk m sourceCount index segmentShards p numbers

/-- The first pass: every segment against the index, and the totals against the manifest. -/
def checkCorpus (X : Platform) (disk : Disk CorpusFile) (m : BinaryMarketManifest)
    (sources : List BinaryMarketSource) (index : List BinaryMarketIndexEntry)
    (gaps : List BinaryMarketGap) (segmentShards : ℕ → ℕ) : Except String CorpusPass :=
  match checkSegments X disk m sources.length index segmentShards
      { shards := List.replicate m.shardCount {}, physicalBytes := metadataBytes sources index gaps }
      (List.range' 1 m.segmentCount) with
  | .error e => .error e
  | .ok p =>
    if p.physicalBytes > m.projectedBytes then
      .error "binary corpus physical metadata exceeds sealed quota"
    else if p.observedCorpusRecords ≠ m.recordCount then
      .error "binary corpus observed record totals mismatch"
    else .ok p

end HftRecorder.Corpus
