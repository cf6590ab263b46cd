import HftRecorder.Writer.Segment

/-!
# Starting a corpus and appending to it

The calls of `BinaryMarketCorpusWriter` that take data in: `start`, `registerSources`, `append`,
`beginFinalDrain`, and `appendGap`. `append` is split where the code itself turns from testing to
changing: `admitRecord` makes every test that depends on the record and the state alone, and
`appendAdmitted` finds the bytes and writes.
-/

namespace HftRecorder.Corpus

open ByteLayout Codec BinaryMarketChannel

/-! ## Start -/

/-- What `start` finds at the corpus root. -/
inductive RootEntry
  | absent
  | notDirectory
  | directory (isEmpty : Bool)
  deriving DecidableEq, Repr

/-- The amounts that `start` derives from a configuration. -/
structure StartBudget where
  maximumGapRecords : ℕ
  initialCutReserve : ℕ
  fixedMetadata : ℕ
  finalDrainReserve : ℕ

/-- The number of records that the shard rings and the writer queue can hold. -/
def maximumPendingRecords (config : BinaryMarketWriterConfig) : ℕ :=
  config.shardCount.toNat * config.ringCapacity.toNat + config.pendingRecordCapacity.toNat

/-- `worstRecordBytes`: what one record can reserve, a new source aside. The additions are of 64
bits. -/
def worstRecordBytes (X : Platform) : ℕ :=
  (binaryMarketPendingRecordBytes X + kRecordCutReservationBytes + 72 + 128 + 64) % 2 ^ 64

/-- The arithmetic of `start`, which fails if something does not fit 64 bits or the configured
quota. -/
def startBudget (X : Platform) (config : BinaryMarketWriterConfig) : Option StartBudget := do
  let sources := config.sources.length
  let maximumGapRecords ← addProduct 0 sources kBinaryMarketStoredChannelCount
  let fixedMetadata ← addProduct kCutHeaderReserveBytes 2 192
  let fixedMetadata ← addProduct fixedMetadata 3 64
  let fixedMetadata ← addProduct fixedMetadata sources kSourceStorageBytes
  let initialCutReserve ← cutReservationBytes sources maximumGapRecords 0 0
  let fixedMetadata ← addProduct fixedMetadata 1 initialCutReserve
  if maximumPendingRecords config > maximumUInt64 then none
  let pendingNewSources := min (maximumPendingRecords config) (kBinaryMarketMaximumSources - sources)
  let finalDrainReserve ← addProduct 0 (maximumPendingRecords config) (worstRecordBytes X)
  let finalDrainReserve ← addProduct finalDrainReserve pendingNewSources kSourceReservationBytes
  let minimumBytes ← addProduct fixedMetadata 1 finalDrainReserve
  let minimumBytes ← addProduct minimumBytes 1 (worstRecordBytes X)
  if minimumBytes > config.maximumBytes.toNat then none
  else some { maximumGapRecords, initialCutReserve, fixedMetadata, finalDrainReserve }

/-- The tests of `start` on the configuration alone. -/
def validWriterConfig (config : BinaryMarketWriterConfig) : Bool :=
  !(config.root = "" || config.sources = [] || config.producerEpoch = 0 || config.maximumBytes = 0 ||
    config.shardCount = 0 || config.shardCount.toNat > kBinaryMarketMaximumShards ||
    config.ringCapacity = 0 || config.startedReceiveNs.toInt ≤ 0 || config.startedMonotonicNs = 0 ||
    config.targetDurationNs = 0 || config.segmentTargetBytes.toNat < 128 + 1024 + 64 ||
    config.sources.length > kBinaryMarketMaximumSources) &&
  config.sources.zipIdx.all fun (source, index) => validBinaryMarketSource source index

/-- The pieces of `writeManifestAtomic`: the manifest with its size and checksum. -/
def manifestBytes (manifest : BinaryMarketManifest) : Bytes :=
  let manifest := { manifest with headerBytes := 192 }
  Layout.toBytes { manifest with manifestCrc32c := manifest.crc }

/-- The manifest that `start` begins with. -/
def initialManifest (config : BinaryMarketWriterConfig) : BinaryMarketManifest where
  headerBytes := 192
  producerEpoch := config.producerEpoch.toNat
  startedReceiveNs := config.startedReceiveNs.toInt
  replayAnchorReceiveNs := config.startedReceiveNs.toInt
  replayAnchorMonotonicNs := config.startedMonotonicNs.toNat
  maximumBytes := config.maximumBytes.toNat
  segmentTargetBytes := config.segmentTargetBytes.toNat
  sourceCount := config.sources.length
  shardCount := config.shardCount.toNat

/-- The state that `start` builds before it touches the directory. -/
def initialState (config : BinaryMarketWriterConfig) (budget : StartBudget)
    (disk : Disk CorpusFile) : WriterState where
  config := config
  manifest := initialManifest config
  sources := config.sources
  sourceStates := config.sources.map initialBinaryMarketSourceState
  projectedBytes := budget.fixedMetadata
  writeLimitBytes := config.maximumBytes.toNat - budget.finalDrainReserve
  maximumGapRecords := budget.maximumGapRecords
  progress := { producerEpoch := config.producerEpoch, shardCount := config.shardCount }
  publication := {
    capacity := min config.retainedCompressedBytes.toNat config.maximumBytes.toNat }
  cutReservedBytes := budget.initialCutReserve
  disk := disk

/-- The directory operations of `start`: the two directories, their syncs, and
`manifest.pending`. -/
def startDirectory (s : WriterState) (root : RootEntry) : Bool × WriterState :=
  andThen (if root = .absent then onDisk s Disk.sync else (true, s)) fun s =>
  andThen (onDisk s Disk.sync) fun s =>
  andThen (onDisk s Disk.sync) fun s =>
  andThen (onDisk s Disk.sync) fun s =>
    onDisk s fun d => d.replace .manifestPendingTmp .manifestPending
      [manifestBytes { s.manifest with stopReason := .error }]

/-- `start` on a writer that is not active, with the outcomes in store for its directory
operations. -/
def start (X : Platform) (config : BinaryMarketWriterConfig) (root : RootEntry)
    (faults : List (Option ℕ)) : Status × Option WriterState :=
  if !validWriterConfig config then (.invalidArgument, none)
  else
    match startBudget X config with
    | none => (.outOfRange, none)
    | some budget =>
      if root = .notDirectory ∨ root = .directory false then (.invalidArgument, none)
      else
        match startDirectory (initialState config budget ⟨∅, faults⟩) root with
        | (true, s) => (.ok, some { s with active := true })
        | (false, _) => (.ioError, none)

/-! ## Registering sources -/

/-- The catalogue size after the given registrations, or `none` if one of them is refused.
`registered` is the catalogue so far and `count` its size with the additions before. -/
def registeredCount (registered : List BinaryMarketSource) :
    ℕ → List BinaryMarketSource → Option ℕ
  | count, [] => some count
  | count, source :: rest =>
    if source.sourceId = 0 ∨ !validBinaryMarketSource source (source.sourceId - 1) then none
    else
      match registered[source.sourceId - 1]? with
      | some known =>
        if sameBinaryMarketSourceIdentity known source then registeredCount registered count rest
        else none
      | none =>
        if source.sourceId = count + 1 ∧ count < kBinaryMarketMaximumSources then
          registeredCount registered (count + 1) rest
        else none

/-- A source as it is registered: present only from its first lifecycle record on. -/
def registeredSource (source : BinaryMarketSource) : BinaryMarketSource :=
  (source.withInitiallyPresent 0).withInitialSourceGeneration 0

/-- The loop of `registerSources` that adds the sources with new ids. -/
def addSources : WriterState → List BinaryMarketSource → WriterState
  | s, [] => s
  | s, source :: rest =>
    if source.sourceId ≤ s.sources.length then addSources s rest
    else
      addSources { s with
        sources := s.sources ++ [registeredSource source]
        sourceStates := s.sourceStates ++ [initialBinaryMarketSourceState (registeredSource source)] }
        rest

/-- `registerSources`. -/
def registerSources (s : WriterState) (sources : List BinaryMarketSource) : Status × WriterState :=
  if !s.active ∨ sources.length > kBinaryMarketMaximumSources then (.invalidArgument, s)
  else
    match registeredCount s.sources s.sources.length sources with
    | none => (.invalidArgument, s)
    | some projectedCount =>
      let addedCount := projectedCount - s.sources.length
      match addProduct 0 addedCount kSourceReservationBytes,
          addProduct 0 addedCount (2 * kSourceStorageBytes) with
      | some requiredBytes, some cutGrowth =>
        if !addWithin s.cutReservedBytes cutGrowth maximumUInt64 ∨
            !addWithin s.projectedBytes requiredBytes s.writeLimitBytes then
          (.outOfRange, { s with quotaReached := true })
        else
          match reserveBytes s requiredBytes with
          | (false, s) => (.outOfRange, s)
          | (true, s) =>
            let s := addSources { s with cutReservedBytes := s.cutReservedBytes + cutGrowth } sources
            (.ok, { s with
              manifest := { s.manifest with sourceCount := s.sources.length }
              maximumGapRecords := s.sources.length * kBinaryMarketStoredChannelCount })
      | _, _ => (.outOfRange, { s with quotaReached := true })

/-! ## Appending a record -/

/-- What `append` derives from a record that passes its tests. -/
structure Admission where
  /-- The shard's depth transaction after the record. -/
  depthTransaction : BinaryMarketDepthTransactionState
  /-- The source's state after the record. -/
  prospective : BinaryMarketSourceState
  /-- The catalogue entry that the record adds, for the first record of a new source. -/
  addedSource : Option BinaryMarketSource

/-- The source that a record advances, before the record: the catalogue entry that it adds, if any,
and the state. -/
def sourceBefore (s : WriterState) (r : BinaryMarketRecord) :
    Except Status (Option BinaryMarketSource × BinaryMarketSourceState) :=
  if r.sourceId = s.sources.length + 1 then
    let p := r.lifecyclePayload
    if r.channel ≠ sourceLifecycle ∨ s.sources.length ≥ kBinaryMarketMaximumSources then
      .error .outOfRange
    else if p.kind ≠ .added ∨ p.previousSourceGeneration ≠ 0 then .error .invalidArgument
    else
      let added := p.source.withInitiallyPresent 0
      .ok (some added, initialBinaryMarketSourceState added)
  else
    match s.sourceStates[r.sourceId - 1]? with
    | some state => .ok (none, state)
    | none => .error .invalidArgument

/-- The record does not come before the last record of its shard. -/
def shardOrdered (segment : SegmentState) (r : BinaryMarketRecord) : Bool :=
  !((segment.previousShardSequence ≠ 0 && r.shardSequence ≤ segment.previousShardSequence) ||
    (segment.previousMonotonicNs ≠ 0 && r.receiveMonotonicNs < segment.previousMonotonicNs))

/-- The tests of `append` that come before any change. -/
def admitRecord (X : Platform) (s : WriterState) (r : BinaryMarketRecord) : Except Status Admission :=
  if !s.active then .error .invalidArgument
  else if s.replayAnchorFrozen ∧ r.receiveMonotonicNs < s.manifest.replayAnchorMonotonicNs then
    .error .corruptData
  else if !validBinaryMarketRecord X r ∨ r.shardIndex ≥ s.shardCount ∨
      r.sourceId > s.sources.length + (if r.channel = sourceLifecycle then 1 else 0) ∨
      !r.payloadTailIsZero then .error .invalidArgument
  else
    match advanceBinaryMarketDepthTransaction X r (s.depthTransactions r.shardIndex) with
    | none => .error .invalidArgument
    | some depthTransaction =>
      match sourceBefore s r with
      | .error status => .error status
      | .ok (addedSource, state) =>
        match advanceBinaryMarketSourceState r state false with
        | none => .error .invalidArgument
        | some prospective =>
          if shardOrdered (s.segments r.shardIndex) r then
            .ok { depthTransaction, prospective, addedSource }
          else .error .invalidArgument

/-- The pending block has to be flushed before the record: it is full, or of another channel. -/
def flushNeeded (segment : SegmentState) (r : BinaryMarketRecord) : Bool :=
  match segment.pending with
  | [] => false
  | first :: rest =>
    segment.isOpen && (rest.length + 1 = kBinaryMarketBlockRecords || first.channel ≠ r.channel)

/-- `rotate`: the segment has no room for another record below its target size. -/
def rotateNeeded (X : Platform) (s : WriterState) (shard : ℕ) : Bool :=
  let segment := s.segments shard
  let target := s.config.segmentTargetBytes.toNat
  segment.isOpen && segment.pending = [] && segment.header.recordCount ≠ 0 &&
    (segment.projectedBytes > target ||
      binaryMarketPendingRecordBytes X > target - segment.projectedBytes)

/-- `openNeeded`: the record goes to a new segment. -/
def openNeeded (X : Platform) (s : WriterState) (shard : ℕ) : Bool :=
  !(s.segments shard).isOpen || rotateNeeded X s shard

/-- `indexNeeded`: the record needs a new index entry. -/
def indexNeeded (X : Platform) (s : WriterState) (r : BinaryMarketRecord) : Bool :=
  openNeeded X s r.shardIndex || (s.segments r.shardIndex).indexPositions r.indexKey = none

/-- `cutGrowth`: by how much the record grows the two cut files. -/
def cutGrowth (newSource : Bool) : Option ℕ :=
  if newSource then addProduct kRecordCutReservationBytes 2 kSourceStorageBytes
  else some kRecordCutReservationBytes

def addFixed (bytes amount : ℕ) : Option ℕ :=
  if bytes > maximumUInt64 - amount then none else some (bytes + amount)

/-- `requiredBytes`: what the record reserves. -/
def requiredBytes (X : Platform) (s : WriterState) (r : BinaryMarketRecord) (newSource : Bool) :
    Option ℕ := do
  let bytes ← addProduct (binaryMarketPendingRecordBytes X) 1 kRecordCutReservationBytes
  let bytes ← if newSource then addProduct bytes 1 kSourceReservationBytes else some bytes
  let bytes ←
    if openNeeded X s r.shardIndex then
      if s.nextSegmentNumber = maximumUInt32 then none else addFixed bytes (128 + 64)
    else some bytes
  if indexNeeded X s r then addFixed bytes 72 else some bytes

/-- Add the catalogue entry of a new source. -/
def addSource (s : WriterState) (source : BinaryMarketSource) (state : BinaryMarketSourceState) :
    WriterState :=
  { s with
    sources := s.sources ++ [source]
    sourceStates := s.sourceStates ++ [state]
    manifest := { s.manifest with sourceCount := s.manifest.sourceCount + 1 }
    maximumGapRecords := s.maximumGapRecords + kBinaryMarketStoredChannelCount }

/-- The smaller of two receive times, where zero means that there is none yet. -/
def firstReceive (first time : ℤ) : ℤ := if first = 0 ∨ time < first then time else first

def lastReceive (last time : ℤ) : ℤ := if time > last then time else last

def SegmentState.accept (X : Platform) (segment : SegmentState) (r : BinaryMarketRecord) :
    SegmentState :=
  { segment with
    pending := segment.pending ++ [r]
    previousShardSequence := r.shardSequence
    previousMonotonicNs := r.receiveMonotonicNs
    projectedBytes := segment.projectedBytes + binaryMarketPendingRecordBytes X
    header := { segment.header with
      recordsCrc32c := crc32cUpdate segment.header.recordsCrc32c r.bytes
      recordCount := segment.header.recordCount + 1
      firstReceiveNs := firstReceive segment.header.firstReceiveNs r.receiveRealtimeNs
      lastReceiveNs := lastReceive segment.header.lastReceiveNs r.receiveRealtimeNs } }

/-- The manifest after a record. A record before the replay anchor becomes the anchor. -/
def BinaryMarketManifest.accept (m : BinaryMarketManifest) (r : BinaryMarketRecord) :
    BinaryMarketManifest :=
  { m with
    recordCount := m.recordCount + 1
    replayAnchorMonotonicNs :=
      if r.receiveMonotonicNs < m.replayAnchorMonotonicNs then r.receiveMonotonicNs
      else m.replayAnchorMonotonicNs
    replayAnchorReceiveNs :=
      if r.receiveMonotonicNs < m.replayAnchorMonotonicNs then r.receiveRealtimeNs
      else m.replayAnchorReceiveNs
    firstReceiveNs := firstReceive m.firstReceiveNs r.receiveRealtimeNs
    lastReceiveNs := lastReceive m.lastReceiveNs r.receiveRealtimeNs }

/-- The end of `append`: the record is taken into its segment, its index entry, and the manifest. -/
def acceptRecord (X : Platform) (s : WriterState) (r : BinaryMarketRecord) (a : Admission)
    (position : ℕ) : WriterState :=
  { s with
    segments := Function.update s.segments r.shardIndex ((s.segments r.shardIndex).accept X r)
    sourceStates := s.sourceStates.set (r.sourceId - 1) a.prospective
    depthTransactions := Function.update s.depthTransactions r.shardIndex a.depthTransaction
    index := s.index.modify position fun e => e.count r
    manifest := s.manifest.accept r }

/-- The last part of `append`, in a state that has paid for the record and has its segment open. -/
def storeRecord (X : Platform) (s : WriterState) (r : BinaryMarketRecord) (a : Admission) :
    Status × WriterState :=
  let s := match a.addedSource with
    | some source => addSource s source a.prospective
    | none => s
  match ensureIndex s r.shardIndex r.indexKey with
  | (none, s) => (if s.quotaReached then .outOfRange else .ioError, s)
  | (some position, s) => (.ok, acceptRecord X s r a position)

/-- The part of `append` that changes the segment's file: seal it if it is full, and open the next
one. -/
def prepareSegment (X : Platform) (s : WriterState) (shard : ℕ) (rotate openNew : Bool) :
    Bool × WriterState :=
  andThen (if rotate then sealSegment X s shard else (true, s)) fun s =>
    if openNew then openSegment s shard else (true, s)

/-- The part of `append` that pays for the record. A quota that is short is met by flushing every
pending block first, which releases what its records had reserved beyond their encoded size. -/
def payForRecord (X : Platform) (s : WriterState) (bytes growth : ℕ) : Status × WriterState :=
  let flushed :=
    if addWithin s.projectedBytes bytes s.writeLimitBytes then (true, s)
    else flushShards X s.shards s
  match flushed with
  | (false, s) => (.ioError, s)
  | (true, s) =>
    match reserveBytes s bytes with
    | (false, s) => (.outOfRange, s)
    | (true, s) => (.ok, { s with cutReservedBytes := s.cutReservedBytes + growth })

/-- `append` for a record that passes the tests. -/
def appendAdmitted (X : Platform) (s : WriterState) (r : BinaryMarketRecord) (a : Admission) :
    Status × WriterState :=
  let shard := r.shardIndex
  let flushed := if flushNeeded (s.segments shard) r then flushBlock X s shard else (true, s)
  match flushed with
  | (false, s) => (.ioError, s)
  | (true, s) =>
    match requiredBytes X s r a.addedSource.isSome, cutGrowth a.addedSource.isSome with
    | some bytes, some growth =>
      if !addWithin s.cutReservedBytes growth maximumUInt64 then (.outOfRange, s)
      else
        let rotate := rotateNeeded X s shard
        let openNew := openNeeded X s shard
        match payForRecord X s bytes growth with
        | (.ok, s) =>
          match prepareSegment X s shard rotate openNew with
          | (false, s) => (.ioError, s)
          | (true, s) => storeRecord X s r a
        | (status, s) => (status, s)
    | _, _ => (.outOfRange, s)

/-- `append`. -/
def append (X : Platform) (s : WriterState) (r : BinaryMarketRecord) : Status × WriterState :=
  match admitRecord X s r with
  | .error status => (status, s)
  | .ok a => appendAdmitted X s r a

/-! ## The final drain and gaps -/

/-- `beginFinalDrain`. -/
def beginFinalDrain (s : WriterState) : Status × WriterState :=
  if !s.active then (.invalidArgument, s)
  else (.ok, { s with writeLimitBytes := s.config.maximumBytes.toNat })

/-- Two gap entries are for the same source and channel. -/
def sameGapCell (left right : BinaryMarketGap) : Bool :=
  left.sourceId = right.sourceId && left.channel = right.channel

/-- `appendGap`: a gap replaces the entry of its source and channel, whose epoch never goes down. -/
def appendGap (s : WriterState) (gap : BinaryMarketGap) : Status × WriterState :=
  if !s.active ∨ !validGapFields gap s.sources.length s.shardCount then (.invalidArgument, s)
  else
    match s.sources[gap.sourceId - 1]? with
    | none => (.invalidArgument, s)
    | some source =>
      if gap.sourceGeneration < source.initialSourceGeneration then (.invalidArgument, s)
      else
        match s.gaps.findIdx? (sameGapCell · gap), s.gaps.find? (sameGapCell · gap) with
        | some position, some existing =>
          if gap.gapEpoch < existing.gapEpoch then (.corruptData, s)
          else (.ok, { s with gaps := s.gaps.set position gap })
        | _, _ =>
          if s.gaps.length ≥ s.maximumGapRecords then (.outOfRange, s)
          else (.ok, { s with
            gaps := s.gaps ++ [gap]
            manifest := { s.manifest with gapCount := s.manifest.gapCount + 1 } })

end HftRecorder.Corpus
