import HftRecorder.Writer.Append

/-!
# Publishing and sealing

The calls of `BinaryMarketCorpusWriter` that make its state visible: `updateProgress`,
`setReferencePayload`, `publishCut`, and `finalize`, with the file formats that they write, the cut of
`CorpusCut.cpp` and the three tables. The commit time of a cut is the reading of the steady clock,
an argument here.
-/

namespace HftRecorder.Corpus

open ByteLayout Codec

/-! ## The cut file -/

/-- The members of `CorpusProducerProgress`, its tail padding last. -/
def CorpusProducerProgress.fields (p : CorpusProducerProgress) : List ℕ :=
  [p.producerEpoch.toNat, p.safeMonotonicNs.toNat, p.lossEpoch.toNat, p.directoryRevision.toNat] ++
    (List.range kBinaryMarketMaximumShards).map (fun n => (p.shardSequences n).toNat) ++
    [p.shardCount.toNat, 0]

/-- The widths of the members of `CorpusProducerProgress`. -/
def CorpusProducerProgress.widths : List ℕ :=
  [8, 8, 8, 8] ++ List.replicate kBinaryMarketMaximumShards 8 ++ [2, 6]

/-- `CutHeader`. -/
structure CutHeader where
  magic : ℕ := 0x4355544852434f52
  bytes : ℕ := 0
  generation : ℕ := 0
  committedMonotonicNs : ℕ := 0
  progress : CorpusProducerProgress := {}
  manifest : BinaryMarketManifest := {}
  sources : ℕ := 0
  gaps : ℕ := 0
  blocks : ℕ := 0
  referenceBytes : ℕ := 0
  crc : UInt32 := 0
  headerCrc : UInt32 := 0
  sourcesCrc : UInt32 := 0
  finalized : ℕ := 0
  reserved : ℕ := 0

namespace CutHeader

/-- The widths of the members of a cut header. The manifest is aligned to 64 bytes, and so is the
whole. -/
def widths : List ℕ :=
  [8, 8, 8, 8] ++ CorpusProducerProgress.widths ++ [56] ++ BinaryMarketManifest.widths ++
    [8, 8, 8, 8, 4, 4, 4, 1, 1, 18]

/-- The members of a cut header, its padding included. -/
def fields (h : CutHeader) : List ℕ :=
  [h.magic, h.bytes, h.generation, h.committedMonotonicNs] ++ h.progress.fields ++ [0] ++
    h.manifest.fields ++
    [h.sources, h.gaps, h.blocks, h.referenceBytes, h.crc.toNat, h.headerCrc.toNat,
      h.sourcesCrc.toNat, h.finalized, h.reserved, 0]

def toBytes (h : CutHeader) : Bytes := pack widths h.fields

/-- `cutHeaderCrc`. -/
def cutHeaderCrc (h : CutHeader) : UInt32 := crc32c { h with crc := 0, headerCrc := 0 }.toBytes

end CutHeader

def CorpusCut.tables (cut : CorpusCut) : Bytes :=
  tableBytes cut.sources ++ tableBytes cut.gaps ++ tableBytes cut.blocks ++ cut.referencePayload

/-- The bytes that `writeCorpusCut` writes. -/
def encodeCorpusCut (cut : CorpusCut) : Bytes :=
  let header : CutHeader := {
    generation := cut.generation
    committedMonotonicNs := cut.committedMonotonicNs
    progress := cut.progress
    manifest := cut.manifest
    finalized := if cut.finalized then 1 else 0
    sources := cut.sources.length
    gaps := cut.gaps.length
    blocks := cut.blocks.length
    referenceBytes := cut.referencePayload.length
    bytes := 896 + cut.tables.length
    sourcesCrc := crc32c (tableBytes cut.sources) }
  let header := { header with headerCrc := header.cutHeaderCrc }
  let header := { header with crc := crc32c (header.toBytes ++ cut.tables) }
  header.toBytes ++ cut.tables

/-! ## Progress and the reference payload -/

/-- The part of `updateProgress` that looks at one shard. -/
def shardProgressAllowed (s : WriterState) (progress : CorpusProducerProgress) (n : ℕ) : Bool :=
  let transaction := s.depthTransactions n
  !((progress.shardSequences n).toNat < (s.progress.shardSequences n).toNat ||
    (progress.shardSequences n).toNat > (s.segments n).previousShardSequence ||
    (transaction.active &&
      ((progress.shardSequences n).toNat ≥ transaction.firstShardSequence ||
        progress.safeMonotonicNs.toNat > transaction.receiveMonotonicNs)))

/-- `updateProgress`. -/
def updateProgress (s : WriterState) (progress : CorpusProducerProgress) : Status × WriterState :=
  if !s.active ∨ progress.producerEpoch ≠ s.config.producerEpoch ∨
      progress.shardCount ≠ s.config.shardCount ∨
      progress.safeMonotonicNs < s.progress.safeMonotonicNs ∨
      progress.lossEpoch < s.progress.lossEpoch ∨
      progress.directoryRevision < s.progress.directoryRevision then (.invalidArgument, s)
  else if s.shards.all (shardProgressAllowed s progress) then (.ok, { s with progress })
  else (.invalidArgument, s)

/-- `setReferencePayload`. -/
def setReferencePayload (s : WriterState) (payload : Bytes) : Status × WriterState :=
  if !s.active ∨ payload.length > s.config.maximumReferenceBytes.toNat ∨
      payload.length > kCorpusMaximumReferenceBytes then (.invalidArgument, s)
  else
    -- The difference is zero when the payload already fits what is reserved.
    let growth := payload.length - s.referenceReservedBytes
    match addProduct 0 growth 2 with
    | none => (.outOfRange, { s with quotaReached := true })
    | some requiredBytes =>
      if !addWithin s.cutReservedBytes requiredBytes maximumUInt64 ∨
          !addWithin s.projectedBytes requiredBytes s.writeLimitBytes then
        (.outOfRange, { s with quotaReached := true })
      else
        match reserveBytes s requiredBytes with
        | (false, s) => (.outOfRange, s)
        | (true, s) =>
          (.ok, { s with
            cutReservedBytes := s.cutReservedBytes + requiredBytes
            referenceReservedBytes := max s.referenceReservedBytes payload.length
            referencePayload := payload })

/-! ## Publishing a cut -/

/-- Flush, and sync the file of, every open segment of the given shards. -/
def flushAndSyncShards (X : Platform) : List ℕ → WriterState → Bool × WriterState
  | [], s => (true, s)
  | shard :: shards, s =>
    if (s.segments shard).isOpen then
      andThen (flushBlock X s shard) fun s =>
      andThen (streamFlush s shard) fun s =>
      andThen (onDisk s Disk.sync) (flushAndSyncShards X shards)
    else flushAndSyncShards X shards s

def currentCut (s : WriterState) (now : ℕ) : CorpusCut where
  generation := s.cutGeneration + 1
  committedMonotonicNs := now
  progress := s.progress
  manifest := { s.manifest with projectedBytes := s.projectedBytes }
  sources := s.sources
  gaps := s.gaps
  blocks := s.blocks
  referencePayload := s.referencePayload
  finalized := 0 < s.manifest.finalizedReceiveNs

/-- The cut after the reference binder, or the status with which it is refused. -/
def bindReference (s : WriterState) (cut : CorpusCut) : Except Status CorpusCut :=
  match s.config.referenceVisibilityBinder with
  | none => .ok cut
  | some binder =>
    let previous := match s.publication.latest with
      | some previous => previous.referencePayload
      | none => []
    match binder cut.referencePayload previous cut.generation cut.committedMonotonicNs with
    | (.ok, payload) =>
      if payload.length > s.config.maximumReferenceBytes.toNat ∨
          payload.length > kCorpusMaximumReferenceBytes then .error .outOfRange
      else if payload.length ≠ s.referencePayload.length then .error .invalidArgument
      else .ok { cut with referencePayload := payload }
    | (status, _) => .error status

/-- The state after a cut is durable. A cut whose safe time is past the replay anchor freezes the
anchor. -/
def adoptCut (s : WriterState) (cut : CorpusCut) : WriterState :=
  { s with
    replayAnchorFrozen := s.replayAnchorFrozen ||
      (cut.manifest.recordCount ≠ 0 &&
        cut.progress.safeMonotonicNs.toNat > cut.manifest.replayAnchorMonotonicNs)
    cutGeneration := s.cutGeneration + 1
    publication := { s.publication with latest := some cut } }

/-- The part of `publishCut` after the flush: test the reservation, bind the reference, and replace
the cut file. -/
def commitCut (s : WriterState) (now : ℕ) : Status × WriterState :=
  match cutReservationBytes s.sources.length s.gaps.length s.blocks.length
      s.referencePayload.length with
  | none => (.corruptData, s)
  | some required =>
    if required > s.cutReservedBytes then (.corruptData, s)
    else
      match bindReference s (currentCut s now) with
      | .error status => (status, s)
      | .ok cut =>
        match andThen (onDisk s Disk.sync) fun s =>
            onDisk s fun d => d.replace .cutPending .cut [encodeCorpusCut cut] with
        | (false, s) => (.ioError, s)
        | (true, s) => (.ok, adoptCut s cut)

/-- `publishCut`. -/
def publishCut (X : Platform) (s : WriterState) (now : ℕ) : Status × WriterState :=
  if !s.active ∨ s.cutGeneration = maximumUInt64 then (.invalidArgument, s)
  else
    match flushAndSyncShards X s.shards s with
    | (false, s) => (.ioError, s)
    | (true, s) => commitCut s now

/-! ## Sealing the corpus -/

def tableHeader {α : Type} [Layout α] (magic : ℕ) (records : List α) : BinaryMarketTableHeader :=
  let header : BinaryMarketTableHeader := {
    magic
    headerBytes := 64
    recordBytes := Layout.size α
    recordCount := records.length
    recordsCrc32c := crc32c (tableBytes records) }
  { header with headerCrc32c := header.crc }

/-- `writeTableAtomic`. -/
def writeTableAtomic {α : Type} [Layout α] (s : WriterState) (temporary target : CorpusFile)
    (magic : ℕ) (records : List α) : Bool × WriterState :=
  if records.length > maximumUInt32 then (false, s)
  else onDisk s fun d => d.replace temporary target
    (Layout.toBytes (tableHeader magic records) ::
      if records = [] then [] else [tableBytes records])

def writeTables (s : WriterState) : Bool × WriterState :=
  andThen (writeTableAtomic s .sourcesTmp .sources kBinaryMarketSourcesMagic s.sources) fun s =>
  andThen (writeTableAtomic s .indexTmp .index kBinaryMarketIndexMagic s.index) fun s =>
    writeTableAtomic s .gapsTmp .gaps kBinaryMarketGapsMagic s.gaps

/-- The manifest of a sealed corpus, before its cut is published. -/
def finalManifest (s : WriterState) (reason : BinaryMarketStopReason) (finalizedReceiveNs : ℤ) :
    BinaryMarketManifest :=
  { s.manifest with
    startedReceiveNs :=
      if 0 < s.manifest.firstReceiveNs then
        min s.config.startedReceiveNs.toInt s.manifest.firstReceiveNs
      else s.config.startedReceiveNs.toInt
    finalizedReceiveNs :=
      max (max finalizedReceiveNs s.config.startedReceiveNs.toInt) s.manifest.lastReceiveNs
    stopReason := reason
    complete := if reason = .error then 0 else 1
    indexCount := s.index.length
    sourcesCrc32c := crc32c (tableBytes s.sources)
    indexCrc32c := crc32c (tableBytes s.index)
    gapsCrc32c := crc32c (tableBytes s.gaps)
    projectedBytes := s.projectedBytes }

/-- The reason is one of the five that the enumeration names. -/
def knownStopReason : BinaryMarketStopReason → Bool
  | .other _ => false
  | _ => true

/-- The end of `finalize`: write `manifest.bin` and stop being active. -/
def sealManifest (s : WriterState) : Status × WriterState :=
  let s := { s with manifest := { s.manifest with projectedBytes := s.projectedBytes } }
  match onDisk s fun d => d.replace .manifestTmp .manifest [manifestBytes s.manifest] with
  | (false, s) => (.ioError, s)
  | (true, s) =>
    -- The removal of the pending manifest may fail silently.
    let s := (onDisk s fun d => d.remove .manifestPending).2
    (.ok, { s with active := false })

/-- The part of `finalize` from the publication on. A failure in it leaves the writer active, with
the manifest already complete. -/
def publishSealed (X : Platform) (s : WriterState) (now : ℕ) : Status × WriterState :=
  match publishCut X s now with
  | (.ok, s) => sealManifest s
  | (status, s) => (status, s)

/-- `finalize`. -/
def finalize (X : Platform) (s : WriterState) (reason : BinaryMarketStopReason)
    (finalizedReceiveNs : Int64) (now : ℕ) : Status × WriterState :=
  if !s.active ∨ finalizedReceiveNs.toInt ≤ 0 ∨ !knownStopReason reason then (.invalidArgument, s)
  else if (List.range kBinaryMarketMaximumShards).any fun n => (s.depthTransactions n).active then
    (.corruptData, s)
  else
    match andThen (sealShards X s.shards s) writeTables with
    | (false, s) => (.ioError, s)
    | (true, s) =>
      publishSealed X { s with manifest := finalManifest s reason finalizedReceiveNs.toInt } now

end HftRecorder.Corpus
