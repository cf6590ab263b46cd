import HftRecorder.Codec.Crc32c
import HftRecorder.Format.Record

/-!
# Headers and table entries

The structures that frame records on disk: the manifest, the header of a table, the header and
footer of a segment, the header of a block, the index entry, the gap entry, and the block range of a
cut. Each is given by its members in declaration order and the list of their widths, padding
included, so that its representation is `pack` of the members. Padding is zero in every value that
the writer builds. A checksum member covers the representation with that member set to zero.
-/

namespace HftRecorder.Corpus

open ByteLayout Codec

/-- `kBinaryMarketManifestMagic`. -/
def kBinaryMarketManifestMagic : ℕ := 0x4d435248
/-- `kBinaryMarketSourcesMagic`. -/
def kBinaryMarketSourcesMagic : ℕ := 0x53435248
/-- `kBinaryMarketIndexMagic`. -/
def kBinaryMarketIndexMagic : ℕ := 0x49435248
/-- `kBinaryMarketGapsMagic`. -/
def kBinaryMarketGapsMagic : ℕ := 0x47435248
/-- `kBinaryMarketSegmentMagic`. -/
def kBinaryMarketSegmentMagic : ℕ := 0x53475248
/-- `kBinaryMarketSegmentFooterMagic`. -/
def kBinaryMarketSegmentFooterMagic : ℕ := 0x46475248
/-- `kBinaryMarketBlockMagic`. -/
def kBinaryMarketBlockMagic : ℕ := 0x42435248
/-- `kBinaryMarketBlockRecords`. -/
def kBinaryMarketBlockRecords : ℕ := 256

/-! ## Manifest -/

/-- `BinaryMarketStopReason`. -/
inductive BinaryMarketStopReason
  | requested
  | duration
  | quota
  | parserDisconnected
  | error
  | other (code : ℕ)
  deriving DecidableEq, Repr

/-- The stop reason stored as the given byte. -/
def BinaryMarketStopReason.ofCode : ℕ → BinaryMarketStopReason
  | 1 => requested
  | 2 => duration
  | 3 => quota
  | 4 => parserDisconnected
  | 5 => error
  | n => other n

/-- The byte that a stop reason is stored as. -/
def BinaryMarketStopReason.code : BinaryMarketStopReason → ℕ
  | requested => 1
  | duration => 2
  | quota => 3
  | parserDisconnected => 4
  | error => 5
  | other n => n

/-- `BinaryMarketManifest`. -/
structure BinaryMarketManifest where
  magic : ℕ := kBinaryMarketManifestMagic
  headerBytes : ℕ := 0
  padding : ℕ := 0
  producerEpoch : ℕ := 0
  startedReceiveNs : ℤ := 0
  replayAnchorReceiveNs : ℤ := 0
  replayAnchorMonotonicNs : ℕ := 0
  finalizedReceiveNs : ℤ := 0
  firstReceiveNs : ℤ := 0
  lastReceiveNs : ℤ := 0
  maximumBytes : ℕ := 0
  segmentTargetBytes : ℕ := 0
  projectedBytes : ℕ := 0
  recordCount : ℕ := 0
  gapCount : ℕ := 0
  sourceCount : ℕ := 0
  segmentCount : ℕ := 0
  indexCount : ℕ := 0
  shardCount : ℕ := 0
  stopReason : BinaryMarketStopReason := .requested
  complete : ℕ := 0
  sourcesCrc32c : UInt32 := 0
  indexCrc32c : UInt32 := 0
  gapsCrc32c : UInt32 := 0
  manifestCrc32c : UInt32 := 0
  reserved : ℕ := 0
  tailPadding : ℕ := 0
  deriving DecidableEq

namespace BinaryMarketManifest

def widths : List ℕ :=
  [4, 2, 2, 8, 8, 8, 8, 8, 8, 8, 8, 8, 8, 8, 8, 4, 4, 4, 2, 1, 1, 4, 4, 4, 4, 40, 16]

def fields (m : BinaryMarketManifest) : List ℕ :=
  [m.magic, m.headerBytes, m.padding, m.producerEpoch, ofInt64 m.startedReceiveNs,
    ofInt64 m.replayAnchorReceiveNs, m.replayAnchorMonotonicNs, ofInt64 m.finalizedReceiveNs,
    ofInt64 m.firstReceiveNs, ofInt64 m.lastReceiveNs, m.maximumBytes, m.segmentTargetBytes,
    m.projectedBytes, m.recordCount, m.gapCount, m.sourceCount, m.segmentCount, m.indexCount,
    m.shardCount, m.stopReason.code, m.complete, m.sourcesCrc32c.toNat, m.indexCrc32c.toNat,
    m.gapsCrc32c.toNat, m.manifestCrc32c.toNat, m.reserved, m.tailPadding]

def ofFields : List ℕ → BinaryMarketManifest
  | [magic, headerBytes, padding, producerEpoch, startedReceiveNs, replayAnchorReceiveNs,
      replayAnchorMonotonicNs, finalizedReceiveNs, firstReceiveNs, lastReceiveNs, maximumBytes,
      segmentTargetBytes, projectedBytes, recordCount, gapCount, sourceCount, segmentCount,
      indexCount, shardCount, stopReason, complete, sourcesCrc32c, indexCrc32c, gapsCrc32c,
      manifestCrc32c, reserved, tailPadding] =>
    ⟨magic, headerBytes, padding, producerEpoch, toInt64 startedReceiveNs,
      toInt64 replayAnchorReceiveNs, replayAnchorMonotonicNs, toInt64 finalizedReceiveNs,
      toInt64 firstReceiveNs, toInt64 lastReceiveNs, maximumBytes, segmentTargetBytes,
      projectedBytes, recordCount, gapCount, sourceCount, segmentCount, indexCount, shardCount,
      .ofCode stopReason, complete, .ofNat sourcesCrc32c, .ofNat indexCrc32c, .ofNat gapsCrc32c,
      .ofNat manifestCrc32c, reserved, tailPadding⟩
  | _ => {}

instance : Layout BinaryMarketManifest := packedLayout widths fields ofFields fun _ => rfl

/-- The checksum that a manifest must carry. -/
def crc (m : BinaryMarketManifest) : UInt32 := crc32c (Layout.toBytes { m with manifestCrc32c := 0 })

end BinaryMarketManifest

/-! ## Table header -/

/-- `BinaryMarketTableHeader`. -/
structure BinaryMarketTableHeader where
  magic : ℕ := 0
  headerBytes : ℕ := 0
  padding : ℕ := 0
  recordBytes : ℕ := 0
  recordCount : ℕ := 0
  recordsCrc32c : UInt32 := 0
  headerCrc32c : UInt32 := 0
  reserved : ℕ := 0
  deriving DecidableEq

namespace BinaryMarketTableHeader

/-- The widths of a table header's members. -/
def widths : List ℕ := [4, 2, 2, 4, 4, 4, 4, 40]

def fields (h : BinaryMarketTableHeader) : List ℕ :=
  [h.magic, h.headerBytes, h.padding, h.recordBytes, h.recordCount, h.recordsCrc32c.toNat,
    h.headerCrc32c.toNat, h.reserved]

/-- The table header with the given members. -/
def ofFields : List ℕ → BinaryMarketTableHeader
  | [magic, headerBytes, padding, recordBytes, recordCount, recordsCrc32c, headerCrc32c, reserved] =>
    ⟨magic, headerBytes, padding, recordBytes, recordCount, .ofNat recordsCrc32c,
      .ofNat headerCrc32c, reserved⟩
  | _ => {}

instance : Layout BinaryMarketTableHeader := packedLayout widths fields ofFields fun _ => rfl

/-- `headerCrc` on a table header. -/
def crc (h : BinaryMarketTableHeader) : UInt32 := crc32c (Layout.toBytes { h with headerCrc32c := 0 })

end BinaryMarketTableHeader

/-! ## Segments and blocks -/

/-- `BinaryMarketSegmentHeader`. -/
structure BinaryMarketSegmentHeader where
  magic : ℕ := kBinaryMarketSegmentMagic
  headerBytes : ℕ := 0
  padding : ℕ := 0
  recordBytes : ℕ := 0
  segmentNumber : ℕ := 0
  producerEpoch : ℕ := 0
  recordCount : ℕ := 0
  firstReceiveNs : ℤ := 0
  lastReceiveNs : ℤ := 0
  shardIndex : ℕ := 0
  reserved16 : ℕ := 0
  recordsCrc32c : UInt32 := 0
  headerCrc32c : UInt32 := 0
  padding32 : ℕ := 0
  storedBlockBytes : ℕ := 0
  blockCount : ℕ := 0
  codecId : ℕ := 1
  reserved : ℕ := 0
  deriving DecidableEq

namespace BinaryMarketSegmentHeader

/-- The widths of a segment header's members. -/
def widths : List ℕ := [4, 2, 2, 4, 4, 8, 8, 8, 8, 2, 2, 4, 4, 4, 8, 4, 4, 48]

def fields (h : BinaryMarketSegmentHeader) : List ℕ :=
  [h.magic, h.headerBytes, h.padding, h.recordBytes, h.segmentNumber, h.producerEpoch,
    h.recordCount, ofInt64 h.firstReceiveNs, ofInt64 h.lastReceiveNs, h.shardIndex, h.reserved16,
    h.recordsCrc32c.toNat, h.headerCrc32c.toNat, h.padding32, h.storedBlockBytes, h.blockCount,
    h.codecId, h.reserved]

/-- The segment header with the given members. -/
def ofFields : List ℕ → BinaryMarketSegmentHeader
  | [magic, headerBytes, padding, recordBytes, segmentNumber, producerEpoch, recordCount,
      firstReceiveNs, lastReceiveNs, shardIndex, reserved16, recordsCrc32c, headerCrc32c, padding32,
      storedBlockBytes, blockCount, codecId, reserved] =>
    ⟨magic, headerBytes, padding, recordBytes, segmentNumber, producerEpoch, recordCount,
      toInt64 firstReceiveNs, toInt64 lastReceiveNs, shardIndex, reserved16, .ofNat recordsCrc32c,
      .ofNat headerCrc32c, padding32, storedBlockBytes, blockCount, codecId, reserved⟩
  | _ => {}

instance : Layout BinaryMarketSegmentHeader := packedLayout widths fields ofFields fun _ => rfl

/-- `headerCrc` on a segment header. -/
def crc (h : BinaryMarketSegmentHeader) : UInt32 :=
  crc32c (Layout.toBytes { h with headerCrc32c := 0 })

end BinaryMarketSegmentHeader

/-- `BinaryMarketBlockHeader`. -/
structure BinaryMarketBlockHeader where
  magic : ℕ := kBinaryMarketBlockMagic
  headerBytes : ℕ := 64
  padding : ℕ := 0
  blockNumber : ℕ := 0
  recordCount : ℕ := 0
  rawBytes : ℕ := 0
  encodedBytes : ℕ := 0
  rawCrc32c : UInt32 := 0
  encodedCrc32c : UInt32 := 0
  firstShardSequence : ℕ := 0
  lastShardSequence : ℕ := 0
  headerCrc32c : UInt32 := 0
  channel : BinaryMarketChannel := .bookTicker
  reserved : ℕ := 0
  deriving DecidableEq

namespace BinaryMarketBlockHeader

/-- The widths of a block header's members. -/
def widths : List ℕ := [4, 2, 2, 4, 4, 4, 4, 4, 4, 8, 8, 4, 1, 11]

def fields (h : BinaryMarketBlockHeader) : List ℕ :=
  [h.magic, h.headerBytes, h.padding, h.blockNumber, h.recordCount, h.rawBytes, h.encodedBytes,
    h.rawCrc32c.toNat, h.encodedCrc32c.toNat, h.firstShardSequence, h.lastShardSequence,
    h.headerCrc32c.toNat, h.channel.code, h.reserved]

/-- The block header with the given members. -/
def ofFields : List ℕ → BinaryMarketBlockHeader
  | [magic, headerBytes, padding, blockNumber, recordCount, rawBytes, encodedBytes, rawCrc32c,
      encodedCrc32c, firstShardSequence, lastShardSequence, headerCrc32c, channel, reserved] =>
    ⟨magic, headerBytes, padding, blockNumber, recordCount, rawBytes, encodedBytes, .ofNat rawCrc32c,
      .ofNat encodedCrc32c, firstShardSequence, lastShardSequence, .ofNat headerCrc32c,
      .ofCode channel, reserved⟩
  | _ => {}

instance : Layout BinaryMarketBlockHeader := packedLayout widths fields ofFields fun _ => rfl

/-- `headerCrc` on a block header. -/
def crc (h : BinaryMarketBlockHeader) : UInt32 :=
  crc32c (Layout.toBytes { h with headerCrc32c := 0 })

end BinaryMarketBlockHeader

/-- `BinaryMarketSegmentFooter`. -/
structure BinaryMarketSegmentFooter where
  magic : ℕ := kBinaryMarketSegmentFooterMagic
  footerBytes : ℕ := 0
  padding : ℕ := 0
  segmentNumber : ℕ := 0
  recordsCrc32c : UInt32 := 0
  recordCount : ℕ := 0
  firstReceiveNs : ℤ := 0
  lastReceiveNs : ℤ := 0
  footerCrc32c : UInt32 := 0
  reserved : ℕ := 0
  deriving DecidableEq

namespace BinaryMarketSegmentFooter

/-- The widths of a segment footer's members. -/
def widths : List ℕ := [4, 2, 2, 4, 4, 8, 8, 8, 4, 20]

def fields (h : BinaryMarketSegmentFooter) : List ℕ :=
  [h.magic, h.footerBytes, h.padding, h.segmentNumber, h.recordsCrc32c.toNat, h.recordCount,
    ofInt64 h.firstReceiveNs, ofInt64 h.lastReceiveNs, h.footerCrc32c.toNat, h.reserved]

/-- The segment footer with the given members. -/
def ofFields : List ℕ → BinaryMarketSegmentFooter
  | [magic, footerBytes, padding, segmentNumber, recordsCrc32c, recordCount, firstReceiveNs,
      lastReceiveNs, footerCrc32c, reserved] =>
    ⟨magic, footerBytes, padding, segmentNumber, .ofNat recordsCrc32c, recordCount,
      toInt64 firstReceiveNs, toInt64 lastReceiveNs, .ofNat footerCrc32c, reserved⟩
  | _ => {}

instance : Layout BinaryMarketSegmentFooter := packedLayout widths fields ofFields fun _ => rfl

/-- `headerCrc` on a segment footer. -/
def crc (h : BinaryMarketSegmentFooter) : UInt32 :=
  crc32c (Layout.toBytes { h with footerCrc32c := 0 })

end BinaryMarketSegmentFooter

/-! ## Index, gaps, and block ranges -/

/-- The bits of `BinaryMarketIndexFlags`. -/
def indexHasGap : UInt32 := 0x1
def indexHasRecordedOnly : UInt32 := 0x2

/-- `BinaryMarketIndexEntry`. -/
structure BinaryMarketIndexEntry where
  segmentNumber : ℕ := 0
  sourceId : ℕ := 0
  sourceGeneration : ℕ := 0
  recordCount : ℕ := 0
  gapCount : ℕ := 0
  firstEventSequence : ℕ := 0
  lastEventSequence : ℕ := 0
  firstReceiveNs : ℤ := 0
  lastReceiveNs : ℤ := 0
  flags : UInt32 := 0
  shardIndex : ℕ := 0
  channel : BinaryMarketChannel := .bookTicker
  compatibility : BinaryMarketCompatibility := .unavailable
  deriving DecidableEq

namespace BinaryMarketIndexEntry

/-- The widths of an index entry's members. -/
def widths : List ℕ := [4, 4, 8, 8, 8, 8, 8, 8, 8, 4, 2, 1, 1]

def fields (e : BinaryMarketIndexEntry) : List ℕ :=
  [e.segmentNumber, e.sourceId, e.sourceGeneration, e.recordCount, e.gapCount,
    e.firstEventSequence, e.lastEventSequence, ofInt64 e.firstReceiveNs, ofInt64 e.lastReceiveNs,
    e.flags.toNat, e.shardIndex, e.channel.code, e.compatibility.code]

/-- The index entry with the given members. -/
def ofFields : List ℕ → BinaryMarketIndexEntry
  | [segmentNumber, sourceId, sourceGeneration, recordCount, gapCount, firstEventSequence,
      lastEventSequence, firstReceiveNs, lastReceiveNs, flags, shardIndex, channel, compatibility] =>
    ⟨segmentNumber, sourceId, sourceGeneration, recordCount, gapCount, firstEventSequence,
      lastEventSequence, toInt64 firstReceiveNs, toInt64 lastReceiveNs, .ofNat flags, shardIndex,
      .ofCode channel, .ofCode compatibility⟩
  | _ => {}

instance : Layout BinaryMarketIndexEntry := packedLayout widths fields ofFields fun _ => rfl

/-- The entry that both the writer and the reader start for a source, generation, and channel of a
segment. -/
def fresh (segmentNumber shardIndex sourceId sourceGeneration : ℕ)
    (channel : BinaryMarketChannel) : BinaryMarketIndexEntry :=
  { segmentNumber, sourceId, sourceGeneration, shardIndex, channel,
    compatibility := .exactTraderReplay }

/-- The entry after one more record, as the writer's `append` and the reader's `open` both count
it. -/
def count (e : BinaryMarketIndexEntry) (r : BinaryMarketRecord) : BinaryMarketIndexEntry :=
  { e with
    recordCount := e.recordCount + 1
    firstEventSequence := if e.firstEventSequence = 0 then r.eventSequence else e.firstEventSequence
    lastEventSequence := r.eventSequence
    firstReceiveNs :=
      if e.firstReceiveNs = 0 ∨ r.receiveRealtimeNs < e.firstReceiveNs then r.receiveRealtimeNs
      else e.firstReceiveNs
    lastReceiveNs :=
      if r.receiveRealtimeNs > e.lastReceiveNs then r.receiveRealtimeNs else e.lastReceiveNs
    flags :=
      e.flags ||| (if r.hasFlag recordTraderReplayCompatible then 0 else indexHasRecordedOnly) |||
        (if r.hasFlag recordGapBoundary then indexHasGap else 0)
    compatibility :=
      if r.hasFlag recordTraderReplayCompatible then e.compatibility else .recordedOnly
    gapCount := if r.hasFlag recordGapBoundary then e.gapCount + 1 else e.gapCount }

end BinaryMarketIndexEntry

/-- `BinaryMarketGap`, as its object representation. -/
structure BinaryMarketGap extends Raw 80
  deriving DecidableEq

instance : Layout BinaryMarketGap where
  size := 80
  toBytes g := g.bytes
  ofBytes b := ⟨Raw.ofBytes 80 b⟩
  InRange _ := True
  length_toBytes g := g.length_bytes
  ofBytes_toBytes g _ := by simp

namespace BinaryMarketGap

variable (g : BinaryMarketGap)

def sourceId : ℕ := field g.bytes 0 4
def reserved32 : ℕ := field g.bytes 4 4
def sourceGeneration : ℕ := field g.bytes 8 8
def gapEpoch : ℕ := field g.bytes 16 8
def droppedRecords : ℕ := field g.bytes 24 8
def firstDroppedEventSequence : ℕ := field g.bytes 32 8
def lastDroppedEventSequence : ℕ := field g.bytes 40 8
def minimumDroppedReceiveNs : ℤ := toInt64 (field g.bytes 48 8)
def maximumDroppedReceiveNs : ℤ := toInt64 (field g.bytes 56 8)
def observedReceiveNs : ℤ := toInt64 (field g.bytes 64 8)
def shardIndex : ℕ := field g.bytes 72 2
def channel : BinaryMarketChannel := .ofCode (field g.bytes 74 1)
def reserved8 : ℕ := field g.bytes 75 1

end BinaryMarketGap

/-- The tests of a gap entry that the writer and the reader share. -/
def validGapFields (gap : BinaryMarketGap) (sourceCount shardCount : ℕ) : Bool :=
  !(gap.sourceId = 0 || gap.sourceId > sourceCount ||
    gap.sourceGeneration = 0 || gap.gapEpoch = 0 ||
    gap.droppedRecords = 0 || gap.gapEpoch ≠ gap.droppedRecords ||
    gap.firstDroppedEventSequence = 0 || gap.lastDroppedEventSequence = 0 ||
    gap.observedReceiveNs ≤ 0 ||
    !((0 < gap.minimumDroppedReceiveNs &&
        gap.maximumDroppedReceiveNs ≥ gap.minimumDroppedReceiveNs) ||
      (gap.minimumDroppedReceiveNs = 0 && gap.maximumDroppedReceiveNs = 0)) ||
    gap.shardIndex ≥ shardCount ||
    !validBinaryMarketRecordChannel gap.channel || gap.reserved32 ≠ 0 || gap.reserved8 ≠ 0)

/-- `CorpusBlockRange`: where a block lies and what it covers. -/
structure CorpusBlockRange where
  offset : ℕ := 0
  firstMonotonicNs : ℕ := 0
  lastMonotonicNs : ℕ := 0
  segmentNumber : ℕ := 0
  shardIndex : ℕ := 0
  reserved : ℕ := 0
  header : BinaryMarketBlockHeader := {}
  deriving DecidableEq

namespace CorpusBlockRange

/-- The widths of a block range's members, those of its block header last. -/
def widths : List ℕ := [8, 8, 8, 4, 2, 2] ++ BinaryMarketBlockHeader.widths

def fields (b : CorpusBlockRange) : List ℕ :=
  [b.offset, b.firstMonotonicNs, b.lastMonotonicNs, b.segmentNumber, b.shardIndex, b.reserved] ++
    b.header.fields

/-- The block range with the given members. -/
def ofFields : List ℕ → CorpusBlockRange
  | offset :: firstMonotonicNs :: lastMonotonicNs :: segmentNumber :: shardIndex :: reserved ::
      header =>
    ⟨offset, firstMonotonicNs, lastMonotonicNs, segmentNumber, shardIndex, reserved,
      .ofFields header⟩
  | _ => {}

instance : Layout CorpusBlockRange := packedLayout widths fields ofFields fun _ => rfl

end CorpusBlockRange

/-! ## The block codec's layout -/

/-- `binaryMarketBlockLayout`. -/
def binaryMarketBlockLayout (channel : BinaryMarketChannel) : ByteBlockLayout where
  recordBytes := 1024
  payloadOffset := 104
  timestampOffset := 56
  streamType :=
    match channel with
    | .trade => .trades
    | .bookTicker => .bookTicker
    | _ => .unknown

/-- `binaryMarketPendingRecordBytes`: what the writer reserves for a record until its block is
encoded. The addition is of 64 bits. -/
def binaryMarketPendingRecordBytes (X : Platform) : ℕ :=
  (64 + X.byteBlockEncodeBound (binaryMarketBlockLayout .depth) 1) % 2 ^ 64

end HftRecorder.Corpus
