import HftRecorder.Lib.Disk
import HftRecorder.Writer.State
import HftRecorder.Format.Tables

/-!
# Decoding a segment

`SegmentDecoder` of `BinaryMarketCorpusReader.cpp`: it reads one segment file from its header to its
footer and hands out one row at a time. A whole block is read, decoded, and checked before its first
row is handed out. Nothing is assumed of the file; every check of the code is here, in its order
where the order decides the message.
-/

namespace HftRecorder.Corpus

open ByteLayout Codec

/-- `SegmentKey`. -/
structure SegmentKey where
  number : ℕ
  shard : ℕ
  deriving DecidableEq, Repr

/-- `segmentPath`. -/
def segmentPath (key : SegmentKey) : CorpusFile := .sealedSegment key.shard key.number

/-- `SegmentDecoder`. -/
structure SegmentDecoder where
  /-- What the stream has not read yet. -/
  stream : Bytes
  header : BinaryMarketSegmentHeader
  /-- The rows of `decoded` from `position` to `count`. -/
  decoded : List BinaryMarketRecord := []
  recordsSeen : ℕ := 0
  bodyBytes : ℕ := 0
  previousSequence : ℕ := 0
  previousMonotonic : ℕ := 0
  blocksSeen : ℕ := 0
  recordsCrc : UInt32 := 0
  firstReceive : ℤ := 0
  lastReceive : ℤ := 0
  finished : Bool := false

namespace SegmentDecoder

/-- The tests of `open` on the header of a segment file of the given size. -/
def validHeader (h : BinaryMarketSegmentHeader) (key : SegmentKey) (epoch fileBytes : ℕ) : Bool :=
  h.magic = kBinaryMarketSegmentMagic && h.headerBytes = 128 &&
    h.recordBytes = (binaryMarketBlockLayout .depth).recordBytes &&
    h.recordCount ≠ 0 && h.blockCount ≠ 0 && h.blockCount ≤ h.recordCount && h.codecId = 1 &&
    0 < h.firstReceiveNs && h.firstReceiveNs ≤ h.lastReceiveNs &&
    h.segmentNumber = key.number && h.shardIndex = key.shard && h.producerEpoch = epoch &&
    h.reserved16 = 0 && h.reserved = 0 && h.headerCrc32c = h.crc &&
    h.storedBlockBytes ≤ maximumUInt64 - 128 - 64 && fileBytes = 128 + h.storedBlockBytes + 64

/-- `SegmentDecoder::open`. -/
def «open» (disk : Disk CorpusFile) (key : SegmentKey) (epoch : ℕ) : Except String SegmentDecoder :=
  match disk.read (segmentPath key) with
  | none => .error "binary corpus compressed segment header mismatch"
  | some file =>
    let header : BinaryMarketSegmentHeader := Layout.ofBytes (file.take 128)
    if file.length < 128 ∨ !validHeader header key epoch file.length then
      .error "binary corpus compressed segment header mismatch"
    else .ok { stream := file.drop 128, header }

/-- The tests of `next` on the footer. -/
def validFooter (d : SegmentDecoder) (f : BinaryMarketSegmentFooter) : Bool :=
  f.magic = kBinaryMarketSegmentFooterMagic && f.footerBytes = 64 &&
    f.segmentNumber = d.header.segmentNumber && f.recordCount = d.header.recordCount &&
    f.recordsCrc32c = d.header.recordsCrc32c && f.firstReceiveNs = d.header.firstReceiveNs &&
    f.lastReceiveNs = d.header.lastReceiveNs && f.reserved = 0 && f.footerCrc32c = f.crc &&
    d.recordsSeen = d.header.recordCount && d.bodyBytes = d.header.storedBlockBytes &&
    d.recordsCrc = d.header.recordsCrc32c && d.firstReceive = d.header.firstReceiveNs &&
    d.lastReceive = d.header.lastReceiveNs

/-- The tests of `next` on the header of a block. -/
def validBlock (X : Platform) (d : SegmentDecoder) (b : BinaryMarketBlockHeader) : Bool :=
  b.magic = kBinaryMarketBlockMagic && b.headerBytes = 64 &&
    b.blockNumber = d.blocksSeen + 1 && b.recordCount ≠ 0 &&
    b.recordCount ≤ kBinaryMarketBlockRecords && b.rawBytes = b.recordCount * d.header.recordBytes &&
    validBinaryMarketRecordChannel b.channel && b.encodedBytes ≠ 0 &&
    b.encodedBytes ≤ X.byteBlockEncodeBound (binaryMarketBlockLayout b.channel) b.recordCount &&
    b.reserved = 0 && b.firstShardSequence ≠ 0 && b.firstShardSequence ≤ b.lastShardSequence &&
    b.headerCrc32c = b.crc && d.bodyBytes ≤ d.header.storedBlockBytes &&
    64 + b.encodedBytes ≤ d.header.storedBlockBytes - d.bodyBytes &&
    d.recordsSeen ≤ d.header.recordCount && b.recordCount ≤ d.header.recordCount - d.recordsSeen

/-- The tests of `next` on one row of a block. -/
def validRow (X : Platform) (sourceCount : ℕ) (channel : BinaryMarketChannel) (d : SegmentDecoder)
    (row : BinaryMarketRecord) : Bool :=
  validBinaryMarketRecord X row && row.channel = channel && row.shardIndex = d.header.shardIndex &&
    row.sourceId ≤ sourceCount &&
    !(d.previousSequence ≠ 0 && row.shardSequence ≤ d.previousSequence) &&
    !(d.previousMonotonic ≠ 0 && row.receiveMonotonicNs < d.previousMonotonic) &&
    row.payloadTailIsZero

def countRow (d : SegmentDecoder) (row : BinaryMarketRecord) : SegmentDecoder :=
  { d with
    previousSequence := row.shardSequence
    previousMonotonic := row.receiveMonotonicNs
    firstReceive :=
      if d.firstReceive = 0 ∨ row.receiveRealtimeNs < d.firstReceive then row.receiveRealtimeNs
      else d.firstReceive
    lastReceive := max d.lastReceive row.receiveRealtimeNs }

/-- The loop of `next` over the rows of a block. -/
def countRows (X : Platform) (sourceCount : ℕ) (channel : BinaryMarketChannel) :
    SegmentDecoder → List BinaryMarketRecord → Option SegmentDecoder
  | d, [] => some d
  | d, row :: rows =>
    if validRow X sourceCount channel d row then
      countRows X sourceCount channel (d.countRow row) rows
    else none

/-- The rows of a block, decoded: the part of `next` after the block's bytes passed their
checksum. -/
def decodeRows (X : Platform) (b : BinaryMarketBlockHeader) (encoded : Bytes) :
    Except String (Bytes × List BinaryMarketRecord) :=
  match X.decodeByteBlock (binaryMarketBlockLayout b.channel) encoded b.rawBytes with
  | none => .error "binary corpus compressed block decode mismatch"
  | some raw =>
    let rows : List BinaryMarketRecord := tableOf b.recordCount raw
    if raw.length ≠ b.rawBytes ∨ crc32c raw ≠ b.rawCrc32c ∨
        rows.head?.map BinaryMarketRecord.shardSequence ≠ some b.firstShardSequence ∨
        rows.getLast?.map BinaryMarketRecord.shardSequence ≠ some b.lastShardSequence then
      .error "binary corpus compressed block decode mismatch"
    else .ok (raw, rows)

/-- The part of `next` that reads the next block. -/
def readBlock (X : Platform) (sourceCount : ℕ) (d : SegmentDecoder) : Except String SegmentDecoder :=
  let block : BinaryMarketBlockHeader := Layout.ofBytes (d.stream.take 64)
  let body := d.stream.drop 64
  let encoded := body.take block.encodedBytes
  if d.stream.length < 64 ∨ !validBlock X d block ∨ body.length < block.encodedBytes ∨
      crc32c encoded ≠ block.encodedCrc32c then
    .error "binary corpus compressed block header or CRC mismatch"
  else
    match decodeRows X block encoded with
    | .error e => .error e
    | .ok (raw, rows) =>
      match countRows X sourceCount block.channel d rows with
      | none => .error "binary corpus segment record mismatch"
      | some counted =>
        .ok { counted with
          stream := body.drop block.encodedBytes
          decoded := rows
          recordsCrc := crc32cUpdate d.recordsCrc raw
          recordsSeen := d.recordsSeen + block.recordCount
          bodyBytes := d.bodyBytes + (64 + block.encodedBytes)
          blocksSeen := d.blocksSeen + 1 }

/-- `SegmentDecoder::next`: the next row if there is one, and the decoder after it. -/
def next (X : Platform) (sourceCount : ℕ) (d : SegmentDecoder) :
    Except String (Option BinaryMarketRecord × SegmentDecoder) :=
  if d.finished then .ok (none, d)
  else
    match d.decoded with
    | row :: rows => .ok (some row, { d with decoded := rows })
    | [] =>
      if d.blocksSeen = d.header.blockCount then
        if d.stream.length < 64 ∨ !validFooter d (Layout.ofBytes (d.stream.take 64)) then
          .error "binary corpus segment footer or CRC mismatch"
        else .ok (none, { d with finished := true, stream := d.stream.drop 64 })
      else
        match readBlock X sourceCount d with
        | .error e => .error e
        | .ok d =>
          match d.decoded with
          | row :: rows => .ok (some row, { d with decoded := rows })
          -- A block that passes has rows.
          | [] => .ok (none, d)

end SegmentDecoder

end HftRecorder.Corpus
