import HftRecorder.Writer.State

/-!
# Segments

The functions of `BinaryMarketCorpusWriter.cpp` that work on one shard's segment: `openSegment`,
`flushBlock`, `sealSegment`, and `ensureIndex`. Each returns whether it succeeded and the state as it
leaves it, since a failure half way keeps what was done before it. An allocation that fails is not a
failure here: `flushBlock` and `ensureIndex` could otherwise keep the entry of their first `push_back`
without the one that goes with it.
-/

namespace HftRecorder.Corpus

open ByteLayout Codec

def subWrap (a b : ℕ) : ℕ := (a + 2 ^ 64 - b) % 2 ^ 64

/-- `writeBytes` on the stream of a shard's segment. A write that fails, or that meets a stream which
is closed or no longer good, leaves the stream not good. -/
def streamWrite (s : WriterState) (shard : ℕ)
    (operation : Disk CorpusFile → Bool × Disk CorpusFile) : Bool × WriterState :=
  let segment := s.segments shard
  if segment.streamOpen && segment.streamGood then
    match operation s.disk with
    | (true, disk) => (true, s.setDisk disk)
    | (false, disk) =>
      (false, (s.setDisk disk).setSegment shard { segment with streamGood := false })
  else (false, s.setSegment shard { segment with streamGood := false })

/-- `stream.flush()` and the test that follows it. Flushing a closed stream does nothing. -/
def streamFlush (s : WriterState) (shard : ℕ) : Bool × WriterState :=
  let segment := s.segments shard
  if segment.streamOpen && segment.streamGood then streamWrite s shard Disk.sync
  else (segment.streamGood, s)

/-- `stream.close()`. -/
def streamClose (s : WriterState) (shard : ℕ) : Bool × WriterState :=
  (true, s.setSegment shard { s.segments shard with streamOpen := false })

/-- The file that a shard's open segment is written to. -/
def partialPath (s : WriterState) (shard : ℕ) : CorpusFile :=
  .partialSegment shard (s.segments shard).header.segmentNumber

/-- The file that a shard's open segment becomes. -/
def finalPath (s : WriterState) (shard : ℕ) : CorpusFile :=
  .sealedSegment shard (s.segments shard).header.segmentNumber

/-- The header that a new segment starts with. -/
def freshSegmentHeader (s : WriterState) (shard : ℕ) : BinaryMarketSegmentHeader where
  headerBytes := 128
  recordBytes := 1024
  segmentNumber := s.nextSegmentNumber
  producerEpoch := s.config.producerEpoch.toNat
  shardIndex := shard

/-- A shard's segment after `segment = {}`: only the order of the shard's records is kept. -/
def resetSegment (segment : SegmentState) : SegmentState where
  previousShardSequence := segment.previousShardSequence
  previousMonotonicNs := segment.previousMonotonicNs

/-- The part of `openSegment` that works on the file: create it and write the first header. -/
def openFile (s : WriterState) (shard : ℕ) (file : CorpusFile)
    (header : BinaryMarketSegmentHeader) : Bool × WriterState :=
  andThen (onDisk s fun d => d.create file) fun s =>
    let s := s.setSegment shard { s.segments shard with streamOpen := true }
    andThen (streamWrite s shard fun d => d.append file (Layout.toBytes header)) fun s =>
      (true, s.setSegment shard { s.segments shard with projectedBytes := 128 + 64, isOpen := true })

/-- Give a shard's next segment its number and header. -/
def numberSegment (s : WriterState) (shard : ℕ) : WriterState :=
  { s with
    nextSegmentNumber := s.nextSegmentNumber + 1
    segments := Function.update s.segments shard
      { s.segments shard with header := freshSegmentHeader s shard } }

/-- `openSegment`. The preparation of the codec's workspace is an operation that can fail. -/
def openSegment (s : WriterState) (shard : ℕ) : Bool × WriterState :=
  if s.shardCount ≤ shard then (false, s)
  else if (s.segments shard).isOpen then (true, s)
  else if s.nextSegmentNumber = maximumUInt32 then (false, s)
  else
    andThen (onDisk (s.setSegment shard (resetSegment (s.segments shard))) Disk.sync) fun s =>
      openFile (numberSegment s shard) shard (.partialSegment shard s.nextSegmentNumber)
        (freshSegmentHeader s shard)

/-- The raw bytes of the records of a block. -/
def rawBlock (records : List BinaryMarketRecord) : Bytes := tableBytes records

/-- The header of the block that holds the given records, first and rest, as encoded. -/
def blockHeader (blockCount : ℕ) (first : BinaryMarketRecord) (rest : List BinaryMarketRecord)
    (encoded : Bytes) : BinaryMarketBlockHeader :=
  let raw := rawBlock (first :: rest)
  let block : BinaryMarketBlockHeader := {
    blockNumber := blockCount + 1
    recordCount := rest.length + 1
    rawBytes := raw.length
    encodedBytes := encoded.length % 2 ^ 32
    rawCrc32c := crc32c raw
    encodedCrc32c := crc32c encoded
    firstShardSequence := first.shardSequence
    lastShardSequence := ((first :: rest).getLast (by simp)).shardSequence
    channel := first.channel }
  { block with headerCrc32c := block.crc }

/-- The range of the block that a segment with the given header stores next. -/
def blockRange (header : BinaryMarketSegmentHeader) (first : BinaryMarketRecord)
    (rest : List BinaryMarketRecord) (block : BinaryMarketBlockHeader) : CorpusBlockRange where
  offset := 128 + header.storedBlockBytes
  firstMonotonicNs := first.receiveMonotonicNs
  lastMonotonicNs := ((first :: rest).getLast (by simp)).receiveMonotonicNs
  segmentNumber := header.segmentNumber
  shardIndex := header.shardIndex
  header := block

/-- What the writer reserves for a number of pending records. -/
def pendingReservation (X : Platform) (count : ℕ) : ℕ :=
  count * binaryMarketPendingRecordBytes X % 2 ^ 64

/-- `flushBlock`: encode and write the pending records of a shard's segment as one block. -/
def flushBlock (X : Platform) (s : WriterState) (shard : ℕ) : Bool × WriterState :=
  let segment := s.segments shard
  match segment.pending with
  | [] => (true, s)
  | first :: rest =>
    let capacity := X.byteBlockEncodeBound (binaryMarketBlockLayout .depth) kBinaryMarketBlockRecords
    match X.encodeByteBlock (binaryMarketBlockLayout first.channel) (rawBlock (first :: rest))
        capacity with
    | none => (false, s)
    | some encoded =>
      if encoded.length = 0 ∨ encoded.length > capacity ∨
          segment.header.blockCount = maximumUInt32 then (false, s)
      else
        let block := blockHeader segment.header.blockCount first rest encoded
        let physicalBytes := 64 + encoded.length
        let range := blockRange segment.header first rest block
        let reservedBytes := pendingReservation X (rest.length + 1)
        if physicalBytes > reservedBytes then (false, s)
        else
          let file := partialPath s shard
          andThen (streamWrite s shard fun d => d.append file (Layout.toBytes block)) fun s =>
          andThen (streamWrite s shard fun d => d.append file encoded) fun s =>
            let released := reservedBytes - physicalBytes
            let s := { s with
              blocks := s.blocks ++ [range]
              publication := s.publication.retain range encoded
              projectedBytes := subWrap s.projectedBytes released }
            (true, s.setSegment shard { s.segments shard with
              projectedBytes := subWrap segment.projectedBytes released
              header := { segment.header with
                storedBlockBytes := segment.header.storedBlockBytes + physicalBytes
                blockCount := segment.header.blockCount + 1 }
              pending := [] })

def sealedHeader (header : BinaryMarketSegmentHeader) : BinaryMarketSegmentHeader :=
  { header with headerCrc32c := header.crc }

/-- The footer of a segment with the given header. -/
def segmentFooter (header : BinaryMarketSegmentHeader) : BinaryMarketSegmentFooter :=
  let footer : BinaryMarketSegmentFooter := {
    footerBytes := 64
    segmentNumber := header.segmentNumber
    recordsCrc32c := header.recordsCrc32c
    recordCount := header.recordCount
    firstReceiveNs := header.firstReceiveNs
    lastReceiveNs := header.lastReceiveNs }
  { footer with footerCrc32c := footer.crc }

/-- The part of `sealSegment` that works on the file: write the final header over the first one and
the footer at the end, and give the file its final name. -/
def sealFile (s : WriterState) (shard : ℕ) (header : BinaryMarketSegmentHeader)
    (partialFile finalFile : CorpusFile) : Bool × WriterState :=
  andThen (streamWrite s shard fun d => d.overwrite partialFile (Layout.toBytes header)) fun s =>
  andThen (streamWrite s shard fun d => d.append partialFile (Layout.toBytes (segmentFooter header)))
    fun s =>
  andThen (streamFlush s shard) fun s =>
  andThen (streamClose s shard) fun s =>
  andThen (onDisk s Disk.sync) fun s =>
    onDisk s fun d => d.rename partialFile finalFile

/-- `sealSegment`. -/
def sealSegment (X : Platform) (s : WriterState) (shard : ℕ) : Bool × WriterState :=
  if s.shardCount ≤ shard then (false, s)
  else if !(s.segments shard).isOpen then (true, s)
  else
    andThen (flushBlock X s shard) fun s =>
      let segment := s.segments shard
      let header := sealedHeader segment.header
      let sealing := s.setSegment shard { segment with header }
      andThen (sealFile sealing shard header (partialPath s shard) (finalPath s shard)) fun s =>
        let s := { s with manifest :=
          { s.manifest with segmentCount := s.manifest.segmentCount + 1 } }
        (true, s.setSegment shard
          { s.segments shard with isOpen := false, indexPositions := fun _ => none })

/-- `ensureIndex`: the position of the index entry for a record of the shard's segment, which is
added if the segment has none for the record's identity yet. -/
def ensureIndex (s : WriterState) (shard : ℕ) (key : IndexKey) : Option ℕ × WriterState :=
  let segment := s.segments shard
  match segment.indexPositions key with
  | some position => (some position, s)
  | none =>
    let position := s.index.length
    if position ≥ s.config.maximumBytes.toNat / 72 ∨ position ≥ maximumUInt32 then (none, s)
    else
      let entry := BinaryMarketIndexEntry.fresh segment.header.segmentNumber shard key.sourceId
        key.sourceGeneration key.channel
      let s := { s with index := s.index ++ [entry] }
      (some position, s.setSegment shard
        { segment with indexPositions := Function.update segment.indexPositions key (some position) })

/-- Flush the open segments of the given shards, and stop at the first failure. -/
def flushShards (X : Platform) : List ℕ → WriterState → Bool × WriterState
  | [], s => (true, s)
  | shard :: shards, s =>
    if (s.segments shard).isOpen then andThen (flushBlock X s shard) (flushShards X shards)
    else flushShards X shards s

/-- Seal the segments of the given shards, and stop at the first failure. -/
def sealShards (X : Platform) : List ℕ → WriterState → Bool × WriterState
  | [], s => (true, s)
  | shard :: shards, s => andThen (sealSegment X s shard) (sealShards X shards)

end HftRecorder.Corpus
