import HftRecorder.Writer.Run

/-!
# What paying and flushing leave

The states that the steps of the writer lead to, under names of their own: `afterPay` and `afterQuota`
for a reservation that fits and one that does not, `SegmentState.flushed` for a segment whose pending
records went into a block. `FlushGuard` collects the tests under which `flushBlock` writes one. Later
arguments about the writer are about these states.
-/

namespace HftRecorder.Corpus

open ByteLayout Codec

@[simp]
theorem setSegment_segments (s : WriterState) (shard : ℕ) (segment : SegmentState) :
    (s.setSegment shard segment).segments = Function.update s.segments shard segment := rfl

@[simp]
theorem andThen_true (s : WriterState) (f : WriterState → Bool × WriterState) :
    andThen (true, s) f = f s := rfl

/-- The state after bytes are reserved, some of them for the cut files. -/
def afterPay (s : WriterState) (bytes growth : ℕ) : WriterState :=
  { s with
    projectedBytes := s.projectedBytes + bytes
    cutReservedBytes := s.cutReservedBytes + growth }

/-- The state after the quota is noted as reached. -/
def afterQuota (s : WriterState) : WriterState := { s with quotaReached := true }

def isSegmentFile : CorpusFile → Bool
  | .partialSegment _ _ | .sealedSegment _ _ => true
  | _ => false

theorem ne_of_isSegmentFile {f g : CorpusFile} (hf : isSegmentFile f = false)
    (hg : isSegmentFile g = true) : f ≠ g := by
  rintro rfl
  rw [hf] at hg
  cases hg

theorem retain_latest (p : CorpusPublication) (range : CorpusBlockRange) (b : Bytes) :
    (p.retain range b).latest = p.latest := by
  unfold CorpusPublication.retain
  split <;> rfl

/-! ## Flushing -/

/-- What a flush of a number of records releases of their reservation. -/
def releasedBytes (X : Platform) (count : ℕ) (encoded : Bytes) : ℕ :=
  pendingReservation X count - (64 + encoded.length)

/-- A segment after a flush of its pending records. -/
def SegmentState.flushed (X : Platform) (segment : SegmentState) (count : ℕ) (encoded : Bytes) :
    SegmentState :=
  { segment with
    projectedBytes := subWrap segment.projectedBytes (releasedBytes X count encoded)
    header := { segment.header with
      storedBlockBytes := segment.header.storedBlockBytes + (64 + encoded.length)
      blockCount := segment.header.blockCount + 1 }
    pending := [] }

section

variable (X : Platform) (segment : SegmentState) (count : ℕ) (encoded : Bytes)

-- The fields are read off the constructor: comparing a segment with its flushed self would make the
-- kernel unfold the byte counts and checksums of both.
@[simp]
theorem flushed_pending : (segment.flushed X count encoded).pending = [] := rfl

@[simp]
theorem flushed_previousShardSequence :
    (segment.flushed X count encoded).previousShardSequence = segment.previousShardSequence := by
  cases segment; rfl

@[simp]
theorem flushed_previousMonotonicNs :
    (segment.flushed X count encoded).previousMonotonicNs = segment.previousMonotonicNs := by
  cases segment; rfl

theorem flushed_header : (segment.flushed X count encoded).header =
    { segment.header with
      storedBlockBytes := segment.header.storedBlockBytes + (64 + encoded.length)
      blockCount := segment.header.blockCount + 1 } := by
  cases segment; rfl

end

/-- The range of the block that a flush of the records `first :: rest` writes. -/
def flushedRange (segment : SegmentState) (first : BinaryMarketRecord)
    (rest : List BinaryMarketRecord) (encoded : Bytes) : CorpusBlockRange :=
  blockRange segment.header first rest
    (blockHeader segment.header.blockCount first rest encoded)

/-- The conditions under which `flushBlock` writes a block. -/
structure FlushGuard (X : Platform) (s : WriterState) (shard : ℕ) (first : BinaryMarketRecord)
    (rest : List BinaryMarketRecord) (encoded : Bytes) : Prop where
  pending_eq : (s.segments shard).pending = first :: rest
  encode_eq : X.encodeByteBlock (binaryMarketBlockLayout first.channel) (rawBlock (first :: rest))
    (X.byteBlockEncodeBound (binaryMarketBlockLayout .depth) kBinaryMarketBlockRecords) = some encoded
  encoded_ne : encoded.length ≠ 0
  encoded_le : encoded.length ≤
    X.byteBlockEncodeBound (binaryMarketBlockLayout .depth) kBinaryMarketBlockRecords
  blockCount_ne : (s.segments shard).header.blockCount ≠ maximumUInt32
  fits : 64 + encoded.length ≤ pendingReservation X (rest.length + 1)

@[simp]
theorem sealedHeader_segmentNumber (header : BinaryMarketSegmentHeader) :
    (sealedHeader header).segmentNumber = header.segmentNumber := by
  cases header; rfl

end HftRecorder.Corpus
