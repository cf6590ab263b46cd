import HftRecorder.Lib.Disk
import HftRecorder.Format.Tables
import HftRecorder.Format.DepthTransaction
import HftRecorder.Format.SourceState
import Mathlib.Logic.Function.Basic

/-!
# The writer's state

The state of `BinaryMarketCorpusWriter` and the types of what goes into it and comes out: the
configuration, the producer's progress, the published cuts, and the segment that each shard is
writing. The corpus directory is part of the state as a `Disk` whose files are named by
`CorpusFile`. Counters are natural numbers; the writer's own checks keep the ones that are stored in
64 bits from wrapping, and where the code subtracts from such a counter the subtraction is modelled
as the machine does it.
-/

namespace HftRecorder

/-- `hftrec::Status`. -/
inductive Status
  | ok
  | invalidArgument
  | ioError
  | outOfRange
  | corruptData
  | unimplemented
  | cancelled
  | unknown
  deriving DecidableEq, Repr

namespace Corpus

open ByteLayout

/-- The files of a corpus directory. A `.tmp` file is the target of an atomic replacement before its
rename. -/
inductive CorpusFile
  | manifest
  | manifestTmp
  | manifestPending
  | manifestPendingTmp
  | sources
  | sourcesTmp
  | index
  | indexTmp
  | gaps
  | gapsTmp
  | cut
  | cutPending
  /-- `segments/shard-%04u-segment-%06u.partial`. -/
  | partialSegment (shard number : ℕ)
  /-- `segments/shard-%04u-segment-%06u.cxm`. -/
  | sealedSegment (shard number : ℕ)
  deriving DecidableEq, Repr

/-- `kCorpusMaximumReferenceBytes`. -/
def kCorpusMaximumReferenceBytes : ℕ := 128 * 1024 * 1024

/-- `BinaryMarketWriterConfig`. -/
structure BinaryMarketWriterConfig where
  root : String
  sources : List BinaryMarketSource
  producerEpoch : UInt64
  maximumBytes : UInt64
  segmentTargetBytes : UInt64 := 64 * 1024 * 1024
  targetDurationNs : UInt64
  startedReceiveNs : Int64
  startedMonotonicNs : UInt64
  ringCapacity : UInt32
  shardCount : UInt16
  /-- The binder sees the payload, the payload of the previous cut, the generation, and the commit
  time, and returns a status and the payload as it leaves it. -/
  referenceVisibilityBinder : Option (Bytes → Bytes → ℕ → ℕ → Status × Bytes) := none
  maximumReferenceBytes : UInt64 := 64 * 1024 * 1024
  retainedCompressedBytes : UInt64 := 16 * 1024 * 1024
  pendingRecordCapacity : UInt64 := 0

/-- `CorpusProducerProgress`. The array of shard sequences has `kBinaryMarketMaximumShards`
entries. -/
structure CorpusProducerProgress where
  producerEpoch : UInt64 := 0
  safeMonotonicNs : UInt64 := 0
  lossEpoch : UInt64 := 0
  directoryRevision : UInt64 := 0
  shardSequences : ℕ → UInt64 := fun _ => 0
  shardCount : UInt16 := 0

/-- `CorpusCut`. -/
structure CorpusCut where
  generation : ℕ
  committedMonotonicNs : ℕ
  progress : CorpusProducerProgress
  manifest : BinaryMarketManifest
  sources : List BinaryMarketSource
  gaps : List BinaryMarketGap
  blocks : List CorpusBlockRange
  referencePayload : Bytes
  finalized : Bool

/-- One compressed block that a publication retains. -/
structure RetainedBlock where
  segment : ℕ
  offset : ℕ
  bytes : Bytes

/-- `CorpusPublication`: the latest cut and a bounded queue of compressed blocks. -/
structure CorpusPublication where
  latest : Option CorpusCut := none
  blocks : List RetainedBlock := []
  capacity : ℕ
  retained : ℕ := 0

namespace CorpusPublication

/-- The eviction loop of `retain`: the oldest blocks go until there is room for `bytes` more. -/
def evict (bytes capacity : ℕ) : List RetainedBlock → ℕ → List RetainedBlock × ℕ
  | [], retained => ([], retained)
  | b :: bs, retained =>
    if retained > capacity - bytes then evict bytes capacity bs (retained - b.bytes.length)
    else (b :: bs, retained)

/-- `CorpusPublication::retain`. -/
def retain (p : CorpusPublication) (range : CorpusBlockRange) (bytes : Bytes) : CorpusPublication :=
  if bytes.length > p.capacity then p
  else
    let kept := evict bytes.length p.capacity p.blocks p.retained
    { p with
      blocks := kept.1 ++ [⟨range.segmentNumber, range.offset, bytes⟩]
      retained := kept.2 + bytes.length }

end CorpusPublication

/-- The identity of an index entry within a segment. -/
structure IndexKey where
  sourceId : ℕ
  sourceGeneration : ℕ
  channel : BinaryMarketChannel
  deriving DecidableEq

def BinaryMarketRecord.indexKey (r : BinaryMarketRecord) : IndexKey :=
  ⟨r.sourceId, r.sourceGeneration, r.channel⟩

/-- `SegmentState`: the segment that a shard is writing. The output stream is kept as whether it is
open and whether it is still good; a stream that is not both takes no more bytes. -/
structure SegmentState where
  header : BinaryMarketSegmentHeader := {}
  indexPositions : IndexKey → Option ℕ := fun _ => none
  projectedBytes : ℕ := 0
  /-- The first `pendingCount` entries of `pending`. -/
  pending : List BinaryMarketRecord := []
  previousShardSequence : ℕ := 0
  previousMonotonicNs : ℕ := 0
  streamOpen : Bool := false
  streamGood : Bool := true
  isOpen : Bool := false

/-- `BinaryMarketCorpusWriterState`, and the directory that it writes. -/
structure WriterState where
  config : BinaryMarketWriterConfig
  manifest : BinaryMarketManifest
  sources : List BinaryMarketSource
  sourceStates : List BinaryMarketSourceState
  index : List BinaryMarketIndexEntry := []
  gaps : List BinaryMarketGap := []
  /-- The segment of each shard below `config.shardCount`. -/
  segments : ℕ → SegmentState := fun _ => {}
  depthTransactions : ℕ → BinaryMarketDepthTransactionState := fun _ => {}
  projectedBytes : ℕ := 0
  writeLimitBytes : ℕ := 0
  maximumGapRecords : ℕ := 0
  nextSegmentNumber : ℕ := 1
  active : Bool := false
  quotaReached : Bool := false
  progress : CorpusProducerProgress := {}
  blocks : List CorpusBlockRange := []
  referencePayload : Bytes := []
  publication : CorpusPublication
  cutGeneration : ℕ := 0
  cutReservedBytes : ℕ := 0
  referenceReservedBytes : ℕ := 0
  replayAnchorFrozen : Bool := false
  disk : Disk CorpusFile

namespace WriterState

def shardCount (s : WriterState) : ℕ := s.config.shardCount.toNat

def shards (s : WriterState) : List ℕ := List.range s.shardCount

def setDisk (s : WriterState) (disk : Disk CorpusFile) : WriterState := { s with disk }

def setSegment (s : WriterState) (shard : ℕ) (segment : SegmentState) : WriterState :=
  { s with segments := Function.update s.segments shard segment }

end WriterState

/-! ## Bounded arithmetic -/

/-- `std::numeric_limits<std::uint64_t>::max()`. -/
def maximumUInt64 : ℕ := 2 ^ 64 - 1

/-- `std::numeric_limits<std::uint32_t>::max()`. -/
def maximumUInt32 : ℕ := 2 ^ 32 - 1

/-- `addWithin`. -/
def addWithin (current amount limit : ℕ) : Bool :=
  amount ≤ maximumUInt64 - current && current + amount ≤ limit

/-- `addProduct`: the sum, unless it does not fit 64 bits. -/
def addProduct (bytes count unitBytes : ℕ) : Option ℕ :=
  if unitBytes ≠ 0 ∧ count > (maximumUInt64 - bytes) / unitBytes then none
  else some (bytes + count * unitBytes)

/-- `kCutHeaderReserveBytes`. -/
def kCutHeaderReserveBytes : ℕ := 4096

/-- `kSourceStorageBytes`: a catalogue entry and a gap entry for each stored channel. -/
def kSourceStorageBytes : ℕ := 272 + kBinaryMarketStoredChannelCount * 80

/-- `kSourceReservationBytes`. -/
def kSourceReservationBytes : ℕ := 3 * kSourceStorageBytes

/-- `kRecordCutReservationBytes`: two block ranges. -/
def kRecordCutReservationBytes : ℕ := 2 * 96

/-- `cutReservationBytes`: twice the size of a cut with the given parts, unless it does not fit 64
bits. -/
def cutReservationBytes (sources gaps blocks referenceBytes : ℕ) : Option ℕ := do
  let bytes ← addProduct kCutHeaderReserveBytes sources 272
  let bytes ← addProduct bytes gaps 80
  let bytes ← addProduct bytes blocks 96
  let bytes ← addProduct bytes referenceBytes 1
  if bytes > maximumUInt64 / 2 then none else some (bytes * 2)

/-- `reserveBytes`. -/
def reserveBytes (s : WriterState) (bytes : ℕ) : Bool × WriterState :=
  if addWithin s.projectedBytes bytes s.writeLimitBytes then
    (true, { s with projectedBytes := s.projectedBytes + bytes })
  else (false, { s with quotaReached := true })

/-- Go on with the state that a step leaves if the step succeeded. -/
def andThen (result : Bool × WriterState) (continue_ : WriterState → Bool × WriterState) :
    Bool × WriterState :=
  match result with
  | (true, s) => continue_ s
  | (false, s) => (false, s)

/-- Lift an operation of the directory to the state. -/
def onDisk (s : WriterState) (operation : Disk CorpusFile → Bool × Disk CorpusFile) :
    Bool × WriterState :=
  match operation s.disk with
  | (ok, disk) => (ok, s.setDisk disk)

end Corpus

end HftRecorder
