import HftRecorder.Reader.Metadata

/-!
# The index and the gaps of a corpus

The two loops of `open` over the tables: every index entry is well formed and belongs to one segment
of one shard, no identity is listed twice, and the totals are those of the manifest; every gap is
well formed, and none touches the selected interval.
-/

namespace HftRecorder.Corpus

open ByteLayout Codec BinaryMarketChannel

/-- `IndexIdentity`. -/
structure IndexIdentity where
  segment : SegmentKey
  sourceId : ℕ
  sourceGeneration : ℕ
  channel : BinaryMarketChannel
  deriving DecidableEq

/-- The segment that an index entry belongs to. -/
def BinaryMarketIndexEntry.segmentKey (e : BinaryMarketIndexEntry) : SegmentKey :=
  ⟨e.segmentNumber, e.shardIndex⟩

def BinaryMarketIndexEntry.identity (e : BinaryMarketIndexEntry) : IndexIdentity :=
  ⟨e.segmentKey, e.sourceId, e.sourceGeneration, e.channel⟩

/-- The tests of `open` on one index entry. -/
def validIndexEntry (m : BinaryMarketManifest) (sourceCount : ℕ) (e : BinaryMarketIndexEntry) : Bool :=
  let hasRecordedOnly : Bool := e.flags &&& indexHasRecordedOnly ≠ 0
  let hasGap : Bool := e.flags &&& indexHasGap ≠ 0
  e.segmentNumber ≠ 0 && e.segmentNumber ≤ m.segmentCount && e.sourceId ≠ 0 &&
    e.sourceId ≤ sourceCount && e.sourceGeneration ≠ 0 && e.recordCount ≠ 0 &&
    e.firstEventSequence ≠ 0 && e.lastEventSequence ≠ 0 && 0 < e.firstReceiveNs &&
    e.firstReceiveNs ≤ e.lastReceiveNs && e.shardIndex < m.shardCount &&
    validBinaryMarketRecordChannel e.channel &&
    e.flags &&& ~~~(indexHasGap ||| indexHasRecordedOnly) = 0 && hasGap == decide (e.gapCount ≠ 0) &&
    validBinaryMarketCompatibility e.compatibility && e.compatibility ≠ .unavailable &&
    hasRecordedOnly == decide (e.compatibility = .recordedOnly)

/-- The accumulators of the loop over the index. A segment number without an entry so far has the
largest 16-bit number as its shard. -/
structure IndexTotals where
  allSegments : List SegmentKey := []
  indexIdentities : List IndexIdentity := []
  segmentShards : ℕ → ℕ := fun _ => 65535
  indexedRecordCount : ℕ := 0

def countIndexEntry (m : BinaryMarketManifest) (sources : List BinaryMarketSource) (t : IndexTotals)
    (e : BinaryMarketIndexEntry) : Except String IndexTotals :=
  if !validIndexEntry m sources.length e then .error "binary corpus index entry mismatch"
  else if (sources[e.sourceId - 1]?.any fun s => e.sourceGeneration < s.initialSourceGeneration) then
    .error "binary corpus index predates source catalog generation"
  else if t.segmentShards e.segmentNumber ≠ 65535 ∧
      t.segmentShards e.segmentNumber ≠ e.shardIndex then
    .error "binary corpus segment number crosses shards"
  else if e.identity ∈ t.indexIdentities ∨
      t.indexedRecordCount > maximumUInt64 - e.recordCount then
    .error "binary corpus index contains duplicates or overflow"
  else .ok {
    allSegments := t.allSegments.insert e.segmentKey
    indexIdentities := e.identity :: t.indexIdentities
    segmentShards := Function.update t.segmentShards e.segmentNumber e.shardIndex
    indexedRecordCount := t.indexedRecordCount + e.recordCount }

/-- The loop over the entries of the index. -/
def countIndex (m : BinaryMarketManifest) (sources : List BinaryMarketSource) (t : IndexTotals)
    (index : List BinaryMarketIndexEntry) : Except String IndexTotals :=
  index.foldlM (countIndexEntry m sources) t

/-- The check of the index: its entries, and its totals against the manifest. -/
def checkIndex (m : BinaryMarketManifest) (sources : List BinaryMarketSource)
    (index : List BinaryMarketIndexEntry) : Except String IndexTotals :=
  match countIndex m sources {} index with
  | .error e => .error e
  | .ok t =>
    if t.indexedRecordCount ≠ m.recordCount ∨ t.allSegments.length ≠ m.segmentCount then
      .error "binary corpus index totals do not match manifest"
    else .ok t

/-- `rangesOverlap`. -/
def rangesOverlap (first last begin «end» : ℤ) : Bool :=
  first ≠ 0 && first ≤ last && begin ≤ last && first < «end»

def gapSelected (r : BinaryMarketSelectionRequest) (includedSources : ℕ → Bool)
    (gap : BinaryMarketGap) : Bool :=
  gap.channel = sourceLifecycle ||
    (includedSources gap.sourceId && r.channelMask &&& binaryMarketChannelBit gap.channel ≠ 0 &&
      ((gap.minimumDroppedReceiveNs = 0 && gap.maximumDroppedReceiveNs = 0) ||
        rangesOverlap gap.minimumDroppedReceiveNs gap.maximumDroppedReceiveNs
          r.beginReceiveNs.toInt r.endReceiveNs.toInt))

/-- The loop over the gaps: the gaps that touch what is selected. A failure leaves the ones found so
far. -/
def selectGaps (m : BinaryMarketManifest) (sources : List BinaryMarketSource)
    (r : BinaryMarketSelectionRequest) (includedSources : ℕ → Bool) :
    List BinaryMarketGap → List BinaryMarketGap →
      Except (String × List BinaryMarketGap) (List BinaryMarketGap)
  | found, [] => .ok found
  | found, gap :: gaps =>
    if !validGapFields gap sources.length m.shardCount then
      .error ("binary corpus gap entry mismatch", found)
    else if (sources[gap.sourceId - 1]?.any fun s =>
        gap.sourceGeneration < s.initialSourceGeneration) then
      .error ("binary corpus gap predates source catalog generation", found)
    else selectGaps m sources r includedSources
      (if gapSelected r includedSources gap then found ++ [gap] else found) gaps

end HftRecorder.Corpus
