import HftRecorder.Format.Record

/-!
# Depth transactions

`BinaryMarketDepthTransaction.hpp`: a depth update that does not fit one record is stored as a run of
consecutive records of its shard, first the chunks of each native part and then, if announced, the
coverage parts. `advanceBinaryMarketDepthTransaction` follows one shard's records through such a run.
The writer applies it to a copy of its state and the reader gives up on the first refusal, so a
refusal leaves no state behind and is modelled as `none`.
-/

namespace HftRecorder.Corpus

open ByteLayout BinaryMarketChannel

/-- The members of a native header that the following records of a transaction are compared with. -/
structure DepthNativeHeader where
  sourceId : ℕ := 0
  flags : UInt32 := 0
  sourceGeneration : ℕ := 0
  sessionEpoch : ℕ := 0
  eventSequence : ℕ := 0
  exchangeTimestampNs : ℤ := 0
  sourceFlags : UInt16 := 0
  deriving DecidableEq

/-- The members of a record's header that a transaction keeps. -/
def BinaryMarketRecord.nativeHeader (r : BinaryMarketRecord) : DepthNativeHeader where
  sourceId := r.sourceId
  flags := r.flags
  sourceGeneration := r.sourceGeneration
  sessionEpoch := r.sessionEpoch
  eventSequence := r.eventSequence
  exchangeTimestampNs := r.exchangeTimestampNs
  sourceFlags := r.sourceFlags

/-- `BinaryMarketDepthTransactionState`. -/
structure BinaryMarketDepthTransactionState where
  lastNative : DepthNativeHeader := {}
  frameSequence : ℕ := 0
  firstShardSequence : ℕ := 0
  receiveMonotonicNs : ℕ := 0
  receiveRealtimeNs : ℤ := 0
  totalLevelCount : ℕ := 0
  totalCoverageCount : ℕ := 0
  /-- The first, last, and previous update ids. -/
  nativeSequence : ℕ × ℕ × ℕ := (0, 0, 0)
  nativeEvidence : Bytes := []
  sourceReceiveRealtimeNs : ℕ := 0
  sourceFreshnessMonotonicNs : ℕ := 0
  frameKind : BinaryMarketDepthFrameKind := .unknown
  nativeState : BinaryMarketDepthState := .empty
  failure : ℕ := 0
  nativeParts : ℕ := 0
  nextNative : ℕ := 0
  chunkParts : ℕ := 0
  nextChunk : ℕ := 0
  coverageParts : ℕ := 0
  nextCoverage : ℕ := 0
  hasCoverage : Bool := false
  awaitingCoverage : Bool := false
  deriving DecidableEq

/-- `BinaryMarketDepthTransactionState::active`. -/
def BinaryMarketDepthTransactionState.active (s : BinaryMarketDepthTransactionState) : Bool :=
  s.frameSequence ≠ 0

/-- The flags that all chunks of a native part share. -/
def semanticFlags : UInt32 :=
  recordTraderReplayCompatible ||| recordDepthSnapshot ||| recordDepthDelta ||| recordDepthPartial |||
    recordDepthRebase ||| recordDepthState ||| recordDepthHasCoverage ||| recordDepthSourcePosition

/-- A transaction that is not under way starts with the first chunk of its first native part. -/
def beginDepthTransaction (r : BinaryMarketRecord) (s : BinaryMarketDepthTransactionState) :
    Option BinaryMarketDepthTransactionState :=
  let p := r.depthChunkPayload
  if s.active then some s
  else if r.hasFlag recordDepthCoverage then none
  else if p.transactionPartIndex ≠ 0 ∨ p.partIndex ≠ 0 then none
  else some { s with
    frameSequence := r.frameSequence
    firstShardSequence := r.shardSequence
    receiveMonotonicNs := r.receiveMonotonicNs
    receiveRealtimeNs := r.receiveRealtimeNs
    nativeParts := p.transactionPartCount
    hasCoverage := r.hasFlag recordDepthHasCoverage }

/-- The record belongs to the transaction under way. -/
def sameDepthTransaction (r : BinaryMarketRecord) (s : BinaryMarketDepthTransactionState) : Bool :=
  r.frameSequence = s.frameSequence && r.receiveMonotonicNs = s.receiveMonotonicNs &&
    r.receiveRealtimeNs = s.receiveRealtimeNs && r.hasFlag recordDepthHasCoverage == s.hasCoverage &&
    !(s.lastNative.sourceId ≠ 0 && (r.sourceId ≠ s.lastNative.sourceId ||
      r.sourceGeneration ≠ s.lastNative.sourceGeneration ||
      r.sessionEpoch ≠ s.lastNative.sessionEpoch))

/-- The record comes from the same source event as the last native header. -/
def sameDepthEvent (r : BinaryMarketRecord) (s : BinaryMarketDepthTransactionState) : Bool :=
  r.sourceId = s.lastNative.sourceId && r.sourceGeneration = s.lastNative.sourceGeneration &&
    r.sessionEpoch = s.lastNative.sessionEpoch && r.eventSequence = s.lastNative.eventSequence &&
    r.exchangeTimestampNs = s.lastNative.exchangeTimestampNs

/-- The branch for coverage records. The last part ends the transaction. -/
def advanceDepthCoverage (r : BinaryMarketRecord) (s : BinaryMarketDepthTransactionState) :
    Option BinaryMarketDepthTransactionState :=
  let p := r.depthCoveragePayload
  if !s.awaitingCoverage ∨ p.transactionPartCount ≠ s.nativeParts ∨ p.partIndex ≠ s.nextCoverage ∨
      !sameDepthEvent r s then none
  else
    let s := if s.nextCoverage = 0 then
        { s with totalCoverageCount := p.totalCoverageCount, coverageParts := p.partCount }
      else s
    if p.totalCoverageCount ≠ s.totalCoverageCount ∨ p.partCount ≠ s.coverageParts then none
    else
      let s := { s with nextCoverage := (s.nextCoverage + 1) % 2 ^ 16 }
      if s.nextCoverage = s.coverageParts then
        if r.hasFlag recordDepthTransactionEnd then some {} else none
      else some s

/-- The position of a native chunk in its part and in its transaction is the expected one, and its
level counts are those of that position. -/
def validDepthChunkPosition (X : Platform) (p : BinaryMarketDepthChunkPayload)
    (s : BinaryMarketDepthTransactionState) : Bool :=
  !(p.transactionPartCount = 0 || p.transactionPartCount > X.maximumDepthTransactionParts ||
    p.transactionPartCount ≠ s.nativeParts || p.transactionPartIndex ≠ s.nextNative ||
    p.partCount = 0 || p.partIndex ≠ s.nextChunk || p.partIndex ≥ p.partCount ||
    p.levelOffset ≠ p.partIndex * kBinaryMarketDepthLevelsPerRecord ||
    p.levelOffset > p.totalLevelCount || p.levelCount > kBinaryMarketDepthLevelsPerRecord ||
    p.levelCount ≠ min kBinaryMarketDepthLevelsPerRecord (p.totalLevelCount - p.levelOffset) ||
    p.partCount ≠ (p.totalLevelCount + kBinaryMarketDepthLevelsPerRecord - 1) /
      kBinaryMarketDepthLevelsPerRecord + (if p.totalLevelCount = 0 then 1 else 0))

/-- A chunk after the first of its native part repeats that part's members. -/
def sameDepthChunkPart (X : Platform) (r : BinaryMarketRecord)
    (s : BinaryMarketDepthTransactionState) : Bool :=
  let p := r.depthChunkPayload
  sameDepthEvent r s && r.sourceFlags = s.lastNative.sourceFlags &&
    r.flags &&& semanticFlags = s.lastNative.flags &&& semanticFlags &&
    (p.firstUpdateId, p.lastUpdateId, p.previousUpdateId) = s.nativeSequence &&
    X.sameMarketNativeEvidence p.nativeEvidence s.nativeEvidence &&
    p.sourceReceiveRealtimeNs = s.sourceReceiveRealtimeNs &&
    p.sourceFreshnessMonotonicNs = s.sourceFreshnessMonotonicNs &&
    p.frameKind = s.frameKind && p.state = s.nativeState && p.failure = s.failure

/-- The members that the first chunk of a native part sets. -/
def beginDepthPart (p : BinaryMarketDepthChunkPayload) (s : BinaryMarketDepthTransactionState) :
    BinaryMarketDepthTransactionState :=
  { s with
    totalLevelCount := p.totalLevelCount
    chunkParts := p.partCount
    nativeSequence := (p.firstUpdateId, p.lastUpdateId, p.previousUpdateId)
    nativeEvidence := p.nativeEvidence
    sourceReceiveRealtimeNs := p.sourceReceiveRealtimeNs
    sourceFreshnessMonotonicNs := p.sourceFreshnessMonotonicNs
    frameKind := p.frameKind
    nativeState := p.state
    failure := p.failure }

/-- The state after an accepted native chunk: the last chunk of a part moves to the next part, and
the last part moves to the coverage or ends the transaction. -/
def countDepthChunk (s : BinaryMarketDepthTransactionState) : BinaryMarketDepthTransactionState :=
  let s := { s with nextChunk := (s.nextChunk + 1) % 2 ^ 16 }
  if s.nextChunk = s.chunkParts then
    let s := { s with nextChunk := 0, nextNative := (s.nextNative + 1) % 2 ^ 16 }
    if s.nextNative = s.nativeParts then
      if s.hasCoverage then { s with awaitingCoverage := true } else {}
    else s
  else s

def advanceDepthChunk (X : Platform) (r : BinaryMarketRecord)
    (s : BinaryMarketDepthTransactionState) : Option BinaryMarketDepthTransactionState :=
  let p := r.depthChunkPayload
  if s.awaitingCoverage ∨ !validDepthChunkPosition X p s then none
  else if s.nextChunk ≠ 0 ∧ !sameDepthChunkPart X r s then none
  else
    let s := if s.nextChunk = 0 then beginDepthPart p s else s
    if p.totalLevelCount ≠ s.totalLevelCount ∨ p.partCount ≠ s.chunkParts then none
    else
      let s := { s with lastNative := r.nativeHeader }
      let finalChunk : Bool := p.partIndex + 1 = p.partCount
      let finalNative : Bool := p.transactionPartIndex + 1 = p.transactionPartCount
      if r.hasFlag recordDepthTransactionEnd !=
          (!r.hasFlag recordDepthHasCoverage && finalChunk && finalNative) then none
      else some (countDepthChunk s)

/-- `advanceBinaryMarketDepthTransaction`: the state after a record of the shard, or `none` if the
record does not continue it. -/
def advanceBinaryMarketDepthTransaction (X : Platform) (r : BinaryMarketRecord)
    (s : BinaryMarketDepthTransactionState) : Option BinaryMarketDepthTransactionState :=
  if r.channel ≠ depth then
    if s.active then none else some s
  else if !validBinaryMarketRecord X r then none
  else
    match beginDepthTransaction r s with
    | none => none
    | some s =>
      if !sameDepthTransaction r s then none
      else if r.hasFlag recordDepthCoverage then advanceDepthCoverage r s
      else advanceDepthChunk X r s

/-- The transaction state of a shard after a list of its records. -/
def runDepthTransactions (X : Platform) (s : BinaryMarketDepthTransactionState) :
    List BinaryMarketRecord → Option BinaryMarketDepthTransactionState
  | [] => some s
  | r :: rs =>
    match advanceBinaryMarketDepthTransaction X r s with
    | none => none
    | some s => runDepthTransactions X s rs

end HftRecorder.Corpus
