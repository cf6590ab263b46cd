import HftRecorder.Format.Platform
import HftRecorder.Format.Source

/-!
# Records

`BinaryMarketRecord` of `BinaryMarketCorpusFormat.hpp`, as its object representation of 1024 bytes: a
header of 104 bytes, a payload of 888 bytes at offset 104, and 32 bytes of alignment. The payload is
read as the structure that the header's channel selects. The predicates at the end are the ones that
the writer and the reader apply to every record.
-/

namespace HftRecorder.Corpus

open ByteLayout BinaryMarketChannel

/-- `kBinaryMarketPayloadBytes`. -/
def kBinaryMarketPayloadBytes : ℕ := 888

/-- `kBinaryMarketDepthLevelsPerRecord`. -/
def kBinaryMarketDepthLevelsPerRecord : ℕ := 32

/-- `kBinaryMarketDepthCoveragePerRecord`. -/
def kBinaryMarketDepthCoveragePerRecord : ℕ := 5

/-! ## Flags -/

/-- The bits of `BinaryMarketRecordFlags`. -/
def recordTraderReplayCompatible : UInt32 := 0x00001
def recordBboFreshnessOnly : UInt32 := 0x00002
def recordDepthSnapshot : UInt32 := 0x00004
def recordDepthDelta : UInt32 := 0x00008
def recordDepthPartial : UInt32 := 0x00010
def recordDepthRebase : UInt32 := 0x00020
def recordExchangeTimestampMissing : UInt32 := 0x00040
def recordGapBoundary : UInt32 := 0x00080
def recordRealtimeRegression : UInt32 := 0x00100
def recordMonotonicNonIncreasing : UInt32 := 0x00200
def recordExchangeAheadOfReceive : UInt32 := 0x00400
def recordDepthState : UInt32 := 0x00800
def recordSourceLifecycle : UInt32 := 0x01000
def recordDepthCoverage : UInt32 := 0x02000
def recordDepthHasCoverage : UInt32 := 0x04000
def recordDepthTransactionEnd : UInt32 := 0x08000
def recordDepthSourcePosition : UInt32 := 0x10000

/-- `kBinaryMarketKnownRecordFlags`: the seventeen named bits. -/
def kBinaryMarketKnownRecordFlags : UInt32 := 0x1ffff

/-- The bits of `BinaryMarketSourceFlags`. -/
def sourceStale : UInt16 := 0x01
def sourceDegraded : UInt16 := 0x02
def sourceSequenceGap : UInt16 := 0x04
def sourceExchangeTimestampMissing : UInt16 := 0x08
/-- `kBinaryMarketKnownSourceFlags`: the six named bits. -/
def kBinaryMarketKnownSourceFlags : UInt16 := 0x3f

/-! ## Enumerations stored in payloads -/

/-- `BinaryMarketSourceLifecycleKind`. -/
inductive BinaryMarketSourceLifecycleKind
  | added
  | removed
  | readded
  | directoryChanged
  | other (code : ℕ)
  deriving DecidableEq, Repr

/-- The lifecycle kind stored as the given byte. -/
def BinaryMarketSourceLifecycleKind.ofCode : ℕ → BinaryMarketSourceLifecycleKind
  | 1 => added
  | 2 => removed
  | 3 => readded
  | 4 => directoryChanged
  | n => other n

/-- `BinaryMarketSourceTransitionCause`. -/
inductive BinaryMarketSourceTransitionCause
  | subscription
  | nativeStale
  | nativeDegraded
  | nativeSequenceGap
  | nativeRecovered
  | nativeClosed
  | other (code : ℕ)
  deriving DecidableEq, Repr

/-- The transition cause stored as the given byte. -/
def BinaryMarketSourceTransitionCause.ofCode : ℕ → BinaryMarketSourceTransitionCause
  | 0 => subscription
  | 1 => nativeStale
  | 2 => nativeDegraded
  | 3 => nativeSequenceGap
  | 4 => nativeRecovered
  | 5 => nativeClosed
  | n => other n

/-- `binaryMarketTransitionIsUnhealthy`. -/
def binaryMarketTransitionIsUnhealthy : BinaryMarketSourceTransitionCause → Bool
  | .nativeStale | .nativeDegraded | .nativeSequenceGap | .nativeClosed => true
  | _ => false

/-- `BinaryMarketDepthFrameKind`. -/
inductive BinaryMarketDepthFrameKind
  | unknown
  | snapshot
  | delta
  | state
  | other (code : ℕ)
  deriving DecidableEq, Repr

/-- The frame kind stored as the given byte. -/
def BinaryMarketDepthFrameKind.ofCode : ℕ → BinaryMarketDepthFrameKind
  | 0 => unknown
  | 1 => snapshot
  | 2 => delta
  | 3 => state
  | n => other n

/-- `BinaryMarketDepthState`. -/
inductive BinaryMarketDepthState
  | empty
  | partialDepth
  | rebaseInFlight
  | healthy
  | gap
  | other (code : ℕ)
  deriving DecidableEq, Repr

/-- The depth state stored as the given byte. -/
def BinaryMarketDepthState.ofCode : ℕ → BinaryMarketDepthState
  | 0 => empty
  | 1 => partialDepth
  | 2 => rebaseInFlight
  | 3 => healthy
  | 4 => gap
  | n => other n

/-! ## The record and its payloads -/

/-- `BinaryMarketRecord`, as its object representation. -/
structure BinaryMarketRecord extends Raw 1024
  deriving DecidableEq

instance : Layout BinaryMarketRecord where
  size := 1024
  toBytes r := r.bytes
  ofBytes b := ⟨Raw.ofBytes 1024 b⟩
  InRange _ := True
  length_toBytes r := r.length_bytes
  ofBytes_toBytes r _ := by simp

namespace BinaryMarketRecord

variable (r : BinaryMarketRecord)

def sourceId : ℕ := field r.bytes 0 4
def flags : UInt32 := UInt32.ofNat (field r.bytes 4 4)
def sourceGeneration : ℕ := field r.bytes 8 8
def sessionEpoch : ℕ := field r.bytes 16 8
def eventSequence : ℕ := field r.bytes 24 8
def frameSequence : ℕ := field r.bytes 32 8
def nativeIdentityFirst : ℕ := field r.bytes 40 8
def nativeIdentitySecond : ℕ := field r.bytes 48 8
def exchangeTimestampNs : ℤ := toInt64 (field r.bytes 56 8)
def receiveRealtimeNs : ℤ := toInt64 (field r.bytes 64 8)
def receiveMonotonicNs : ℕ := field r.bytes 72 8
def shardSequence : ℕ := field r.bytes 80 8
def payloadBytes : ℕ := field r.bytes 88 2
def shardIndex : ℕ := field r.bytes 90 2
def sourceFlags : UInt16 := UInt16.ofNat (field r.bytes 92 2)
def channel : BinaryMarketChannel := .ofCode (field r.bytes 94 1)
def nativeIdentityShape : ℕ := field r.bytes 95 1
def eventOrdinal : ℕ := field r.bytes 96 2
def reserved : ℕ := field r.bytes 100 4
def payload : Bytes := (r.bytes.drop 104).take 888

def hasFlag (bit : UInt32) : Bool := r.flags &&& bit ≠ 0

end BinaryMarketRecord

/-- A payload read as `BinaryMarketSourceLifecyclePayload`. -/
structure BinaryMarketSourceLifecyclePayload where
  bytes : Bytes

namespace BinaryMarketSourceLifecyclePayload

variable (p : BinaryMarketSourceLifecyclePayload)

def directoryRevision : ℕ := field p.bytes 0 8
def previousSourceGeneration : ℕ := field p.bytes 8 8
def requestSequence : ℕ := field p.bytes 16 8
def channelMaskBefore : UInt16 := UInt16.ofNat (field p.bytes 24 2)
def channelMaskAfter : UInt16 := UInt16.ofNat (field p.bytes 26 2)
def kind : BinaryMarketSourceLifecycleKind := .ofCode (field p.bytes 28 1)
def affectedChannel : ℕ := field p.bytes 29 1
def cause : BinaryMarketSourceTransitionCause := .ofCode (field p.bytes 31 1)
def source : BinaryMarketSource := ⟨Raw.ofBytes 272 ((p.bytes.drop 32).take 272)⟩

end BinaryMarketSourceLifecyclePayload

/-- A payload read as `BinaryMarketDepthChunkPayload`. -/
structure BinaryMarketDepthChunkPayload where
  bytes : Bytes

namespace BinaryMarketDepthChunkPayload

variable (p : BinaryMarketDepthChunkPayload)

def firstUpdateId : ℕ := field p.bytes 0 8
def lastUpdateId : ℕ := field p.bytes 8 8
def previousUpdateId : ℕ := field p.bytes 16 8
def totalLevelCount : ℕ := field p.bytes 24 4
def levelOffset : ℕ := field p.bytes 28 4
def partIndex : ℕ := field p.bytes 32 2
def partCount : ℕ := field p.bytes 34 2
def levelCount : ℕ := field p.bytes 36 2
def frameKind : BinaryMarketDepthFrameKind := .ofCode (field p.bytes 38 1)
def state : BinaryMarketDepthState := .ofCode (field p.bytes 39 1)
def failure : ℕ := field p.bytes 40 1
def transactionPartIndex : ℕ := field p.bytes 42 2
def transactionPartCount : ℕ := field p.bytes 44 2
def sourceReceiveRealtimeNs : ℕ := field p.bytes 48 8
def sourceFreshnessMonotonicNs : ℕ := field p.bytes 56 8
def nativeEvidence : Bytes := (p.bytes.drop 64).take 56

end BinaryMarketDepthChunkPayload

/-- The 144 bytes of one `BinaryMarketDepthCoverage`. -/
structure BinaryMarketDepthCoverage where
  bytes : Bytes

namespace BinaryMarketDepthCoverage

variable (v : BinaryMarketDepthCoverage)

def sourceId : ℕ := field v.bytes 0 4
def maximumLevelsPerSide : ℕ := field v.bytes 8 4
def sequenceFlags : UInt32 := UInt32.ofNat (field v.bytes 12 4)
def lowestBidPriceRaw : ℤ := toInt64 (field v.bytes 48 8)
def highestAskPriceRaw : ℤ := toInt64 (field v.bytes 56 8)
def lowestProtectedBidPriceRaw : ℤ := toInt64 (field v.bytes 64 8)
def highestProtectedAskPriceRaw : ℤ := toInt64 (field v.bytes 72 8)
/-- The code of the feed's state, which the validity check only bounds. -/
def stateCode : ℕ := field v.bytes 80 1
def failure : ℕ := field v.bytes 81 1
def snapshotAligned : ℕ := field v.bytes 82 1
def liquidityPopulation : ℕ := field v.bytes 83 1
def reserved32 : ℕ := field v.bytes 84 4
def nativeEvidence : Bytes := (v.bytes.drop 88).take 56

end BinaryMarketDepthCoverage

/-- A payload read as `BinaryMarketDepthCoveragePayload`. -/
structure BinaryMarketDepthCoveragePayload where
  bytes : Bytes

namespace BinaryMarketDepthCoveragePayload

variable (p : BinaryMarketDepthCoveragePayload)

def totalCoverageCount : ℕ := field p.bytes 0 4
def coverageOffset : ℕ := field p.bytes 4 4
def coverageCount : ℕ := field p.bytes 8 2
def partIndex : ℕ := field p.bytes 10 2
def partCount : ℕ := field p.bytes 12 2
def transactionPartCount : ℕ := field p.bytes 14 2
/-- The entry of `coverage` at the given position. -/
def coverage (i : ℕ) : BinaryMarketDepthCoverage := ⟨(p.bytes.drop (16 + 144 * i)).take 144⟩

end BinaryMarketDepthCoveragePayload

namespace BinaryMarketRecord

variable (r : BinaryMarketRecord)

/-- `binaryMarketPayload<BinaryMarketSourceLifecyclePayload>`. -/
def lifecyclePayload : BinaryMarketSourceLifecyclePayload := ⟨r.payload⟩

/-- `binaryMarketPayload<BinaryMarketDepthChunkPayload>`. -/
def depthChunkPayload : BinaryMarketDepthChunkPayload := ⟨r.payload⟩

/-- `binaryMarketPayload<BinaryMarketDepthCoveragePayload>`. -/
def depthCoveragePayload : BinaryMarketDepthCoveragePayload := ⟨r.payload⟩

/-- The native evidence of a `BinaryMarketBookTickerPayload`. -/
def bookTickerNativeEvidence : Bytes := (r.payload.drop 32).take 56

/-- The native evidence of a `BinaryMarketTradePayload`. -/
def tradeNativeEvidence : Bytes := (r.payload.drop 24).take 56

/-- The payload is zero from the length in the header on. -/
def payloadTailIsZero : Bool := (r.payload.drop r.payloadBytes).all (· = 0)

end BinaryMarketRecord

/-! ## Predicates on depth records -/

/-- `binaryMarketDepthRecordIsComposedCut`. -/
def binaryMarketDepthRecordIsComposedCut (r : BinaryMarketRecord) : Bool :=
  let required := recordDepthSnapshot ||| recordDepthSourcePosition ||| recordDepthHasCoverage
  let forbidden := recordDepthDelta ||| recordDepthState ||| recordDepthRebase ||| recordDepthCoverage
  let p := r.depthChunkPayload
  r.channel = depth && r.payloadBytes = 888 && r.flags &&& required = required &&
    r.flags &&& forbidden = 0 &&
    p.frameKind = .snapshot && p.transactionPartIndex = 0 && p.transactionPartCount = 1 &&
    (p.state = .healthy || p.state = .partialDepth || p.state = .gap ||
      (p.state = .empty && p.totalLevelCount = 0 && p.levelCount = 0))

/-- `validBinaryMarketDepthNativeState`. -/
def validBinaryMarketDepthNativeState (X : Platform) (r : BinaryMarketRecord) : Bool :=
  let p := r.depthChunkPayload
  let composed := binaryMarketDepthRecordIsComposedCut r
  let partialState : Bool := p.state = .partialDepth
  let healthy : Bool := p.state = .healthy
  let rebase : Bool := p.state = .rebaseInFlight
  let gap : Bool := p.state = .gap
  let snapshot : Bool := p.frameKind = .snapshot
  let delta : Bool := p.frameKind = .delta
  let state : Bool := p.frameKind = .state
  let compatible := r.hasFlag recordTraderReplayCompatible
  !((!partialState && !healthy && !rebase && !gap && !composed) || (!snapshot && !delta && !state) ||
    p.failure > X.consumerBookRejected ||
    r.hasFlag recordDepthSnapshot != snapshot ||
    r.hasFlag recordDepthDelta != delta ||
    r.hasFlag recordDepthState != state ||
    r.hasFlag recordDepthPartial != partialState ||
    r.hasFlag recordDepthRebase != rebase ||
    compatible != (partialState || healthy || rebase || composed) ||
    (p.totalLevelCount = 0 && !state && !snapshot) || (state && p.totalLevelCount ≠ 0) ||
    ((partialState || healthy || rebase) && p.failure ≠ 0) ||
    (gap && p.failure = 0 && !composed) ||
    (p.state = .empty && p.failure ≠ 0) ||
    ((partialState || healthy) && !delta && !snapshot) ||
    (rebase && snapshot != (p.transactionPartIndex = 0)) ||
    (!rebase && p.transactionPartCount ≠ 1) ||
    (state && (!gap || compatible || partialState || rebase || p.sourceReceiveRealtimeNs ≠ 0)) ||
    (!state && ((!composed && (p.sourceReceiveRealtimeNs = 0 || p.sourceFreshnessMonotonicNs = 0)) ||
      p.sourceReceiveRealtimeNs > 0x7fffffffffffffff)))

/-- `binaryMarketDepthRecordIsNativeRebaseSnapshot`. -/
def binaryMarketDepthRecordIsNativeRebaseSnapshot (X : Platform) (r : BinaryMarketRecord) : Bool :=
  let required := recordTraderReplayCompatible ||| recordDepthSnapshot ||| recordDepthRebase
  let forbidden := recordDepthDelta ||| recordDepthState ||| recordDepthCoverage |||
    recordDepthHasCoverage ||| recordDepthSourcePosition
  let p := r.depthChunkPayload
  r.channel = depth && r.payloadBytes = 888 && r.flags &&& required = required &&
    r.flags &&& forbidden = 0 &&
    p.frameKind = .snapshot && p.state = .rebaseInFlight &&
    p.transactionPartIndex = 0 && p.partIndex = 0 && p.failure = 0 &&
    X.validDepthSnapshotSequence p.firstUpdateId p.lastUpdateId p.previousUpdateId

/-- `validBinaryMarketDepthCoverage`. -/
def validBinaryMarketDepthCoverage (X : Platform) (v : BinaryMarketDepthCoverage) : Bool :=
  v.sourceId ≠ 0 && v.sourceId ≤ X.maximumDepthSourceCapacity &&
    v.maximumLevelsPerSide ≤ X.maximumDepthLevelsPerSide &&
    v.sequenceFlags &&& ~~~X.depthEventSourcePosition = 0 &&
    0 ≤ v.lowestBidPriceRaw && 0 ≤ v.highestAskPriceRaw &&
    0 ≤ v.lowestProtectedBidPriceRaw && 0 ≤ v.highestProtectedAskPriceRaw &&
    v.stateCode ≤ 4 && v.failure ≤ 8 &&
    v.snapshotAligned ≤ 1 && v.liquidityPopulation ≤ 3 && v.reserved32 = 0 &&
    X.validMarketNativeEvidence v.nativeEvidence

/-- A coverage entry equals `BinaryMarketDepthCoverage{}`, member by member. -/
def isDefaultDepthCoverage (X : Platform) (v : BinaryMarketDepthCoverage) : Bool :=
  (v.bytes.take 88).all (· = 0) &&
    X.sameMarketNativeEvidence v.nativeEvidence X.defaultMarketNativeEvidence

/-- `validBinaryMarketDepthCoveragePayload`. The sum in the check of `partCount` is of 32 bits. -/
def validBinaryMarketDepthCoveragePayload (X : Platform)
    (p : BinaryMarketDepthCoveragePayload) : Bool :=
  !(p.totalCoverageCount = 0 || p.totalCoverageCount > X.maximumDepthSourceCapacity ||
    p.partCount ≠ (p.totalCoverageCount + 4) % 2 ^ 32 / 5 || p.partIndex ≥ p.partCount ||
    p.coverageOffset ≠ p.partIndex * 5 ||
    p.coverageOffset ≥ p.totalCoverageCount || p.coverageCount = 0 || p.coverageCount > 5 ||
    p.coverageCount ≠ min (p.totalCoverageCount - p.coverageOffset) 5 ||
    p.transactionPartCount = 0 || p.transactionPartCount > X.maximumDepthTransactionParts) &&
  (List.range kBinaryMarketDepthCoveragePerRecord).all fun i =>
    if i < p.coverageCount then validBinaryMarketDepthCoverage X (p.coverage i)
    else isDefaultDepthCoverage X (p.coverage i)

/-- `binaryMarketRecordIsSourceHealth`. -/
def binaryMarketRecordIsSourceHealth (r : BinaryMarketRecord) : Bool :=
  if !validBinaryMarketChannel r.channel then false
  else if binaryMarketDepthRecordIsComposedCut r then
    r.depthChunkPayload.state = .gap || r.depthChunkPayload.state = .empty
  else if r.sourceFlags &&& (sourceStale ||| sourceDegraded ||| sourceSequenceGap) ≠ 0 then true
  else if r.channel ≠ depth || !r.hasFlag recordDepthState || r.payloadBytes ≠ 888 then false
  else r.depthChunkPayload.frameKind = .state && r.depthChunkPayload.state = .gap

/-! ## Validity of a record -/

/-- The part of `validBinaryMarketRecord` that looks at the payload of a coverage record. -/
def validCoverageRecord (X : Platform) (r : BinaryMarketRecord) : Bool :=
  let p := r.depthCoveragePayload
  let tail := recordDepthHasCoverage ||| recordDepthSourcePosition ||| recordTraderReplayCompatible
  r.payloadBytes = 736 && validBinaryMarketDepthCoveragePayload X p &&
    r.eventOrdinal = p.partIndex &&
    r.sourceFlags = (if r.exchangeTimestampNs = 0 then sourceExchangeTimestampMissing else 0) &&
    r.flags &&& (recordDepthSnapshot ||| recordDepthDelta ||| recordDepthState) = 0 &&
    r.flags &&& tail = tail &&
    r.hasFlag recordDepthTransactionEnd == (p.partIndex + 1 = p.partCount)

/-- The part of `validBinaryMarketRecord` that looks at the payload of a market channel. -/
def validMarketPayload (X : Platform) (r : BinaryMarketRecord) : Bool :=
  if r.channel = bookTicker then
    r.payloadBytes = 88 && X.validMarketNativeEvidence r.bookTickerNativeEvidence
  else if r.channel = trade then
    r.payloadBytes = 80 && X.validMarketNativeEvidence r.tradeNativeEvidence
  else if r.channel = depth then
    if r.hasFlag recordDepthCoverage then validCoverageRecord X r
    else r.payloadBytes = 888 && validBinaryMarketDepthNativeState X r &&
      X.validMarketNativeEvidence r.depthChunkPayload.nativeEvidence
  else true

/-- The part of `validBinaryMarketRecord` for lifecycle records. -/
def validLifecyclePayload (r : BinaryMarketRecord) : Bool :=
  let p := r.lifecyclePayload
  let affected := BinaryMarketChannel.ofCode p.affectedChannel
  !(r.payloadBytes ≠ 304 || p.directoryRevision = 0 ||
    (match p.cause with | .other _ => true | _ => false) ||
    (p.cause ≠ .subscription &&
      (p.kind ≠ .directoryChanged || p.channelMaskBefore ≠ p.channelMaskAfter ||
        p.affectedChannel = 0 || p.affectedChannel > 3 || p.requestSequence ≠ 0)) ||
    (p.cause ≠ .subscription &&
      p.source.configuredChannelMask &&& binaryMarketChannelBit affected = 0) ||
    (match p.kind with | .other _ => true | _ => false) ||
    p.source.sourceId ≠ r.sourceId || p.source.initialSourceGeneration ≠ r.sourceGeneration ||
    p.source.sourceId = 0 || !validBinaryMarketSource p.source (p.source.sourceId - 1) ||
    p.channelMaskBefore &&& ~~~(0xff : UInt16) ≠ 0 ||
    p.channelMaskAfter ≠ p.source.availableChannelMask ||
    (p.affectedChannel ≠ 0 && !validBinaryMarketChannel affected) ||
    (p.previousSourceGeneration = 0 && p.kind ≠ .added) ||
    !r.hasFlag recordTraderReplayCompatible || r.sourceFlags ≠ 0 || r.nativeIdentityShape ≠ 0)

/-- The shape of a record's native identity and its two numbers agree. -/
def validNativeIdentity (r : BinaryMarketRecord) : Bool :=
  if r.nativeIdentityShape = 0 then r.nativeIdentityFirst = 0 && r.nativeIdentitySecond = 0
  else if r.nativeIdentityShape = 1 then r.nativeIdentityFirst ≠ 0 && r.nativeIdentitySecond = 0
  else r.nativeIdentityShape = 2 ||
    (r.nativeIdentityShape = 4 && r.channel = trade && r.nativeIdentitySecond = 0)

/-- The part of `validBinaryMarketRecord` that looks at the header alone. -/
def validRecordHeader (r : BinaryMarketRecord) : Bool :=
  let lifecycle : Bool := r.channel = sourceLifecycle
  r.sourceId ≠ 0 && r.sourceGeneration ≠ 0 &&
    (lifecycle || r.sessionEpoch ≠ 0) && r.eventSequence ≠ 0 &&
    (lifecycle || r.frameSequence ≠ 0) &&
    r.hasFlag recordSourceLifecycle == lifecycle &&
    0 ≤ r.exchangeTimestampNs &&
    r.hasFlag recordExchangeTimestampMissing == (r.exchangeTimestampNs = 0) &&
    0 < r.receiveRealtimeNs && r.receiveMonotonicNs ≠ 0 && r.shardSequence ≠ 0 &&
    r.payloadBytes ≠ 0 && r.payloadBytes ≤ kBinaryMarketPayloadBytes &&
    validBinaryMarketRecordChannel r.channel && validNativeIdentity r &&
    r.flags &&& ~~~kBinaryMarketKnownRecordFlags = 0 &&
    r.sourceFlags &&& ~~~kBinaryMarketKnownSourceFlags = 0 &&
    (r.sourceFlags &&& sourceExchangeTimestampMissing = 0 ||
      r.hasFlag recordExchangeTimestampMissing) &&
    r.reserved = 0

/-- `validBinaryMarketRecord`. -/
def validBinaryMarketRecord (X : Platform) (r : BinaryMarketRecord) : Bool :=
  validMarketPayload X r &&
    !(r.channel ≠ depth && r.flags &&& (recordDepthCoverage ||| recordDepthHasCoverage |||
      recordDepthTransactionEnd ||| recordDepthSourcePosition) ≠ 0) &&
    !(r.hasFlag recordDepthSourcePosition && (r.nativeIdentityShape ≠ 0 ||
      r.nativeIdentityFirst ≠ 0 || r.nativeIdentitySecond ≠ 0)) &&
    (r.channel ≠ sourceLifecycle || validLifecyclePayload r) && validRecordHeader r

/-- The facts about the header of a valid record that do not depend on its channel. -/
structure ValidHeader (r : BinaryMarketRecord) : Prop where
  sourceId_ne : r.sourceId ≠ 0
  sourceGeneration_ne : r.sourceGeneration ≠ 0
  eventSequence_ne : r.eventSequence ≠ 0
  receiveRealtimeNs_pos : 0 < r.receiveRealtimeNs
  receiveMonotonicNs_ne : r.receiveMonotonicNs ≠ 0
  shardSequence_ne : r.shardSequence ≠ 0
  channel_valid : validBinaryMarketRecordChannel r.channel = true

theorem validHeader_of_valid {X : Platform} {r : BinaryMarketRecord}
    (h : validBinaryMarketRecord X r = true) : ValidHeader r := by
  unfold validBinaryMarketRecord validRecordHeader at h
  simp only [Bool.and_eq_true, decide_eq_true_eq, ne_eq] at h
  constructor <;> tauto

end HftRecorder.Corpus
