import HftRecorder.Format.Record

/-!
# Records of the parser's capture plane

The types of the parser's shared memory belong to the parser. A `ParserProtocol` has what the recorder
uses of them beyond the members that it names: the predicates, the constants, and the enumerators of
the protocol, and the readings of a payload as each of its kinds and of a source descriptor. The header
of a corpus record is built here from the one of a record of the parser.
-/

namespace HftRecorder.Capture

open ByteLayout Corpus

/-- `MarketCaptureChannel`. -/
inductive MarketCaptureChannel
  | bookTicker
  | trade
  | depth
  | membership
  | other (code : UInt8)
  deriving DecidableEq

/-- `MarketCaptureCompatibility`. -/
inductive MarketCaptureCompatibility
  | unavailable
  | exactTraderReplay
  | recordedOnly
  | other (code : UInt8)
  deriving DecidableEq

/-- The bits of `MarketCaptureRecord::header.flags` that `convertRecordFlags` knows. -/
inductive MarketCaptureRecordFlag
  | traderReplayCompatible
  | bboFreshnessOnly
  | depthSnapshot
  | depthDelta
  | depthPartial
  | depthRebase
  | exchangeTimestampMissing
  | realtimeRegression
  | monotonicNonIncreasing
  | exchangeAheadOfReceive
  | depthState
  | depthCoverage
  | depthHasCoverage
  | depthTransactionEnd
  | depthSourcePosition

namespace MarketCaptureRecordFlag

/-- The flags in the order of `convertRecordFlags`. -/
def all : List MarketCaptureRecordFlag :=
  [traderReplayCompatible, bboFreshnessOnly, depthSnapshot, depthDelta, depthPartial, depthRebase,
    exchangeTimestampMissing, realtimeRegression, monotonicNonIncreasing, exchangeAheadOfReceive,
    depthState, depthCoverage, depthHasCoverage, depthTransactionEnd, depthSourcePosition]

def corpusBit : MarketCaptureRecordFlag → UInt32
  | traderReplayCompatible => recordTraderReplayCompatible
  | bboFreshnessOnly => recordBboFreshnessOnly
  | depthSnapshot => recordDepthSnapshot
  | depthDelta => recordDepthDelta
  | depthPartial => recordDepthPartial
  | depthRebase => recordDepthRebase
  | exchangeTimestampMissing => recordExchangeTimestampMissing
  | realtimeRegression => recordRealtimeRegression
  | monotonicNonIncreasing => recordMonotonicNonIncreasing
  | exchangeAheadOfReceive => recordExchangeAheadOfReceive
  | depthState => recordDepthState
  | depthCoverage => recordDepthCoverage
  | depthHasCoverage => recordDepthHasCoverage
  | depthTransactionEnd => recordDepthTransactionEnd
  | depthSourcePosition => recordDepthSourcePosition

end MarketCaptureRecordFlag

/-- `MarketCaptureRecord`: the members of its header, with signed ones as bit patterns, and a payload
of the parser's type. -/
structure MarketCaptureRecord (π : Type) where
  sourceId : UInt32
  flags : UInt32
  sourceGeneration : UInt64
  sessionEpoch : UInt64
  eventSequence : UInt64
  frameSequence : UInt64
  nativeIdentityFirst : UInt64
  nativeIdentitySecond : UInt64
  exchangeTimestampNs : UInt64
  receiveRealtimeNs : UInt64
  receiveMonotonicNs : UInt64
  shardSequence : UInt64
  payloadBytes : UInt16
  shardIndex : UInt16
  sourceFlags : UInt16
  channel : MarketCaptureChannel
  nativeIdentityShape : UInt8
  eventOrdinal : UInt16
  payload : π

/-- The members of `MarketCaptureSourceDescriptor` that the recorder reads by name, those of its parts
`market` and `instrument` among them. -/
structure MarketCaptureSourceDescriptor where
  sourceId : UInt32
  canonicalSymbolId : UInt32
  sourceGeneration : UInt64
  tickSizeRaw : Int64
  priceBasisQtyRaw : Int64
  economicBaseAssetId : UInt32
  quoteAssetId : UInt32
  venueId : UInt16
  directoryFlags : UInt16
  marketRaw : UInt8
  marketKind : UInt8
  assetDomainRaw : UInt8
  priceScale : UInt8
  quantityScale : UInt8
  venueCode : Raw 16
  venueCodeBytes : UInt8
  canonicalSymbol : Raw 48
  canonicalSymbolBytes : UInt8
  nativeSymbol : Raw 48
  nativeSymbolBytes : UInt8
  listingReserved : Bytes
  stepSizeRaw : Int64
  contractBaseQtyRaw : Int64
  canonicalStepSizeRaw : Int64
  executionQuantityStepRaw : Int64
  instrumentFlags : UInt32
  instrumentReserved : UInt32
  /-- The members of `quantityConversion`. -/
  quantityKinds : Fin 3 → UInt8
  quantityReserved : Raw 5
  canonicalBaseMultiplier : UInt32
  nativeBaseMultiplier : UInt32
  nativeContractBaseQtyRaw : Int64
  nativeLotBaseQtyRaw : Int64
  marketCode : Raw 16
  marketCodeBytes : UInt8
  descriptorReserved : Bytes
  reserved : UInt32
  configuredChannelMask : UInt16
  availableChannelMask : UInt16
  traderReplayChannelMask : UInt16
  compatibility : ℕ → MarketCaptureCompatibility

/-- `MarketCaptureSourceTransitionCause`. -/
inductive MarketCaptureSourceTransitionCause
  | subscription
  | nativeStale
  | nativeDegraded
  | nativeSequenceGap
  | nativeRecovered
  | nativeClosed
  | other (code : UInt8)

/-- `MarketCaptureMembershipPayload`. -/
structure MarketCaptureMembershipPayload (σ : Type) where
  directoryRevision : UInt64
  previousSourceGeneration : UInt64
  requestSequence : UInt64
  sourceGeneration : UInt64
  sessionEpoch : UInt64
  canonicalSymbolId : UInt32
  venueId : UInt16
  marketRaw : UInt8
  channelMaskBefore : UInt16
  channelMaskAfter : UInt16
  affectedChannel : UInt8
  action : UInt8
  status : UInt8
  cause : MarketCaptureSourceTransitionCause
  reserved : Bytes
  source : σ

/-- `MarketCaptureBookTickerPayload`. -/
structure MarketCaptureBookTickerPayload where
  bidPriceRaw : Int64
  bidQtyRaw : Int64
  askPriceRaw : Int64
  askQtyRaw : Int64
  nativeEvidence : Raw 56

/-- `MarketCaptureTradePayload`. -/
structure MarketCaptureTradePayload where
  priceRaw : Int64
  qtyRaw : Int64
  side : UInt8
  reserved : Bytes
  nativeEvidence : Raw 56

/-- `cxet::market::DepthCoverage`. -/
structure DepthCoverage where
  sourceId : UInt32
  sequenceDomain : UInt32
  maximumLevelsPerSide : UInt32
  sequenceFlags : UInt32
  sourceGeneration : UInt64
  sessionEpoch : UInt64
  lastUpdateId : UInt64
  freshnessMonotonicNs : UInt64
  lowestBidPriceRaw : Int64
  highestAskPriceRaw : Int64
  lowestProtectedBidPriceRaw : Int64
  highestProtectedAskPriceRaw : Int64
  state : UInt8
  failure : UInt8
  snapshotAligned : Bool
  liquidityPopulation : UInt8
  nativeEvidence : Raw 56

/-- `MarketCaptureDepthCoveragePayload`. -/
structure MarketCaptureDepthCoveragePayload where
  totalCoverageCount : UInt32
  coverageOffset : UInt32
  coverageCount : UInt16
  partIndex : UInt16
  partCount : UInt16
  transactionPartCount : UInt16
  coverage : ℕ → DepthCoverage

/-- `MarketCaptureDepthLevel`. -/
structure MarketCaptureDepthLevel where
  priceRaw : UInt64
  quantityRaw : UInt64
  side : UInt8
  action : UInt8
  reserved16 : UInt16
  reserved32 : UInt32

/-- `MarketCaptureDepthChunkPayload`. It has the size of the corpus's payload and its members. -/
structure MarketCaptureDepthChunkPayload where
  firstUpdateId : UInt64
  lastUpdateId : UInt64
  previousUpdateId : UInt64
  totalLevelCount : UInt32
  levelOffset : UInt32
  partIndex : UInt16
  partCount : UInt16
  levelCount : UInt16
  frameKind : UInt8
  state : UInt8
  failure : UInt8
  reserved8 : UInt8
  transactionPartIndex : UInt16
  transactionPartCount : UInt16
  reserved16 : UInt16
  sourceReceiveRealtimeNs : UInt64
  sourceFreshnessMonotonicNs : UInt64
  nativeEvidence : Raw 56
  levels : ℕ → MarketCaptureDepthLevel

/-- What the recorder uses of the parser's protocol and of `cxet` for chunks of depth levels. -/
structure DepthProtocol (π : Type) where
  /-- The payload as a `MarketCaptureDepthChunkPayload`. -/
  chunk : π → MarketCaptureDepthChunkPayload
  chunkPayloadBytes : UInt16
  /-- `kMarketCaptureDepthLevelsPerRecord`. -/
  levelsPerRecord : ℕ
  frameSnapshot : UInt8
  frameDelta : UInt8
  frameState : UInt8
  stateEmpty : UInt8
  statePartial : UInt8
  stateRebaseInFlight : UInt8
  stateHealthy : UInt8
  stateGap : UInt8
  failureNone : UInt8
  failureConsumerBookRejected : UInt8
  sideBid : UInt8
  sideAsk : UInt8
  actionUpsert : UInt8
  actionErase : UInt8

/-- What the recorder uses of the parser's protocol for source descriptors, of type `σ`. -/
structure SourceProtocol (σ : Type) where
  descriptor : σ → MarketCaptureSourceDescriptor
  /-- `validNativePolicy` of the scope of the native identity. -/
  validNativePolicy : σ → Bool
  validCatalogGenerationRelation : σ → Bool
  validMarketDirectoryListingIdentity : σ → Bool
  validMarketCaptureQuantityConversion : σ → Bool
  kMarketCaptureInstrumentMetadataFlags : UInt32
  instrumentStepSize : UInt32
  instrumentContractBaseQty : UInt32
  instrumentCanonicalStepSize : UInt32
  instrumentExecutionQuantityStep : UInt32
  quantityKindUnknown : UInt8
  kMarketCaptureChannelCount : ℕ
  marketCaptureChannelIndex : MarketCaptureChannel → ℕ
  /-- A descriptor with its generation, its masks, and its compatibility cleared. -/
  baseline : σ → σ

/-- What the recorder uses of the parser's protocol, for payloads of type `π` and source descriptors
of type `σ`. -/
structure ParserProtocol (π σ : Type) extends DepthProtocol π, SourceProtocol σ where
  validMarketCaptureRecord : MarketCaptureRecord π → Bool
  kSourceFlagsKnown : UInt16
  sourceBookTickerBidPresent : UInt16
  sourceBookTickerAskPresent : UInt16
  recordFlag : MarketCaptureRecordFlag → UInt32
  /-- The enumerator of a channel. -/
  channelCode : MarketCaptureChannel → UInt8
  subscriptionAdd : UInt8
  subscriptionRemove : UInt8
  tradeSideUnknown : UInt8
  tradeSideBuyerAggressor : UInt8
  tradeSideSellerAggressor : UInt8
  /-- The sizes of the payloads, and the payload read as each of them. -/
  membershipPayloadBytes : UInt16
  membershipPayload : π → MarketCaptureMembershipPayload σ
  bookTickerPayloadBytes : UInt16
  bookTickerPayload : π → MarketCaptureBookTickerPayload
  tradePayloadBytes : UInt16
  tradePayload : π → MarketCaptureTradePayload
  depthCoveragePayloadBytes : UInt16
  depthCoveragePayload : π → MarketCaptureDepthCoveragePayload
  /-- The bytes of the payload from the given length on are zero. -/
  payloadTailIsZero : π → UInt16 → Bool

variable {π σ : Type}

namespace ParserProtocol

variable (P : ParserProtocol π σ)

def hasFlag (r : MarketCaptureRecord π) (flag : MarketCaptureRecordFlag) : Bool :=
  r.flags &&& P.recordFlag flag ≠ 0

/-- `convertRecordFlags`. -/
def convertRecordFlags (r : MarketCaptureRecord π) : UInt32 :=
  MarketCaptureRecordFlag.all.foldl
    (fun output flag => if P.hasFlag r flag then output ||| flag.corpusBit else output) 0

/-- The flags that only a depth record has. -/
def depthFlags : UInt32 :=
  P.recordFlag .depthSnapshot ||| P.recordFlag .depthDelta ||| P.recordFlag .depthPartial |||
    P.recordFlag .depthRebase ||| P.recordFlag .depthState ||| P.recordFlag .depthCoverage |||
    P.recordFlag .depthHasCoverage ||| P.recordFlag .depthTransactionEnd |||
    P.recordFlag .depthSourcePosition

/-- The flags of which a depth record has one. -/
def depthKindFlags : UInt32 :=
  P.recordFlag .depthSnapshot ||| P.recordFlag .depthDelta ||| P.recordFlag .depthState |||
    P.recordFlag .depthCoverage

/-- The flags of a corpus record, with the one of a lifecycle record for a membership marker. -/
def outputFlags (r : MarketCaptureRecord π) : UInt32 :=
  P.convertRecordFlags r ||| if r.channel = .membership then recordSourceLifecycle else 0

def outputChannel (r : MarketCaptureRecord π) : BinaryMarketChannel :=
  if r.channel = .membership then .sourceLifecycle else .ofCode (P.channelCode r.channel).toNat

/-- The widths of the members of a corpus record's header, its padding among them. -/
def headerWidths : List ℕ := [4, 4, 8, 8, 8, 8, 8, 8, 8, 8, 8, 8, 2, 2, 2, 1, 1, 2, 2, 4]

/-- The members of the header that `convertRecord` builds, for a payload of the given length. -/
def headerFields (r : MarketCaptureRecord π) (payloadBytes : UInt16) : List ℕ :=
  [r.sourceId.toNat, (P.outputFlags r).toNat, r.sourceGeneration.toNat, r.sessionEpoch.toNat,
    r.eventSequence.toNat, r.frameSequence.toNat, r.nativeIdentityFirst.toNat,
    r.nativeIdentitySecond.toNat, r.exchangeTimestampNs.toNat, r.receiveRealtimeNs.toNat,
    r.receiveMonotonicNs.toNat, r.shardSequence.toNat, payloadBytes.toNat, r.shardIndex.toNat,
    r.sourceFlags.toNat, (P.outputChannel r).code, r.nativeIdentityShape.toNat,
    r.eventOrdinal.toNat, 0, 0]

theorem length_headerFields (r : MarketCaptureRecord π) (payloadBytes : UInt16) :
    (P.headerFields r payloadBytes).length = headerWidths.length :=
  rfl

/-- The corpus record with the header of a record and the given payload. -/
def outputRecord (r : MarketCaptureRecord π) (payloadBytes : UInt16) (payload : Raw 888) :
    BinaryMarketRecord :=
  ⟨⟨pack headerWidths (P.headerFields r payloadBytes) ++ (payload.bytes ++ List.replicate 32 0), by
    rw [List.length_append, List.length_append, length_pack (P.length_headerFields r payloadBytes),
      payload.length_bytes, List.length_replicate]
    rfl⟩⟩

end ParserProtocol

/-! ## The header of a converted record -/

variable {P : ParserProtocol π σ} {X : Platform}

theorem field_outputRecord (r : MarketCaptureRecord π) (payloadBytes : UInt16) (payload : Raw 888)
    (i : ℕ) {width value : ℕ} (hwidth : ParserProtocol.headerWidths[i]? = some width)
    (hvalue : (P.headerFields r payloadBytes)[i]? = some value) (hlt : value < 256 ^ width) :
    field (P.outputRecord r payloadBytes payload).bytes (ParserProtocol.headerWidths.take i).sum
      width = value := by
  have hfield := field_pack_append (payload.bytes ++ List.replicate 32 0)
    (P.length_headerFields r payloadBytes) hwidth hvalue
  rw [Nat.mod_eq_of_lt hlt] at hfield
  exact hfield

theorem ofCode_outputChannel (r : MarketCaptureRecord π) :
    BinaryMarketChannel.ofCode (P.outputChannel r).code = P.outputChannel r := by
  unfold ParserProtocol.outputChannel
  split
  · rfl
  · exact BinaryMarketChannel.ofCode_code_ofCode _

theorem code_outputChannel_lt (r : MarketCaptureRecord π) : (P.outputChannel r).code < 256 := by
  unfold ParserProtocol.outputChannel
  split
  · decide
  · rw [BinaryMarketChannel.code_ofCode]
    exact UInt8.toNat_lt _

end HftRecorder.Capture
