import HftRecorder.Capture.ParserRecord

/-!
# Conversion of the parser's records and descriptors

`CorpusConversion.cpp` turns a source descriptor of the parser's shared memory into an entry of the
catalogue and a record into a record of the corpus. `validSourceDescriptor` is the test on a descriptor
of the directory, and `copyRecordPayload` has a branch with its own tests for each kind of payload:
membership markers, book tickers, trades, depth coverage, and chunks of depth levels. What is added to
padding and to unused parts of a payload is zero.
-/

namespace HftRecorder.Capture

open ByteLayout Corpus

variable {π σ : Type}

/-! ## Source descriptors -/

/-- `fixedTextValid`. -/
def fixedTextValid (data : Bytes) (bytes : UInt8) : Bool :=
  !(bytes = 0 || bytes.toNat > data.length) && (data.drop bytes.toNat).all (· = 0)

/-- The payload of a record with the given bytes, the rest of them zero. -/
def payloadOf (b : Bytes) : Raw 888 :=
  Raw.ofBytes 888 (b ++ List.replicate (kBinaryMarketPayloadBytes - b.length) 0)

/-- `convertCompatibility`. -/
def convertCompatibility : MarketCaptureCompatibility → BinaryMarketCompatibility
  | .exactTraderReplay => .exactTraderReplay
  | .recordedOnly => .recordedOnly
  | .unavailable | .other _ => .unavailable

namespace ParserProtocol

variable (P : ParserProtocol π σ)

/-- The compatibility of one channel is the one of the descriptor's masks. -/
def validDescriptorChannel (source : σ) (channel : ℕ) : Bool :=
  let descriptor := P.descriptor source
  let bit : UInt16 := 1 <<< UInt16.ofNat channel
  if descriptor.availableChannelMask &&& bit = 0 then
    descriptor.compatibility channel = .unavailable
  else if descriptor.traderReplayChannelMask &&& bit ≠ 0 then
    descriptor.compatibility channel = .exactTraderReplay
  else descriptor.compatibility channel = .recordedOnly

/-- `validSourceDescriptor`. -/
def validSourceDescriptor (source : σ) (index : ℕ) : Bool :=
  let descriptor := P.descriptor source
  let flag (bit : UInt32) (value : Int64) : Bool :=
    decide (descriptor.instrumentFlags &&& bit ≠ 0) == decide (value > 0)
  descriptor.sourceId.toNat = index + 1 && descriptor.sourceGeneration ≠ 0 &&
    descriptor.venueId ≠ 0 && descriptor.priceScale ≤ 18 && descriptor.quantityScale ≤ 18 &&
    fixedTextValid descriptor.venueCode.bytes descriptor.venueCodeBytes &&
    fixedTextValid descriptor.canonicalSymbol.bytes descriptor.canonicalSymbolBytes &&
    fixedTextValid descriptor.nativeSymbol.bytes descriptor.nativeSymbolBytes &&
    fixedTextValid descriptor.marketCode.bytes descriptor.marketCodeBytes &&
    descriptor.listingReserved.all (· = 0) && P.validNativePolicy source &&
    P.validCatalogGenerationRelation source && P.validMarketDirectoryListingIdentity source &&
    descriptor.instrumentFlags &&& ~~~P.kMarketCaptureInstrumentMetadataFlags = 0 &&
    descriptor.instrumentReserved = 0 && P.validMarketCaptureQuantityConversion source &&
    descriptor.canonicalStepSizeRaw ≥ 0 && descriptor.executionQuantityStepRaw ≥ 0 &&
    flag P.instrumentCanonicalStepSize descriptor.canonicalStepSizeRaw &&
    flag P.instrumentExecutionQuantityStep descriptor.executionQuantityStepRaw &&
    flag P.instrumentStepSize descriptor.stepSizeRaw &&
    flag P.instrumentContractBaseQty descriptor.contractBaseQtyRaw &&
    descriptor.descriptorReserved.all (· = 0) && descriptor.reserved = 0 &&
    descriptor.configuredChannelMask &&& ~~~(0x0007 : UInt16) = 0 &&
    descriptor.availableChannelMask &&& ~~~descriptor.configuredChannelMask = 0 &&
    descriptor.traderReplayChannelMask &&& ~~~descriptor.availableChannelMask = 0 &&
    ((List.finRange 3).all fun channel =>
      descriptor.quantityKinds channel = P.quantityKindUnknown ||
        descriptor.configuredChannelMask &&& (1 <<< UInt16.ofNat channel.val) ≠ 0) &&
    (List.range P.kMarketCaptureChannelCount).all (P.validDescriptorChannel source)

/-- `convertSource`. The new entry is initially present. -/
def convertSource (source : σ) : BinaryMarketSource :=
  let input := P.descriptor source
  let compatibility (channel : ℕ) : ℕ :=
    if channel < P.kMarketCaptureChannelCount then
      (convertCompatibility (input.compatibility channel)).code
    else 0
  ⟨Raw.ofBytes 272 <|
    pack [4, 4, 8, 8, 8, 8, 8, 8]
      [input.sourceId.toNat, input.canonicalSymbolId.toNat, input.sourceGeneration.toNat,
        input.tickSizeRaw.toUInt64.toNat, input.stepSizeRaw.toUInt64.toNat,
        input.contractBaseQtyRaw.toUInt64.toNat, input.canonicalStepSizeRaw.toUInt64.toNat,
        input.executionQuantityStepRaw.toUInt64.toNat] ++
    pack [1, 1, 1] ((List.finRange 3).map fun channel => (input.quantityKinds channel).toNat) ++
    input.quantityReserved.bytes ++
    pack [4, 4, 8, 8, 8, 4, 4, 2, 2, 2, 2, 2, 2, 4, 1, 1, 1, 1, 1, 1, 1, 1, 1]
      [input.canonicalBaseMultiplier.toNat, input.nativeBaseMultiplier.toNat,
        input.nativeContractBaseQtyRaw.toUInt64.toNat, input.nativeLotBaseQtyRaw.toUInt64.toNat,
        input.priceBasisQtyRaw.toUInt64.toNat, input.economicBaseAssetId.toNat,
        input.quoteAssetId.toNat, input.venueId.toNat, input.directoryFlags.toNat,
        input.configuredChannelMask.toNat, input.availableChannelMask.toNat,
        input.traderReplayChannelMask.toNat, 0, input.instrumentFlags.toNat, input.marketRaw.toNat,
        input.marketKind.toNat, input.assetDomainRaw.toNat, input.priceScale.toNat,
        input.quantityScale.toNat, input.venueCodeBytes.toNat, input.marketCodeBytes.toNat,
        input.canonicalSymbolBytes.toNat, input.nativeSymbolBytes.toNat] ++
    pack (List.replicate kBinaryMarketChannelCount 1)
      ((List.range kBinaryMarketChannelCount).map compatibility) ++
    pack [1, 5] [1, 0] ++ input.venueCode.bytes ++ input.marketCode.bytes ++
    input.canonicalSymbol.bytes ++ input.nativeSymbol.bytes ++ [0]⟩

/-- `compatibility[marketCaptureChannelIndex(channel)]`. -/
def compatibility (source : σ) (channel : MarketCaptureChannel) : MarketCaptureCompatibility :=
  (P.descriptor source).compatibility (P.marketCaptureChannelIndex channel)

/-! ## Membership markers -/

/-- The tests of `copyRecordPayload` on a membership marker. -/
def membershipAllowed (r : MarketCaptureRecord π) : Bool :=
  let source := P.membershipPayload r.payload
  let descriptor := P.descriptor source.source
  P.validSourceDescriptor source.source (r.sourceId - 1).toNat &&
    descriptor.sourceGeneration = r.sourceGeneration &&
    source.sourceGeneration = r.sourceGeneration && source.sessionEpoch = r.sessionEpoch &&
    source.canonicalSymbolId = descriptor.canonicalSymbolId &&
    source.venueId = descriptor.venueId && source.marketRaw = descriptor.marketRaw &&
    source.channelMaskAfter = descriptor.availableChannelMask && source.reserved.all (· = 0) &&
    !(source.affectedChannel < P.channelCode .bookTicker ||
      source.affectedChannel > P.channelCode .depth) &&
    (source.action = P.subscriptionAdd || source.action = P.subscriptionRemove)

/-- The code of the `BinaryMarketSourceLifecycleKind` of a marker. -/
def lifecycleKindCode (source : MarketCaptureMembershipPayload σ) : ℕ :=
  if source.previousSourceGeneration ≠ 0 ∧ source.channelMaskBefore = source.channelMaskAfter then 4
  else if source.action = P.subscriptionRemove then 2
  else if source.previousSourceGeneration = 0 then 1
  else 3

/-- The code of the `BinaryMarketSourceTransitionCause` of a marker. -/
def transitionCauseCode : MarketCaptureSourceTransitionCause → Option ℕ
  | .subscription => some 0
  | .nativeStale => some 1
  | .nativeDegraded => some 2
  | .nativeSequenceGap => some 3
  | .nativeRecovered => some 4
  | .nativeClosed => some 5
  | .other _ => none

/-- The branch of `copyRecordPayload` for a membership marker. -/
def copyMembership (r : MarketCaptureRecord π) : Option (UInt16 × Raw 888) :=
  let source := P.membershipPayload r.payload
  if r.payloadBytes ≠ P.membershipPayloadBytes then none
  else if !P.membershipAllowed r then none
  else
    match transitionCauseCode source.cause with
    | none => none
    | some cause => some (304, payloadOf <|
        pack [8, 8, 8, 2, 2, 1, 1, 1, 1]
          [source.directoryRevision.toNat, source.previousSourceGeneration.toNat,
            source.requestSequence.toNat, source.channelMaskBefore.toNat,
            source.channelMaskAfter.toNat, P.lifecycleKindCode source,
            source.affectedChannel.toNat, source.status.toNat, cause] ++
        (P.convertSource source.source).bytes)

/-! ## Book tickers and trades -/

/-- The tests of `copyRecordPayload` on a book ticker. A side that is not there is zero. -/
def bookTickerAllowed (r : MarketCaptureRecord π) : Bool :=
  let source := P.bookTickerPayload r.payload
  let bidPresent : Bool := r.sourceFlags &&& P.sourceBookTickerBidPresent ≠ 0
  let askPresent : Bool := r.sourceFlags &&& P.sourceBookTickerAskPresent ≠ 0
  !((!bidPresent && !askPresent) ||
    (if bidPresent then source.bidPriceRaw ≤ 0 || source.bidQtyRaw < 0
      else source.bidPriceRaw ≠ 0 || source.bidQtyRaw ≠ 0) ||
    (if askPresent then source.askPriceRaw ≤ 0 || source.askQtyRaw < 0
      else source.askPriceRaw ≠ 0 || source.askQtyRaw ≠ 0) ||
    (bidPresent && askPresent && source.bidPriceRaw > source.askPriceRaw))

/-- The branch of `copyRecordPayload` for a book ticker. -/
def copyBookTicker (r : MarketCaptureRecord π) : Option (UInt16 × Raw 888) :=
  let source := P.bookTickerPayload r.payload
  if r.payloadBytes ≠ P.bookTickerPayloadBytes then none
  else if !P.bookTickerAllowed r then none
  else some (r.payloadBytes, payloadOf <|
    pack [8, 8, 8, 8] [source.bidPriceRaw.toUInt64.toNat, source.bidQtyRaw.toUInt64.toNat,
      source.askPriceRaw.toUInt64.toNat, source.askQtyRaw.toUInt64.toNat] ++
    source.nativeEvidence.bytes)

/-- `tradeSideValid`. -/
def tradeSideValid (side : UInt8) : Bool :=
  side = P.tradeSideUnknown || side = P.tradeSideBuyerAggressor ||
    side = P.tradeSideSellerAggressor

/-- The branch of `copyRecordPayload` for a trade. -/
def copyTrade (r : MarketCaptureRecord π) : Option (UInt16 × Raw 888) :=
  let source := P.tradePayload r.payload
  if r.payloadBytes ≠ P.tradePayloadBytes then none
  else if source.priceRaw ≤ 0 ∨ source.qtyRaw ≤ 0 ∨ !P.tradeSideValid source.side ∨
      (P.hasFlag r .traderReplayCompatible ∧ source.side = P.tradeSideUnknown) ∨
      !source.reserved.all (· = 0) then none
  else some (r.payloadBytes, payloadOf <|
    pack [8, 8, 1, 7]
      [source.priceRaw.toUInt64.toNat, source.qtyRaw.toUInt64.toNat, source.side.toNat, 0] ++
    source.nativeEvidence.bytes)

end ParserProtocol

/-! ## Depth coverage -/

/-- `encodeBinaryMarketDepthCoverage`. -/
def encodeBinaryMarketDepthCoverage (feed : DepthCoverage) : Bytes :=
  pack [4, 4, 4, 4, 8, 8, 8, 8, 8, 8, 8, 8, 1, 1, 1, 1, 4]
    [feed.sourceId.toNat, feed.sequenceDomain.toNat, feed.maximumLevelsPerSide.toNat,
      feed.sequenceFlags.toNat, feed.sourceGeneration.toNat, feed.sessionEpoch.toNat,
      feed.lastUpdateId.toNat, feed.freshnessMonotonicNs.toNat,
      feed.lowestBidPriceRaw.toUInt64.toNat, feed.highestAskPriceRaw.toUInt64.toNat,
      feed.lowestProtectedBidPriceRaw.toUInt64.toNat,
      feed.highestProtectedAskPriceRaw.toUInt64.toNat, feed.state.toNat, feed.failure.toNat,
      feed.snapshotAligned.toNat, feed.liquidityPopulation.toNat, 0] ++
  feed.nativeEvidence.bytes

/-- The payload that depth coverage is converted to; the entries after the last are default ones. -/
def MarketCaptureDepthCoveragePayload.converted (X : Platform)
    (source : MarketCaptureDepthCoveragePayload) : BinaryMarketDepthCoveragePayload :=
  ⟨pack [4, 4, 2, 2, 2, 2]
      [source.totalCoverageCount.toNat, source.coverageOffset.toNat, source.coverageCount.toNat,
        source.partIndex.toNat, source.partCount.toNat, source.transactionPartCount.toNat] ++
    (List.range kBinaryMarketDepthCoveragePerRecord).flatMap fun i =>
      if i < source.coverageCount.toNat then encodeBinaryMarketDepthCoverage (source.coverage i)
      else List.replicate 88 0 ++ X.defaultMarketNativeEvidence⟩

/-- The branch of `copyRecordPayload` for depth coverage. -/
def ParserProtocol.copyDepthCoverage (P : ParserProtocol π σ) (X : Platform)
    (r : MarketCaptureRecord π) : Option (UInt16 × Raw 888) :=
  let source := P.depthCoveragePayload r.payload
  if r.payloadBytes ≠ P.depthCoveragePayloadBytes then none
  else if source.coverageCount.toNat > kBinaryMarketDepthCoveragePerRecord then none
  else if !validBinaryMarketDepthCoveragePayload X (source.converted X) then none
  else some (736, payloadOf (source.converted X).bytes)

/-! ## Chunks of depth levels -/

namespace MarketCaptureDepthChunkPayload

variable (source : MarketCaptureDepthChunkPayload)

/-- The widths of the members of `BinaryMarketDepthChunkPayload` before its native evidence. -/
def chunkWidths : List ℕ := [8, 8, 8, 4, 4, 2, 2, 2, 1, 1, 1, 1, 2, 2, 2, 8, 8]

/-- The members that the branch copies, with the reserved ones zero. -/
def chunkFields : List ℕ :=
  [source.firstUpdateId.toNat, source.lastUpdateId.toNat, source.previousUpdateId.toNat,
    source.totalLevelCount.toNat, source.levelOffset.toNat, source.partIndex.toNat,
    source.partCount.toNat, source.levelCount.toNat, source.frameKind.toNat, source.state.toNat,
    source.failure.toNat, 0, source.transactionPartIndex.toNat, source.transactionPartCount.toNat, 0,
    source.sourceReceiveRealtimeNs.toNat, source.sourceFreshnessMonotonicNs.toNat]

/-- The entry of `levels` at the given position: a level of the chunk, or zeros. -/
def levelBytes (i : ℕ) : Bytes :=
  let level := source.levels i
  pack [8, 8, 1, 1, 2, 4] (if i < source.levelCount.toNat then
    [level.priceRaw.toNat, level.quantityRaw.toNat, level.side.toNat, level.action.toNat, 0, 0]
    else [0, 0, 0, 0, 0, 0])

theorem length_levelBytes (i : ℕ) : (source.levelBytes i).length = 24 := by
  unfold levelBytes
  split <;> exact length_pack rfl

/-- The payload that a chunk is converted to. -/
def converted : Raw 888 :=
  ⟨pack chunkWidths source.chunkFields ++ (source.nativeEvidence.bytes ++
      ((List.range kBinaryMarketDepthLevelsPerRecord).map source.levelBytes).flatten), by
    have hfields : source.chunkFields.length = chunkWidths.length := rfl
    have hlevel : ∀ piece ∈ (List.range kBinaryMarketDepthLevelsPerRecord).map source.levelBytes,
        piece.length = 24 := by
      intro piece hpiece
      obtain ⟨i, -, rfl⟩ := List.mem_map.mp hpiece
      exact source.length_levelBytes i
    rw [List.length_append, List.length_append, length_pack hfields,
      source.nativeEvidence.length_bytes, length_flatten_of_size 24 hlevel, List.length_map,
      List.length_range]
    rfl⟩

end MarketCaptureDepthChunkPayload

namespace ParserProtocol

variable (P : ParserProtocol π σ)

/-- The tests on the counts and the positions of a chunk, and on the range of its enumerators. -/
def chunkPositionAllowed (source : MarketCaptureDepthChunkPayload) : Bool :=
  let total := source.totalLevelCount.toNat
  let offset := source.levelOffset.toNat
  let count := source.levelCount.toNat
  let expectedParts := if total = 0 then 1
    else (total + P.levelsPerRecord - 1) % 2 ^ 32 / P.levelsPerRecord
  !(total > 2 ^ 32 - 1 - (P.levelsPerRecord - 1)) &&
    !(source.partCount = 0 || source.partCount.toNat ≠ expectedParts ||
      source.partIndex ≥ source.partCount || count > P.levelsPerRecord ||
      offset ≠ source.partIndex.toNat * P.levelsPerRecord % 2 ^ 32 ||
      offset > total || count > total - offset ||
      (source.frameKind ≠ P.frameSnapshot && source.frameKind ≠ P.frameDelta &&
        source.frameKind ≠ P.frameState) ||
      source.state < P.stateEmpty || source.state > P.stateGap ||
      source.failure < P.failureNone || source.failure > P.failureConsumerBookRejected ||
      source.transactionPartCount = 0 ||
      source.transactionPartIndex ≥ source.transactionPartCount ||
      source.reserved8 ≠ 0 || source.reserved16 ≠ 0) &&
    !(decide (total = 0) != decide (count = 0) ||
      (total = 0 && (offset ≠ 0 || source.partCount ≠ 1))) &&
    if source.partIndex.toNat + 1 = source.partCount.toNat then (offset + count) % 2 ^ 32 = total
    else count = P.levelsPerRecord

def composedChunk (r : MarketCaptureRecord π) : Bool :=
  let source := P.chunk r.payload
  let position := P.recordFlag .depthSourcePosition ||| P.recordFlag .depthHasCoverage
  source.frameKind = P.frameSnapshot && !P.hasFlag r .depthRebase &&
    r.flags &&& position = position && source.transactionPartIndex = 0 &&
    source.transactionPartCount = 1 &&
    (source.state = P.statePartial || source.state = P.stateHealthy || source.state = P.stateGap ||
      (source.state = P.stateEmpty && source.totalLevelCount = 0 && source.levelCount = 0))

/-- The tests on the state of the source, the kind of the chunk, and the flags of its record. -/
def chunkStateAllowed (r : MarketCaptureRecord π) : Bool :=
  let source := P.chunk r.payload
  let replayCompatible := P.hasFlag r .traderReplayCompatible
  let partialState : Bool := source.state = P.statePartial
  let healthy : Bool := source.state = P.stateHealthy
  let rebaseInFlight : Bool := source.state = P.stateRebaseInFlight
  let gap : Bool := source.state = P.stateGap
  let snapshot : Bool := source.frameKind = P.frameSnapshot
  let delta : Bool := source.frameKind = P.frameDelta
  let stateRecord : Bool := source.frameKind = P.frameState
  let snapshotFlag := P.hasFlag r .depthSnapshot
  let deltaFlag := P.hasFlag r .depthDelta
  let stateFlag := P.hasFlag r .depthState
  let partialFlag := P.hasFlag r .depthPartial
  let rebaseFlag := P.hasFlag r .depthRebase
  let composed := P.composedChunk r
  !((!partialState && !healthy && !rebaseInFlight && !gap && !composed) ||
    snapshotFlag != snapshot || deltaFlag != delta || stateFlag != stateRecord ||
    snapshotFlag.toNat + deltaFlag.toNat + stateFlag.toNat ≠ 1 ||
    partialFlag != partialState ||
    replayCompatible != (partialState || healthy || rebaseInFlight || composed) ||
    (source.totalLevelCount = 0 && !stateRecord && !snapshot) ||
    (stateRecord && source.totalLevelCount ≠ 0) ||
    ((partialState || healthy || rebaseInFlight) && source.failure ≠ P.failureNone) ||
    (source.state = P.stateEmpty && source.failure ≠ P.failureNone) ||
    (gap && source.failure = P.failureNone && !composed) ||
    ((partialState || healthy) && !delta && !snapshot) ||
    rebaseFlag != rebaseInFlight ||
    (rebaseInFlight && snapshot != decide (source.transactionPartIndex = 0)) ||
    (!rebaseInFlight && source.transactionPartCount ≠ 1) ||
    (stateRecord && (!gap || replayCompatible || partialFlag || rebaseFlag ||
      source.sourceReceiveRealtimeNs ≠ 0)) ||
    (!stateRecord && ((!composed && (source.sourceReceiveRealtimeNs = 0 ||
      source.sourceFreshnessMonotonicNs = 0)) ||
      source.sourceReceiveRealtimeNs > 0x7fffffffffffffff)))

def levelAllowed (source : MarketCaptureDepthChunkPayload) (level : MarketCaptureDepthLevel) : Bool :=
  let side := level.side = P.sideBid || level.side = P.sideAsk
  let action := (level.action = P.actionUpsert && level.quantityRaw > 0) ||
    (level.action = P.actionErase && level.quantityRaw = 0)
  !(level.priceRaw = 0 || !side || !action ||
    (source.frameKind = P.frameSnapshot && level.action ≠ P.actionUpsert) ||
    level.reserved16 ≠ 0 || level.reserved32 ≠ 0)

/-- The levels of a chunk pass their tests. -/
def levelsAllowed (source : MarketCaptureDepthChunkPayload) : Bool :=
  (List.range source.levelCount.toNat).all fun i => P.levelAllowed source (source.levels i)

/-- The branch of `copyRecordPayload` for a chunk of depth levels. -/
def copyDepthChunk (r : MarketCaptureRecord π) : Option (UInt16 × Raw 888) :=
  let source := P.chunk r.payload
  if r.payloadBytes ≠ P.chunkPayloadBytes then none
  else if !P.chunkPositionAllowed source then none
  else if !P.chunkStateAllowed r then none
  else if !P.levelsAllowed source then none
  else some (r.payloadBytes, source.converted)

def isDepthChunk (r : MarketCaptureRecord π) : Bool :=
  r.channel = .depth && !P.hasFlag r .depthCoverage

/-! ## Records -/

/-- `copyRecordPayload`: the payload of the corpus's record, with its length. -/
def copyRecordPayload (X : Platform) (r : MarketCaptureRecord π) : Option (UInt16 × Raw 888) :=
  match r.channel with
  | .membership => P.copyMembership r
  | .bookTicker => P.copyBookTicker r
  | .trade => P.copyTrade r
  | .depth => if P.hasFlag r .depthCoverage then P.copyDepthCoverage X r else P.copyDepthChunk r
  | .other _ => none

/-- The tests of `convertRecord` on the record and the descriptor of its source. -/
def recordAllowed (r : MarketCaptureRecord π) (source : σ) : Bool :=
  let compatibility := P.compatibility source r.channel
  !(r.channel ≠ .membership &&
      (compatibility = .unavailable ||
        (P.hasFlag r .traderReplayCompatible && compatibility ≠ .exactTraderReplay))) &&
    !((P.hasFlag r .bboFreshnessOnly && r.channel ≠ .bookTicker) ||
      (r.flags &&& P.depthFlags ≠ 0 && r.channel ≠ .depth) ||
      (r.channel = .depth && r.flags &&& P.depthKindFlags = 0)) &&
    P.payloadTailIsZero r.payload r.payloadBytes

/-- `convertRecord`. A valid record of the parser has a source. -/
def convertRecord (X : Platform) (r : MarketCaptureRecord π) (expectedShard : ℕ)
    (directory : List σ) : Option BinaryMarketRecord :=
  if !P.validMarketCaptureRecord r ∨ r.shardIndex.toNat ≠ expectedShard ∨
      r.sourceId.toNat > directory.length ∨ r.sourceFlags &&& ~~~P.kSourceFlagsKnown ≠ 0 ∨
      r.sourceId = 0 then none
  else
    match directory[r.sourceId.toNat - 1]? with
    | none => none
    | some source =>
      if P.recordAllowed r source then
        match P.copyRecordPayload X r with
        | none => none
        | some (payloadBytes, payload) =>
          let output := P.outputRecord r payloadBytes payload
          if validBinaryMarketRecord X output then some output else none
      else none

end ParserProtocol

/-! ## What a converted record says of its record -/

variable {P : ParserProtocol π σ} {X : Platform}

/-- What a converted record keeps of its record. -/
structure Converted (P : ParserProtocol π σ) (X : Platform) (r : MarketCaptureRecord π)
    (shard : ℕ) (output : BinaryMarketRecord) : Prop where
  shardIndex_eq : output.shardIndex = shard
  receiveMonotonicNs_eq : output.receiveMonotonicNs = r.receiveMonotonicNs.toNat
  shardSequence_eq : output.shardSequence = r.shardSequence.toNat
  channel_eq : output.channel = P.outputChannel r
  flags_eq : output.flags = P.outputFlags r
  valid : validBinaryMarketRecord X output = true

/-- What a record that is converted has passed. -/
theorem converted_of_convertRecord {r : MarketCaptureRecord π} {expectedShard : ℕ}
    {directory : List σ} {output : BinaryMarketRecord}
    (h : P.convertRecord X r expectedShard directory = some output) :
    Converted P X r expectedShard output := by
  unfold ParserProtocol.convertRecord at h
  split at h
  · cases h
  rename_i htests
  simp only [not_or, not_not] at htests
  split at h
  · cases h
  split at h
  · split at h
    · cases h
    rename_i payloadBytes payload _
    dsimp only at h
    split at h
    · rename_i hvalid
      cases h
      refine ⟨?_, ?_, ?_, ?_, ?_, hvalid⟩
      · rw [← htests.2.1]
        exact field_outputRecord r payloadBytes payload 13 rfl rfl (UInt16.toNat_lt _)
      · exact field_outputRecord r payloadBytes payload 10 rfl rfl (UInt64.toNat_lt _)
      · exact field_outputRecord r payloadBytes payload 11 rfl rfl (UInt64.toNat_lt _)
      · rw [← ofCode_outputChannel]
        exact congrArg BinaryMarketChannel.ofCode
          (field_outputRecord r payloadBytes payload 15 rfl rfl (code_outputChannel_lt r))
      · have hflags := congrArg UInt32.ofNat
          (field_outputRecord (P := P) r payloadBytes payload 1 rfl rfl (UInt32.toNat_lt _))
        rw [UInt32.ofNat_toNat] at hflags
        exact hflags
    · cases h
  · cases h

/-! ## A small protocol

Its numbers are the corpus's, its descriptors are entries of the catalogue, and a payload is given by
how it is read as each of its kinds. -/

/-- A payload: by default a book ticker with a bid, a trade, an update of one depth level from a healthy
source, and a marker that says nothing. -/
structure SamplePayload where
  bookTicker : MarketCaptureBookTickerPayload := ⟨100, 1, 0, 0, Raw.ofBytes 56 []⟩
  trade : MarketCaptureTradePayload := ⟨100, 1, 1, [], Raw.ofBytes 56 []⟩
  coverage : MarketCaptureDepthCoveragePayload :=
    ⟨1, 0, 1, 0, 1, 1,
      fun _ => ⟨1, 0, 0, 0, 1, 1, 1, 1, 0, 0, 0, 0, 3, 0, true, 0, Raw.ofBytes 56 []⟩⟩
  chunk : MarketCaptureDepthChunkPayload :=
    { firstUpdateId := 1, lastUpdateId := 1, previousUpdateId := 0, totalLevelCount := 1
      levelOffset := 0, partIndex := 0, partCount := 1, levelCount := 1, frameKind := 2, state := 3
      failure := 0, reserved8 := 0, transactionPartIndex := 0, transactionPartCount := 1
      reserved16 := 0, sourceReceiveRealtimeNs := 5, sourceFreshnessMonotonicNs := 5
      nativeEvidence := Raw.ofBytes 56 [], levels := fun _ => ⟨100, 1, 1, 1, 0, 0⟩ }
  membership : MarketCaptureMembershipPayload BinaryMarketSource :=
    { directoryRevision := 0, previousSourceGeneration := 0, requestSequence := 0
      sourceGeneration := 0, sessionEpoch := 0, canonicalSymbolId := 0, venueId := 0, marketRaw := 0
      channelMaskBefore := 0, channelMaskAfter := 0, affectedChannel := 0, action := 0, status := 0
      cause := .subscription, reserved := [], source := ⟨Raw.ofBytes 272 []⟩ }

/-- The descriptor with the members of an entry of the catalogue. -/
def descriptorOf (s : BinaryMarketSource) : MarketCaptureSourceDescriptor where
  sourceId := .ofNat s.sourceId
  canonicalSymbolId := .ofNat s.canonicalSymbolId
  sourceGeneration := .ofNat s.initialSourceGeneration
  tickSizeRaw := .ofInt s.tickSizeRaw
  priceBasisQtyRaw := .ofInt s.priceBasisQtyRaw
  economicBaseAssetId := .ofNat s.economicBaseAssetId
  quoteAssetId := .ofNat s.quoteAssetId
  venueId := .ofNat s.venueId
  directoryFlags := s.directoryFlags
  marketRaw := .ofNat s.marketRaw
  marketKind := .ofNat s.marketKindRaw
  assetDomainRaw := .ofNat s.assetDomainRaw
  priceScale := .ofNat s.priceScale
  quantityScale := .ofNat s.quantityScale
  venueCode := Raw.ofBytes 16 s.venue
  venueCodeBytes := .ofNat s.venueBytes
  canonicalSymbol := Raw.ofBytes 48 s.canonicalSymbol
  canonicalSymbolBytes := .ofNat s.canonicalSymbolBytes
  nativeSymbol := Raw.ofBytes 48 s.nativeSymbol
  nativeSymbolBytes := .ofNat s.nativeSymbolBytes
  listingReserved := []
  stepSizeRaw := .ofInt s.stepSizeRaw
  contractBaseQtyRaw := .ofInt s.contractBaseQtyRaw
  canonicalStepSizeRaw := .ofInt s.canonicalStepSizeRaw
  executionQuantityStepRaw := .ofInt s.executionQuantityStepRaw
  instrumentFlags := s.instrumentMetadataFlags
  instrumentReserved := 0
  quantityKinds channel := .ofNat (s.quantityKinds.getD channel 0)
  quantityReserved := Raw.ofBytes 5 []
  canonicalBaseMultiplier := .ofNat s.canonicalBaseMultiplier
  nativeBaseMultiplier := .ofNat s.nativeBaseMultiplier
  nativeContractBaseQtyRaw := .ofInt s.nativeContractBaseQtyRaw
  nativeLotBaseQtyRaw := .ofInt s.nativeLotBaseQtyRaw
  marketCode := Raw.ofBytes 16 s.market
  marketCodeBytes := .ofNat s.marketBytes
  descriptorReserved := []
  reserved := 0
  configuredChannelMask := s.configuredChannelMask
  availableChannelMask := s.availableChannelMask
  traderReplayChannelMask := s.traderReplayChannelMask
  compatibility channel :=
    match s.compatibility channel with
    | .unavailable => .unavailable
    | .exactTraderReplay => .exactTraderReplay
    | .recordedOnly => .recordedOnly
    | .other code => .other (.ofNat code)

def smallProtocol : ParserProtocol SamplePayload BinaryMarketSource where
  descriptor := descriptorOf
  validNativePolicy _ := true
  validCatalogGenerationRelation _ := true
  validMarketDirectoryListingIdentity _ := true
  validMarketCaptureQuantityConversion _ := true
  kMarketCaptureInstrumentMetadataFlags := kBinaryMarketInstrumentMetadataFlags
  instrumentStepSize := instrumentStepSize
  instrumentContractBaseQty := instrumentContractBaseQty
  instrumentCanonicalStepSize := instrumentCanonicalStepSize
  instrumentExecutionQuantityStep := instrumentExecutionQuantityStep
  quantityKindUnknown := 0
  kMarketCaptureChannelCount := 4
  marketCaptureChannelIndex
    | .bookTicker => 0
    | .trade => 1
    | .depth => 2
    | .membership => 3
    | .other code => code.toNat
  baseline s :=
    (List.finRange 8).foldl (fun s channel => s.withCompatibility channel .unavailable)
      (((s.withInitialSourceGeneration 0).withAvailableChannelMask 0).withTraderReplayChannelMask 0)
  chunk := SamplePayload.chunk
  chunkPayloadBytes := 888
  levelsPerRecord := 32
  frameSnapshot := 1
  frameDelta := 2
  frameState := 3
  stateEmpty := 0
  statePartial := 1
  stateRebaseInFlight := 2
  stateHealthy := 3
  stateGap := 4
  failureNone := 0
  failureConsumerBookRejected := 8
  sideBid := 1
  sideAsk := 2
  actionUpsert := 1
  actionErase := 2
  validMarketCaptureRecord _ := true
  kSourceFlagsKnown := kBinaryMarketKnownSourceFlags
  sourceBookTickerBidPresent := 0x10
  sourceBookTickerAskPresent := 0x20
  recordFlag := MarketCaptureRecordFlag.corpusBit
  channelCode
    | .bookTicker => 1
    | .trade => 2
    | .depth => 3
    | .membership => 4
    | .other code => code
  subscriptionAdd := 1
  subscriptionRemove := 2
  tradeSideUnknown := 0
  tradeSideBuyerAggressor := 1
  tradeSideSellerAggressor := 2
  membershipPayloadBytes := 304
  membershipPayload := SamplePayload.membership
  bookTickerPayloadBytes := 88
  bookTickerPayload := SamplePayload.bookTicker
  tradePayloadBytes := 80
  tradePayload := SamplePayload.trade
  depthCoveragePayloadBytes := 736
  depthCoveragePayload := SamplePayload.coverage
  payloadTailIsZero _ _ := true

end HftRecorder.Capture
