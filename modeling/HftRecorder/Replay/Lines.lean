import HftRecorder.Json.Text
import HftRecorder.Replay.Rows

/-!
# The lines of a session

The serializers of `Capture/Serialization/JsonSerializers.cpp` and the parsers of
`Replay/JsonLineParser.cpp` for the rows that a session still records: trades, book tickers,
candles, the depth tape with its sidecar of sides, and the snapshot document. A parser returns
`none` where the source returns `Status::CorruptData`, the only failure there is.
-/

namespace HftRecorder.Replay

open ByteLayout (Bytes)
open Decimal Json

/-! ## Serializers -/

def commaSeparated (values : List Bytes) : Bytes := values.flatMap fun value => ch ',' :: value

def appendArrival (arrival : EventArrival) : Bytes :=
  appendInt arrival.receiveRealtimeNs.toInt ++ commaSeparated [
    decimal arrival.receiveMonotonicNs.toNat, decimal arrival.producerEpoch.toNat,
    decimal arrival.sourceGeneration.toNat, decimal arrival.sessionEpoch.toNat,
    decimal arrival.frameSequence.toNat, decimal arrival.shardSequence.toNat,
    decimal arrival.sourceId.toNat, decimal arrival.shardId.toNat,
    decimal arrival.eventOrdinal.toNat, decimal arrival.flags.toNat]

def candleTierFromTimeframe (timeframe : Bytes) : Int64 :=
  if timeframe = text "1m" then 1
  else if timeframe = text "10m" ∨ timeframe = text "15m" then 2
  else if timeframe = text "1d" then 3
  else 0

/-- `1 << 63`, which marks a timestamp on the tape. -/
def orderBookTapeTimestampTag : UInt64 := (1 : UInt64) <<< 63

def orderBookTapePayloadMask : UInt64 := orderBookTapeTimestampTag - 1

def taggedTapeTimestamp (tsNs : Int64) : UInt64 :=
  orderBookTapeTimestampTag ||| (tsNs.toUInt64 &&& ~~~orderBookTapeTimestampTag)

def renderTradeJsonLine (trade : TradeRow) : Bytes :=
  ch '[' :: (appendInt trade.priceE8.toInt ++ commaSeparated [
    appendInt trade.qtyE8.toInt, appendInt trade.side.toInt, appendInt trade.tsNs.toInt,
    decimal trade.tradeId.toNat, decimal trade.firstTradeId.toNat, decimal trade.lastTradeId.toNat,
    appendInt trade.quoteQtyE8.toInt, decimal trade.isBuyerMaker.toNat,
    quote trade.symbol, quote trade.exchange, quote trade.market,
    appendInt trade.captureSeq.toInt, appendInt trade.ingestSeq.toInt,
    appendArrival trade.arrival] ++ [ch ']'])

def renderBookTickerJsonLine (bookTicker : BookTickerRow) : Bytes :=
  ch '[' :: (decimal bookTicker.eventId.toNat ++ commaSeparated [
    appendInt bookTicker.bidPriceE8.toInt, appendInt bookTicker.bidQtyE8.toInt,
    appendInt bookTicker.askPriceE8.toInt, appendInt bookTicker.askQtyE8.toInt,
    appendInt bookTicker.tsNs.toInt,
    quote bookTicker.symbol, quote bookTicker.exchange, quote bookTicker.market,
    appendInt bookTicker.captureSeq.toInt, appendInt bookTicker.ingestSeq.toInt,
    appendArrival bookTicker.arrival] ++ [ch ']'])

def renderCandleJsonLine (candle : CandleRow) : Bytes :=
  let tier := if candle.tier > 0 then candle.tier else candleTierFromTimeframe candle.timeframe
  ch '[' :: (appendInt tier.toInt ++ commaSeparated [
    appendInt candle.tsNs.toInt, appendInt candle.openE8.toInt, appendInt candle.highE8.toInt,
    appendInt candle.lowE8.toInt, appendInt candle.closeE8.toInt, appendInt candle.volumeE8.toInt,
    appendInt candle.quoteAmountE8.toInt, decimal (if candle.hasOhlc then 1 else 0),
    quote candle.exchange, quote candle.market, quote candle.symbol, quote candle.timeframe,
    appendInt candle.durationNs.toInt,
    appendInt candle.captureSeq.toInt, appendInt candle.ingestSeq.toInt,
    appendArrival candle.arrival] ++ [ch ']'])

/-- The price and the quantity of a level on the tape. -/
def appendTapeLevel (level : PricePair) : Bytes :=
  commaSeparated [appendInt level.priceE8.toInt, appendInt level.qtyE8.toInt]

def renderDepthTapeJsonLine (delta : DepthRow) : Bytes :=
  ch '[' :: (decimal delta.eventId.toNat ++ commaSeparated [
    decimal (taggedTapeTimestamp delta.tsNs).toNat,
    appendInt delta.captureSeq.toInt, appendInt delta.ingestSeq.toInt,
    appendArrival delta.arrival] ++ delta.levels.flatMap appendTapeLevel ++ [ch ']'])

def appendRun (side : Int64) (count : ℕ) : Bytes :=
  commaSeparated [appendInt side.toInt, decimal count]

/-- The loop over the levels: `runSide` and `runCount` are the run it is in. -/
def appendRuns (runSide : Int64) (runCount : ℕ) : List PricePair → Bytes
  | [] => appendRun runSide runCount
  | level :: levels =>
    if level.side = runSide then appendRuns runSide (runCount + 1) levels
    else appendRun runSide runCount ++ appendRuns level.side 1 levels

/-- The runs of a row; the first level opens the first run. -/
def appendSides : List PricePair → Bytes
  | [] => []
  | front :: levels => appendRuns front.side 0 (front :: levels)

def renderDepthRleSidecarJsonLine (delta : DepthRow) : Bytes :=
  ch '[' :: (decimal delta.eventId.toNat ++
    commaSeparated [decimal (taggedTapeTimestamp delta.tsNs).toNat] ++ appendSides delta.levels ++
    [ch ']'])

def appendSnapshotLevel (level : PricePair) : Bytes :=
  ch '[' :: (appendInt level.priceE8.toInt ++
    commaSeparated [appendInt level.qtyE8.toInt, appendInt level.side.toInt] ++ [ch ']'])

/-- The comma of the source stands before every level but the first and once more before the time:
after every level. -/
def appendFlatOrderbook (levels : List PricePair) (tsNs : Int64) : Bytes :=
  ch '[' :: (levels.flatMap (fun level => appendSnapshotLevel level ++ [ch ',']) ++
    appendInt tsNs.toInt ++ [ch ']'])

def renderSnapshotJson (snapshot : SnapshotDocument) : Bytes :=
  appendFlatOrderbook snapshot.levels snapshot.tsNs ++ [10]

/-! ## Parsers -/

def validateCandle (row : CandleRow) : Bool :=
  if row.tsNs ≤ 0 ∨ row.highE8 ≤ 0 ∨ row.lowE8 ≤ 0 ∨ row.highE8 < row.lowE8 ∨ row.quoteAmountE8 < 0
  then false
  else
    let hasNumericTier := row.tier ≥ 1 ∧ row.tier ≤ 3
    if !row.hasOhlc then hasNumericTier
    else hasNumericTier ∧ row.durationNs > 0 ∧ row.openE8 > 0 ∧ row.closeE8 > 0 ∧ row.volumeE8 ≥ 0

def parseCommaInt64 (p : Bytes) : Option (Int64 × Bytes) := (parseComma p).bind parseInt64

def parseCommaUInt64 (p : Bytes) : Option (UInt64 × Bytes) := (parseComma p).bind parseUInt64

def parseCommaString (p : Bytes) : Option (Bytes × Bytes) := (parseComma p).bind parseString

/-- The rules of `parseArrival` for the values it has read. -/
def arrivalAdmitted (arrival : EventArrival) : Bool :=
  if arrival.flags &&& ~~~kEventArrivalKnownFlags ≠ 0 then false
  else
    let application := arrival.flags &&& EventArrivalApplicationFrame ≠ 0
    let historical := arrival.flags &&& EventArrivalHistoricalBackfill ≠ 0
    if application ∧ historical then false
    else if application then hasCapturedApplicationArrival arrival
    else if arrival.flags &&& ~~~(EventArrivalHistoricalBackfill |||
        EventArrivalExchangeTimestampMissing) ≠ 0 then false
    else
      arrival.receiveRealtimeNs == 0 && arrival.receiveMonotonicNs == 0 &&
      arrival.producerEpoch == 0 && arrival.sourceGeneration == 0 &&
      arrival.sessionEpoch == 0 && arrival.frameSequence == 0 &&
      arrival.shardSequence == 0 && arrival.sourceId == 0 && arrival.shardId == 0 &&
      arrival.eventOrdinal == 0

def parseArrival (p : Bytes) : Option (EventArrival × Bytes) := do
  let (receiveRealtimeNs, p) ← parseCommaInt64 p
  let (receiveMonotonicNs, p) ← parseCommaUInt64 p
  let (producerEpoch, p) ← parseCommaUInt64 p
  let (sourceGeneration, p) ← parseCommaUInt64 p
  let (sessionEpoch, p) ← parseCommaUInt64 p
  let (frameSequence, p) ← parseCommaUInt64 p
  let (shardSequence, p) ← parseCommaUInt64 p
  let (sourceId, p) ← parseCommaUInt64 p
  let (shardId, p) ← parseCommaUInt64 p
  let (eventOrdinal, p) ← parseCommaUInt64 p
  let (flags, p) ← parseCommaUInt64 p
  if sourceId > 0xffffffff ∨ shardId > 0xffff ∨ eventOrdinal > 0xffff ∨ flags > 0xffffffff then none
  else
    let out : EventArrival := {
      receiveRealtimeNs, receiveMonotonicNs, producerEpoch, sourceGeneration, sessionEpoch,
      frameSequence, shardSequence
      sourceId := sourceId.toUInt32
      shardId := shardId.toUInt16
      eventOrdinal := eventOrdinal.toUInt16
      flags := flags.toUInt32 }
    if arrivalAdmitted out then some (out, p) else none

def parseLineEnd (p : Bytes) : Option Unit := do
  let p ← parseArrayEnd p
  if finish p then some () else none

def parseBoolByte (p : Bytes) : Option (UInt8 × Bytes) :=
  if peek (ch 't') p || peek (ch 'f') p then
    (parseBool p).map fun (value, p) => (if value then 1 else 0, p)
  else do
    let (value, p) ← parseInt64 p
    if value ≠ 0 ∧ value ≠ 1 then none else some (value.toUInt64.toUInt8, p)

def parseTradeLine (line : Bytes) : Option TradeRow := do
  let p ← parseArrayStart line
  let (priceE8, p) ← parseInt64 p
  let (qtyE8, p) ← parseCommaInt64 p
  let (side, p) ← parseCommaInt64 p
  if side ≠ 0 ∧ side ≠ 1 then none
  else
    let (tsNs, p) ← parseCommaInt64 p
    let (tradeId, p) ← parseCommaUInt64 p
    let (firstTradeId, p) ← parseCommaUInt64 p
    let (lastTradeId, p) ← parseCommaUInt64 p
    let (quoteQtyE8, p) ← parseCommaInt64 p
    let (isBuyerMaker, p) ← (parseComma p).bind parseBoolByte
    let (symbol, p) ← parseCommaString p
    let (exchange, p) ← parseCommaString p
    let (market, p) ← parseCommaString p
    let (captureSeq, p) ← parseCommaInt64 p
    let (ingestSeq, p) ← parseCommaInt64 p
    let (arrival, p) ← parseArrival p
    parseLineEnd p
    return {
      tradeId, firstTradeId, lastTradeId, symbol, exchange, market, tsNs, captureSeq, ingestSeq,
      priceE8, qtyE8, quoteQtyE8, side, isBuyerMaker
      sideBuy := side.toUInt64.toUInt8
      arrival }

def parseBookTickerLine (line : Bytes) : Option BookTickerRow := do
  let p ← parseArrayStart line
  let (eventId, p) ← parseUInt64 p
  if eventId = 0 then none
  else
    let (bidPriceE8, p) ← parseCommaInt64 p
    let (bidQtyE8, p) ← parseCommaInt64 p
    let (askPriceE8, p) ← parseCommaInt64 p
    let (askQtyE8, p) ← parseCommaInt64 p
    let (tsNs, p) ← parseCommaInt64 p
    let (symbol, p) ← parseCommaString p
    let (exchange, p) ← parseCommaString p
    let (market, p) ← parseCommaString p
    let (captureSeq, p) ← parseCommaInt64 p
    let (ingestSeq, p) ← parseCommaInt64 p
    let (arrival, p) ← parseArrival p
    parseLineEnd p
    return {
      eventId, symbol, exchange, market, tsNs, captureSeq, ingestSeq, bidPriceE8, bidQtyE8,
      askPriceE8, askQtyE8, arrival }

def parseCandleLine (line : Bytes) : Option CandleRow := do
  let p ← parseArrayStart line
  let (tier, p) ← parseInt64 p
  let (tsNs, p) ← parseCommaInt64 p
  let (openE8, p) ← parseCommaInt64 p
  let (highE8, p) ← parseCommaInt64 p
  let (lowE8, p) ← parseCommaInt64 p
  let (closeE8, p) ← parseCommaInt64 p
  let (volumeE8, p) ← parseCommaInt64 p
  let (quoteAmountE8, p) ← parseCommaInt64 p
  let (hasOhlc, p) ← (parseComma p).bind parseBoolByte
  let (exchange, p) ← parseCommaString p
  let (market, p) ← parseCommaString p
  let (symbol, p) ← parseCommaString p
  let (timeframe, p) ← parseCommaString p
  let (durationNs, p) ← parseCommaInt64 p
  let (captureSeq, p) ← parseCommaInt64 p
  let (ingestSeq, p) ← parseCommaInt64 p
  let (arrival, p) ← parseArrival p
  let out : CandleRow := {
    tier, tsNs, exchange, market, symbol, timeframe, durationNs, openE8, highE8, lowE8, closeE8,
    volumeE8, quoteAmountE8
    hasOhlc := hasOhlc ≠ 0
    captureSeq, ingestSeq, arrival }
  if !validateCandle out then none
  else
    parseLineEnd p
    return out

def parseTapeNonNegativeI64 (p : Bytes) : Option (Int64 × Bytes) := do
  let (value, p) ← parseUInt64 p
  if value &&& orderBookTapeTimestampTag ≠ 0 then none
  else if value.toNat > 2 ^ 63 - 1 then none
  else some (value.toInt64, p)

/-- The loop of `parseDepthTapeLine` over the levels. Every round consumes two commas, so the length
of the line is enough for `fuel`. -/
def parseTapeLevels : ℕ → Bytes → Option (List PricePair × Bytes)
  | 0, _ => none
  | fuel + 1, p =>
    if peek (ch ']') p then some ([], p)
    else do
      let (price, p) ← (parseComma p).bind parseTapeNonNegativeI64
      let (qty, p) ← (parseComma p).bind parseTapeNonNegativeI64
      let (levels, p) ← parseTapeLevels fuel p
      return ({ priceE8 := price, qtyE8 := qty, side := 0 } :: levels, p)

def parseDepthTapeLine (tapeLine : Bytes) : Option DepthRow := do
  let p ← parseArrayStart tapeLine
  let (eventId, p) ← parseUInt64 p
  if eventId = 0 then none
  else
    let (word, p) ← parseCommaUInt64 p
    if word &&& orderBookTapeTimestampTag = 0 then none
    else
      let tsNs := (word &&& orderBookTapePayloadMask).toInt64
      let (captureSeq, p) ← parseCommaInt64 p
      let (ingestSeq, p) ← parseCommaInt64 p
      let (arrival, p) ← parseArrival p
      let (levels, p) ← parseTapeLevels tapeLine.length p
      parseLineEnd p
      return { eventId, tsNs, captureSeq, ingestSeq, arrival, levels }

/-- The loop of `applyDepthRleSidecar`: `remaining` are the levels from `levelIndex` on. -/
def applyRuns : ℕ → List PricePair → Bytes → Option (List PricePair × Bytes)
  | 0, _, _ => none
  | fuel + 1, remaining, p =>
    if peek (ch ']') p then
      if remaining = [] then some ([], p) else none
    else do
      let (sideValue, p) ← parseCommaInt64 p
      if sideValue ≠ 0 ∧ sideValue ≠ 1 then none
      else
        let (runCount, p) ← parseCommaUInt64 p
        if runCount = 0 then none
        else if runCount.toNat > remaining.length then none
        else
          let (levels, p) ← applyRuns fuel (remaining.drop runCount.toNat) p
          return ((remaining.take runCount.toNat).map ({ · with side := sideValue }) ++ levels, p)

def applyDepthRleSidecar (sidecarLine : Bytes) (out : DepthRow) : Option DepthRow := do
  let p ← parseArrayStart sidecarLine
  let (word, p) ← parseUInt64 p
  if word ≠ out.eventId then none
  else
    let (word, p) ← parseCommaUInt64 p
    if word &&& orderBookTapeTimestampTag = 0 then none
    else if (word &&& orderBookTapePayloadMask).toInt64 ≠ out.tsNs then none
    else
      let (levels, p) ← applyRuns sidecarLine.length out.levels p
      parseLineEnd p
      return { out with levels }

def parseDepthTapeSidecarLine (tapeLine sidecarLine : Bytes) : Option DepthRow :=
  (parseDepthTapeLine tapeLine).bind (applyDepthRleSidecar sidecarLine)

def parsePricePair (p : Bytes) : Option (PricePair × Bytes) := do
  let p ← parseArrayStart p
  let (priceE8, p) ← parseInt64 p
  let (qtyE8, p) ← parseCommaInt64 p
  let (side, p) ← parseCommaInt64 p
  if side ≠ 0 ∧ side ≠ 1 then none
  else
    let p ← parseArrayEnd p
    return ({ priceE8, qtyE8, side }, p)

/-- The loop of `parseFlatOrderbook`; a round consumes a whole level. -/
def parseSnapshotLevels : ℕ → Bytes → Option (List PricePair × Bytes)
  | 0, _ => none
  | fuel + 1, p =>
    if peek (ch '[') p then do
      let (pair, p) ← parsePricePair p
      let p ← parseComma p
      let (levels, p) ← parseSnapshotLevels fuel p
      return (pair :: levels, p)
    else some ([], p)

def parseSnapshotDocument (doc : Bytes) : Option SnapshotDocument := do
  let p ← parseArrayStart doc
  if peek (ch ']') p then none
  else
    let (levels, p) ← parseSnapshotLevels doc.length p
    let (tsNs, p) ← parseInt64 p
    parseLineEnd p
    return { tsNs, levels }

end HftRecorder.Replay
