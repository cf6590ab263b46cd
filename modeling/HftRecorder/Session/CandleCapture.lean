import HftRecorder.Session.Coordinator

/-!
# Candles and past trades of a session

The operations of `CaptureCoordinatorRuntime.cpp` and `CaptureCoordinatorBulk.cpp` that fetch history
into the running session: `captureCandlesOnce`, `captureDetailedCandlesOnce`,
`captureDetailedCandlesBulk` and `captureTradesHistoryOnce`. What a venue delivers is an argument:
`none` where the fetch fails, the rows in the order of delivery otherwise. The file writes of these
operations succeed.

Detailed candles go to a file of their own for each timeframe, and for the timeframes with a tier also
to the legacy channel `candles`. Both counters belong to the session and not to a file.
-/

namespace HftRecorder.Session

open ByteLayout (Bytes)
open Json Replay

/-! ## Rows -/

/-- A candle of a tiered history, with the raw values of the venue library. -/
structure CandleLite where
  ts : UInt64
  high : Int64
  low : Int64
  quoteAmount : Int64

/-- A detailed candle, with the raw values of the venue library. -/
structure Ohlcv where
  ts : UInt64
  openPrice : Int64
  high : Int64
  low : Int64
  close : Int64
  amount : Int64
  quoteAmount : Int64

/-- The three tiers of a history. -/
structure TieredCandleHistory where
  m1 : List CandleLite
  m15 : List CandleLite
  d1 : List CandleLite

/-- The members of `CaptureConfig` that the operations read. -/
structure CandleConfig where
  exchange : Bytes
  market : Bytes
  /-- `primaryIdentitySymbolText`. -/
  symbol : Bytes
  /-- `primaryRouteSymbolText` gives a symbol of the venue library. -/
  routed : Bool
  detailedCandlesTimeframe : Bytes

def asciiLower (b : UInt8) : UInt8 := if ch 'A' ≤ b ∧ b ≤ ch 'Z' then b + 32 else b

def textEqualsAscii (lhs rhs : Bytes) : Bool := lhs.map asciiLower = rhs.map asciiLower

def candleDurationNs (timeframe : Bytes) (tier : Int64) : Int64 :=
  if timeframe = text "1m" then 60000000000
  else if timeframe = text "10m" then 600000000000
  else if timeframe = text "15m" then 900000000000
  else if timeframe = text "1d" then 86400000000000
  else if tier = 1 then 60000000000
  else if tier = 2 then 900000000000
  else if tier = 3 then 86400000000000
  else 0

def isAlphanumeric (b : UInt8) : Bool :=
  (ch '0' ≤ b && b ≤ ch '9') || (ch 'a' ≤ b && b ≤ ch 'z') || (ch 'A' ≤ b && b ≤ ch 'Z')

def sanitizedTimeframeSuffix (timeframe : Bytes) : Bytes :=
  let out := timeframe.filter isAlphanumeric
  if out = [] then text "unknown" else out

def detailedCandlesRelativePath (timeframe : Bytes) (detailed : Bool) : Bytes :=
  text "jsonl/" ++ (if detailed then text "candles2_" else text "candles_") ++
    sanitizedTimeframeSuffix timeframe ++ text ".jsonl"

def CandleConfig.tfText (config : CandleConfig) : Bytes :=
  if config.detailedCandlesTimeframe = [] then text "15m" else config.detailedCandlesTimeframe

/-- The legacy channel takes the timeframes that have a tier. -/
def writeLegacyCandles (timeframe : Bytes) : Bool :=
  let candleTier := candleTierFromTimeframe timeframe
  1 ≤ candleTier && candleTier ≤ 3

def validDetailedCandle (candle : Ohlcv) : Bool :=
  candle.ts > 0 && candle.openPrice > 0 && candle.high > 0 && candle.low > 0 &&
  candle.close > 0 && candle.high ≥ candle.low

/-- The candles of a delivery that are stored. -/
def storedCandles (rows : List Ohlcv) : List Ohlcv :=
  rows.filter fun candle => validDetailedCandle candle && candle.amount ≥ 0 && candle.quoteAmount ≥ 0

def makeDetailedCandleRow (config : CandleConfig) (candle : Ohlcv) : CandleRow where
  tier := candleTierFromTimeframe config.tfText
  exchange := config.exchange
  market := config.market
  symbol := config.symbol
  timeframe := config.tfText
  durationNs := candleDurationNs config.tfText (candleTierFromTimeframe config.tfText)
  tsNs := candle.ts.toInt64
  openE8 := candle.openPrice
  highE8 := candle.high
  lowE8 := candle.low
  closeE8 := candle.close
  volumeE8 := candle.amount
  quoteAmountE8 := candle.quoteAmount
  hasOhlc := true
  arrival := { flags := EventArrivalHistoricalBackfill }

def makeLegacyCandleRow (row : CandleRow) : CandleRow where
  tier := row.tier
  tsNs := row.tsNs
  highE8 := row.highE8
  lowE8 := row.lowE8
  quoteAmountE8 := row.quoteAmountE8
  exchange := row.exchange
  market := row.market
  symbol := row.symbol
  timeframe := row.timeframe
  durationNs := row.durationNs
  arrival := row.arrival

def makeTierRow (config : CandleConfig) (tier : Int64) (candle : CandleLite) : CandleRow :=
  let timeframe := if tier = 1 then text "1m" else if tier = 2 then text "15m" else text "1d"
  { tier
    exchange := config.exchange
    market := config.market
    symbol := config.symbol
    timeframe
    durationNs := candleDurationNs timeframe tier
    tsNs := candle.ts.toInt64
    highE8 := candle.high
    lowE8 := candle.low
    quoteAmountE8 := candle.quoteAmount
    arrival := { flags := EventArrivalHistoricalBackfill } }

def tierRows (config : CandleConfig) (tier : Int64) (candles : List CandleLite) : List CandleRow :=
  (candles.map (makeTierRow config tier)).filter fun row =>
    !(row.tsNs ≤ 0 || row.highE8 ≤ 0 || row.lowE8 ≤ 0 || row.highE8 < row.lowE8)

def allTierRows (config : CandleConfig) (history : TieredCandleHistory) : List CandleRow :=
  tierRows config 1 history.m1 ++ tierRows config 2 history.m15 ++ tierRows config 3 history.d1

def tradeLessByEventTime (lhs rhs : TradeRow) : Bool :=
  if lhs.tsNs ≠ rhs.tsNs then lhs.tsNs < rhs.tsNs
  else if lhs.tradeId ≠ rhs.tradeId then lhs.tradeId < rhs.tradeId
  else if lhs.priceE8 ≠ rhs.priceE8 then lhs.priceE8 < rhs.priceE8
  else if lhs.qtyE8 ≠ rhs.qtyE8 then lhs.qtyE8 < rhs.qtyE8
  else lhs.captureSeq < rhs.captureSeq

def sameTradeEvent (lhs rhs : TradeRow) : Bool :=
  if lhs.tradeId ≠ 0 ∧ rhs.tradeId ≠ 0 then lhs.tradeId = rhs.tradeId ∧ lhs.symbol = rhs.symbol
  else lhs.tsNs = rhs.tsNs ∧ lhs.priceE8 = rhs.priceE8 ∧ lhs.qtyE8 = rhs.qtyE8 ∧
    lhs.side = rhs.side ∧ lhs.symbol = rhs.symbol

/-- `std::unique`: a row is dropped if it repeats the last row that was kept. -/
def uniqueTrades : List TradeRow → List TradeRow
  | [] => []
  | row :: rows => row :: go row rows
where
  go (last : TradeRow) : List TradeRow → List TradeRow
    | [] => []
    | row :: rows => if sameTradeEvent last row then go last rows else row :: go row rows

/-- The trades of a history, in the order in which they are stored. -/
def historyTrades (rows : List TradeRow) : List TradeRow :=
  uniqueTrades (rows.mergeSort fun lhs rhs => !tradeLessByEventTime rhs lhs)

namespace Coordinator

/-! ## Operations -/

/-- A line of a row, with the row's arrival and the counter of its channel. -/
def storeRow (channel : Channel) (path line : Bytes) (arrival : EventArrival) (tsNs : Int64)
    (s : Coordinator) : Coordinator :=
  ((s.appendLine path line).updateArrival arrival tsNs).increment channel

def storeCandle (channel : Channel) (path : Bytes) (row : CandleRow) : Coordinator → Coordinator :=
  storeRow channel path (renderCandleJsonLine row) row.arrival row.tsNs

/-- `appendTier` for the three tiers, to the file that `candlesWriter_` has open. -/
def storeTiers (config : CandleConfig) (history : TieredCandleHistory) (path : Bytes)
    (s : Coordinator) : Coordinator :=
  (allTierRows config history).foldl (fun s row => s.storeCandle .candles path row) s

def captureCandlesOnce (config : CandleConfig) (history : Option TieredCandleHistory)
    (s : Coordinator) : Status × Coordinator :=
  if !textEqualsAscii config.exchange (text "finam") then (.invalidArgument, s)
  else if !config.routed || !s.sessionOpen then (.invalidArgument, s)
  else if s.counter .candles ≠ 0 then (.ok, s)
  else
    match history with
    | none => (.unknown, s)
    | some history =>
      -- An open writer stays on the file it has.
      let path := s.candlesWriter.getD (channelJsonlRelativePath .candles)
      let s := { s with candlesWriter := some path }.storeTiers config history path
      if s.counter .candles ≠ 0 then
        (.ok, { s with manifest := { s.manifest with
          enabled := Function.update s.manifest.enabled .candles true } })
      else (.ok, s)

/-- The manifest names the file of a channel. -/
def nameFile (channel : Channel) (path : Bytes) (s : Coordinator) : Coordinator :=
  { s with manifest := { s.manifest with
      enabled := Function.update s.manifest.enabled channel true
      path := Function.update s.manifest.path channel path
      count := Function.update s.manifest.count channel (s.counter channel) } }

/-- The writers on the files of a timeframe. -/
def openCandleFiles (config : CandleConfig) (s : Coordinator) : Coordinator :=
  { s with
    candles2Writer := some (detailedCandlesRelativePath config.tfText true)
    candlesWriter :=
      if writeLegacyCandles config.tfText then some (detailedCandlesRelativePath config.tfText false)
      else none }

def storeDetailed (config : CandleConfig) (s : Coordinator) (candle : Ohlcv) : Coordinator :=
  let row := makeDetailedCandleRow config candle
  let s := s.storeCandle .candles2 (detailedCandlesRelativePath config.tfText true) row
  if writeLegacyCandles config.tfText then
    s.storeCandle .candles (detailedCandlesRelativePath config.tfText false) (makeLegacyCandleRow row)
  else s

/-- The end of a detailed capture that stored a row. -/
def nameDetailed (config : CandleConfig) (s : Coordinator) : Coordinator :=
  let s := s.nameFile .candles2 (detailedCandlesRelativePath config.tfText true)
  if writeLegacyCandles config.tfText then
    s.nameFile .candles (detailedCandlesRelativePath config.tfText false)
  else s

/-- `accepted` stands for the session and the instrument metadata, `persisted` for the credentials
that are stored after the fetch. A fetch without a valid candle has failed, and `fetched` is `none`. -/
def captureDetailedCandlesOnce (accepted : Bool) (config : CandleConfig)
    (fetched : Option (List Ohlcv)) (persisted : Bool) (s : Coordinator) : Status × Coordinator :=
  if !textEqualsAscii config.exchange (text "finam") then (.invalidArgument, s)
  else
    let (sessionStatus, s) := s.ensureSession accepted
    if sessionStatus ≠ .ok then (sessionStatus, s)
    else
      match fetched with
      | none => (.unknown, s)
      | some rows =>
        if !persisted then (.unknown, s)
        else
          let s := (storedCandles rows).foldl (storeDetailed config) (s.openCandleFiles config)
          if storedCandles rows = [] then (.unknown, s)
          else (s.nameDetailed config).writeManifestFile true

/-- A detailed candle of a page. Its arrival is accounted for at the end. -/
def storeBulk (config : CandleConfig) (s : Coordinator) (candle : Ohlcv) : Coordinator :=
  let row := makeDetailedCandleRow config candle
  let s := (s.appendLine (detailedCandlesRelativePath config.tfText true)
    (renderCandleJsonLine row)).increment .candles2
  if writeLegacyCandles config.tfText then
    (s.appendLine (detailedCandlesRelativePath config.tfText false)
      (renderCandleJsonLine (makeLegacyCandleRow row))).increment .candles
  else s

/-- The files of a timeframe are truncated when they are opened. -/
def truncateCandleFiles (config : CandleConfig) (s : Coordinator) : Coordinator :=
  let files := Function.update s.files (detailedCandlesRelativePath config.tfText true) []
  { s with files :=
      if writeLegacyCandles config.tfText then
        Function.update files (detailedCandlesRelativePath config.tfText false) []
      else files }

def addHistoricalRows (count : ℕ) (s : Coordinator) : Coordinator :=
  { s with manifest := { s.manifest with arrivalClock := { s.manifest.arrivalClock with
      historicalRows := saturatingAdd s.manifest.arrivalClock.historicalRows (UInt64.ofNat count) } } }

/-- `pages` are what the stream delivers before it ends or fails; `fetched` is what it returns. -/
def captureDetailedCandlesBulk (accepted : Bool) (config : CandleConfig) (pages : List (List Ohlcv))
    (fetched persisted : Bool) (s : Coordinator) : Status × Coordinator :=
  if !textEqualsAscii config.exchange (text "finam") then (.invalidArgument, s)
  else
    let (sessionStatus, s) := s.ensureSession accepted
    if sessionStatus ≠ .ok then (sessionStatus, s)
    else if !config.routed then (.invalidArgument, s)
    else
      let stored := pages.flatMap storedCandles
      let s := stored.foldl (storeBulk config) ((s.openCandleFiles config).truncateCandleFiles config)
      if !persisted then (.unknown, s)
      else if !fetched && stored.length = 0 then (.unknown, s)
      else if stored = [] then (.unknown, s)
      else
        let s := (s.nameDetailed config).addHistoricalRows stored.length
        let s := s.addHistoricalRows (if writeLegacyCandles config.tfText then stored.length else 0)
        s.writeManifestFile true

/-- `rows` are the trades that the fetch has delivered, also when it fails in the end. -/
def captureTradesHistoryOnce (accepted : Bool) (rows : List TradeRow) (fetched persisted : Bool)
    (s : Coordinator) : Status × Coordinator :=
  let (sessionStatus, s) := s.ensureSession accepted
  if sessionStatus ≠ .ok then (sessionStatus, s)
  else
    let s := { s with manifest := { s.manifest with
      enabled := Function.update s.manifest.enabled .trades true } }
    let trades := historyTrades rows
    let s := trades.foldl (fun s row => s.storeRow .trades (channelJsonlRelativePath .trades)
      (renderTradeJsonLine row) row.arrival row.tsNs) s
    let s := { s with manifest := { s.manifest with
      count := Function.update s.manifest.count .trades (s.counter .trades) } }
    let (manifestStatus, s) := s.writeManifestFile true
    if !fetched || !persisted || trades = [] then (.unknown, s) else (manifestStatus, s)

end Coordinator

end HftRecorder.Session
