import HftRecorder.Lib.ByteLayout
import Mathlib.Data.UInt

/-!
# Event rows

`CorpusContract/EventRows.hpp`: the rows of a JSON session with the identity of their arrival. The
integers are the machine's own; a string is a string of arbitrary bytes.
-/

namespace HftRecorder.Replay

open ByteLayout (Bytes)

/-! ## Arrival -/

/-- Both clocks were sampled when the application frame became available to the parser. -/
def EventArrivalApplicationFrame : UInt32 := (1 : UInt32) <<< 0

/-- Archive data: venue time, no receive instant. -/
def EventArrivalHistoricalBackfill : UInt32 := (1 : UInt32) <<< 1

def EventArrivalRealtimeRegression : UInt32 := (1 : UInt32) <<< 2

def EventArrivalMonotonicNonIncreasing : UInt32 := (1 : UInt32) <<< 3

def EventArrivalExchangeAheadOfReceive : UInt32 := (1 : UInt32) <<< 4

def EventArrivalExchangeTimestampMissing : UInt32 := (1 : UInt32) <<< 5

/-- A change of the source's membership, neither a frame nor archive data. -/
def EventArrivalSourceLifecycle : UInt32 := (1 : UInt32) <<< 6

def kEventArrivalKnownFlags : UInt32 :=
  EventArrivalApplicationFrame ||| EventArrivalHistoricalBackfill |||
  EventArrivalRealtimeRegression ||| EventArrivalMonotonicNonIncreasing |||
  EventArrivalExchangeAheadOfReceive ||| EventArrivalExchangeTimestampMissing |||
  EventArrivalSourceLifecycle

structure EventArrival where
  receiveRealtimeNs : Int64 := 0
  receiveMonotonicNs : UInt64 := 0
  producerEpoch : UInt64 := 0
  sourceGeneration : UInt64 := 0
  sessionEpoch : UInt64 := 0
  frameSequence : UInt64 := 0
  shardSequence : UInt64 := 0
  sourceId : UInt32 := 0
  shardId : UInt16 := 0
  eventOrdinal : UInt16 := 0
  flags : UInt32 := 0
  deriving DecidableEq

/-- The row was delivered live: the only class that takes part in captured-delivery replay. -/
def hasCapturedApplicationArrival (arrival : EventArrival) : Bool :=
  arrival.flags &&& EventArrivalApplicationFrame != 0 &&
  arrival.flags &&& (EventArrivalHistoricalBackfill ||| EventArrivalSourceLifecycle) == 0 &&
  arrival.flags &&& ~~~kEventArrivalKnownFlags == 0 &&
  arrival.receiveRealtimeNs > 0 && arrival.receiveMonotonicNs != 0 &&
  arrival.producerEpoch != 0 && arrival.sourceGeneration != 0 &&
  arrival.sessionEpoch != 0 && arrival.frameSequence != 0 &&
  arrival.shardSequence != 0 && arrival.sourceId != 0

def isHistoricalBackfill (arrival : EventArrival) : Bool :=
  arrival.flags &&& EventArrivalHistoricalBackfill != 0 &&
  arrival.flags &&& ~~~(EventArrivalHistoricalBackfill ||| EventArrivalExchangeTimestampMissing)
    == 0 &&
  arrival.receiveRealtimeNs == 0 && arrival.receiveMonotonicNs == 0 &&
  arrival.producerEpoch == 0 && arrival.sourceGeneration == 0 &&
  arrival.sessionEpoch == 0 && arrival.frameSequence == 0 &&
  arrival.shardSequence == 0 && arrival.sourceId == 0 &&
  arrival.shardId == 0 && arrival.eventOrdinal == 0

/-! ## Rows -/

structure TradeRow where
  tradeId : UInt64 := 0
  firstTradeId : UInt64 := 0
  lastTradeId : UInt64 := 0
  symbol : Bytes := []
  exchange : Bytes := []
  market : Bytes := []
  tsNs : Int64 := 0
  captureSeq : Int64 := 0
  ingestSeq : Int64 := 0
  priceE8 : Int64 := 0
  qtyE8 : Int64 := 0
  quoteQtyE8 : Int64 := 0
  side : Int64 := 0
  isBuyerMaker : UInt8 := 0
  /-- `1` for a taker that bought. -/
  sideBuy : UInt8 := 0
  arrival : EventArrival := {}
  deriving DecidableEq

structure BookTickerRow where
  eventId : UInt64 := 0
  symbol : Bytes := []
  exchange : Bytes := []
  market : Bytes := []
  tsNs : Int64 := 0
  captureSeq : Int64 := 0
  ingestSeq : Int64 := 0
  bidPriceE8 : Int64 := 0
  bidQtyE8 : Int64 := 0
  askPriceE8 : Int64 := 0
  askQtyE8 : Int64 := 0
  arrival : EventArrival := {}
  deriving DecidableEq

structure CandleRow where
  /-- `1` for a minute, `2` for fifteen minutes, `3` for a day. -/
  tier : Int64 := 0
  tsNs : Int64 := 0
  exchange : Bytes := []
  market : Bytes := []
  symbol : Bytes := []
  timeframe : Bytes := []
  durationNs : Int64 := 0
  openE8 : Int64 := 0
  highE8 : Int64 := 0
  lowE8 : Int64 := 0
  closeE8 : Int64 := 0
  volumeE8 : Int64 := 0
  quoteAmountE8 : Int64 := 0
  hasOhlc : Bool := false
  captureSeq : Int64 := 0
  ingestSeq : Int64 := 0
  arrival : EventArrival := {}
  deriving DecidableEq

structure PricePair where
  priceE8 : Int64 := 0
  qtyE8 : Int64 := 0
  side : Int64 := 0
  deriving DecidableEq

structure DepthRow where
  eventId : UInt64 := 0
  tsNs : Int64 := 0
  captureSeq : Int64 := 0
  ingestSeq : Int64 := 0
  arrival : EventArrival := {}
  levels : List PricePair := []
  deriving DecidableEq

structure SnapshotDocument where
  tsNs : Int64 := 0
  levels : List PricePair := []
  deriving DecidableEq

end HftRecorder.Replay
