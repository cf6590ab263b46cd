import HftRecorder.Lib.Lists
import HftRecorder.Replay.Lines
import Mathlib.Data.Nat.Bitwise

/-!
# Reading back the lines of a session

What each line parser makes of the line that the serializer writes for a row. For rows of arbitrary
values the result is an equation: the parser returns the row itself where its own rules allow it and
refuses the line otherwise (`parseTradeLine_render`, `parseBookTickerLine_render`,
`parseCandleLine_render`, `parseDepthTapeLine_render`, `applyDepthRleSidecar_render`). The round
trips are the cases in which the rules hold.

The levels of a depth row are split over two lines: the tape carries prices and quantities, the
sidecar the sides as runs. `applyRuns_render` is the induction over the levels that puts the sides
back, with the run that the serializer is in as its state.
-/

namespace HftRecorder.Replay

open ByteLayout (Bytes)
open Decimal Json PricePair

/-! ## The pieces of a line -/

@[simp]
theorem commaSeparated_nil : commaSeparated [] = [] := rfl

@[simp]
theorem commaSeparated_cons (value : Bytes) (values : List Bytes) :
    commaSeparated (value :: values) = ch ',' :: (value ++ commaSeparated values) := rfl

@[simp]
theorem delimited_comma (rest : Bytes) : delimited (ch ',' :: rest) = true := rfl

@[simp]
theorem delimited_close (rest : Bytes) : delimited (ch ']' :: rest) = true := rfl

@[simp]
theorem parseComma_comma (rest : Bytes) : parseComma (ch ',' :: rest) = some rest := by
  rw [parseComma, skipWs_cons (by decide), consume, if_pos rfl]

@[simp]
theorem parseArrayStart_open (rest : Bytes) :
    parseArrayStart (ch '[' :: rest) = some (skipWs rest) := by
  rw [parseArrayStart, skipWs_cons (by decide), consume, if_pos rfl, Option.map_some]

@[simp]
theorem parseArrayEnd_close (rest : Bytes) : parseArrayEnd (ch ']' :: rest) = some rest := by
  rw [parseArrayEnd, skipWs_cons (by decide), consume, if_pos rfl]

@[simp]
theorem parseLineEnd_close : parseLineEnd [ch ']'] = some () := by
  rw [parseLineEnd, parseArrayEnd_close]
  rfl

theorem peek_cons {b : UInt8} (h : isWs b = false) (c : UInt8) (rest : Bytes) :
    peek c (b :: rest) = decide (b = c) := by
  rw [peek, skipWs_cons h, List.head?_cons]
  simp

@[simp]
theorem peek_close_close (rest : Bytes) : peek (ch ']') (ch ']' :: rest) = true := by
  rw [peek_cons (by decide)]
  rfl

@[simp]
theorem peek_close_comma (rest : Bytes) : peek (ch ']') (ch ',' :: rest) = false := by
  rw [peek_cons (by decide)]
  rfl

theorem appendInt_cons (z : ℤ) :
    ∃ b rest, appendInt z = b :: rest ∧ (b = ch '-' ∨ isDigit b = true) := by
  unfold appendInt
  split
  · exact ⟨_, _, rfl, Or.inl rfl⟩
  · obtain ⟨b, rest, hrest, hb⟩ := decimal_cons z.natAbs
    exact ⟨b, rest, hrest, Or.inr hb⟩

theorem peek_appendInt (z : ℤ) (rest : Bytes) {c : UInt8} (hminus : c ≠ ch '-')
    (hdigit : isDigit c = false) : peek c (appendInt z ++ rest) = false := by
  obtain ⟨b, tail, htail, hb⟩ := appendInt_cons z
  have hws : isWs b = false := by
    rcases hb with rfl | hb
    · decide
    · exact isWs_of_isDigit hb
  rw [htail, List.cons_append, peek_cons hws]
  refine decide_eq_false fun hbc => ?_
  subst hbc
  rcases hb with hb | hb
  · exact hminus hb
  · rw [hb] at hdigit
    cases hdigit

theorem peek_decimal (n : ℕ) (rest : Bytes) {c : UInt8} (hdigit : isDigit c = false) :
    peek c (decimal n ++ rest) = false := by
  obtain ⟨b, tail, htail, hb⟩ := decimal_cons n
  rw [htail, List.cons_append, peek_cons (isWs_of_isDigit hb)]
  refine decide_eq_false fun hbc => ?_
  rw [hbc, hdigit] at hb
  cases hb

/-! The parsers are chains of reads. Each lemma below is about a read and everything after it, so
that a chain is followed from the front. -/

section
variable {α : Type} {rest : Bytes}

theorem parseInt64_bind (h : delimited rest = true) (v : Int64) (next : Int64 × Bytes → Option α) :
    (parseInt64 (skipWs (appendInt v.toInt ++ rest)) >>= next) = next (v, rest) := by
  rw [parseInt64_skipWs, parseInt64_appendInt v h]
  rfl

theorem parseUInt64_bind (h : delimited rest = true) (v : UInt64)
    (next : UInt64 × Bytes → Option α) :
    (parseUInt64 (skipWs (decimal v.toNat ++ rest)) >>= next) = next (v, rest) := by
  rw [parseUInt64_skipWs, parseUInt64_decimal v.toNat_lt h, UInt64.ofNat_toNat]
  rfl

theorem parseCommaInt64_bind (h : delimited rest = true) (v : Int64)
    (next : Int64 × Bytes → Option α) :
    (parseCommaInt64 (ch ',' :: (appendInt v.toInt ++ rest)) >>= next) = next (v, rest) := by
  rw [parseCommaInt64, parseComma_comma, Option.bind_some, parseInt64_appendInt v h]
  rfl

theorem parseCommaUInt64_bind (h : delimited rest = true) (v : UInt64)
    (next : UInt64 × Bytes → Option α) :
    (parseCommaUInt64 (ch ',' :: (decimal v.toNat ++ rest)) >>= next) = next (v, rest) := by
  rw [parseCommaUInt64, parseComma_comma, Option.bind_some, parseUInt64_decimal v.toNat_lt h,
    UInt64.ofNat_toNat]
  rfl

theorem parseCommaString_bind (value : Bytes) (next : Bytes × Bytes → Option α) :
    (parseCommaString (ch ',' :: (quote value ++ rest)) >>= next) = next (value, rest) := by
  rw [parseCommaString, parseComma_comma, Option.bind_some, parseString_quote]
  rfl

theorem parseArrayStart_bind (next : Bytes → Option α) :
    (parseArrayStart (ch '[' :: rest) >>= next) = next (skipWs rest) := by
  rw [parseArrayStart_open]
  rfl

theorem parseLineEnd_bind (next : Unit → Option α) :
    (parseLineEnd [ch ']'] >>= next) = next () := by
  rw [parseLineEnd_close]
  rfl

theorem parseBoolByte_decimal (h : delimited rest = true) (v : UInt8) :
    parseBoolByte (decimal v.toNat ++ rest)
      = if v = 0 ∨ v = 1 then some (v, rest) else none := by
  have hlt := v.toNat_lt
  have hparse : parseInt64 (decimal v.toNat ++ rest) = some (Int64.ofInt v.toNat, rest) :=
    parseInt64_decimal (by omega) h
  have hall : ∀ n : Fin 256, (Int64.ofInt n.val = 0 ↔ UInt8.ofNat n = 0) ∧
      (Int64.ofInt n.val = 1 ↔ UInt8.ofNat n = 1) ∧
      (Int64.ofInt n.val).toUInt64.toUInt8 = UInt8.ofNat n := by
    decide +kernel
  obtain ⟨h0, h1, hback⟩ := hall ⟨v.toNat, hlt⟩
  rw [UInt8.ofNat_toNat] at h0 h1 hback
  simp only [parseBoolByte, peek_decimal v.toNat rest (show isDigit (ch 't') = false from rfl),
    peek_decimal v.toNat rest (show isDigit (ch 'f') = false from rfl), Bool.or_self,
    Bool.false_eq_true, if_false, hparse, Option.bind_eq_bind, Option.bind_some, ne_eq, h0, h1, hback]
  by_cases hv : v = 0 ∨ v = 1
  · rw [if_pos hv, if_neg fun hn => hv.elim hn.1 hn.2]
  · rw [if_neg hv, if_pos (not_or.mp hv)]

/-- An arrival is read back where the rules of the parser admit it. -/
theorem parseArrival_appendArrival (h : delimited rest = true) (arrival : EventArrival) :
    parseArrival (ch ',' :: (appendArrival arrival ++ rest))
      = if arrivalAdmitted arrival then some (arrival, rest) else none := by
  have hline : ch ',' :: (appendArrival arrival ++ rest) = ch ',' ::
      (appendInt arrival.receiveRealtimeNs.toInt ++ ch ',' ::
      (decimal arrival.receiveMonotonicNs.toNat ++ ch ',' ::
      (decimal arrival.producerEpoch.toNat ++ ch ',' ::
      (decimal arrival.sourceGeneration.toNat ++ ch ',' ::
      (decimal arrival.sessionEpoch.toNat ++ ch ',' ::
      (decimal arrival.frameSequence.toNat ++ ch ',' ::
      (decimal arrival.shardSequence.toNat ++ ch ',' ::
      (decimal arrival.sourceId.toUInt64.toNat ++ ch ',' ::
      (decimal arrival.shardId.toUInt64.toNat ++ ch ',' ::
      (decimal arrival.eventOrdinal.toUInt64.toNat ++ ch ',' ::
      (decimal arrival.flags.toUInt64.toNat ++ rest))))))))))) := by
    simp [appendArrival]
  -- The narrower fields are read as 64-bit numbers, which fit.
  have h32 : ∀ v : UInt32, ¬v.toUInt64 > 0xffffffff := by
    intro v
    have hlt := v.toNat_lt
    rw [gt_iff_lt, UInt64.lt_iff_toNat_lt, UInt32.toNat_toUInt64]
    simp only [UInt64.reduceToNat]
    omega
  have h16 : ∀ v : UInt16, ¬v.toUInt64 > 0xffff := by
    intro v
    have hlt := v.toNat_lt
    rw [gt_iff_lt, UInt64.lt_iff_toNat_lt, UInt16.toNat_toUInt64]
    simp only [UInt64.reduceToNat]
    omega
  rw [hline]
  simp only [parseArrival, ↓parseCommaInt64_bind (delimited_comma _),
    ↓parseCommaUInt64_bind (delimited_comma _), ↓parseCommaUInt64_bind h, h32, h16, or_self, if_false,
    UInt32.toUInt32_toUInt64, UInt16.toUInt16_toUInt64]

theorem parseArrival_bind (h : delimited rest = true) {arrival : EventArrival}
    (hadmits : arrivalAdmitted arrival = true) (next : EventArrival × Bytes → Option α) :
    (parseArrival (ch ',' :: (appendArrival arrival ++ rest)) >>= next) = next (arrival, rest) := by
  rw [parseArrival_appendArrival h, if_pos hadmits]
  rfl

theorem parseArrival_bind_none (h : delimited rest = true) {arrival : EventArrival}
    (hrefused : arrivalAdmitted arrival = false) (next : EventArrival × Bytes → Option α) :
    (parseArrival (ch ',' :: (appendArrival arrival ++ rest)) >>= next) = none := by
  rw [parseArrival_appendArrival h, hrefused]
  rfl

theorem parseBoolByte_bind (h : delimited rest = true) {v : UInt8} (hv : v = 0 ∨ v = 1)
    (next : UInt8 × Bytes → Option α) :
    ((parseComma (ch ',' :: (decimal v.toNat ++ rest))).bind parseBoolByte >>= next)
      = next (v, rest) := by
  rw [parseComma_comma, Option.bind_some, parseBoolByte_decimal h, if_pos hv]
  rfl

theorem parseBoolByte_bind_none (h : delimited rest = true) {v : UInt8} (hv : ¬(v = 0 ∨ v = 1))
    (next : UInt8 × Bytes → Option α) :
    ((parseComma (ch ',' :: (decimal v.toNat ++ rest))).bind parseBoolByte >>= next) = none := by
  rw [parseComma_comma, Option.bind_some, parseBoolByte_decimal h, if_neg hv]
  rfl

end

/-! ## Trades, book tickers and candles -/

/-- The rules of `parseTradeLine` for the values of a row. -/
def TradeRow.readable (t : TradeRow) : Bool :=
  (t.side = 0 ∨ t.side = 1) ∧ (t.isBuyerMaker = 0 ∨ t.isBuyerMaker = 1) ∧ arrivalAdmitted t.arrival

/-- What `parseTradeLine` makes of the line of a trade. -/
theorem parseTradeLine_render (t : TradeRow) :
    parseTradeLine (renderTradeJsonLine t)
      = if t.readable then some { t with sideBuy := t.side.toUInt64.toUInt8 } else none := by
  have hline : renderTradeJsonLine t = ch '[' :: (appendInt t.priceE8.toInt ++
      ch ',' :: (appendInt t.qtyE8.toInt ++ ch ',' :: (appendInt t.side.toInt ++
      ch ',' :: (appendInt t.tsNs.toInt ++ ch ',' :: (decimal t.tradeId.toNat ++
      ch ',' :: (decimal t.firstTradeId.toNat ++ ch ',' :: (decimal t.lastTradeId.toNat ++
      ch ',' :: (appendInt t.quoteQtyE8.toInt ++ ch ',' :: (decimal t.isBuyerMaker.toNat ++
      ch ',' :: (quote t.symbol ++ ch ',' :: (quote t.exchange ++ ch ',' :: (quote t.market ++
      ch ',' :: (appendInt t.captureSeq.toInt ++ ch ',' :: (appendInt t.ingestSeq.toInt ++
      ch ',' :: (appendArrival t.arrival ++ [ch ']']))))))))))))))) := by
    simp [renderTradeJsonLine]
  rw [hline]
  simp only [parseTradeLine, ↓parseArrayStart_bind, ↓parseInt64_bind (delimited_comma _),
    ↓parseCommaInt64_bind (delimited_comma _), ↓parseCommaUInt64_bind (delimited_comma _)]
  by_cases hside : t.side = 0 ∨ t.side = 1
  swap
  · rw [if_pos (not_or.mp hside), if_neg (by simp [TradeRow.readable, hside])]
  rw [if_neg fun hn => hside.elim hn.1 hn.2]
  by_cases hmaker : t.isBuyerMaker = 0 ∨ t.isBuyerMaker = 1
  swap
  · rw [parseBoolByte_bind_none (delimited_comma _) hmaker,
      if_neg (by simp [TradeRow.readable, hmaker])]
  simp only [↓parseBoolByte_bind (delimited_comma _) hmaker, ↓parseCommaString_bind,
    ↓parseCommaInt64_bind (delimited_comma _)]
  cases harrival : arrivalAdmitted t.arrival with
  | false =>
    rw [parseArrival_bind_none (delimited_close _) harrival,
      if_neg (by simp [TradeRow.readable, harrival])]
  | true =>
    rw [if_pos (by simp [TradeRow.readable, hside, hmaker, harrival])]
    simp only [↓parseArrival_bind (delimited_close _) harrival, ↓parseLineEnd_bind]
    rfl

/-- The rules of `parseBookTickerLine` for the values of a row. -/
def BookTickerRow.readable (b : BookTickerRow) : Bool :=
  b.eventId ≠ 0 ∧ arrivalAdmitted b.arrival

/-- What `parseBookTickerLine` makes of the line of a book ticker. -/
theorem parseBookTickerLine_render (b : BookTickerRow) :
    parseBookTickerLine (renderBookTickerJsonLine b) = if b.readable then some b else none := by
  have hline : renderBookTickerJsonLine b = ch '[' :: (decimal b.eventId.toNat ++
      ch ',' :: (appendInt b.bidPriceE8.toInt ++ ch ',' :: (appendInt b.bidQtyE8.toInt ++
      ch ',' :: (appendInt b.askPriceE8.toInt ++ ch ',' :: (appendInt b.askQtyE8.toInt ++
      ch ',' :: (appendInt b.tsNs.toInt ++ ch ',' :: (quote b.symbol ++
      ch ',' :: (quote b.exchange ++ ch ',' :: (quote b.market ++
      ch ',' :: (appendInt b.captureSeq.toInt ++ ch ',' :: (appendInt b.ingestSeq.toInt ++
      ch ',' :: (appendArrival b.arrival ++ [ch ']'])))))))))))) := by
    simp [renderBookTickerJsonLine]
  rw [hline]
  simp only [parseBookTickerLine, ↓parseArrayStart_bind, ↓parseUInt64_bind (delimited_comma _)]
  by_cases hid : b.eventId = 0
  · rw [if_pos hid, if_neg (by simp [BookTickerRow.readable, hid])]
  rw [if_neg hid]
  simp only [↓parseCommaInt64_bind (delimited_comma _), ↓parseCommaString_bind]
  cases harrival : arrivalAdmitted b.arrival with
  | false =>
    rw [parseArrival_bind_none (delimited_close _) harrival,
      if_neg (by simp [BookTickerRow.readable, harrival])]
  | true =>
    rw [if_pos (by simp [BookTickerRow.readable, hid, harrival])]
    simp only [↓parseArrival_bind (delimited_close _) harrival, ↓parseLineEnd_bind]
    rfl

/-- What `parseCandleLine` makes of the line of a candle that is written with its own tier. -/
theorem parseCandleLine_render_of_tier (c : CandleRow)
    (htier : (if c.tier > 0 then c.tier else candleTierFromTimeframe c.timeframe) = c.tier) :
    parseCandleLine (renderCandleJsonLine c)
      = if arrivalAdmitted c.arrival ∧ validateCandle c then some c else none := by
  have hohlc : decimal (if c.hasOhlc then 1 else 0)
      = decimal (if c.hasOhlc then 1 else 0 : UInt8).toNat := by cases c.hasOhlc <;> rfl
  have hbit : (if c.hasOhlc then 1 else 0 : UInt8) = 0 ∨ (if c.hasOhlc then 1 else 0 : UInt8) = 1 := by
    cases c.hasOhlc <;> decide
  have hback : decide ((if c.hasOhlc then 1 else 0 : UInt8) ≠ 0) = c.hasOhlc := by
    cases c.hasOhlc <;> decide
  have hline : renderCandleJsonLine c = ch '[' :: (appendInt c.tier.toInt ++
      ch ',' :: (appendInt c.tsNs.toInt ++ ch ',' :: (appendInt c.openE8.toInt ++
      ch ',' :: (appendInt c.highE8.toInt ++ ch ',' :: (appendInt c.lowE8.toInt ++
      ch ',' :: (appendInt c.closeE8.toInt ++ ch ',' :: (appendInt c.volumeE8.toInt ++
      ch ',' :: (appendInt c.quoteAmountE8.toInt ++
      ch ',' :: (decimal (if c.hasOhlc then 1 else 0 : UInt8).toNat ++
      ch ',' :: (quote c.exchange ++ ch ',' :: (quote c.market ++ ch ',' :: (quote c.symbol ++
      ch ',' :: (quote c.timeframe ++ ch ',' :: (appendInt c.durationNs.toInt ++
      ch ',' :: (appendInt c.captureSeq.toInt ++ ch ',' :: (appendInt c.ingestSeq.toInt ++
      ch ',' :: (appendArrival c.arrival ++ [ch ']']))))))))))))))))) := by
    rw [← hohlc]
    simp [renderCandleJsonLine, htier]
  rw [hline]
  simp only [parseCandleLine, ↓parseArrayStart_bind, ↓parseInt64_bind (delimited_comma _),
    ↓parseCommaInt64_bind (delimited_comma _), ↓parseBoolByte_bind (delimited_comma _) hbit,
    ↓parseCommaString_bind]
  cases harrival : arrivalAdmitted c.arrival with
  | false =>
    rw [parseArrival_bind_none (delimited_close _) harrival, if_neg (by simp)]
  | true =>
    simp only [↓parseArrival_bind (delimited_close _) harrival, ↓parseLineEnd_bind, hback, true_and]
    cases hvalid : validateCandle c with
    | false => rfl
    | true => rfl

theorem parseCandleLine_render (c : CandleRow) (htier : c.tier > 0) :
    parseCandleLine (renderCandleJsonLine c)
      = if arrivalAdmitted c.arrival ∧ validateCandle c then some c else none :=
  parseCandleLine_render_of_tier c (if_pos htier)

/-! ## The snapshot document -/

theorem parsePricePair_render {l : PricePair} (hside : l.side = 0 ∨ l.side = 1) (rest : Bytes) :
    parsePricePair (appendSnapshotLevel l ++ rest) = some (l, rest) := by
  have hline : appendSnapshotLevel l ++ rest = ch '[' :: (appendInt l.priceE8.toInt ++
      ch ',' :: (appendInt l.qtyE8.toInt ++ ch ',' :: (appendInt l.side.toInt ++
      ch ']' :: rest))) := by
    simp [appendSnapshotLevel]
  rw [hline]
  simp only [parsePricePair, ↓parseArrayStart_bind, ↓parseInt64_bind (delimited_comma _),
    ↓parseCommaInt64_bind (delimited_comma _), ↓parseCommaInt64_bind (delimited_close _)]
  rw [if_neg fun hn => hside.elim hn.1 hn.2, parseArrayEnd_close]
  rfl

variable {fuel : ℕ}

/-- The levels of a snapshot are read back up to its time. -/
theorem parseSnapshotLevels_render {levels : List PricePair}
    (hsides : ∀ l ∈ levels, l.side = 0 ∨ l.side = 1) (tsNs : Int64) (rest : Bytes)
    (hfuel : levels.length < fuel) :
    parseSnapshotLevels fuel
        (levels.flatMap (fun l => appendSnapshotLevel l ++ [ch ',']) ++ (appendInt tsNs.toInt ++ rest))
      = some (levels, appendInt tsNs.toInt ++ rest) := by
  induction levels generalizing fuel with
  | nil =>
    obtain ⟨fuel, rfl⟩ : ∃ n, fuel = n + 1 := ⟨fuel - 1, by simp at hfuel; omega⟩
    rw [List.flatMap_nil, List.nil_append, parseSnapshotLevels,
      peek_appendInt _ _ (by decide) (by decide)]
    rfl
  | cons l levels ih =>
    obtain ⟨fuel, rfl⟩ : ∃ n, fuel = n + 1 := ⟨fuel - 1, by simp at hfuel; omega⟩
    have hrest := ih (fun l hl => hsides l (List.mem_cons_of_mem _ hl))
      (show levels.length < fuel by simp at hfuel; omega)
    have hopen : ∀ tail, peek (ch '[') (appendSnapshotLevel l ++ tail) = true := by
      intro tail
      rw [appendSnapshotLevel, List.cons_append, peek_cons (by decide)]
      rfl
    simp only [List.flatMap_cons, List.append_assoc, List.cons_append, List.nil_append,
      parseSnapshotLevels, hopen, if_true, parsePricePair_render (hsides l (List.mem_cons_self ..)),
      Option.bind_eq_bind, Option.bind_some, parseComma_comma, hrest]
    rfl

/-- The snapshot document is read back. -/
theorem parseSnapshotDocument_render (s : SnapshotDocument)
    (hsides : ∀ l ∈ s.levels, l.side = 0 ∨ l.side = 1) :
    parseSnapshotDocument (renderSnapshotJson s) = some s := by
  have hdoc : renderSnapshotJson s = ch '[' ::
      (s.levels.flatMap (fun l => appendSnapshotLevel l ++ [ch ',']) ++
        (appendInt s.tsNs.toInt ++ ch ']' :: [10])) := by
    simp [renderSnapshotJson, appendFlatOrderbook]
  -- The document starts with a level or with the time, so nothing is skipped after the bracket.
  have hskip : ∀ tail, skipWs (s.levels.flatMap (fun l => appendSnapshotLevel l ++ [ch ',']) ++
        (appendInt s.tsNs.toInt ++ tail))
      = s.levels.flatMap (fun l => appendSnapshotLevel l ++ [ch ',']) ++
        (appendInt s.tsNs.toInt ++ tail) ∧
      peek (ch ']') (s.levels.flatMap (fun l => appendSnapshotLevel l ++ [ch ',']) ++
        (appendInt s.tsNs.toInt ++ tail)) = false := by
    intro tail
    cases s.levels with
    | nil =>
      obtain ⟨b, more, hmore, hb⟩ := appendInt_cons s.tsNs.toInt
      have hws : isWs b = false := by
        rcases hb with rfl | hb
        · decide
        · exact isWs_of_isDigit hb
      refine ⟨?_, peek_appendInt _ _ (by decide) (by decide)⟩
      rw [List.flatMap_nil, List.nil_append, hmore, List.cons_append, skipWs_cons hws]
    | cons l levels =>
      simp only [List.flatMap_cons, appendSnapshotLevel, List.cons_append, List.append_assoc]
      refine ⟨skipWs_cons (by decide) _, ?_⟩
      rw [peek_cons (by decide)]
      rfl
  have hfuel : s.levels.length < (renderSnapshotJson s).length := by
    have hlen := Lists.length_le_flatMap (fun l => appendSnapshotLevel l ++ [ch ',']) (by simp) s.levels
    rw [hdoc]
    simp only [List.length_cons, List.length_append]
    omega
  rw [parseSnapshotDocument]
  rw [hdoc] at hfuel ⊢
  simp only [↓parseArrayStart_bind, (hskip _).1, (hskip _).2, Bool.false_eq_true, if_false,
    parseSnapshotLevels_render hsides s.tsNs _ hfuel, Option.bind_eq_bind, Option.bind_some,
    parseInt64_appendInt s.tsNs (delimited_close _)]
  rfl

/-! ## The depth tape -/

theorem tag_and_tagged (tsNs : Int64) :
    taggedTapeTimestamp tsNs &&& orderBookTapeTimestampTag ≠ 0 := by
  have habsorb : ∀ t y : UInt64, (t ||| y) &&& t = t := by
    intro t y
    rw [← UInt64.toBitVec_inj]
    ext i
    simp only [UInt64.toBitVec_and, UInt64.toBitVec_or, BitVec.getElem_and, BitVec.getElem_or]
    cases t.toBitVec[i] <;> simp
  rw [taggedTapeTimestamp, habsorb]
  decide

/-- The time that the tape keeps: all of a time but its sign. -/
def tapeTime (tsNs : Int64) : Int64 := (tsNs.toUInt64 &&& orderBookTapePayloadMask).toInt64

theorem mask_and_tagged (tsNs : Int64) :
    (taggedTapeTimestamp tsNs &&& orderBookTapePayloadMask).toInt64 = tapeTime tsNs := by
  have hmask : orderBookTapePayloadMask = ~~~orderBookTapeTimestampTag := by decide
  have hdrop : ∀ t x : UInt64, (t ||| (x &&& ~~~t)) &&& ~~~t = x &&& ~~~t := by
    intro t x
    rw [← UInt64.toBitVec_inj]
    ext i
    simp only [UInt64.toBitVec_and, UInt64.toBitVec_or, UInt64.toBitVec_not, BitVec.getElem_and,
      BitVec.getElem_or, BitVec.getElem_not]
    cases t.toBitVec[i] <;> simp
  rw [tapeTime, taggedTapeTimestamp, hmask, hdrop]

theorem toInt_of_nonneg {v : Int64} (h : 0 ≤ v) :
    v.toInt = v.toUInt64.toNat ∧ v.toUInt64.toNat < 2 ^ 63 := by
  have hv : (0 : ℤ) ≤ v.toInt := Int64.le_iff_toInt_le.mp h
  have hcond := BitVec.toInt_eq_toNat_cond v.toBitVec
  have hlt := v.toUInt64.toNat_lt
  rw [show v.toBitVec.toInt = v.toInt from rfl, show v.toBitVec.toNat = v.toUInt64.toNat from rfl]
    at hcond
  split_ifs at hcond with hsmall
  · exact ⟨hcond, by omega⟩
  · omega

theorem tapeTime_of_nonneg {tsNs : Int64} (h : 0 ≤ tsNs) : tapeTime tsNs = tsNs := by
  have hlt := (toInt_of_nonneg h).2
  have hkeep : tsNs.toUInt64 &&& orderBookTapePayloadMask = tsNs.toUInt64 := by
    rw [← UInt64.toNat_inj, UInt64.toNat_and,
      show orderBookTapePayloadMask.toNat = 2 ^ 63 - 1 from rfl, Nat.and_two_pow_sub_one_eq_mod]
    exact Nat.mod_eq_of_lt hlt
  rw [tapeTime, hkeep]
  rfl

/-- The tape refuses a negative number. -/
theorem parseTapeNonNegativeI64_appendInt {rest : Bytes} (h : delimited rest = true) (v : Int64) :
    parseTapeNonNegativeI64 (appendInt v.toInt ++ rest)
      = if 0 ≤ v then some (v, rest) else none := by
  by_cases hv : 0 ≤ v
  · obtain ⟨hint, hlt⟩ := toInt_of_nonneg hv
    have hwrite : appendInt v.toInt = decimal v.toUInt64.toNat := by
      rw [appendInt, hint, if_neg (by omega), Int.natAbs_natCast]
    have htag : v.toUInt64 &&& orderBookTapeTimestampTag = 0 := by
      rw [← UInt64.toNat_inj, UInt64.toNat_and,
        show orderBookTapeTimestampTag.toNat = 2 ^ 63 from rfl, Nat.and_two_pow,
        Nat.testBit_lt_two_pow hlt]
      rfl
    rw [parseTapeNonNegativeI64, hwrite, parseUInt64_decimal v.toUInt64.toNat_lt h,
      UInt64.ofNat_toNat, if_pos hv]
    simp only [Option.bind_eq_bind, Option.bind_some, htag]
    rw [if_neg (by simp), if_neg (by omega)]
    rfl
  · have hneg : v.toInt < 0 := by
      have hle : ¬(0 : ℤ) ≤ v.toInt := fun hle => hv (Int64.le_iff_toInt_le.mpr hle)
      omega
    rw [parseTapeNonNegativeI64, appendInt, if_pos hneg, List.cons_append, parseUInt64_minus,
      if_neg hv]
    rfl

/-- A level as the tape carries it, before the sidecar gives it its side. -/
def PricePair.onTape (l : PricePair) : PricePair := { l with side := 0 }

/-- The rules of `parseDepthTapeLine` for a level. -/
def PricePair.tapeable (l : PricePair) : Bool := 0 ≤ l.priceE8 ∧ 0 ≤ l.qtyE8

/-- The levels are read until the bracket; each takes one round. -/
theorem parseTapeLevels_render (levels : List PricePair) (rest : Bytes)
    (hfuel : levels.length < fuel) :
    parseTapeLevels fuel (levels.flatMap appendTapeLevel ++ ch ']' :: rest)
      = if levels.all PricePair.tapeable
        then some (levels.map onTape, ch ']' :: rest) else none := by
  induction levels generalizing fuel with
  | nil =>
    obtain ⟨fuel, rfl⟩ : ∃ n, fuel = n + 1 := ⟨fuel - 1, by simp at hfuel; omega⟩
    rw [List.flatMap_nil, List.nil_append, parseTapeLevels, peek_close_close]
    rfl
  | cons l levels ih =>
    obtain ⟨fuel, rfl⟩ : ∃ n, fuel = n + 1 := ⟨fuel - 1, by simp at hfuel; omega⟩
    have hrest := ih (show levels.length < fuel by simp at hfuel; omega)
    have hline : (l :: levels).flatMap appendTapeLevel ++ ch ']' :: rest
        = ch ',' :: (appendInt l.priceE8.toInt ++ ch ',' :: (appendInt l.qtyE8.toInt ++
          (levels.flatMap appendTapeLevel ++ ch ']' :: rest))) := by
      simp [appendTapeLevel]
    have hdelimited : delimited (levels.flatMap appendTapeLevel ++ ch ']' :: rest) = true := by
      cases levels <;> rfl
    simp only [hline, parseTapeLevels, peek_close_comma, Bool.false_eq_true, if_false,
      parseComma_comma, Option.bind_some, parseTapeNonNegativeI64_appendInt (delimited_comma _)]
    by_cases hprice : 0 ≤ l.priceE8
    swap
    · rw [if_neg hprice, if_neg (by simp [PricePair.tapeable, hprice])]
      rfl
    simp only [if_pos hprice, Option.bind_eq_bind, Option.bind_some, parseComma_comma,
      parseTapeNonNegativeI64_appendInt hdelimited]
    by_cases hqty : 0 ≤ l.qtyE8
    swap
    · rw [if_neg hqty, if_neg (by simp [PricePair.tapeable, hqty])]
      rfl
    have hl : l.tapeable = true := by simp [PricePair.tapeable, hprice, hqty]
    simp only [if_pos hqty, Option.bind_some, hrest, List.all_cons, hl, Bool.true_and]
    cases levels.all PricePair.tapeable <;> rfl

/-- The rules of `parseDepthTapeLine` for the values of a row. -/
def DepthRow.tapeable (d : DepthRow) : Bool :=
  d.eventId ≠ 0 ∧ arrivalAdmitted d.arrival ∧ d.levels.all PricePair.tapeable

/-- What `parseDepthTapeLine` makes of the tape line of a row. -/
theorem parseDepthTapeLine_render (d : DepthRow) :
    parseDepthTapeLine (renderDepthTapeJsonLine d)
      = if d.tapeable
        then some { d with tsNs := tapeTime d.tsNs, levels := d.levels.map onTape }
        else none := by
  have hline : renderDepthTapeJsonLine d = ch '[' :: (decimal d.eventId.toNat ++
      ch ',' :: (decimal (taggedTapeTimestamp d.tsNs).toNat ++
      ch ',' :: (appendInt d.captureSeq.toInt ++ ch ',' :: (appendInt d.ingestSeq.toInt ++
      ch ',' :: (appendArrival d.arrival ++
      (d.levels.flatMap appendTapeLevel ++ ch ']' :: [])))))) := by
    simp [renderDepthTapeJsonLine]
  have hdelimited : delimited (d.levels.flatMap appendTapeLevel ++ [ch ']']) = true := by
    cases d.levels <;> rfl
  have hfuel : d.levels.length < (renderDepthTapeJsonLine d).length := by
    have hlen := Lists.length_le_flatMap appendTapeLevel (by simp [appendTapeLevel]) d.levels
    rw [hline]
    simp only [List.length_cons, List.length_append]
    omega
  rw [parseDepthTapeLine]
  rw [hline] at hfuel ⊢
  simp only [↓parseArrayStart_bind, ↓parseUInt64_bind (delimited_comma _)]
  by_cases hid : d.eventId = 0
  · rw [if_pos hid, if_neg (by simp [DepthRow.tapeable, hid])]
  simp only [if_neg hid, ↓parseCommaUInt64_bind (delimited_comma _), if_neg (tag_and_tagged d.tsNs),
    mask_and_tagged, ↓parseCommaInt64_bind (delimited_comma _)]
  cases harrival : arrivalAdmitted d.arrival with
  | false =>
    rw [parseArrival_bind_none hdelimited harrival, if_neg (by simp [DepthRow.tapeable, harrival])]
  | true =>
    simp only [↓parseArrival_bind hdelimited harrival, parseTapeLevels_render d.levels [] hfuel]
    cases hlevels : d.levels.all PricePair.tapeable with
    | false =>
      rw [show d.tapeable = false by simp [DepthRow.tapeable, hlevels]]
      rfl
    | true =>
      rw [show d.tapeable = true by simp [DepthRow.tapeable, hid, harrival, hlevels]]
      rfl

/-! ## The sides of the depth rows -/

/-- The rule of `applyDepthRleSidecar` for a level. -/
def PricePair.sided (l : PricePair) : Bool := l.side = 0 ∨ l.side = 1

theorem delimited_appendRuns (side : Int64) (count : ℕ) (levels : List PricePair) (rest : Bytes) :
    delimited (appendRuns side count levels ++ rest) = true := by
  induction levels generalizing side count with
  | nil => rfl
  | cons l levels ih =>
    rw [appendRuns]
    split
    · exact ih ..
    · rfl

/-- The run that the serializer closes is read as a whole. -/
theorem applyRuns_run (fuel : ℕ) {pre : List PricePair} {side : Int64} (hpre : pre ≠ [])
    (hsame : ∀ l ∈ pre, l.side = side) (levels : List PricePair)
    (hcount : pre.length < 2 ^ 64) {rest : Bytes} (hdelimited : delimited rest = true) :
    applyRuns (fuel + 1) ((pre ++ levels).map onTape) (appendRun side pre.length ++ rest)
      = if side = 0 ∨ side = 1
        then (applyRuns fuel (levels.map onTape) rest).map fun (out, p) => (pre ++ out, p)
        else none := by
  have hpos : 0 < pre.length := List.length_pos_iff.mpr hpre
  have hline : appendRun side pre.length ++ rest
      = ch ',' :: (appendInt side.toInt ++ ch ',' ::
        (decimal (UInt64.ofNat pre.length).toNat ++ rest)) := by
    rw [UInt64.toNat_ofNat_of_lt' hcount]
    simp [appendRun]
  have hback : (pre.map onTape).map (fun l => { l with side := side }) = pre := by
    rw [List.map_map]
    refine (List.map_congr_left fun l hl => ?_).trans (List.map_id pre)
    rw [← hsame l hl]
    rfl
  have hnat : (UInt64.ofNat pre.length).toNat = pre.length := UInt64.toNat_ofNat_of_lt' hcount
  have hne : UInt64.ofNat pre.length ≠ 0 := by
    intro h
    rw [h] at hnat
    simp at hnat
    omega
  simp only [hline, applyRuns, peek_close_comma, Bool.false_eq_true, if_false,
    ↓parseCommaInt64_bind (delimited_comma _)]
  by_cases hside : side = 0 ∨ side = 1
  swap
  · rw [if_pos (not_or.mp hside), if_neg hside]
  rw [if_neg fun hn => hside.elim hn.1 hn.2, if_pos hside]
  simp only [↓parseCommaUInt64_bind hdelimited, if_neg hne, hnat]
  rw [if_neg (by simp)]
  simp only [List.map_append, List.take_left', List.drop_left', List.length_map, hback]
  cases applyRuns fuel (levels.map onTape) rest <;> rfl

theorem all_sided_of_same {pre : List PricePair} {side : Int64} (hpre : pre ≠ [])
    (hsame : ∀ l ∈ pre, l.side = side) :
    pre.all PricePair.sided = true ↔ (side = 0 ∨ side = 1) := by
  rw [List.all_eq_true]
  constructor
  · intro hall
    obtain ⟨l, hl⟩ := List.exists_mem_of_ne_nil pre hpre
    simpa [PricePair.sided, hsame l hl] using hall l hl
  · intro hside l hl
    simpa [PricePair.sided, hsame l hl] using hside

/-- The sides are put back run by run. `pre` is the run that the serializer is in when `levels` are
still to come. -/
theorem applyRuns_render (levels : List PricePair) {pre : List PricePair} {side : Int64}
    (hpre : pre ≠ []) (hsame : ∀ l ∈ pre, l.side = side) (hcount : (pre ++ levels).length < 2 ^ 64)
    {fuel : ℕ} (hfuel : (appendRuns side pre.length levels).length < fuel) :
    applyRuns fuel ((pre ++ levels).map onTape)
        (appendRuns side pre.length levels ++ [ch ']'])
      = if (pre ++ levels).all PricePair.sided then some (pre ++ levels, [ch ']']) else none := by
  induction levels generalizing pre side fuel with
  | nil =>
    obtain ⟨fuel, rfl⟩ : ∃ n, fuel = n + 2 := by
      have hlen : 2 ≤ (appendRuns side pre.length []).length := by simp [appendRuns, appendRun]; omega
      exact ⟨fuel - 2, by omega⟩
    have hend : applyRuns (fuel + 1) ([].map onTape) [ch ']'] = some ([], [ch ']']) := by
      rw [applyRuns, peek_close_close]
      rfl
    rw [List.length_append] at hcount
    rw [appendRuns, applyRuns_run (fuel + 1) hpre hsame [] (by omega) (delimited_close _), hend,
      List.append_nil]
    simp only [all_sided_of_same hpre hsame, Option.map_some, List.append_nil]
  | cons l levels ih =>
    by_cases hl : l.side = side
    · -- The level continues the run.
      have hstep := @ih (pre ++ [l]) side (by simp)
        (by
          intro x hx
          rcases List.mem_append.mp hx with hx | hx
          · exact hsame x hx
          · rw [List.mem_singleton.mp hx, hl])
        (by simpa using hcount) fuel
      rw [appendRuns, if_pos hl] at hfuel ⊢
      simp only [List.length_append, List.length_singleton, List.append_assoc,
        List.singleton_append] at hstep
      exact hstep hfuel
    · rw [appendRuns, if_neg hl] at hfuel ⊢
      obtain ⟨fuel, rfl⟩ : ∃ n, fuel = n + 1 := ⟨fuel - 1, by omega⟩
      have hrest := @ih [l] l.side (by simp) (by simp) (by simp at hcount ⊢; omega) fuel
        (by simp [appendRun] at hfuel ⊢; omega)
      rw [List.length_append] at hcount
      rw [List.append_assoc, applyRuns_run fuel hpre hsame (l :: levels) (by omega)
        (delimited_appendRuns ..)]
      simp only [List.length_singleton, List.singleton_append] at hrest
      rw [hrest, List.all_append]
      have hside := all_sided_of_same hpre hsame
      by_cases h : side = 0 ∨ side = 1
      · rw [if_pos h, hside.mpr h, Bool.true_and]
        cases (l :: levels).all PricePair.sided <;> rfl
      · rw [if_neg h, show pre.all PricePair.sided = false by simpa using mt hside.mp h]
        rfl

theorem delimited_appendSides (levels : List PricePair) (rest : Bytes) :
    delimited (appendSides levels ++ ch ']' :: rest) = true := by
  cases levels with
  | nil => rfl
  | cons front levels => exact delimited_appendRuns ..

theorem applyRuns_appendSides {levels : List PricePair} (hcount : levels.length < 2 ^ 64)
    (hfuel : (appendSides levels).length < fuel) :
    applyRuns fuel (levels.map onTape) (appendSides levels ++ [ch ']'])
      = if levels.all PricePair.sided then some (levels, [ch ']']) else none := by
  cases levels with
  | nil =>
    obtain ⟨fuel, rfl⟩ : ∃ n, fuel = n + 1 := ⟨fuel - 1, by omega⟩
    rw [appendSides, List.nil_append, applyRuns, peek_close_close]
    rfl
  | cons front levels =>
    have hfront : appendSides (front :: levels) = appendRuns front.side [front].length levels := by
      rw [appendSides, appendRuns, if_pos rfl]
      rfl
    rw [hfront] at hfuel ⊢
    exact applyRuns_render levels (by simp) (by simp) hcount hfuel

/-- `applyDepthRleSidecar` on a rendered sidecar line compares the identities before it reads the
sides. -/
theorem applyDepthRleSidecar_render (d out : DepthRow) :
    applyDepthRleSidecar (renderDepthRleSidecarJsonLine d) out
      = if d.eventId = out.eventId ∧ tapeTime d.tsNs = out.tsNs
        then (do
          let (levels, p) ← applyRuns (renderDepthRleSidecarJsonLine d).length out.levels
            (appendSides d.levels ++ [ch ']'])
          parseLineEnd p
          return { out with levels })
        else none := by
  have hline : renderDepthRleSidecarJsonLine d = ch '[' :: (decimal d.eventId.toNat ++
      ch ',' :: (decimal (taggedTapeTimestamp d.tsNs).toNat ++ (appendSides d.levels ++ [ch ']']))) := by
    simp [renderDepthRleSidecarJsonLine]
  rw [applyDepthRleSidecar, hline]
  simp only [↓parseArrayStart_bind, ↓parseUInt64_bind (delimited_comma _)]
  by_cases hid : d.eventId = out.eventId
  swap
  · rw [if_pos hid, if_neg fun h => hid h.1]
  simp only [ne_eq, hid, not_true_eq_false, if_false, true_and,
    ↓parseCommaUInt64_bind (delimited_appendSides d.levels []), if_neg (tag_and_tagged d.tsNs),
    mask_and_tagged]
  by_cases hts : tapeTime d.tsNs = out.tsNs
  · rw [if_neg (not_not.mpr hts), if_pos hts]
  · rw [if_pos hts, if_neg hts]

/-- What the two parsers make of the two lines of a row: the row with the time that the tape keeps,
where its rules allow it. The count of a run is a `uint64`. -/
theorem parseDepthTapeSidecarLine_render (d : DepthRow) (hcount : d.levels.length < 2 ^ 64) :
    parseDepthTapeSidecarLine (renderDepthTapeJsonLine d) (renderDepthRleSidecarJsonLine d)
      = if d.tapeable ∧ d.levels.all PricePair.sided
        then some { d with tsNs := tapeTime d.tsNs } else none := by
  have hfuel : (appendSides d.levels).length < (renderDepthRleSidecarJsonLine d).length := by
    simp only [renderDepthRleSidecarJsonLine, List.length_cons, List.length_append]
    omega
  rw [parseDepthTapeSidecarLine, parseDepthTapeLine_render]
  cases htape : d.tapeable with
  | false => rfl
  | true =>
    simp only [if_true, Option.bind_some, applyDepthRleSidecar_render, true_and, and_self,
      applyRuns_appendSides hcount hfuel]
    cases d.levels.all PricePair.sided <;> rfl

theorem parseDepthTapeSidecarLine_mismatch (d d' : DepthRow)
    (h : d'.eventId ≠ d.eventId ∨ tapeTime d'.tsNs ≠ tapeTime d.tsNs) :
    parseDepthTapeSidecarLine (renderDepthTapeJsonLine d) (renderDepthRleSidecarJsonLine d')
      = none := by
  rw [parseDepthTapeSidecarLine, parseDepthTapeLine_render]
  split
  · rw [Option.bind_some, applyDepthRleSidecar_render, if_neg]
    rintro ⟨hid, hts⟩
    exact h.elim (fun h => h hid) (fun h => h hts)
  · rfl

/-! ## The round trips -/

theorem toUInt8_side {t : TradeRow} (hside : t.side = 0 ∨ t.side = 1)
    (hsideBuy : (t.sideBuy.toNat : ℤ) = t.side.toInt) : t.side.toUInt64.toUInt8 = t.sideBuy := by
  have hcode : ∀ n : UInt8, t.side.toInt = n.toNat → t.sideBuy = n := fun n hn =>
    UInt8.toNat_inj.mp (Int.ofNat_inj.mp (hsideBuy.trans hn))
  rcases hside with h | h
  · rw [hcode 0 (by rw [h]; rfl), h]
    rfl
  · rw [hcode 1 (by rw [h]; rfl), h]
    rfl

/-- Trade, book-ticker and candle lines and the snapshot document are read back as the rows they
were written for. -/
theorem session_lines_roundtrip :
    (∀ t : TradeRow, (t.side = 0 ∨ t.side = 1) → (t.isBuyerMaker = 0 ∨ t.isBuyerMaker = 1) →
      (t.sideBuy.toNat : ℤ) = t.side.toInt → arrivalAdmitted t.arrival = true →
      parseTradeLine (renderTradeJsonLine t) = some t) ∧
    (∀ b : BookTickerRow, b.eventId ≠ 0 → arrivalAdmitted b.arrival = true →
      parseBookTickerLine (renderBookTickerJsonLine b) = some b) ∧
    (∀ c : CandleRow, 1 ≤ c.tier ∧ c.tier ≤ 3 → validateCandle c = true →
      arrivalAdmitted c.arrival = true → parseCandleLine (renderCandleJsonLine c) = some c) ∧
    ∀ s : SnapshotDocument, (∀ l ∈ s.levels, l.side = 0 ∨ l.side = 1) →
      parseSnapshotDocument (renderSnapshotJson s) = some s := by
  refine ⟨fun t hside hmaker hsideBuy harrival => ?_, fun b hid harrival => ?_,
    fun c htier hvalid harrival => ?_, parseSnapshotDocument_render⟩
  · rw [parseTradeLine_render, if_pos (by simp [TradeRow.readable, hside, hmaker, harrival]),
      toUInt8_side hside hsideBuy]
  · rw [parseBookTickerLine_render, if_pos (by simp [BookTickerRow.readable, hid, harrival])]
  · have hpos : c.tier > 0 := by
      have h := Int64.le_iff_toInt_le.mp htier.1
      exact Int64.lt_iff_toInt_lt.mpr (by simp at h ⊢; omega)
    rw [parseCandleLine_render c hpos, if_pos ⟨harrival, hvalid⟩]

/-- Rows with a quote, a backslash, a control byte and a byte above the ASCII range in their
strings and with integers at the limits of their types. -/
theorem session_lines_roundtrip_limits :
    parseTradeLine (renderTradeJsonLine
        { symbol := [34, 92, 1, 255], priceE8 := Int64.minValue, side := 1, sideBuy := 1 })
      = some { symbol := [34, 92, 1, 255], priceE8 := Int64.minValue, side := 1, sideBuy := 1 } ∧
    parseBookTickerLine (renderBookTickerJsonLine { eventId := 1, bidQtyE8 := -1 })
      = some { eventId := 1, bidQtyE8 := -1 } ∧
    parseCandleLine (renderCandleJsonLine { tier := 2, tsNs := 1, highE8 := 5, lowE8 := 4 })
      = some { tier := 2, tsNs := 1, highE8 := 5, lowE8 := 4 } ∧
    parseSnapshotDocument (renderSnapshotJson { tsNs := 9, levels := [⟨7, -7, 1⟩, ⟨0, 0, 0⟩] })
      = some { tsNs := 9, levels := [⟨7, -7, 1⟩, ⟨0, 0, 0⟩] } :=
  have h := session_lines_roundtrip
  ⟨h.1 _ (Or.inr rfl) (Or.inl rfl) rfl (by decide), h.2.1 _ (by decide) (by decide),
    h.2.2.1 _ (by decide) (by decide) (by decide), h.2.2.2 _ (by decide)⟩

/-- A depth row that the tape and its sidecar can carry. -/
structure DepthRow.Recordable (d : DepthRow) : Prop where
  eventId_ne : d.eventId ≠ 0
  tsNs_nonneg : 0 ≤ d.tsNs
  levels_nonneg : ∀ l ∈ d.levels, 0 ≤ l.priceE8 ∧ 0 ≤ l.qtyE8
  sides : ∀ l ∈ d.levels, l.side = 0 ∨ l.side = 1
  arrival_ok : arrivalAdmitted d.arrival = true
  /-- The number of levels is a `std::size_t`. -/
  size_lt : d.levels.length < 2 ^ 64

theorem DepthRow.Recordable.tapeable {d : DepthRow} (h : d.Recordable) : d.tapeable = true := by
  have hlevels : d.levels.all PricePair.tapeable = true := by
    rw [List.all_eq_true]
    intro l hl
    simpa [PricePair.tapeable] using h.levels_nonneg l hl
  simp [DepthRow.tapeable, h.eventId_ne, h.arrival_ok, hlevels]

theorem DepthRow.Recordable.sided {d : DepthRow} (h : d.Recordable) :
    d.levels.all PricePair.sided = true := by
  rw [List.all_eq_true]
  intro l hl
  simpa [PricePair.sided] using h.sides l hl

/-- The tape and the sidecar of a row give the row back, and the sidecar of another row is refused
beside its tape. -/
theorem depth_lines_roundtrip (d : DepthRow) (h : d.Recordable) :
    parseDepthTapeSidecarLine (renderDepthTapeJsonLine d) (renderDepthRleSidecarJsonLine d)
      = some d ∧
    ∀ d' : DepthRow, d'.Recordable → d'.eventId ≠ d.eventId ∨ d'.tsNs ≠ d.tsNs →
      parseDepthTapeSidecarLine (renderDepthTapeJsonLine d) (renderDepthRleSidecarJsonLine d')
        = none := by
  constructor
  · rw [parseDepthTapeSidecarLine_render d h.size_lt, if_pos ⟨h.tapeable, h.sided⟩,
      tapeTime_of_nonneg h.tsNs_nonneg]
  · intro d' h' hdiff
    refine parseDepthTapeSidecarLine_mismatch d d' ?_
    rwa [tapeTime_of_nonneg h.tsNs_nonneg, tapeTime_of_nonneg h'.tsNs_nonneg]

/-- A row whose levels alternate between the sides. -/
theorem depth_lines_roundtrip_alternating :
    parseDepthTapeSidecarLine
        (renderDepthTapeJsonLine { eventId := 3, tsNs := 8, levels := [⟨5, 1, 0⟩, ⟨6, 0, 1⟩] })
        (renderDepthRleSidecarJsonLine { eventId := 3, tsNs := 8, levels := [⟨5, 1, 0⟩, ⟨6, 0, 1⟩] })
      = some { eventId := 3, tsNs := 8, levels := [⟨5, 1, 0⟩, ⟨6, 0, 1⟩] } ∧
    parseDepthTapeSidecarLine
        (renderDepthTapeJsonLine { eventId := 3, tsNs := 8, levels := [⟨5, 1, 0⟩, ⟨6, 0, 1⟩] })
        (renderDepthRleSidecarJsonLine { eventId := 3, tsNs := 7 })
      = none := by
  have h := depth_lines_roundtrip { eventId := 3, tsNs := 8, levels := [⟨5, 1, 0⟩, ⟨6, 0, 1⟩] }
    ⟨by decide, by decide, by decide, by decide, by decide, by decide⟩
  exact ⟨h.1, h.2 { eventId := 3, tsNs := 7 }
    ⟨by decide, by decide, by decide, by decide, by decide, by decide⟩ (Or.inr (by decide))⟩

end HftRecorder.Replay
