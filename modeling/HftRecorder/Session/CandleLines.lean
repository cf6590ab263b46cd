import HftRecorder.Session.CandleCapture
import HftRecorder.Replay.RoundTrip

/-!
# The candle lines that can be loaded

What `captureCandlesOnce`, `captureDetailedCandlesOnce` and `appendBulkCandlesPage` write, line by
line, and which of these lines `parseCandleLine` accepts. The writers and the parser have a test each.
They differ in three ways: a timeframe without a tier is written and not read, a candle of the tiered
history is written with a negative quote amount, and a time of `2^63` and more is a positive time for
the writer of detailed candles and a negative one in the line.
-/

namespace HftRecorder.Session

open ByteLayout (Bytes)
open Json Replay

def Loadable (line : Bytes) : Prop := (parseCandleLine line).isSome = true

/-- Lines with the paths of their files, in the order in which they are written. -/
abbrev LineLog := List (Bytes × Bytes)

def afterLines (files : Bytes → Bytes) (log : LineLog) : Bytes → Bytes :=
  log.foldl (fun files e => Function.update files e.1 (files e.1 ++ e.2 ++ [10])) files

theorem afterLines_append (files : Bytes → Bytes) (first second : LineLog) :
    afterLines files (first ++ second) = afterLines (afterLines files first) second :=
  List.foldl_append

/-! ## What is written -/

def tierLog (path : Bytes) (rows : List CandleRow) : LineLog :=
  rows.map fun row => (path, renderCandleJsonLine row)

/-- The lines of a detailed candle: its own, and that of the compatibility file. -/
def candleLog (config : CandleConfig) (candle : Ohlcv) : LineLog :=
  let row := makeDetailedCandleRow config candle
  (detailedCandlesRelativePath config.tfText true, renderCandleJsonLine row) ::
    if writeLegacyCandles config.tfText then
      [(detailedCandlesRelativePath config.tfText false,
        renderCandleJsonLine (makeLegacyCandleRow row))]
    else []

def detailedLog (config : CandleConfig) (candles : List Ohlcv) : LineLog :=
  candles.flatMap (candleLog config)

namespace Coordinator

/-- `appendBulkCandlesPage`, as far as it writes candles. -/
def appendBulkCandlesPage (config : CandleConfig) (page : List Ohlcv) (s : Coordinator) :
    Coordinator :=
  (storedCandles page).foldl (storeBulk config) s

/-- The tests before `captureCandlesOnce` fetches. -/
def onceAdmitted (config : CandleConfig) (s : Coordinator) : Bool :=
  textEqualsAscii config.exchange (text "finam") && config.routed && s.sessionOpen &&
    s.counter .candles = 0

/-- The rows that `captureCandlesOnce` stores. -/
def onceRows (config : CandleConfig) (history : Option TieredCandleHistory) (s : Coordinator) :
    List CandleRow :=
  match history with
  | some history => if s.onceAdmitted config then allTierRows config history else []
  | none => []

/-- The session in which `captureDetailedCandlesOnce` stores. -/
def detailedSession (accepted : Bool) (config : CandleConfig) (s : Coordinator) : Coordinator :=
  if textEqualsAscii config.exchange (text "finam") then (s.ensureSession accepted).2 else s

/-- The candles that `captureDetailedCandlesOnce` stores. -/
def detailedStored (accepted : Bool) (config : CandleConfig) (fetched : Option (List Ohlcv))
    (persisted : Bool) : List Ohlcv :=
  match fetched with
  | some rows =>
    if textEqualsAscii config.exchange (text "finam") && accepted && persisted then storedCandles rows
    else []
  | none => []

theorem files_storeCandle (channel : Channel) (path : Bytes) (row : CandleRow) (s : Coordinator) :
    (s.storeCandle channel path row).files =
      afterLines s.files [(path, renderCandleJsonLine row)] :=
  rfl

theorem files_foldl {α : Type} {store : Coordinator → α → Coordinator} {log : α → LineLog}
    (h : ∀ s a, (store s a).files = afterLines s.files (log a)) (as : List α) (s : Coordinator) :
    (as.foldl store s).files = afterLines s.files (as.flatMap log) := by
  induction as generalizing s with
  | nil => rfl
  | cons a as ih => rw [List.foldl_cons, ih, h, List.flatMap_cons, afterLines_append]

theorem files_storeTiers (config : CandleConfig) (history : TieredCandleHistory) (path : Bytes)
    (s : Coordinator) :
    (s.storeTiers config history path).files =
      afterLines s.files (tierLog path (allTierRows config history)) := by
  rw [storeTiers, files_foldl fun s row => files_storeCandle .candles path row s, tierLog,
    List.map_eq_flatMap]

theorem files_storeDetailed (config : CandleConfig) (s : Coordinator) (candle : Ohlcv) :
    (s.storeDetailed config candle).files = afterLines s.files (candleLog config candle) := by
  unfold storeDetailed candleLog
  dsimp only
  split <;> rfl

theorem files_storeBulk (config : CandleConfig) (s : Coordinator) (candle : Ohlcv) :
    (s.storeBulk config candle).files = afterLines s.files (candleLog config candle) := by
  unfold storeBulk candleLog
  dsimp only
  split <;> rfl

theorem files_nameDetailed (config : CandleConfig) (s : Coordinator) :
    (s.nameDetailed config).files = s.files := by
  unfold nameDetailed nameFile
  dsimp only
  split <;> rfl

theorem files_writeManifestFile (stored : Bool) (s : Coordinator) :
    (s.writeManifestFile stored).2.files = s.files := by
  unfold writeManifestFile
  split
  · rfl
  · split <;> rfl

/-- The lines that one capture of all tiers writes. -/
theorem files_captureCandlesOnce (config : CandleConfig) (history : Option TieredCandleHistory)
    (s : Coordinator) :
    (s.captureCandlesOnce config history).2.files =
      afterLines s.files
        (tierLog (s.candlesWriter.getD (channelJsonlRelativePath .candles))
          (s.onceRows config history)) := by
  have hrefused : s.onceAdmitted config = false → s.onceRows config history = [] := fun h => by
    unfold onceRows
    split
    · rw [h]
      rfl
    · rfl
  unfold captureCandlesOnce
  split
  · rename_i hexchange
    rw [hrefused (by simp_all [onceAdmitted])]
    rfl
  · rename_i hexchange
    split
    · rename_i hclosed
      rw [hrefused (by rcases Bool.or_eq_true_iff.mp hclosed with h | h <;> simp_all [onceAdmitted])]
      rfl
    · rename_i hopen
      split
      · rename_i hcount
        rw [hrefused (by simp_all [onceAdmitted])]
        rfl
      · rename_i hcount
        have hadmitted : s.onceAdmitted config = true := by simp_all [onceAdmitted]
        cases history with
        | none => rfl
        | some history =>
          have hrows : s.onceRows config (some history) = allTierRows config history :=
            if_pos hadmitted
          rw [hrows]
          dsimp only
          split
          · exact files_storeTiers config history _ _
          · exact files_storeTiers config history _ _

/-- The lines that one detailed capture writes. -/
theorem files_captureDetailedCandlesOnce (accepted : Bool) (config : CandleConfig)
    (fetched : Option (List Ohlcv)) (persisted : Bool) (s : Coordinator) :
    (s.captureDetailedCandlesOnce accepted config fetched persisted).2.files =
      afterLines (s.detailedSession accepted config).files
        (detailedLog config (detailedStored accepted config fetched persisted)) := by
  unfold captureDetailedCandlesOnce detailedSession
  cases hexchange : textEqualsAscii config.exchange (text "finam") with
  | false =>
    have hnone : detailedStored accepted config fetched persisted = [] := by
      cases fetched <;> simp [detailedStored, hexchange]
    rw [hnone]
    rfl
  | true =>
    cases haccepted : accepted with
    | false =>
      have hnone : detailedStored false config fetched persisted = [] := by
        cases fetched <;> simp [detailedStored]
      rw [hnone]
      rfl
    | true =>
      have hok : (s.ensureSession true).1 = .ok := by
        rw [ensureSession, if_neg (by decide)]
        split <;> rfl
      generalize s.ensureSession true = session at hok
      obtain ⟨status, session⟩ := session
      cases hok
      cases fetched with
      | none => rfl
      | some rows =>
        cases hpersisted : persisted with
        | false => rw [detailedStored, hexchange]; rfl
        | true =>
          have hstored : detailedStored true config (some rows) true = storedCandles rows := by
            rw [detailedStored, hexchange]
            rfl
          rw [hstored]
          have hfiles := files_foldl (files_storeDetailed config) (storedCandles rows)
            (session.openCandleFiles config)
          dsimp only
          rw [if_neg (by decide), if_neg (by decide), if_neg (by decide)]
          split
          · exact hfiles
          · rw [files_writeManifestFile, files_nameDetailed]
            exact hfiles

theorem files_appendBulkCandlesPage (config : CandleConfig) (page : List Ohlcv) (s : Coordinator) :
    (s.appendBulkCandlesPage config page).files =
      afterLines s.files (detailedLog config (storedCandles page)) :=
  files_foldl (files_storeBulk config) _ s

end Coordinator

/-! ## What can be loaded -/

theorem arrivalAdmitted_backfill :
    arrivalAdmitted { flags := EventArrivalHistoricalBackfill } = true := by
  decide

/-- The row of a tiered candle that passed the test of the writer is read if the quote amount is not
negative. -/
theorem loadable_tierRow_iff {config : CandleConfig} {tier : Int64} (htier : 1 ≤ tier ∧ tier ≤ 3)
    {candles : List CandleLite} {row : CandleRow} (hrow : row ∈ tierRows config tier candles) :
    Loadable (renderCandleJsonLine row) ↔ 0 ≤ row.quoteAmountE8 := by
  obtain ⟨hmem, htest⟩ := List.mem_filter.mp hrow
  obtain ⟨candle, _, rfl⟩ := List.mem_map.mp hmem
  have hpos : (makeTierRow config tier candle).tier > 0 :=
    Int64.lt_of_lt_of_le (by decide) htier.1
  rw [Loadable, parseCandleLine_render _ hpos]
  simp only [Bool.not_eq_true', Bool.or_eq_false_iff, decide_eq_false_iff_not] at htest
  obtain ⟨⟨⟨hts, hhigh⟩, hlow⟩, hrange⟩ := htest
  have hadmitted : arrivalAdmitted (makeTierRow config tier candle).arrival = true :=
    arrivalAdmitted_backfill
  have hvalid : validateCandle (makeTierRow config tier candle) = true ↔
      ¬ (makeTierRow config tier candle).quoteAmountE8 < 0 := by
    have hnumeric : (makeTierRow config tier candle).tier ≥ 1 ∧
        (makeTierRow config tier candle).tier ≤ 3 := htier
    have hlite : (makeTierRow config tier candle).hasOhlc = false := rfl
    simp only [validateCandle, hts, hhigh, hlow, hrange, hlite, hnumeric, false_or]
    simp
  rw [Int64.not_lt] at hvalid
  rw [← hvalid, hadmitted]
  cases validateCandle (makeTierRow config tier candle) <;> simp

def HasTier (timeframe : Bytes) : Prop := candleTierFromTimeframe timeframe ≠ 0

theorem numericTier_iff (timeframe : Bytes) :
    (1 ≤ candleTierFromTimeframe timeframe ∧ candleTierFromTimeframe timeframe ≤ 3) ↔
      HasTier timeframe := by
  unfold HasTier candleTierFromTimeframe
  split
  · decide
  · split
    · decide
    · split <;> decide

theorem candleDurationNs_pos {timeframe : Bytes} (h : HasTier timeframe) :
    candleDurationNs timeframe (candleTierFromTimeframe timeframe) > 0 := by
  unfold HasTier candleTierFromTimeframe at h
  unfold candleDurationNs
  split
  · decide
  · rename_i h1
    split
    · decide
    · rename_i h10
      split
      · decide
      · rename_i h15
        split
        · decide
        · rename_i hday
          rw [if_neg h1, if_neg (not_or.mpr ⟨h10, h15⟩), if_neg hday] at h
          exact absurd rfl h

theorem toInt64_pos_iff {ts : UInt64} (h : ts > 0) : ¬ ts.toInt64 ≤ 0 ↔ ts.toNat < 2 ^ 63 := by
  have hsigned : ts.toInt64.toInt = Int.bmod ts.toNat (2 ^ 64) :=
    BitVec.toInt_eq_toNat_bmod ts.toBitVec
  have hlt := ts.toNat_lt
  have hpos : 0 < ts.toNat := UInt64.lt_iff_toNat_lt.mp h
  have hzero : (0 : Int64).toInt = 0 := rfl
  rw [Int64.le_iff_toInt_le, hsigned, hzero]
  by_cases hsmall : ts.toNat < 2 ^ 63
  · rw [Int.bmod_eq_of_le (by omega) (by omega)]
    omega
  · have hwrapped : Int.bmod ts.toNat (2 ^ 64) = ts.toNat - 2 ^ 64 := by
      rw [Int.bmod_def]
      split <;> omega
    omega

theorem of_mem_storedCandles {rows : List Ohlcv} {candle : Ohlcv} (h : candle ∈ storedCandles rows) :
    candle.ts > 0 ∧ candle.openPrice > 0 ∧ ¬ candle.high ≤ 0 ∧ ¬ candle.low ≤ 0 ∧
      candle.close > 0 ∧ ¬ candle.high < candle.low ∧ candle.amount ≥ 0 ∧ ¬ candle.quoteAmount < 0 := by
  have htest := (List.mem_filter.mp h).2
  simp only [validDetailedCandle, Bool.and_eq_true, decide_eq_true_eq] at htest
  obtain ⟨⟨⟨⟨⟨⟨⟨hts, hopen⟩, hhigh⟩, hlow⟩, hclose⟩, hrange⟩, hamount⟩, hquote⟩ := htest
  rw [Int64.not_le, Int64.not_le, Int64.not_lt, Int64.not_lt]
  exact ⟨hts, hopen, hhigh, hlow, hclose, hrange, hamount, hquote⟩

/-- The lines of a detailed candle that passed the test of the writer are read if the timeframe has a
tier and the time is a signed number. -/
theorem loadable_candleLog_iff {config : CandleConfig} {rows : List Ohlcv} {candle : Ohlcv}
    (hcandle : candle ∈ storedCandles rows) :
    (∀ e ∈ candleLog config candle, Loadable e.2) ↔ HasTier config.tfText ∧ candle.ts.toNat < 2 ^ 63 := by
  obtain ⟨hts, hopen, hhigh, hlow, hclose, hrange, hamount, hquote⟩ := of_mem_storedCandles hcandle
  have hadmitted : arrivalAdmitted (makeDetailedCandleRow config candle).arrival = true :=
    arrivalAdmitted_backfill
  have hdetailed : Loadable (renderCandleJsonLine (makeDetailedCandleRow config candle)) ↔
      HasTier config.tfText ∧ candle.ts.toNat < 2 ^ 63 := by
    have hvalid : validateCandle (makeDetailedCandleRow config candle) = true ↔
        HasTier config.tfText ∧ ¬ candle.ts.toInt64 ≤ 0 := by
      have hduration := @candleDurationNs_pos config.tfText
      have hnumeric := numericTier_iff config.tfText
      simp only [validateCandle, makeDetailedCandleRow, hhigh, hlow, hrange, hquote, or_false,
        hnumeric, hopen, hclose, hamount, ge_iff_le]
      by_cases hzero : candle.ts.toInt64 ≤ 0
      · simp [hzero]
      · by_cases htier : HasTier config.tfText
        · have := hduration htier
          simp_all
        · simp_all
    rw [Loadable, parseCandleLine_render_of_tier _ (ite_self _), ← toInt64_pos_iff hts, ← hvalid,
      hadmitted]
    cases validateCandle (makeDetailedCandleRow config candle) <;> simp
  -- The legacy line is written only for a timeframe that has a tier.
  have hlegacy : HasTier config.tfText → (Loadable (renderCandleJsonLine (makeLegacyCandleRow
      (makeDetailedCandleRow config candle))) ↔ candle.ts.toNat < 2 ^ 63) := fun htier => by
    have hnumeric := (numericTier_iff config.tfText).mpr htier
    have hvalid : validateCandle (makeLegacyCandleRow (makeDetailedCandleRow config candle)) = true ↔
        ¬ candle.ts.toInt64 ≤ 0 := by
      simp only [validateCandle, makeLegacyCandleRow, makeDetailedCandleRow, hhigh, hlow, hrange,
        hquote, or_false]
      by_cases hzero : candle.ts.toInt64 ≤ 0
      · simp [hzero]
      · simpa [hzero] using hnumeric
    have hadmitted' : arrivalAdmitted (makeLegacyCandleRow
        (makeDetailedCandleRow config candle)).arrival = true := arrivalAdmitted_backfill
    rw [Loadable, parseCandleLine_render_of_tier _ (ite_self _), ← toInt64_pos_iff hts, ← hvalid,
      hadmitted']
    cases validateCandle (makeLegacyCandleRow (makeDetailedCandleRow config candle)) <;> simp
  have hwrite : writeLegacyCandles config.tfText = true ↔ HasTier config.tfText := by
    rw [writeLegacyCandles, Bool.and_eq_true, decide_eq_true_eq, decide_eq_true_eq]
    exact numericTier_iff config.tfText
  rw [candleLog, List.forall_mem_cons, hdetailed]
  refine ⟨fun h => h.1, fun h => ⟨h, ?_⟩⟩
  rw [if_pos (hwrite.mpr h.1), List.forall_mem_singleton]
  exact (hlegacy h.1).mpr h.2

/-- The lines that the three operations write, and when all of them are read: those of the tiered
history if no stored candle has a negative quote amount, those of detailed candles if the timeframe
has a tier and no stored candle has a time of `2^63` or more. -/
theorem candle_lines_loadable_iff (config : CandleConfig) :
    (∀ (history : Option TieredCandleHistory) (s : Coordinator),
      (s.captureCandlesOnce config history).2.files =
        afterLines s.files
          (tierLog (s.candlesWriter.getD (channelJsonlRelativePath .candles))
            (s.onceRows config history)) ∧
      ((∀ e ∈ tierLog (s.candlesWriter.getD (channelJsonlRelativePath .candles))
          (s.onceRows config history), Loadable e.2) ↔
        ∀ row ∈ s.onceRows config history, 0 ≤ row.quoteAmountE8)) ∧
    (∀ (accepted : Bool) (fetched : Option (List Ohlcv)) (persisted : Bool) (s : Coordinator),
      (s.captureDetailedCandlesOnce accepted config fetched persisted).2.files =
        afterLines (s.detailedSession accepted config).files
          (detailedLog config (Coordinator.detailedStored accepted config fetched persisted)) ∧
      ((∀ e ∈ detailedLog config (Coordinator.detailedStored accepted config fetched persisted),
          Loadable e.2) ↔
        ∀ candle ∈ Coordinator.detailedStored accepted config fetched persisted,
          HasTier config.tfText ∧ candle.ts.toNat < 2 ^ 63)) ∧
    ∀ (page : List Ohlcv) (s : Coordinator),
      (s.appendBulkCandlesPage config page).files =
        afterLines s.files (detailedLog config (storedCandles page)) ∧
      ((∀ e ∈ detailedLog config (storedCandles page), Loadable e.2) ↔
        ∀ candle ∈ storedCandles page, HasTier config.tfText ∧ candle.ts.toNat < 2 ^ 63) := by
  have hdetailed : ∀ candles : List Ohlcv, (∀ candle ∈ candles, ∃ rows, candle ∈ storedCandles rows) →
      ((∀ e ∈ detailedLog config candles, Loadable e.2) ↔
        ∀ candle ∈ candles, HasTier config.tfText ∧ candle.ts.toNat < 2 ^ 63) := by
    intro candles hstored
    rw [detailedLog, List.forall_mem_flatMap]
    refine forall₂_congr fun candle hcandle => ?_
    obtain ⟨rows, hrows⟩ := hstored candle hcandle
    exact loadable_candleLog_iff hrows
  refine ⟨fun history s => ⟨Coordinator.files_captureCandlesOnce config history s, ?_⟩,
    fun accepted fetched persisted s =>
      ⟨Coordinator.files_captureDetailedCandlesOnce accepted config fetched persisted s,
        hdetailed _ fun candle hcandle => ?_⟩,
    fun page s => ⟨Coordinator.files_appendBulkCandlesPage config page s,
      hdetailed _ fun candle hcandle => ⟨page, hcandle⟩⟩⟩
  · rw [tierLog, List.forall_mem_map]
    refine forall₂_congr fun row hrow => ?_
    cases history with
    | none => cases hrow
    | some history =>
      rw [Coordinator.onceRows] at hrow
      split at hrow
      · rw [allTierRows, List.mem_append, List.mem_append] at hrow
        rcases hrow with (hrow | hrow) | hrow
        · exact loadable_tierRow_iff ⟨by decide, by decide⟩ hrow
        · exact loadable_tierRow_iff ⟨by decide, by decide⟩ hrow
        · exact loadable_tierRow_iff ⟨by decide, by decide⟩ hrow
      · cases hrow
  · cases fetched with
    | none => cases hcandle
    | some rows =>
      rw [Coordinator.detailedStored] at hcandle
      split at hcandle
      · exact ⟨rows, hcandle⟩
      · cases hcandle

def finamConfig (timeframe : Bytes) : CandleConfig :=
  ⟨text "finam", text "stocks", text "SBER", true, timeframe⟩

def flatCandle (ts : UInt64) : Ohlcv := ⟨ts, 1, 1, 1, 1, 1, 1⟩

/-- Three candles whose line is written and not read: of a timeframe of five minutes, at the time
`2^63`, and with a negative quote amount in a tiered history. -/
theorem candles_written_unloadable :
    (storedCandles [flatCandle 1]).length = 1 ∧
      (detailedLog (finamConfig (text "5m")) (storedCandles [flatCandle 1])).map
        (fun e => parseCandleLine e.2 |>.isSome) = [false] ∧
    (detailedLog (finamConfig (text "1m")) (storedCandles [flatCandle 9223372036854775808])).map
      (fun e => parseCandleLine e.2 |>.isSome) = [false, false] ∧
    (tierLog [] (allTierRows (finamConfig []) ⟨[⟨1, 1, 1, -1⟩], [], []⟩)).map
      (fun e => parseCandleLine e.2 |>.isSome) = [false] := by
  decide +kernel

end HftRecorder.Session
