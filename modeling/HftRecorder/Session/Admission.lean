import HftRecorder.Replay.RoundTrip
import HftRecorder.Session.Coordinator

/-!
# What the capture sink admits

The admission test of `appendExternalTrade`, `appendExternalBookTicker` and `appendExternalDepth`
looks at the arrival of a row only. It implies the rules of the line parsers for arrivals
(`arrivalAdmitted_of_captured`), but the parsers also have rules for identities, sides and signs. The
equations of `Replay/RoundTrip` say exactly which rows the parsers refuse, so the two predicates can
be compared for all values (`accepted_rows_readable_iff`).
-/

namespace HftRecorder.Session

open ByteLayout (Bytes)
open Json Replay

theorem and_eq_zero_of_and_or {flags a b : UInt32} (h : flags &&& (a ||| b) = 0) :
    flags &&& a = 0 := by
  have hdistrib : flags &&& (a ||| b) = (flags &&& a) ||| (flags &&& b) :=
    UInt32.toBitVec_inj.mp BitVec.and_or_distrib_left
  rw [hdistrib, UInt32.or_eq_zero_iff] at h
  exact h.1

theorem arrivalAdmitted_of_captured {arrival : EventArrival}
    (h : hasCapturedApplicationArrival arrival = true) : arrivalAdmitted arrival = true := by
  have hflags := h
  simp only [hasCapturedApplicationArrival, Bool.and_eq_true, bne_iff_ne, ne_eq, beq_iff_eq,
    decide_eq_true_eq] at hflags
  obtain ⟨⟨⟨⟨⟨⟨⟨⟨⟨⟨happlication, hother⟩, hknown⟩, -⟩, -⟩, -⟩, -⟩, -⟩, -⟩, -⟩, -⟩ := hflags
  have hhistorical : arrival.flags &&& EventArrivalHistoricalBackfill = 0 :=
    and_eq_zero_of_and_or hother
  simp only [arrivalAdmitted, hknown, hhistorical, happlication, ne_eq, not_true_eq_false,
    not_false_eq_true, if_false, and_false, if_true, h]

namespace Coordinator

theorem writeLine_fst_ok_iff (written : Bool) (path line : Bytes) (s : Coordinator) :
    (s.writeLine written path line).1 = .ok ↔ s.sinkOpen = true ∧ written = true := by
  unfold writeLine
  cases s.sinkOpen <;> cases written <;> simp

theorem appendExternalTrade_ok_iff (written : Bool) (row : TradeRow) (s : Coordinator) :
    (s.appendExternalTrade written row).1 = .ok ↔
      hasCapturedApplicationArrival row.arrival = true ∧ s.sinkOpen = true ∧ written = true := by
  unfold appendExternalTrade
  cases hasCapturedApplicationArrival row.arrival with
  | false => simp [accountExternalAppend_fst]
  | true => simp [accountExternalAppend_fst, writeLine_fst_ok_iff]

theorem appendExternalBookTicker_ok_iff (written : Bool) (row : BookTickerRow) (s : Coordinator) :
    (s.appendExternalBookTicker written row).1 = .ok ↔
      hasCapturedApplicationArrival row.arrival = true ∧ s.sinkOpen = true ∧ written = true := by
  unfold appendExternalBookTicker
  cases hasCapturedApplicationArrival row.arrival with
  | false => simp [accountExternalAppend_fst]
  | true => simp [accountExternalAppend_fst, writeLine_fst_ok_iff]

theorem writeLine_sinkOpen (written : Bool) (path line : Bytes) (s : Coordinator) :
    (s.writeLine written path line).2.sinkOpen = s.sinkOpen := by
  unfold writeLine
  split
  · rfl
  · split <;> rfl

theorem writeDepthLines_fst_ok_iff (tapeWritten sidecarWritten : Bool) (tapeLine sidecarLine : Bytes)
    (s : Coordinator) :
    (s.writeDepthLines tapeWritten sidecarWritten tapeLine sidecarLine).1 = .ok ↔
      s.sinkOpen = true ∧ tapeWritten = true ∧ sidecarWritten = true := by
  have htape := writeLine_fst_ok_iff tapeWritten (channelJsonlRelativePath .depth) tapeLine s
  simp only [writeDepthLines]
  split
  · rename_i hfailed
    exact iff_of_false hfailed fun h => hfailed (htape.mpr ⟨h.1, h.2.1⟩)
  · rename_i hwritten
    obtain ⟨hopen, htapeWritten⟩ := htape.mp (not_not.mp hwritten)
    simp [writeLine_fst_ok_iff, writeLine_sinkOpen, hopen, htapeWritten]

theorem appendExternalDepth_ok_iff (tapeWritten sidecarWritten : Bool) (row : DepthRow)
    (s : Coordinator) :
    (s.appendExternalDepth tapeWritten sidecarWritten row).1 = .ok ↔
      hasCapturedApplicationArrival row.arrival = true ∧ s.sinkOpen = true ∧
        tapeWritten = true ∧ sidecarWritten = true := by
  unfold appendExternalDepth
  cases hasCapturedApplicationArrival row.arrival with
  | false => simp [accountExternalAppend_fst]
  | true => simp [accountExternalAppend_fst, writeDepthLines_fst_ok_iff]

end Coordinator

/-! ## The rows that the parsers refuse -/

theorem trade_refused_iff {t : TradeRow} (h : hasCapturedApplicationArrival t.arrival = true) :
    parseTradeLine (renderTradeJsonLine t) = none ↔
      ¬((t.side = 0 ∨ t.side = 1) ∧ (t.isBuyerMaker = 0 ∨ t.isBuyerMaker = 1)) := by
  rw [parseTradeLine_render]
  simp [TradeRow.readable, arrivalAdmitted_of_captured h]

theorem bookTicker_refused_iff {b : BookTickerRow}
    (h : hasCapturedApplicationArrival b.arrival = true) :
    parseBookTickerLine (renderBookTickerJsonLine b) = none ↔ ¬b.eventId ≠ 0 := by
  rw [parseBookTickerLine_render]
  simp [BookTickerRow.readable, arrivalAdmitted_of_captured h]

theorem depth_refused_iff {d : DepthRow} (hsize : d.levels.length < 2 ^ 64)
    (h : hasCapturedApplicationArrival d.arrival = true) :
    parseDepthTapeSidecarLine (renderDepthTapeJsonLine d) (renderDepthRleSidecarJsonLine d) = none ↔
      ¬(d.eventId ≠ 0 ∧
        ∀ l ∈ d.levels, 0 ≤ l.priceE8 ∧ 0 ≤ l.qtyE8 ∧ (l.side = 0 ∨ l.side = 1)) := by
  have hlevels : (d.levels.all PricePair.tapeable = true ∧ d.levels.all PricePair.sided = true) ↔
      ∀ l ∈ d.levels, 0 ≤ l.priceE8 ∧ 0 ≤ l.qtyE8 ∧ (l.side = 0 ∨ l.side = 1) := by
    simp only [List.all_eq_true, PricePair.tapeable, PricePair.sided, decide_eq_true_eq,
      ← forall₂_and, and_assoc]
  rw [parseDepthTapeSidecarLine_render d hsize, ← hlevels]
  simp only [DepthRow.tapeable, arrivalAdmitted_of_captured h, true_and, decide_eq_true_eq,
    ite_eq_right_iff, reduceCtorEq, imp_false, and_assoc]

/-- The comparison of an admission test with a parser: `captured` is what the test asks of a row,
`ready` what the state and the writes must grant, `good` the rules of the parser. -/
theorem refusal_iff {α : Type} {captured unreadable good : Prop} {ready : α → Prop}
    (hready : ∃ a, ready a) (hparser : captured → (unreadable ↔ ¬good)) :
    (∀ a, unreadable → ¬(captured ∧ ready a)) ↔ (captured → good) := by
  constructor
  · intro hrefused hcaptured
    by_contra hbad
    obtain ⟨a, ha⟩ := hready
    exact hrefused a ((hparser hcaptured).mpr hbad) ⟨hcaptured, ha⟩
  · intro hgood a hunreadable haccepted
    exact (hparser haccepted.1).mp hunreadable (hgood haccepted.1)

/-- A row that cannot be read back is refused in every state and for every outcome of the writes
exactly if its arrival is refused or the rules of its parser hold. -/
theorem accepted_rows_readable_iff (t : TradeRow) (b : BookTickerRow) (d : DepthRow)
    (hsize : d.levels.length < 2 ^ 64) :
    ((∀ (s : Coordinator) (written : Bool), parseTradeLine (renderTradeJsonLine t) = none →
        (s.appendExternalTrade written t).1 ≠ .ok) ↔
      (hasCapturedApplicationArrival t.arrival = true →
        (t.side = 0 ∨ t.side = 1) ∧ (t.isBuyerMaker = 0 ∨ t.isBuyerMaker = 1))) ∧
    ((∀ (s : Coordinator) (written : Bool), parseBookTickerLine (renderBookTickerJsonLine b) = none →
        (s.appendExternalBookTicker written b).1 ≠ .ok) ↔
      (hasCapturedApplicationArrival b.arrival = true → b.eventId ≠ 0)) ∧
    ((∀ (s : Coordinator) (written : Bool × Bool),
        parseDepthTapeSidecarLine (renderDepthTapeJsonLine d) (renderDepthRleSidecarJsonLine d)
            = none →
        (s.appendExternalDepth written.1 written.2 d).1 ≠ .ok) ↔
      (hasCapturedApplicationArrival d.arrival = true →
        d.eventId ≠ 0 ∧
        ∀ l ∈ d.levels, 0 ≤ l.priceE8 ∧ 0 ≤ l.qtyE8 ∧ (l.side = 0 ∨ l.side = 1))) := by
  have hone : ∃ a : Coordinator × Bool, a.1.sinkOpen = true ∧ a.2 = true :=
    ⟨({ sinkOpen := true }, true), rfl, rfl⟩
  have htwo : ∃ a : Coordinator × Bool × Bool,
      a.1.sinkOpen = true ∧ a.2.1 = true ∧ a.2.2 = true :=
    ⟨({ sinkOpen := true }, true, true), rfl, rfl, rfl⟩
  simp only [ne_eq, Coordinator.appendExternalTrade_ok_iff,
    Coordinator.appendExternalBookTicker_ok_iff, Coordinator.appendExternalDepth_ok_iff]
  have htrade := refusal_iff hone (trade_refused_iff (t := t))
  have hticker := refusal_iff hone (bookTicker_refused_iff (b := b))
  have hdepth := refusal_iff htwo (depth_refused_iff hsize)
  simp only [Prod.forall] at htrade hticker hdepth ⊢
  exact ⟨htrade, hticker, hdepth⟩

/-- The arrival of a captured application frame. -/
def capturedArrival : EventArrival where
  receiveRealtimeNs := 8
  receiveMonotonicNs := 1
  producerEpoch := 1
  sourceGeneration := 1
  sessionEpoch := 1
  frameSequence := 1
  shardSequence := 1
  sourceId := 1
  flags := 1

/-- Captured rows that the condition admits. -/
theorem accepted_rows_readable_plain :
    let trade : TradeRow := { arrival := capturedArrival }
    let ticker : BookTickerRow := { eventId := 1, arrival := capturedArrival }
    let depth : DepthRow := { eventId := 1, levels := [⟨5, 1, 0⟩], arrival := capturedArrival }
    hasCapturedApplicationArrival capturedArrival = true ∧
    (∀ (s : Coordinator) (written : Bool), parseTradeLine (renderTradeJsonLine trade) = none →
      (s.appendExternalTrade written trade).1 ≠ .ok) ∧
    (∀ (s : Coordinator) (written : Bool),
      parseBookTickerLine (renderBookTickerJsonLine ticker) = none →
      (s.appendExternalBookTicker written ticker).1 ≠ .ok) ∧
    (∀ (s : Coordinator) (written : Bool × Bool),
      parseDepthTapeSidecarLine (renderDepthTapeJsonLine depth) (renderDepthRleSidecarJsonLine depth)
          = none →
      (s.appendExternalDepth written.1 written.2 depth).1 ≠ .ok) :=
  have h := accepted_rows_readable_iff { arrival := capturedArrival }
    { eventId := 1, arrival := capturedArrival }
    { eventId := 1, levels := [⟨5, 1, 0⟩], arrival := capturedArrival } (by decide)
  ⟨by decide, h.1.mpr (by decide), h.2.1.mpr (by decide), h.2.2.mpr (by decide)⟩

/-- A captured book ticker of a venue that gives its updates no identifier. -/
def unidentifiedTicker : BookTickerRow where
  tsNs := 7
  bidPriceE8 := 100
  bidQtyE8 := 1
  askPriceE8 := 101
  askQtyE8 := 1
  arrival := capturedArrival

/-- The sink of a session that has just been started takes it, and the line it writes cannot be read
back. -/
theorem bookTicker_accepted_unreadable :
    parseBookTickerLine (renderBookTickerJsonLine unidentifiedTicker) = none ∧
    ((({} : Coordinator).startExternalCapture true true true (fun _ => true)
      (fun _ => true)).2.appendExternalBookTicker true unidentifiedTicker).1 = .ok := by
  constructor
  · rw [parseBookTickerLine_render]
    rfl
  · rw [Coordinator.appendExternalBookTicker_ok_iff]
    exact ⟨by decide, rfl, rfl⟩

end HftRecorder.Session
