import HftRecorder.Session.CandleCapture
import Mathlib.Data.Prod.Lex

/-!
# The past trades of a session

`appendHistoricalTradesToWarmup` turns the pages of a trade history into rows, and
`captureTradesHistoryOnce` sorts the rows by `tradeLessByEventTime` and drops repetitions with
`std::unique`. A row is dropped if it is the same event as the last row that was kept, so repetitions
that another row stands between stay. The sort brings rows with the same trade id together only if
they have the same time, and rows without an id only if no row of the other side comes between them.

Sameness is not transitive: a row without an id is the same as rows with different ids. A row with an
id that follows such a row can be dropped without counting as the predecessor of later rows
(`Shadowed`). With these rows set apart, what is dropped depends on the predecessor only
(`sameTradeEvent_last_iff`).
-/

namespace HftRecorder.Session

open ByteLayout (Bytes)
open Json Replay

/-! ## The rows of a history -/

/-- `cxet::composite::TradeInitiatorSide`. -/
inductive TradeInitiatorSide
  | unknown
  | buyer
  | seller
  deriving DecidableEq

/-- A trade of the venue library, with its raw values. -/
structure HistoricalTrade where
  eventId : UInt64
  ts : UInt64
  price : Int64
  qty : Int64
  initiatorSide : TradeInitiatorSide

/-- `TradesHistorySinkContext`, with the members of the state that it points to. -/
structure TradesHistorySinkContext where
  tradesCaptureSeq : UInt64
  ingestSeq : UInt64
  exchange : Bytes
  market : Bytes
  identitySymbol : Bytes
  maxRows : ℕ
  hitRowLimit : Bool := false
  historyRows : List TradeRow := []

def makeHistoricalTradeRow (trade : HistoricalTrade) (context : TradesHistorySinkContext) :
    TradeRow where
  tradeId := trade.eventId
  symbol := context.identitySymbol
  exchange := context.exchange
  market := context.market
  tsNs := trade.ts.toInt64
  captureSeq := (context.tradesCaptureSeq + 1).toInt64
  ingestSeq := (context.ingestSeq + 1).toInt64
  priceE8 := trade.price
  qtyE8 := trade.qty
  side :=
    if trade.initiatorSide = .buyer then 1 else if trade.initiatorSide = .seller then 0 else -1
  isBuyerMaker := if trade.initiatorSide = .seller then 1 else 0
  sideBuy := if trade.initiatorSide = .buyer then 1 else 0
  arrival := { flags := EventArrivalHistoricalBackfill }

/-- A trade is stored under the next numbers. -/
def TradesHistorySinkContext.push (context : TradesHistorySinkContext) (trade : HistoricalTrade) :
    TradesHistorySinkContext :=
  { context with
    tradesCaptureSeq := context.tradesCaptureSeq + 1
    ingestSeq := context.ingestSeq + 1
    historyRows := context.historyRows ++ [makeHistoricalTradeRow trade context] }

/-- The loop of the sink over the trades of a page. -/
def appendTrades : List HistoricalTrade → TradesHistorySinkContext → Bool × TradesHistorySinkContext
  | [], context => (true, context)
  | trade :: trades, context =>
    if trade.ts = 0 ∨ trade.price = 0 ∨ trade.qty = 0 then appendTrades trades context
    else if context.maxRows ≠ 0 ∧ context.historyRows.length ≥ context.maxRows then
      (false, { context with hitRowLimit := true })
    else appendTrades trades (context.push trade)

def appendHistoricalTradesToWarmup (context : TradesHistorySinkContext)
    (page : List HistoricalTrade) : Bool × TradesHistorySinkContext :=
  if page.any fun trade => trade.initiatorSide = .unknown then (false, context)
  else appendTrades page context

/-- The rows after the fetch has called the sink with some pages. -/
def fetchedRows (context : TradesHistorySinkContext) (pages : List (List HistoricalTrade)) :
    List TradeRow :=
  (pages.foldl (fun context page => (appendHistoricalTradesToWarmup context page).2)
    context).historyRows

/-- All rows have the symbol of the session, and the id and the time of a delivered trade. -/
structure TradesHistorySinkContext.RowsOf (context : TradesHistorySinkContext) (symbol : Bytes)
    (delivered : List HistoricalTrade) : Prop where
  identitySymbol_eq : context.identitySymbol = symbol
  symbol_eq : ∀ row ∈ context.historyRows, row.symbol = symbol
  exists_trade : ∀ row ∈ context.historyRows,
    ∃ trade ∈ delivered, row.tradeId = trade.eventId ∧ row.tsNs = trade.ts.toInt64

section Rows

variable {symbol : Bytes} {delivered : List HistoricalTrade} {context : TradesHistorySinkContext}

theorem TradesHistorySinkContext.RowsOf.push (h : context.RowsOf symbol delivered)
    {trade : HistoricalTrade} (htrade : trade ∈ delivered) :
    (context.push trade).RowsOf symbol delivered := by
  refine ⟨h.identitySymbol_eq, fun row hrow => ?_, fun row hrow => ?_⟩
  all_goals rcases List.mem_append.mp hrow with hrow | hrow
  · exact h.symbol_eq row hrow
  · rw [List.mem_singleton.mp hrow]
    exact h.identitySymbol_eq
  · exact h.exists_trade row hrow
  · rw [List.mem_singleton.mp hrow]
    exact ⟨trade, htrade, rfl, rfl⟩

theorem rowsOf_appendTrades {trades : List HistoricalTrade} (htrades : trades ⊆ delivered)
    (h : context.RowsOf symbol delivered) :
    (appendTrades trades context).2.RowsOf symbol delivered := by
  induction trades generalizing context with
  | nil => exact h
  | cons trade trades ih =>
    obtain ⟨htrade, hrest⟩ := List.cons_subset.mp htrades
    rw [appendTrades]
    split
    · exact ih hrest h
    · split
      · exact ⟨h.identitySymbol_eq, h.symbol_eq, h.exists_trade⟩
      · exact ih hrest (h.push htrade)

/-- The induction is over the pages; every page is part of what was delivered. -/
theorem rowsOf_fetched {pages : List (List HistoricalTrade)} (hpages : ∀ page ∈ pages, page ⊆ delivered)
    (h : context.RowsOf symbol delivered) :
    (pages.foldl (fun context page => (appendHistoricalTradesToWarmup context page).2)
      context).RowsOf symbol delivered := by
  induction pages generalizing context with
  | nil => exact h
  | cons page pages ih =>
    refine ih (fun other hother => hpages other (List.mem_cons_of_mem _ hother)) ?_
    dsimp only [appendHistoricalTradesToWarmup]
    split
    · exact h
    · exact rowsOf_appendTrades (hpages page List.mem_cons_self) h

end Rows

/-! ## The order and the sameness of rows -/

/-- The members that the sort compares, in their order. -/
def eventKey (row : TradeRow) : ℤ ×ₗ ℕ ×ₗ ℤ ×ₗ ℤ ×ₗ ℤ :=
  toLex (row.tsNs.toInt, toLex (row.tradeId.toNat, toLex (row.priceE8.toInt,
    toLex (row.qtyE8.toInt, row.captureSeq.toInt))))

theorem ite_ne_eq_true_iff {α : Type} [DecidableEq α] {x y : α} {lt : Prop} [Decidable lt]
    (hne : lt → x ≠ y) (rest : Bool) :
    (if x ≠ y then decide lt else rest) = true ↔ lt ∨ x = y ∧ rest = true := by
  by_cases heq : x = y
  · have hnot : ¬lt := fun h => hne h heq
    simp [heq, hnot]
  · simp [heq]

theorem tradeLessByEventTime_iff (a b : TradeRow) :
    tradeLessByEventTime a b = true ↔ eventKey a < eventKey b := by
  have hint : ∀ {x y : Int64}, x < y → x ≠ y := fun h heq => by
    rw [heq] at h
    exact Int64.lt_irrefl h
  have hnat : ∀ {x y : UInt64}, x < y → x ≠ y := fun h heq => by
    rw [heq] at h
    exact UInt64.lt_irrefl _ h
  simp only [eventKey, Prod.Lex.toLex_lt_toLex, Int64.toInt_inj, UInt64.toNat_inj,
    ← Int64.lt_iff_toInt_lt, ← UInt64.lt_iff_toNat_lt]
  unfold tradeLessByEventTime
  rw [ite_ne_eq_true_iff hint, ite_ne_eq_true_iff hnat, ite_ne_eq_true_iff hint,
    ite_ne_eq_true_iff hint, decide_eq_true_iff]

/-- One row may stand before another in the sorted rows. -/
def NotAfter (a b : TradeRow) : Prop := tradeLessByEventTime b a = false

theorem notAfter_iff {a b : TradeRow} : NotAfter a b ↔ eventKey a ≤ eventKey b := by
  rw [NotAfter, ← Bool.not_eq_true, tradeLessByEventTime_iff, not_lt]

theorem pairwise_sorted (rows : List TradeRow) :
    (rows.mergeSort fun a b => !tradeLessByEventTime b a).Pairwise NotAfter := by
  have hle : ∀ a b, (!tradeLessByEventTime b a) = true ↔ eventKey a ≤ eventKey b := fun a b => by
    rw [Bool.not_eq_true']
    exact notAfter_iff
  refine List.Pairwise.imp (fun {a b} h => ?_) (List.pairwise_mergeSort (fun a b c hab hbc => ?_)
    (fun a b => ?_) rows)
  · rwa [Bool.not_eq_true'] at h
  · exact (hle a c).mpr (((hle a b).mp hab).trans ((hle b c).mp hbc))
  · rw [Bool.or_eq_true, hle, hle]
    exact le_total _ _

theorem NotAfter.ts_ne {a b : TradeRow} (h : NotAfter a b) (ha : a.tradeId ≠ 0)
    (hb : b.tradeId = 0) : a.tsNs ≠ b.tsNs := by
  intro hts
  rw [notAfter_iff, eventKey, eventKey, Prod.Lex.toLex_le_toLex, hts, hb] at h
  rcases h with h | ⟨-, h⟩
  · exact lt_irrefl _ h
  · rw [Prod.Lex.toLex_le_toLex] at h
    have hpos : 0 < a.tradeId.toNat := Nat.pos_of_ne_zero fun hzero =>
      ha (UInt64.toNat_inj.mp hzero)
    rcases h with h | ⟨h, -⟩
    · exact Nat.not_lt_zero _ h
    · exact absurd h hpos.ne'

/-- What the rows without an id are compared by. -/
def content (row : TradeRow) : Int64 × Int64 × Int64 × Int64 × Bytes :=
  (row.tsNs, row.priceE8, row.qtyE8, row.side, row.symbol)

theorem same_iff_content {a b : TradeRow} (h : a.tradeId = 0 ∨ b.tradeId = 0) :
    sameTradeEvent a b = true ↔ content a = content b := by
  rw [sameTradeEvent, if_neg (by tauto)]
  simp [content]

theorem same_iff_id {a b : TradeRow} (ha : a.tradeId ≠ 0) (hb : b.tradeId ≠ 0) :
    sameTradeEvent a b = true ↔ a.tradeId = b.tradeId ∧ a.symbol = b.symbol := by
  rw [sameTradeEvent, if_pos ⟨ha, hb⟩]
  simp

theorem same_refl (a : TradeRow) : sameTradeEvent a a = true := by
  by_cases ha : a.tradeId = 0
  · exact (same_iff_content (.inl ha)).mpr rfl
  · exact (same_iff_id ha ha).mpr ⟨rfl, rfl⟩

theorem same_comm (a b : TradeRow) : sameTradeEvent a b = sameTradeEvent b a := by
  rw [Bool.eq_iff_iff]
  by_cases ha : a.tradeId = 0
  · rw [same_iff_content (.inl ha), same_iff_content (.inr ha), eq_comm]
  · by_cases hb : b.tradeId = 0
    · rw [same_iff_content (.inr hb), same_iff_content (.inl hb), eq_comm]
    · rw [same_iff_id ha hb, same_iff_id hb ha, eq_comm, @eq_comm _ a.symbol]

theorem NotAfter.not_same {a b : TradeRow} (h : NotAfter a b) (ha : a.tradeId ≠ 0)
    (hb : b.tradeId = 0) : ¬sameTradeEvent a b = true := by
  rw [same_iff_content (.inr hb)]
  exact fun heq => h.ts_ne ha hb (congrArg Prod.fst heq)

/-! ## What is dropped -/

/-- Adding a row at the end: it is dropped if it is the same as the last row that was kept. -/
theorem uniqueTrades_concat (rows : List TradeRow) (row : TradeRow) :
    uniqueTrades (rows ++ [row]) =
      if (uniqueTrades rows).getLast?.any (sameTradeEvent · row) then uniqueTrades rows
      else uniqueTrades rows ++ [row] := by
  have hgo : ∀ (rows : List TradeRow) (last : TradeRow),
      last :: uniqueTrades.go last (rows ++ [row]) =
        if (last :: uniqueTrades.go last rows).getLast?.any (sameTradeEvent · row) then
          last :: uniqueTrades.go last rows
        else (last :: uniqueTrades.go last rows) ++ [row] := by
    intro rows
    induction rows with
    | nil =>
      intro last
      simp only [List.nil_append, uniqueTrades.go, List.getLast?_singleton, Option.any_some]
      by_cases hsame : sameTradeEvent last row = true <;> simp [hsame]
    | cons next rows ih =>
      intro last
      simp only [List.cons_append, uniqueTrades.go]
      split
      · exact ih last
      · rw [ih next, List.getLast?_cons_cons]
        split <;> rfl
  cases rows with
  | nil => rfl
  | cons first rows => exact hgo rows first

/-- After the rows `before`, the row is shadowed: a row without an id stands before it, and it and all
rows between the two are the same event as that row. -/
def Shadowed (before : List TradeRow) (row : TradeRow) : Prop :=
  ∃ first shadow between, before = first ++ shadow :: between ∧ shadow.tradeId = 0 ∧
    ∀ x ∈ between ++ [row], sameTradeEvent shadow x = true

/-- After the rows `before`, the row repeats what stands directly before it: it is shadowed, or the
same event as a predecessor that is not shadowed itself. -/
def Repeats (before : List TradeRow) (row : TradeRow) : Prop :=
  Shadowed before row ∨
    ∃ first previous, before = first ++ [previous] ∧ ¬Shadowed first previous ∧
      sameTradeEvent previous row = true

/-- How the last row that was kept stands for the last row. -/
def StandsFor (before : List TradeRow) (previous last : TradeRow) : Prop :=
  Shadowed before previous ∧ last.tradeId = 0 ∧ sameTradeEvent last previous = true ∨
    ¬Shadowed before previous ∧
      (last = previous ∨
        last.tradeId ≠ 0 ∧ previous.tradeId ≠ 0 ∧ last.tradeId = previous.tradeId)

section Shadows

variable {before : List TradeRow} {previous row : TradeRow}

theorem not_shadowed_nil : ¬Shadowed [] row := by
  rintro ⟨first, shadow, between, hsplit, -⟩
  exact List.append_ne_nil_of_right_ne_nil _ (List.cons_ne_nil _ _) hsplit.symm

/-- The shadow of a row is its predecessor, or also the shadow of its predecessor. -/
theorem shadowed_concat_iff :
    Shadowed (before ++ [previous]) row ↔
      previous.tradeId = 0 ∧ content previous = content row ∨
        Shadowed before previous ∧ content previous = content row := by
  constructor
  · rintro ⟨first, shadow, between, hsplit, hzero, hsame⟩
    rcases List.eq_nil_or_concat between with rfl | ⟨between, x, rfl⟩
    · obtain ⟨rfl, hprevious⟩ := List.append_inj' hsplit rfl
      cases hprevious
      exact .inl ⟨hzero, (same_iff_content (.inl hzero)).mp (hsame row (by simp))⟩
    · rw [List.concat_eq_append] at hsplit hsame
      rw [← List.cons_append, ← List.append_assoc] at hsplit
      obtain ⟨rfl, hprevious⟩ := List.append_inj' hsplit rfl
      cases hprevious
      have hx := (same_iff_content (.inl hzero)).mp (hsame previous (by simp))
      have hrow := (same_iff_content (.inl hzero)).mp (hsame row (by simp))
      exact .inr ⟨⟨first, shadow, between, rfl, hzero, fun y hy => hsame y (by simp at hy ⊢; tauto)⟩,
        hx.symm.trans hrow⟩
  · rintro (⟨hzero, hsame⟩ | ⟨⟨first, shadow, between, rfl, hzero, hsame⟩, hcontent⟩)
    · refine ⟨before, previous, [], rfl, hzero, fun x hx => ?_⟩
      rw [List.nil_append, List.mem_singleton] at hx
      rw [hx, same_iff_content (.inl hzero), hsame]
    · refine ⟨first, shadow, between ++ [previous], by simp, hzero, fun x hx => ?_⟩
      rcases List.mem_append.mp hx with hx | hx
      · exact hsame x hx
      · have hprevious := (same_iff_content (.inl hzero)).mp (hsame previous (by simp))
        rw [List.mem_singleton.mp hx, same_iff_content (.inl hzero), hprevious, hcontent]

theorem repeats_concat_iff :
    Repeats (before ++ [previous]) row ↔
      Shadowed (before ++ [previous]) row ∨
        ¬Shadowed before previous ∧ sameTradeEvent previous row = true := by
  refine or_congr_right ⟨?_, fun h => ⟨before, previous, rfl, h⟩⟩
  rintro ⟨first, x, hsplit, h⟩
  obtain ⟨rfl, hprevious⟩ := List.append_inj' hsplit rfl
  cases hprevious
  exact h

variable {last : TradeRow}

theorem sameTradeEvent_last_iff (hstands : StandsFor before previous last)
    (hlast : NotAfter last row) (hprevious : NotAfter previous row)
    (hsymbol : last.symbol = previous.symbol) :
    sameTradeEvent last row = true ↔ Repeats (before ++ [previous]) row := by
  rw [repeats_concat_iff, shadowed_concat_iff]
  rcases hstands with ⟨hshadowed, hzero, hsame⟩ | ⟨hnot, rfl | ⟨hid, hid', heq⟩⟩
  · rw [same_iff_content (.inl hzero)] at hsame
    rw [same_iff_content (.inl hzero), hsame]
    tauto
  · constructor
    · exact fun h => .inr ⟨hnot, h⟩
    · rintro ((⟨hzero, hcontent⟩ | ⟨h, -⟩) | ⟨-, h⟩)
      · exact (same_iff_content (.inl hzero)).mpr hcontent
      · exact absurd h hnot
      · exact h
  · have hsame : sameTradeEvent last row = true ↔ sameTradeEvent previous row = true := by
      by_cases hrow : row.tradeId = 0
      · exact iff_of_false (hlast.not_same hid hrow) (hprevious.not_same hid' hrow)
      · rw [same_iff_id hid hrow, same_iff_id hid' hrow, heq, hsymbol]
    rw [hsame]
    tauto

/-- The last row that was kept goes on to stand for the next row. -/
theorem StandsFor.next (hstands : StandsFor before previous last) (hlast : NotAfter last row)
    (hprevious : NotAfter previous row) (hsymbol : last.symbol = previous.symbol) :
    StandsFor (before ++ [previous]) row (if sameTradeEvent last row then last else row) := by
  have hiff := sameTradeEvent_last_iff hstands hlast hprevious hsymbol
  by_cases hsame : sameTradeEvent last row = true
  · rw [if_pos hsame]
    by_cases hshadowed : Shadowed (before ++ [previous]) row
    · refine .inl ⟨hshadowed, ?_, hsame⟩
      rw [shadowed_concat_iff] at hshadowed
      rcases hstands with ⟨-, hzero, -⟩ | ⟨hnot, rfl | ⟨hid, hid', -⟩⟩
      · exact hzero
      · rcases hshadowed with ⟨hzero, -⟩ | ⟨h, -⟩
        · exact hzero
        · exact absurd h hnot
      · rcases hshadowed with ⟨hzero, -⟩ | ⟨h, -⟩
        · exact absurd hzero hid'
        · exact absurd h hnot
    · refine .inr ⟨hshadowed, .inr ?_⟩
      -- a row without an id would have been shadowed
      have hid : last.tradeId ≠ 0 := by
        intro hzero
        have hcontent := (same_iff_content (.inl hzero)).mp hsame
        rw [shadowed_concat_iff] at hshadowed
        rcases hstands with ⟨h, -, hprev⟩ | ⟨-, rfl | ⟨hid, -⟩⟩
        · rw [same_iff_content (.inl hzero)] at hprev
          exact hshadowed (.inr ⟨h, hprev.symm.trans hcontent⟩)
        · exact hshadowed (.inl ⟨hzero, hcontent⟩)
        · exact hid hzero
      have hrow : row.tradeId ≠ 0 := fun hzero => hlast.not_same hid hzero hsame
      exact ⟨hid, hrow, ((same_iff_id hid hrow).mp hsame).1⟩
  · rw [if_neg hsame]
    exact .inr ⟨fun h => hsame (hiff.mpr (.inl h)), .inl rfl⟩

end Shadows

section Run

variable {rows : List TradeRow} {symbol : Bytes}

/-- The last row that was kept stands for the last row. -/
theorem exists_standsFor (hsorted : rows.Pairwise NotAfter)
    (hsymbol : ∀ row ∈ rows, row.symbol = symbol) {before : List TradeRow} {previous : TradeRow}
    (hrows : rows = before ++ [previous]) :
    ∃ last ∈ rows, (uniqueTrades rows).getLast? = some last ∧ StandsFor before previous last := by
  induction before using List.reverseRecOn generalizing rows previous with
  | nil =>
    subst hrows
    exact ⟨previous, by simp, rfl, .inr ⟨not_shadowed_nil, .inl rfl⟩⟩
  | append_singleton before x ih =>
    subst hrows
    obtain ⟨hearlier, -, hafter⟩ := List.pairwise_append.mp hsorted
    obtain ⟨last, hmem, hlast, hstands⟩ :=
      ih hearlier (fun row h => hsymbol row (List.mem_append_left _ h)) rfl
    have hprevious : ∀ row ∈ before ++ [x], NotAfter row previous :=
      fun row h => hafter row h previous (by simp)
    have hsymbols : last.symbol = x.symbol := by
      rw [hsymbol last (by simp at hmem ⊢; tauto), hsymbol x (by simp)]
    have hnext := hstands.next (hprevious last hmem) (hprevious x (by simp)) hsymbols
    rw [uniqueTrades_concat, hlast, Option.any_some]
    split
    · rename_i hsame
      rw [if_pos hsame] at hnext
      exact ⟨last, List.mem_append_left _ hmem, hlast, hnext⟩
    · rename_i hsame
      rw [if_neg hsame] at hnext
      exact ⟨previous, by simp, by simp, hnext⟩

theorem uniqueTrades_next {row : TradeRow} (hsorted : (rows ++ [row]).Pairwise NotAfter)
    (hsymbol : ∀ x ∈ rows, x.symbol = symbol) :
    Repeats rows row ∧ uniqueTrades (rows ++ [row]) = uniqueTrades rows ∨
      ¬Repeats rows row ∧ uniqueTrades (rows ++ [row]) = uniqueTrades rows ++ [row] := by
  rw [uniqueTrades_concat]
  obtain ⟨hearlier, -, hafter⟩ := List.pairwise_append.mp hsorted
  rcases List.eq_nil_or_concat rows with rfl | ⟨before, previous, rfl⟩
  · refine .inr ⟨?_, rfl⟩
    rintro (h | ⟨first, previous, h, -⟩)
    · exact not_shadowed_nil h
    · simp at h
  · rw [List.concat_eq_append] at *
    obtain ⟨last, hmem, hlast, hstands⟩ := exists_standsFor hearlier hsymbol rfl
    have hnot : ∀ x ∈ before ++ [previous], NotAfter x row := fun x h => hafter x h row (by simp)
    have hiff := sameTradeEvent_last_iff hstands (hnot last hmem) (hnot previous (by simp))
      ((hsymbol last hmem).trans (hsymbol previous (by simp)).symm)
    rw [hlast, Option.any_some]
    by_cases hsame : sameTradeEvent last row = true
    · exact .inl ⟨hiff.mp hsame, if_pos hsame⟩
    · exact .inr ⟨fun h => hsame (hiff.mpr h), if_neg hsame⟩

/-- The rows that are kept are the ones that repeat nothing. -/
theorem mem_uniqueTrades_iff (hsorted : rows.Pairwise NotAfter)
    (hsymbol : ∀ row ∈ rows, row.symbol = symbol) {kept : TradeRow} :
    kept ∈ uniqueTrades rows ↔
      ∃ before after, rows = before ++ kept :: after ∧ ¬Repeats before kept := by
  induction rows using List.reverseRecOn with
  | nil =>
    refine iff_of_false List.not_mem_nil ?_
    rintro ⟨before, after, h, -⟩
    simp at h
  | append_singleton rows row ih =>
    have hearlier := (List.pairwise_append.mp hsorted).1
    have hsymbol' : ∀ x ∈ rows, x.symbol = symbol := fun x h => hsymbol x (List.mem_append_left _ h)
    have hsplit : (∃ before after, rows ++ [row] = before ++ kept :: after ∧ ¬Repeats before kept) ↔
        (∃ before after, rows = before ++ kept :: after ∧ ¬Repeats before kept) ∨
          kept = row ∧ ¬Repeats rows row := by
      constructor
      · rintro ⟨before, after, h, hnot⟩
        rcases List.eq_nil_or_concat after with rfl | ⟨after, x, rfl⟩
        · obtain ⟨rfl, hrow⟩ := List.append_inj' h rfl
          cases hrow
          exact .inr ⟨rfl, hnot⟩
        · rw [List.concat_eq_append, ← List.cons_append, ← List.append_assoc] at h
          exact .inl ⟨before, after, (List.append_inj' h rfl).1, hnot⟩
      · rintro (⟨before, after, rfl, hnot⟩ | ⟨rfl, hnot⟩)
        · exact ⟨before, after ++ [row], by simp, hnot⟩
        · exact ⟨rows, [], rfl, hnot⟩
    rw [hsplit, ← ih hearlier hsymbol']
    rcases uniqueTrades_next hsorted hsymbol' with ⟨hrepeats, heq⟩ | ⟨hnot, heq⟩
    · rw [heq]
      tauto
    · rw [heq, List.mem_append, List.mem_singleton]
      tauto

/-- Of a row that is the same as a later one and not shadowed, a kept row is the same too. -/
theorem exists_kept_same (hsorted : rows.Pairwise NotAfter)
    (hsymbol : ∀ row ∈ rows, row.symbol = symbol) {row : TradeRow}
    (hrow : ∀ x ∈ rows, NotAfter x row) {before after : List TradeRow} {a : TradeRow}
    (hrows : rows = before ++ a :: after) (hnot : ¬Shadowed before a)
    (hsame : sameTradeEvent a row = true) :
    ∃ kept ∈ uniqueTrades rows, sameTradeEvent kept row = true := by
  induction hlength : before.length generalizing before after a with
  | zero =>
    obtain rfl := List.length_eq_zero_iff.mp hlength
    refine ⟨a, (mem_uniqueTrades_iff hsorted hsymbol).mpr ⟨[], after, hrows, ?_⟩, hsame⟩
    rintro (h | ⟨first, x, h, -⟩)
    · exact hnot h
    · simp at h
  | succ n ih =>
    by_cases hrepeats : Repeats before a
    · rcases hrepeats with h | ⟨first, previous, rfl, hprevious, hsame'⟩
      · exact absurd h hnot
      -- the predecessor has an id, or the row would be shadowed, and the row has the same one
      have hmem : previous ∈ rows ∧ a ∈ rows := by simp [hrows]
      have hid : previous.tradeId ≠ 0 := fun hzero => hnot (shadowed_concat_iff.mpr
        (.inl ⟨hzero, (same_iff_content (.inl hzero)).mp hsame'⟩))
      have horder : NotAfter previous a := by
        rw [hrows] at hsorted
        exact (List.pairwise_append.mp hsorted).2.2 previous (by simp) a (by simp)
      have hida : a.tradeId ≠ 0 := fun hzero => horder.not_same hid hzero hsame'
      have hidrow : row.tradeId ≠ 0 := fun hzero => (hrow a hmem.2).not_same hida hzero hsame
      rw [same_iff_id hid hida] at hsame'
      rw [same_iff_id hida hidrow] at hsame
      have hrows' : rows = first ++ previous :: a :: after := by simp [hrows]
      refine ih hrows' hprevious ?_ (by simpa using hlength)
      exact (same_iff_id hid hidrow).mpr ⟨hsame'.1.trans hsame.1, hsame'.2.trans hsame.2⟩
    · exact ⟨a, (mem_uniqueTrades_iff hsorted hsymbol).mpr ⟨before, after, hrows, hrepeats⟩, hsame⟩

/-- Repetitions stand together: a row that is the same as an earlier row that is not shadowed repeats
what stands directly before it. -/
def RepeatsTogether (rows : List TradeRow) : Prop :=
  ∀ before row after, rows = before ++ row :: after →
    ∀ first a between, before = first ++ a :: between → ¬Shadowed first a →
      sameTradeEvent a row = true → Repeats before row

theorem repeatsTogether_concat_iff {row : TradeRow} :
    RepeatsTogether (rows ++ [row]) ↔
      RepeatsTogether rows ∧ ∀ first a between, rows = first ++ a :: between →
        ¬Shadowed first a → sameTradeEvent a row = true → Repeats rows row := by
  constructor
  · refine fun h => ⟨fun before x after hsplit => ?_, h rows row [] rfl⟩
    exact h before x (after ++ [row]) (by rw [hsplit]; simp)
  · rintro ⟨hearlier, hlast⟩ before x after hsplit
    rcases List.eq_nil_or_concat after with rfl | ⟨after, y, rfl⟩
    · obtain ⟨rfl, hrow⟩ := List.append_inj' hsplit rfl
      cases hrow
      exact hlast
    · rw [List.concat_eq_append, ← List.cons_append, ← List.append_assoc] at hsplit
      exact hearlier before x after (List.append_inj' hsplit rfl).1

/-- No two kept rows are the same exactly if repetitions stand together. -/
theorem pairwise_uniqueTrades_iff (hsorted : rows.Pairwise NotAfter)
    (hsymbol : ∀ row ∈ rows, row.symbol = symbol) :
    (uniqueTrades rows).Pairwise (fun a b => sameTradeEvent a b = false) ↔ RepeatsTogether rows := by
  induction rows using List.reverseRecOn with
  | nil =>
    refine iff_of_true List.Pairwise.nil fun before row after h => ?_
    simp at h
  | append_singleton rows row ih =>
    obtain ⟨hearlier, -, hafter⟩ := List.pairwise_append.mp hsorted
    have hsymbol' : ∀ x ∈ rows, x.symbol = symbol := fun x h => hsymbol x (List.mem_append_left _ h)
    have hrow : ∀ x ∈ rows, NotAfter x row := fun x h => hafter x h row (by simp)
    rw [repeatsTogether_concat_iff, ← ih hearlier hsymbol']
    rcases uniqueTrades_next hsorted hsymbol' with ⟨hrepeats, heq⟩ | ⟨hnot, heq⟩
    · rw [heq]
      exact ⟨fun h => ⟨h, fun _ _ _ _ _ _ => hrepeats⟩, And.left⟩
    · rw [heq, List.pairwise_append]
      refine ⟨fun h => ⟨h.1, fun first a between hsplit hshadow hsame => ?_⟩, fun h => ⟨h.1, ?_, ?_⟩⟩
      · obtain ⟨kept, hkept, hsame'⟩ :=
          exists_kept_same hearlier hsymbol' hrow hsplit hshadow hsame
        have hfalse := h.2.2 kept hkept row (by simp)
        rw [hsame'] at hfalse
        cases hfalse
      · exact List.pairwise_singleton _ _
      · intro kept hkept x hx
        rw [List.mem_singleton.mp hx]
        obtain ⟨before, after, hsplit, hkeptnot⟩ :=
          (mem_uniqueTrades_iff hearlier hsymbol').mp hkept
        refine eq_false_of_ne_true fun hsame => hnot ?_
        exact h.2 before kept after hsplit (fun hshadow => hkeptnot (.inl hshadow)) hsame

theorem exists_mem_uniqueTrades (rows : List TradeRow) :
    ∀ row ∈ rows, ∃ kept ∈ uniqueTrades rows, sameTradeEvent row kept = true := by
  induction rows using List.reverseRecOn with
  | nil => simp
  | append_singleton rows last ih =>
    rw [uniqueTrades_concat]
    intro row hrow
    split
    · rename_i hdropped
      rcases List.mem_append.mp hrow with hrow | hrow
      · exact ih row hrow
      · rw [List.mem_singleton.mp hrow]
        cases hlast : (uniqueTrades rows).getLast? with
        | none => rw [hlast] at hdropped; cases hdropped
        | some kept =>
          rw [hlast, Option.any_some, same_comm] at hdropped
          exact ⟨kept, List.mem_of_getLast? hlast, hdropped⟩
    · rcases List.mem_append.mp hrow with hrow | hrow
      · obtain ⟨kept, hkept, hsame⟩ := ih row hrow
        exact ⟨kept, List.mem_append_left _ hkept, hsame⟩
      · rw [List.mem_singleton.mp hrow]
        exact ⟨last, by simp, same_refl last⟩

end Run

/-- The fetched rows in the order of `tradeLessByEventTime`. -/
def sortedRows (context : TradesHistorySinkContext) (pages : List (List HistoricalTrade)) :
    List TradeRow :=
  (fetchedRows context pages).mergeSort fun lhs rhs => !tradeLessByEventTime rhs lhs

/-- Rows with ids stand together with their repetitions if a repetition has the time of the first. -/
theorem repeatsTogether_of_ids {rows : List TradeRow} {symbol : Bytes}
    (hsorted : rows.Pairwise NotAfter) (hsymbol : ∀ row ∈ rows, row.symbol = symbol)
    (hids : ∀ row ∈ rows, row.tradeId ≠ 0)
    (htimes : ∀ a ∈ rows, ∀ b ∈ rows, a.tradeId = b.tradeId → a.tsNs = b.tsNs) :
    RepeatsTogether rows := by
  rintro before row after rfl first a between rfl - hsame
  have hshadowed : ∀ rows' x, rows' ⊆ first ++ a :: between → ¬Shadowed rows' x := by
    rintro rows' x hsub ⟨before, shadow, rest, rfl, hzero, -⟩
    exact hids shadow (List.mem_append_left _ (hsub (by simp))) hzero
  rcases List.eq_nil_or_concat between with rfl | ⟨between, previous, rfl⟩
  · exact .inr ⟨first, a, rfl, hshadowed _ _ (List.subset_append_left _ _), hsame⟩
  rw [List.concat_eq_append] at *
  have hmem : ∀ x, x = a ∨ x = previous ∨ x = row →
      x ∈ (first ++ a :: (between ++ [previous])) ++ row :: after := by
    rintro x (rfl | rfl | rfl) <;> simp
  have hrow := (same_iff_id (hids a (hmem a (by simp))) (hids row (hmem row (by simp)))).mp hsame
  have htime := htimes a (hmem a (by simp)) row (hmem row (by simp)) hrow.1
  -- The row directly before stands between two rows with the same time and the same id.
  have hbetween : eventKey a ≤ eventKey previous ∧ eventKey previous ≤ eventKey row := by
    simp only [List.append_assoc, List.cons_append, List.pairwise_append, List.pairwise_cons,
      List.mem_append, List.mem_cons] at hsorted
    exact ⟨notAfter_iff.mp (hsorted.2.1.1 previous (by simp)),
      notAfter_iff.mp (hsorted.2.1.2.2.1.1 row (by simp))⟩
  have hid : previous.tradeId = row.tradeId := by
    simp only [eventKey, Prod.Lex.toLex_le_toLex, htime, hrow.1] at hbetween
    exact UInt64.toNat_inj.mp (by omega)
  refine .inr ⟨first ++ a :: between, previous, by simp, hshadowed _ _ (fun x hx => by
    simp only [List.mem_append, List.mem_cons] at hx ⊢; tauto), ?_⟩
  exact (same_iff_id (hids previous (hmem previous (by simp)))
    (hids row (hmem row (by simp)))).mpr
    ⟨hid, (hsymbol previous (hmem previous (by simp))).trans (hsymbol row (hmem row (by simp))).symm⟩

/-- Whatever the pages are, every fetched row is the same event as a row that is stored. No two stored
rows are the same event exactly if repetitions stand together in the sorted rows, and in particular if
every trade of the pages has an id and trades with one id have one time. -/
theorem history_deduplicated_iff (tradesCaptureSeq ingestSeq : UInt64)
    (exchange market identitySymbol : Bytes) (maxRows : ℕ) (pages : List (List HistoricalTrade)) :
    let context : TradesHistorySinkContext :=
      { tradesCaptureSeq, ingestSeq, exchange, market, identitySymbol, maxRows }
    ((historyTrades (fetchedRows context pages)).Pairwise (fun a b => sameTradeEvent a b = false) ↔
        RepeatsTogether (sortedRows context pages)) ∧
      ((∀ trade ∈ pages.flatten, trade.eventId ≠ 0) →
        (∀ a ∈ pages.flatten, ∀ b ∈ pages.flatten, a.eventId = b.eventId → a.ts = b.ts) →
        (historyTrades (fetchedRows context pages)).Pairwise
          (fun a b => sameTradeEvent a b = false)) ∧
      ∀ row ∈ fetchedRows context pages,
        ∃ kept ∈ historyTrades (fetchedRows context pages), sameTradeEvent row kept = true := by
  intro context
  have hperm : (sortedRows context pages).Perm (fetchedRows context pages) :=
    List.mergeSort_perm _ _
  have hrows : ∀ row ∈ sortedRows context pages, row.symbol = identitySymbol ∧
      ∃ trade ∈ pages.flatten, row.tradeId = trade.eventId ∧ row.tsNs = trade.ts.toInt64 := by
    intro row hrow
    have hstart : context.RowsOf identitySymbol pages.flatten :=
      ⟨rfl, by simp [context], by simp [context]⟩
    have hfetched := rowsOf_fetched
      (fun page hpage _ htrade => List.mem_flatten_of_mem hpage htrade) hstart
    exact ⟨hfetched.symbol_eq row (hperm.mem_iff.mp hrow),
      hfetched.exists_trade row (hperm.mem_iff.mp hrow)⟩
  have hiff := pairwise_uniqueTrades_iff (pairwise_sorted _) fun row hrow => (hrows row hrow).1
  refine ⟨hiff, fun hids htimes => hiff.mpr ?_,
    fun row hrow => exists_mem_uniqueTrades _ row (hperm.mem_iff.mpr hrow)⟩
  refine repeatsTogether_of_ids (pairwise_sorted _) (fun row hrow => (hrows row hrow).1) ?_ ?_
  · intro row hrow
    obtain ⟨-, trade, htrade, hid, -⟩ := hrows row hrow
    rw [hid]
    exact hids trade htrade
  · intro a ha b hb heq
    obtain ⟨-, x, hx, hxid, hxts⟩ := hrows a ha
    obtain ⟨-, y, hy, hyid, hyts⟩ := hrows b hb
    rw [hxts, hyts, htimes x hx y hy (by rw [← hxid, ← hyid, heq])]

/-- A trade with an id that the next page delivers once more. -/
def repeatedPages : List (List HistoricalTrade) :=
  [[⟨7, 1, 1, 1, .buyer⟩, ⟨8, 1, 1, 1, .seller⟩], [⟨8, 1, 1, 1, .seller⟩]]

theorem history_deduplicated_repeated :
    let context : TradesHistorySinkContext := ⟨0, 0, [], [], [], 0, false, []⟩
    (fetchedRows context repeatedPages).length = 3 ∧
      (historyTrades (fetchedRows context repeatedPages)).Pairwise
        (fun a b => sameTradeEvent a b = false) :=
  ⟨rfl, (history_deduplicated_iff 0 0 [] [] [] 0 repeatedPages).2.1 (by decide) (by decide)⟩

/-- Two trades without ids at one time, with the same price and quantity and different sides, and the
first of them once more on the next page. -/
def overlappingPages : List (List HistoricalTrade) :=
  [[⟨0, 1, 1, 1, .buyer⟩, ⟨0, 1, 1, 1, .seller⟩], [⟨0, 1, 1, 1, .buyer⟩]]

/-- The trade that was fetched twice is stored twice. -/
theorem overlap_stored_twice :
    let context : TradesHistorySinkContext := ⟨0, 0, [], [], [], 0, false, []⟩
    ∃ first between second, historyTrades (fetchedRows context overlappingPages) =
        [first, between, second] ∧ sameTradeEvent first second = true := by
  have hsorted : (fetchedRows ⟨0, 0, [], [], [], 0, false, []⟩ overlappingPages).mergeSort
      (fun lhs rhs => !tradeLessByEventTime rhs lhs) =
        fetchedRows ⟨0, 0, [], [], [], 0, false, []⟩ overlappingPages :=
    List.mergeSort_of_pairwise (by decide)
  exact ⟨_, _, _, by rw [historyTrades, hsorted]; rfl, by decide⟩

end HftRecorder.Session
