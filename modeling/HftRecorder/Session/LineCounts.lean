import HftRecorder.Replay.RoundTrip
import HftRecorder.Session.CandleCapture
import HftRecorder.Session.Notices

/-!
# The counts of a manifest are lines on disk

A manifest declares for each channel how many rows its file has. The counters behind these numbers
belong to the session, while the candles of each timeframe go to a file of their own, and a bulk
capture empties the files it opens. So the numbers are right only in a session whose calls keep to one
file for each candle channel: `SessionOp.Conforms` says this for a call in the state it is made in.

`Stores` says what a call adds to the files and to the counters; the calls are put together from it.
`Counted` is the invariant, `Counted.step` one call and `Counted.run` a session. The arrival totals are
carried along: they never exceed the rows, so the refresh of the manifest can top them up.
-/

namespace HftRecorder.Session

open ByteLayout (Bytes)
open Decimal Json Replay Coordinator

/-! ## Lines -/

def lineCount (content : Bytes) : ℕ := content.count 10

variable {line : Bytes}

theorem lineCount_append_line (h : 10 ∉ line) (content : Bytes) :
    lineCount (content ++ line ++ [10]) = lineCount content + 1 := by
  simp [lineCount, List.count_append, List.count_eq_zero_of_not_mem h]

/-! The values of a row are rendered without a newline. -/

@[simp]
theorem newline_not_mem_decimal (n : ℕ) : (10 : UInt8) ∉ decimal n := fun h => by
  have hdigit := isDigit_of_mem_decimal h
  revert hdigit
  decide

@[simp]
theorem newline_not_mem_appendInt (z : ℤ) : (10 : UInt8) ∉ appendInt z := by
  unfold appendInt
  split <;> simp [ch]

@[simp]
theorem newline_not_mem_quote (value : Bytes) : (10 : UInt8) ∉ quote value := by
  have hbyte : ∀ n : Fin 256, (10 : UInt8) ∉ escapeByte (UInt8.ofNat n) := by decide +kernel
  have hescaped : (10 : UInt8) ∉ appendEscaped value := by
    intro h
    obtain ⟨b, -, hb⟩ := List.mem_flatMap.mp h
    have hn := hbyte ⟨b.toNat, b.toNat_lt⟩
    rw [UInt8.ofNat_toNat] at hn
    exact hn hb
  simp [quote, hescaped, ch]

@[simp]
theorem newline_ne_comma : (10 : UInt8) ≠ ch ',' := by decide

@[simp]
theorem newline_ne_open : (10 : UInt8) ≠ ch '[' := by decide

@[simp]
theorem newline_ne_close : (10 : UInt8) ≠ ch ']' := by decide

@[simp]
theorem newline_not_mem_appendArrival (arrival : EventArrival) :
    (10 : UInt8) ∉ appendArrival arrival := by
  simp [appendArrival]

theorem newline_not_mem_renderTradeJsonLine (t : TradeRow) :
    (10 : UInt8) ∉ renderTradeJsonLine t := by
  simp [renderTradeJsonLine]

theorem newline_not_mem_renderBookTickerJsonLine (b : BookTickerRow) :
    (10 : UInt8) ∉ renderBookTickerJsonLine b := by
  simp [renderBookTickerJsonLine]

theorem newline_not_mem_renderCandleJsonLine (c : CandleRow) :
    (10 : UInt8) ∉ renderCandleJsonLine c := by
  simp [renderCandleJsonLine]

theorem newline_not_mem_renderDepthTapeJsonLine (d : DepthRow) :
    (10 : UInt8) ∉ renderDepthTapeJsonLine d := by
  simp [renderDepthTapeJsonLine, appendTapeLevel]

theorem newline_not_mem_appendRuns (side : Int64) (count : ℕ) (levels : List PricePair) :
    (10 : UInt8) ∉ appendRuns side count levels := by
  have hrun : ∀ side count, (10 : UInt8) ∉ appendRun side count := by
    simp [appendRun]
  induction levels generalizing side count with
  | nil => exact hrun side count
  | cons l levels ih =>
    rw [appendRuns]
    split
    · exact ih _ _
    · simp [hrun, ih]

theorem newline_not_mem_renderDepthRleSidecarJsonLine (d : DepthRow) :
    (10 : UInt8) ∉ renderDepthRleSidecarJsonLine d := by
  have hsides : (10 : UInt8) ∉ appendSides d.levels := by
    cases d.levels with
    | nil => simp [appendSides]
    | cons front levels => exact newline_not_mem_appendRuns _ _ _
  simp [renderDepthRleSidecarJsonLine, hsides]

/-! ## Rows in files -/

/-- The rows that an arrival summary accounts for. -/
def ArrivalClockSummary.total (clock : ArrivalClockSummary) : ℕ :=
  clock.capturedRows.toNat + clock.historicalRows.toNat + clock.unavailableRows.toNat

/-- What storing rows does: `lines` are added to the files, `rows` to the counters, and `arrivals` of
them are accounted for. The names of the files stay. -/
structure Stores (lines : Bytes → ℕ) (rows : Channel → ℕ) (arrivals : ℕ) (s s' : Coordinator) :
    Prop where
  files : ∀ path, lineCount (s'.files path) = lineCount (s.files path) + lines path
  counter : ∀ channel, s'.counter channel = s.counter channel + UInt64.ofNat (rows channel)
  total : s.manifest.arrivalClock.total + arrivals < 2 ^ 64 →
    s'.manifest.arrivalClock.total = s.manifest.arrivalClock.total + arrivals
  enabled : s'.manifest.enabled = s.manifest.enabled := by rfl
  path : s'.manifest.path = s.manifest.path := by rfl
  session : s'.sessionOpen = s.sessionOpen := by rfl
  sink : s'.sinkOpen = s.sinkOpen := by rfl
  writer : s'.candlesWriter = s.candlesWriter := by rfl

theorem Stores.refl (s : Coordinator) : Stores (fun _ => 0) (fun _ => 0) 0 s s where
  files _ := rfl
  counter _ := by simp
  total _ := rfl

variable {lines : Bytes → ℕ} {rows : Channel → ℕ} {s s' : Coordinator} {arrivals : ℕ}

theorem Stores.trans {lines' : Bytes → ℕ} {rows' : Channel → ℕ} {arrivals' : ℕ} {s'' : Coordinator}
    (h : Stores lines rows arrivals s s') (h' : Stores lines' rows' arrivals' s' s'') :
    Stores (fun path => lines path + lines' path) (fun channel => rows channel + rows' channel)
      (arrivals + arrivals') s s'' where
  files path := by rw [h'.files, h.files, Nat.add_assoc]
  counter channel := by rw [h'.counter, h.counter, UInt64.ofNat_add, UInt64.add_assoc]
  total hfits := by
    have hfirst := h.total (by omega)
    rw [h'.total (by omega), hfirst, Nat.add_assoc]
  enabled := h'.enabled.trans h.enabled
  path := h'.path.trans h.path
  session := h'.session.trans h.session
  sink := h'.sink.trans h.sink
  writer := h'.writer.trans h.writer

theorem exceeds_eq_false {a b : UInt64} (h : a.toNat + b.toNat < 2 ^ 64) : exceeds a b = false := by
  have hmax : maxCount.toNat = 2 ^ 64 - 1 := by decide
  simp only [exceeds, hmax, decide_eq_false_iff_not, not_lt]
  omega

theorem toNat_saturatingAdd {a b : UInt64} (h : a.toNat + b.toNat < 2 ^ 64) :
    (saturatingAdd a b).toNat = a.toNat + b.toNat := by
  rw [saturatingAdd, exceeds_eq_false h]
  exact toNat_add_of_lt h

theorem toNat_saturatingAdd_one {a : UInt64} (h : a.toNat + 1 < 2 ^ 64) :
    (saturatingAdd a 1).toNat = a.toNat + 1 := toNat_saturatingAdd h

theorem total_noteArrival (arrival : EventArrival) (tsNs : Int64) (clock : ArrivalClockSummary)
    (h : clock.total + 1 < 2 ^ 64) : (noteArrival arrival tsNs clock).total = clock.total + 1 := by
  unfold ArrivalClockSummary.total at h ⊢
  simp only [noteArrival]
  split
  · simp only [toNat_saturatingAdd_one (show clock.capturedRows.toNat + 1 < 2 ^ 64 by omega)]
    omega
  · split
    · simp only [toNat_saturatingAdd_one (show clock.historicalRows.toNat + 1 < 2 ^ 64 by omega)]
      omega
    · simp only [toNat_saturatingAdd_one (show clock.unavailableRows.toNat + 1 < 2 ^ 64 by omega)]
      omega

/-- `n` lines in one file, none in the others. -/
def inFile (path : Bytes) (n : ℕ) (other : Bytes) : ℕ := if other = path then n else 0

/-- `n` rows of one channel. -/
def inChannel (channel : Channel) (n : ℕ) (other : Channel) : ℕ := if other = channel then n else 0

theorem stores_appendLine (h : 10 ∉ line) (path : Bytes) (s : Coordinator) :
    Stores (inFile path 1) (fun _ => 0) 0 s (s.appendLine path line) where
  files other := by
    simp only [appendLine, inFile, Function.update_apply]
    split
    · rename_i heq
      rw [heq, lineCount_append_line h]
    · rfl
  counter _ := by simp [appendLine]
  total _ := rfl

theorem stores_increment (channel : Channel) (s : Coordinator) :
    Stores (fun _ => 0) (inChannel channel 1) 0 s (s.increment channel) where
  files _ := rfl
  counter other := by
    simp only [increment, inChannel, Function.update_apply]
    split
    · rename_i heq
      rw [heq]
      rfl
    · simp
  total _ := rfl

theorem stores_updateArrival (arrival : EventArrival) (tsNs : Int64) (s : Coordinator) :
    Stores (fun _ => 0) (fun _ => 0) 1 s (s.updateArrival arrival tsNs) where
  files _ := rfl
  counter _ := by simp [updateArrival]
  total h := total_noteArrival arrival tsNs s.manifest.arrivalClock h

theorem Stores.congr {lines' : Bytes → ℕ} {rows' : Channel → ℕ} {arrivals' : ℕ}
    (h : Stores lines rows arrivals s s') (hlines : lines = lines') (hrows : rows = rows')
    (harrivals : arrivals = arrivals') : Stores lines' rows' arrivals' s s' := by
  subst hlines hrows harrivals
  exact h

theorem Stores.foldl {α : Type} {f : Coordinator → α → Coordinator}
    (hf : ∀ s a, Stores lines rows arrivals s (f s a)) (l : List α) (s : Coordinator) :
    Stores (fun path => l.length * lines path) (fun channel => l.length * rows channel)
      (l.length * arrivals) s (l.foldl f s) := by
  induction l generalizing s with
  | nil => exact (Stores.refl s).congr (by simp) (by simp) (by simp)
  | cons a l ih =>
    exact ((hf s a).trans (ih (f s a))).congr (by funext path; simp [Nat.add_mul, Nat.add_comm])
      (by funext channel; simp [Nat.add_mul, Nat.add_comm]) (by simp [Nat.add_mul, Nat.add_comm])

theorem mul_inFile (n m : ℕ) (path other : Bytes) :
    n * inFile path m other = inFile path (n * m) other := by
  unfold inFile
  split <;> simp

theorem mul_inChannel (n m : ℕ) (channel other : Channel) :
    n * inChannel channel m other = inChannel channel (n * m) other := by
  unfold inChannel
  split <;> simp

theorem stores_storeRow (h : 10 ∉ line) (channel : Channel) (path : Bytes) (arrival : EventArrival)
    (tsNs : Int64) (s : Coordinator) :
    Stores (inFile path 1) (inChannel channel 1) 1 s (s.storeRow channel path line arrival tsNs) :=
  (((stores_appendLine h path s).trans (stores_updateArrival arrival tsNs _)).trans
    (stores_increment channel _)).congr (by simp) (by simp) (by simp)

theorem stores_storeCandle (channel : Channel) (path : Bytes) (row : CandleRow) (s : Coordinator) :
    Stores (inFile path 1) (inChannel channel 1) 1 s (s.storeCandle channel path row) :=
  stores_storeRow (newline_not_mem_renderCandleJsonLine row) channel path row.arrival row.tsNs s

/-! ### Detailed candles -/

/-- The rows that the legacy channel takes for each detailed candle. -/
def legacyRows (config : CandleConfig) : ℕ := if writeLegacyCandles config.tfText then 1 else 0

/-- The lines of `n` detailed candles. -/
def detailedLines (config : CandleConfig) (n : ℕ) (path : Bytes) : ℕ :=
  inFile (detailedCandlesRelativePath config.tfText true) n path +
    inFile (detailedCandlesRelativePath config.tfText false) (n * legacyRows config) path

/-- The rows of `n` detailed candles. -/
def detailedRows (config : CandleConfig) (n : ℕ) (channel : Channel) : ℕ :=
  inChannel .candles2 n channel + inChannel .candles (n * legacyRows config) channel

theorem inFile_zero (path : Bytes) : inFile path 0 = fun _ => 0 := by
  funext other
  simp [inFile]

theorem inChannel_zero (channel : Channel) : inChannel channel 0 = fun _ => 0 := by
  funext other
  simp [inChannel]

theorem legacyRows_of_written {config : CandleConfig} {b : Bool}
    (h : writeLegacyCandles config.tfText = b) : legacyRows config = b.toNat := by
  rw [legacyRows, h]
  cases b <;> rfl

/-- A detailed candle is stored in the file of its timeframe and, where the legacy channel takes the
timeframe, in the file of that channel too. -/
theorem Stores.withLegacy {config : CandleConfig} {s₁ s₂ : Coordinator}
    (h : Stores (inFile (detailedCandlesRelativePath config.tfText true) 1) (inChannel .candles2 1)
      arrivals s s₁)
    (hlegacy : Stores (inFile (detailedCandlesRelativePath config.tfText false) 1)
      (inChannel .candles 1) arrivals s₁ s₂) :
    Stores (detailedLines config 1) (detailedRows config 1) (arrivals + arrivals * legacyRows config)
      s (if writeLegacyCandles config.tfText then s₂ else s₁) := by
  cases hwritten : writeLegacyCandles config.tfText with
  | true =>
    exact (h.trans hlegacy).congr
      (by funext path; simp [detailedLines, legacyRows_of_written hwritten])
      (by funext channel; simp [detailedRows, legacyRows_of_written hwritten])
      (by simp [legacyRows_of_written hwritten])
  | false =>
    exact h.congr
      (by funext path; simp [detailedLines, legacyRows_of_written hwritten, inFile_zero])
      (by funext channel; simp [detailedRows, legacyRows_of_written hwritten, inChannel_zero])
      (by simp [legacyRows_of_written hwritten])

theorem stores_storeDetailed (config : CandleConfig) (s : Coordinator) (candle : Ohlcv) :
    Stores (detailedLines config 1) (detailedRows config 1) (1 + legacyRows config) s
      (s.storeDetailed config candle) :=
  ((stores_storeCandle .candles2 _ _ s).withLegacy (stores_storeCandle .candles _ _ _)).congr rfl rfl
    (by rw [Nat.one_mul])

theorem stores_storeBulk (config : CandleConfig) (s : Coordinator) (candle : Ohlcv) :
    Stores (detailedLines config 1) (detailedRows config 1) 0 s (s.storeBulk config candle) := by
  have hline : ∀ (path : Bytes) (channel : Channel) (row : CandleRow) (s : Coordinator),
      Stores (inFile path 1) (inChannel channel 1) 0 s
        ((s.appendLine path (renderCandleJsonLine row)).increment channel) := fun path channel row s =>
    ((stores_appendLine (newline_not_mem_renderCandleJsonLine row) path s).trans
      (stores_increment channel _)).congr (by simp) (by simp) rfl
  exact ((hline _ .candles2 _ s).withLegacy (hline _ .candles _ _)).congr rfl rfl (by rw [Nat.zero_mul])

/-- The candles of a page, one after another. -/
theorem Stores.detailed {config : CandleConfig} {f : Coordinator → Ohlcv → Coordinator}
    (hf : ∀ s candle, Stores (detailedLines config 1) (detailedRows config 1) arrivals s (f s candle))
    (l : List Ohlcv) (s : Coordinator) :
    Stores (detailedLines config l.length) (detailedRows config l.length) (l.length * arrivals) s
      (l.foldl f s) :=
  (Stores.foldl hf l s).congr (by funext path; simp [detailedLines, Nat.mul_add, mul_inFile])
    (by funext channel; simp [detailedRows, Nat.mul_add, mul_inChannel]) rfl

/-! ## The two candle channels -/

def candleChannel (detailed : Bool) : Channel := if detailed then .candles2 else .candles

/-- The files that rows of a candle channel may go to. -/
def IsCandleFile (detailed : Bool) (path : Bytes) : Prop :=
  path = channelJsonlRelativePath (candleChannel detailed) ∨
    ∃ timeframe, path = detailedCandlesRelativePath timeframe detailed

theorem isCandleFile_detailed (timeframe : Bytes) (detailed : Bool) :
    IsCandleFile detailed (detailedCandlesRelativePath timeframe detailed) := Or.inr ⟨timeframe, rfl⟩

variable {detailed : Bool} {path : Bytes}

theorem IsCandleFile.bytes (h : IsCandleFile detailed path) :
    path[6]? = some (ch 'c') ∧ decide (path[13]? = some (ch '2')) = detailed := by
  rcases h with rfl | ⟨timeframe, rfl⟩ <;> cases detailed <;> exact ⟨rfl, rfl⟩

theorem IsCandleFile.ne_live (h : IsCandleFile detailed path) (channel : LiveChannel) :
    path ≠ channelJsonlRelativePath channel.channel := by
  rintro rfl
  have hbyte := h.bytes.1
  revert hbyte
  cases channel <;> decide

theorem IsCandleFile.ne_sidecar (h : IsCandleFile detailed path) :
    path ≠ depthSidecarRelativePath := by
  rintro rfl
  have hbyte := h.bytes.1
  revert hbyte
  decide

theorem IsCandleFile.ne_other {other : Bytes} (h : IsCandleFile detailed path)
    (hother : IsCandleFile (!detailed) other) : path ≠ other := by
  rintro rfl
  have heq := h.bytes.2.symm.trans hother.bytes.2
  cases detailed <;> cases heq

/-- The count of a candle channel is the number of lines of the file that the manifest names, once it
names one. -/
structure CandleCounted (detailed : Bool) (counter : ℕ) (enabled : Bool) (path : Bytes)
    (lines : Bytes → ℕ) : Prop where
  zero : counter = 0 → (∀ file, IsCandleFile detailed file → lines file = 0) ∧
    path = channelJsonlRelativePath (candleChannel detailed) ∧ enabled = false
  named : enabled = true → counter = lines path
  file : IsCandleFile detailed path

namespace CandleCounted

variable {detailed enabled : Bool} {counter n : ℕ} {path file : Bytes} {lines lines' : Bytes → ℕ}

theorem of_lines (h : CandleCounted detailed counter enabled path lines)
    (hlines : ∀ file, IsCandleFile detailed file → lines' file = lines file) :
    CandleCounted detailed counter enabled path lines' where
  zero hzero := ⟨fun file hfile => (hlines file hfile).trans ((h.zero hzero).1 file hfile),
    (h.zero hzero).2⟩
  named henabled := (h.named henabled).trans (hlines path h.file).symm
  file := h.file

/-- Rows at the end of a file that the manifest then names: it named it before, or the channel had no
row. -/
theorem append (h : CandleCounted detailed counter enabled path lines) (hn : n ≠ 0)
    (hfile : IsCandleFile detailed file) (hname : counter = 0 ∨ enabled = true ∧ path = file) :
    CandleCounted detailed (counter + n) true file (fun other => lines other + inFile file n other) where
  zero hzero := absurd hzero (by omega)
  named _ := by
    simp only [inFile, if_true]
    rcases hname with hzero | ⟨henabled, rfl⟩
    · rw [(h.zero hzero).1 file hfile, hzero]
    · rw [h.named henabled]
  file := hfile

theorem abandon (h : CandleCounted detailed 0 enabled path lines) (hn : n ≠ 0) :
    CandleCounted detailed n enabled path lines' where
  zero hzero := absurd hzero hn
  named henabled := by
    rw [(h.zero rfl).2.2] at henabled
    cases henabled
  file := h.file

theorem empty (file : Bytes) (h : CandleCounted detailed counter enabled path lines)
    (hlines : ∀ other, lines' other = if other = file then 0 else lines other)
    (hname : counter = 0 ∨ path ≠ file) : CandleCounted detailed counter enabled path lines' where
  zero hzero := by
    refine ⟨fun other hother => ?_, (h.zero hzero).2⟩
    rw [hlines]
    split
    · rfl
    · exact (h.zero hzero).1 other hother
  named henabled := by
    rcases hname with hzero | hne
    · rw [(h.zero hzero).2.2] at henabled
      cases henabled
    · rw [hlines, if_neg hne, h.named henabled]
  file := h.file

end CandleCounted

/-! ## The session -/

def rowTotal (counter : Channel → UInt64) : ℕ :=
  (counter .trades).toNat + (counter .bookTicker).toNat + (counter .depth).toNat +
    (counter .candles).toNat + (counter .candles2).toNat

/-- The counters of a running session and its files. -/
structure Counted (s : Coordinator) : Prop where
  running : s.Running
  live : ∀ channel : LiveChannel, (s.counter channel.channel).toNat
    = lineCount (s.files (channelJsonlRelativePath channel.channel))
  livePath : ∀ channel : LiveChannel,
    s.manifest.path channel.channel = channelJsonlRelativePath channel.channel
  candles : ∀ detailed, CandleCounted detailed (s.counter (candleChannel detailed)).toNat
    (s.manifest.enabled (candleChannel detailed)) (s.manifest.path (candleChannel detailed))
    (fun path => lineCount (s.files path))
  accounted : s.manifest.arrivalClock.total ≤ rowTotal s.counter
  fits : rowTotal s.counter < 2 ^ 64

def rowSum (rows : Channel → ℕ) : ℕ :=
  rows .trades + rows .bookTicker + rows .depth + rows .candles + rows .candles2

theorem toNat_counter (h : Stores lines rows arrivals s s')
    (hfits : rowTotal s.counter + rowSum rows < 2 ^ 64) (channel : Channel) :
    (s'.counter channel).toNat = (s.counter channel).toNat + rows channel := by
  have hbound : (s.counter channel).toNat + rows channel < 2 ^ 64 := by
    unfold rowTotal rowSum at hfits
    cases channel <;> omega
  have hrows : (UInt64.ofNat (rows channel)).toNat = rows channel :=
    UInt64.toNat_ofNat_of_lt' (show rows channel < 2 ^ 64 by omega)
  rw [h.counter, toNat_add_of_lt (by omega), hrows]

theorem rowTotal_stores (h : Stores lines rows arrivals s s')
    (hfits : rowTotal s.counter + rowSum rows < 2 ^ 64) :
    rowTotal s'.counter = rowTotal s.counter + rowSum rows := by
  have hcounter := toNat_counter h hfits
  unfold rowTotal rowSum
  rw [hcounter, hcounter, hcounter, hcounter, hcounter]
  omega

/-- Rows are stored, and then the manifest may name other candle files. -/
theorem Counted.of_stores {s₁ : Coordinator} (hs : Counted s)
    (hstores : Stores lines rows arrivals s s₁) (hfits : rowTotal s.counter + rowSum rows < 2 ^ 64)
    (hlive : ∀ channel : LiveChannel,
      rows channel.channel = lines (channelJsonlRelativePath channel.channel))
    (hsession : s'.sessionOpen = s₁.sessionOpen) (hsink : s'.sinkOpen = s₁.sinkOpen)
    (hfiles : s'.files = s₁.files) (hcounter : s'.counter = s₁.counter)
    (hpath : ∀ channel : LiveChannel,
      s'.manifest.path channel.channel = s.manifest.path channel.channel)
    (htotal : s'.manifest.arrivalClock.total ≤ rowTotal s.counter + rowSum rows)
    (hcandles : ∀ detailed, CandleCounted detailed
      ((s.counter (candleChannel detailed)).toNat + rows (candleChannel detailed))
      (s'.manifest.enabled (candleChannel detailed)) (s'.manifest.path (candleChannel detailed))
      (fun path => lineCount (s.files path) + lines path)) : Counted s' where
  running := ⟨(hsession.trans hstores.session).trans hs.running.session,
    (hsink.trans hstores.sink).trans hs.running.sink⟩
  live channel := by
    rw [hcounter, hfiles, toNat_counter hstores hfits, hstores.files, hs.live, hlive]
  livePath channel := by rw [hpath, hs.livePath]
  candles detailed := by
    rw [hcounter, hfiles, toNat_counter hstores hfits]
    exact (hcandles detailed).of_lines fun file _ => hstores.files file
  accounted := by rwa [hcounter, rowTotal_stores hstores hfits]
  fits := by rwa [hcounter, rowTotal_stores hstores hfits]

/-- What a call stores in the files and counters of the live channels, and nowhere else. -/
structure StoresLive (s s' : Coordinator) (lines : Bytes → ℕ) (rows : Channel → ℕ) : Prop where
  stores : Stores lines rows (rowSum rows) s s'
  live : ∀ channel : LiveChannel,
    rows channel.channel = lines (channelJsonlRelativePath channel.channel)
  no_candle_lines : ∀ detailed file, IsCandleFile detailed file → lines file = 0
  no_candles : ∀ detailed, rows (candleChannel detailed) = 0

theorem StoresLive.counted (h : StoresLive s s' lines rows) (hs : Counted s)
    (hfits : rowTotal s.counter + rowSum rows < 2 ^ 64) : Counted s' := by
  have hle := hs.accounted
  refine hs.of_stores h.stores hfits h.live rfl rfl rfl rfl (fun channel => by rw [h.stores.path])
    ?_ fun detailed => ?_
  · rw [h.stores.total (by omega)]
    omega
  · rw [h.no_candles, Nat.add_zero, h.stores.enabled, h.stores.path]
    refine (hs.candles detailed).of_lines fun file hfile => ?_
    rw [h.no_candle_lines detailed file hfile, Nat.add_zero]

theorem storesLive_none (h : Stores (fun _ => 0) (fun _ => 0) 0 s s') :
    StoresLive s s' (fun _ => 0) (fun _ => 0) where
  stores := h
  live _ := rfl
  no_candle_lines _ _ _ := rfl
  no_candles _ := rfl

theorem channelJsonlRelativePath_inj {channel other : LiveChannel}
    (h : channelJsonlRelativePath channel.channel = channelJsonlRelativePath other.channel) :
    channel = other := by
  revert h
  cases channel <;> cases other <;> decide

theorem liveChannel_ne_candle (channel : LiveChannel) (detailed : Bool) :
    candleChannel detailed ≠ channel.channel := by
  cases channel <;> cases detailed <;> decide

theorem rowSum_inChannel (channel : Channel) (n : ℕ) : rowSum (inChannel channel n) = n := by
  cases channel <;> simp [rowSum, inChannel]

theorem storesLive_rows (channel : LiveChannel) (n m : ℕ)
    (h : Stores (fun path => inFile (channelJsonlRelativePath channel.channel) n path +
      inFile depthSidecarRelativePath m path) (inChannel channel.channel n) n s s') :
    StoresLive s s' (fun path => inFile (channelJsonlRelativePath channel.channel) n path +
      inFile depthSidecarRelativePath m path) (inChannel channel.channel n) where
  stores := h.congr rfl rfl (rowSum_inChannel channel.channel n).symm
  live other := by
    have hsidecar : inFile depthSidecarRelativePath m (channelJsonlRelativePath other.channel) = 0 := by
      rw [inFile, if_neg]
      cases other <;> decide
    rw [hsidecar, Nat.add_zero, inChannel, inFile]
    by_cases heq : other = channel
    · rw [heq, if_pos rfl, if_pos rfl]
    · rw [if_neg, if_neg fun h => heq (channelJsonlRelativePath_inj h)]
      exact fun h => heq (by revert h; cases other <;> cases channel <;> decide)
  no_candle_lines detailed file hfile := by
    simp [inFile, hfile.ne_live channel, hfile.ne_sidecar]
  no_candles detailed := by
    rw [inChannel, if_neg (liveChannel_ne_candle channel detailed)]

/-! ### Rows and notices of the capture -/

theorem stores_updateHealth (channel : LiveChannel)
    (f : ChannelRuntimeHealth → ChannelRuntimeHealth) (s : Coordinator) :
    Stores (fun _ => 0) (fun _ => 0) 0 s (s.updateHealth channel f) where
  files _ := rfl
  counter _ := by simp [updateHealth]
  total _ := rfl

theorem stores_noteChannel (channel : Bytes) (f : ChannelRuntimeHealth → ChannelRuntimeHealth)
    (s : Coordinator) : Stores (fun _ => 0) (fun _ => 0) 0 s (s.noteChannel channel f) := by
  unfold noteChannel
  cases runtimeHealthForChannel channel with
  | none => exact Stores.refl s
  | some live => exact stores_updateHealth live f s

theorem stores_terminal (error : Bytes) (s : Coordinator) :
    Stores (fun _ => 0) (fun _ => 0) 0 s (s.noteExternalCaptureTerminal error) where
  files _ := rfl
  counter _ := by simp [noteExternalCaptureTerminal]
  total _ := rfl

theorem stores_accountExternalAppend (arrival : EventArrival) (written : List (Bytes × Bytes))
    (hlines : Stores lines (fun _ => 0) 0 s
      (written.foldl (fun s line => s.appendLine line.1 line.2) s)) (channel : LiveChannel)
    (tsNs : Int64) :
    ∃ n ≤ 1, Stores (fun path => n * lines path) (inChannel channel.channel n) n s
      ((s.withLines arrival written).accountExternalAppend
        (ExternalOp.status.rowStatus arrival) channel tsNs arrival).2 := by
  unfold withLines accountExternalAppend ExternalOp.status.rowStatus
  cases hasCapturedApplicationArrival arrival with
  | true =>
    refine ⟨1, le_rfl, ?_⟩
    exact (((hlines.trans (stores_increment channel.channel _)).trans
      (stores_updateHealth channel _ _)).trans (stores_updateArrival arrival tsNs _)).congr
      (by funext path; simp) (by funext other; simp) rfl
  | false =>
    refine ⟨0, Nat.zero_le 1, ?_⟩
    exact (stores_updateHealth channel _ s).congr (by simp) (by rw [inChannel_zero]) rfl

/-- Every operation of the capture but a refresh stores at most one row. -/
theorem ExternalOp.storesLive (op : ExternalOp) (hs : s.Running) :
    op = .refreshManifest ∨
      ∃ lines rows, StoresLive s (op.apply s).2 lines rows ∧ rowSum rows ≤ 1 := by
  -- One line in the file of a channel.
  have hone : ∀ (channel : LiveChannel) (arrival : EventArrival) (line : Bytes) (tsNs : Int64),
      10 ∉ line → ∃ lines rows, StoresLive s
        ((s.withLines arrival [(channelJsonlRelativePath channel.channel, line)]).accountExternalAppend
          (status.rowStatus arrival) channel tsNs arrival).2 lines rows ∧ rowSum rows ≤ 1 := by
    intro channel arrival line tsNs hline
    obtain ⟨n, hn, hstores⟩ := stores_accountExternalAppend arrival
      [(channelJsonlRelativePath channel.channel, line)] (stores_appendLine hline _ s) channel tsNs
    refine ⟨_, _, storesLive_rows channel n 0 (hstores.congr ?_ rfl rfl), ?_⟩
    · funext path
      simp [mul_inFile, inFile_zero]
    · rwa [rowSum_inChannel]
  cases op with
  | appendTrade row =>
    rw [apply, appendExternalTrade_running hs]
    exact Or.inr (hone .trades _ _ _ (newline_not_mem_renderTradeJsonLine row))
  | appendBookTicker row =>
    rw [apply, appendExternalBookTicker_running hs]
    exact Or.inr (hone .bookTicker _ _ _ (newline_not_mem_renderBookTickerJsonLine row))
  | appendDepth row =>
    rw [apply, appendExternalDepth_running hs]
    obtain ⟨n, hn, hstores⟩ := stores_accountExternalAppend row.arrival
      [(channelJsonlRelativePath .depth, renderDepthTapeJsonLine row),
        (depthSidecarRelativePath, renderDepthRleSidecarJsonLine row)]
      ((stores_appendLine (newline_not_mem_renderDepthTapeJsonLine row) _ s).trans
        (stores_appendLine (newline_not_mem_renderDepthRleSidecarJsonLine row) _ _)) .depth row.tsNs
    refine Or.inr ⟨_, _, storesLive_rows .depth n n (hstores.congr ?_ rfl rfl), ?_⟩
    · funext path
      simp [Nat.mul_add, mul_inFile, LiveChannel.channel]
    · rwa [rowSum_inChannel]
  | captureLoss channel | channelError channel | unsupportedChannel channel | unroutableEvent channel
  | channelConnection channel =>
    exact Or.inr ⟨_, _, storesLive_none (stores_noteChannel channel _ s), Nat.zero_le 1⟩
  | captureTerminal error =>
    exact Or.inr ⟨_, _, storesLive_none (stores_terminal error s), Nat.zero_le 1⟩
  | refreshManifest => exact Or.inl rfl

/-! ### The refresh of the manifest -/

theorem toNat_foldl_saturatingAdd (l : List UInt64) (total : UInt64)
    (h : total.toNat + (l.map UInt64.toNat).sum < 2 ^ 64) :
    (l.foldl saturatingAdd total).toNat = total.toNat + (l.map UInt64.toNat).sum := by
  induction l generalizing total with
  | nil => rfl
  | cons a l ih =>
    rw [List.map_cons, List.sum_cons] at h ⊢
    have hsum := toNat_saturatingAdd (show total.toNat + a.toNat < 2 ^ 64 by omega)
    rw [List.foldl_cons, ih _ (by omega), hsum, Nat.add_assoc]

theorem toNat_canonicalRowCount {m : Manifest} (h : rowTotal m.count < 2 ^ 64) :
    (canonicalRowCount m).toNat = rowTotal m.count := by
  have hsum := toNat_foldl_saturatingAdd ([Channel.trades, .bookTicker, .depth, .candles,
    .candles2].map m.count) 0
  rw [List.foldl_map] at hsum
  simp only [List.map_cons, List.map_nil, List.sum_cons, List.sum_nil, UInt64.toNat_zero] at hsum
  unfold rowTotal at h ⊢
  rw [canonicalRowCount, hsum (by omega)]
  omega

theorem arrivalAccountedRowCount_eq {clock : ArrivalClockSummary} (h : clock.total < 2 ^ 64) :
    ∃ total, arrivalAccountedRowCount clock = some total ∧ total.toNat = clock.total := by
  unfold ArrivalClockSummary.total at h ⊢
  have hknown : clock.capturedRows.toNat + clock.historicalRows.toNat < 2 ^ 64 := by omega
  have hsum := toNat_add_of_lt hknown
  have hall : (clock.capturedRows + clock.historicalRows).toNat + clock.unavailableRows.toNat
      < 2 ^ 64 := by omega
  refine ⟨clock.capturedRows + clock.historicalRows + clock.unavailableRows, ?_, ?_⟩
  · simp [arrivalAccountedRowCount, exceeds_eq_false hknown, exceeds_eq_false hall]
  · rw [toNat_add_of_lt hall, hsum]

theorem accountUnavailable_total {m : Manifest} (hfits : rowTotal m.count < 2 ^ 64)
    (hle : m.arrivalClock.total ≤ rowTotal m.count) :
    (accountUnavailable m).arrivalClock.total = rowTotal m.count := by
  obtain ⟨total, htotal, hnat⟩ :=
    arrivalAccountedRowCount_eq (show m.arrivalClock.total < 2 ^ 64 by omega)
  have hcanonical := toNat_canonicalRowCount hfits
  simp only [accountUnavailable, htotal]
  split
  · rename_i hlt
    rw [UInt64.lt_iff_toNat_lt] at hlt
    have hmissing : (canonicalRowCount m - total).toNat = rowTotal m.count - m.arrivalClock.total := by
      rw [UInt64.toNat_sub_of_le _ _ (UInt64.le_iff_toNat_le.mpr hlt.le), hcanonical, hnat]
    simp only [ArrivalClockSummary.total] at hle hmissing ⊢
    rw [toNat_add_of_lt (by omega), hmissing]
    omega
  · rename_i hlt
    rw [UInt64.lt_iff_toNat_lt] at hlt
    omega

theorem accountUnavailable_names (m : Manifest) :
    (accountUnavailable m).enabled = m.enabled ∧
    (accountUnavailable m).path = m.path ∧
    (accountUnavailable m).count = m.count := by
  unfold accountUnavailable
  cases arrivalAccountedRowCount m.arrivalClock with
  | none => exact ⟨rfl, rfl, rfl⟩
  | some accounted =>
    dsimp only
    split <;> exact ⟨rfl, rfl, rfl⟩

/-- A call that leaves the files, the counters and the names of the candle files alone. -/
theorem Counted.of_same (hs : Counted s) (hrunning : s'.Running) (hfiles : s'.files = s.files)
    (hcounter : s'.counter = s.counter) (hpath : s'.manifest.path = s.manifest.path)
    (henabled : ∀ detailed, s'.manifest.enabled (candleChannel detailed)
      = s.manifest.enabled (candleChannel detailed))
    (htotal : s'.manifest.arrivalClock.total ≤ rowTotal s.counter) : Counted s' where
  running := hrunning
  live channel := by rw [hcounter, hfiles, hs.live]
  livePath channel := by rw [hpath, hs.livePath]
  candles detailed := by
    rw [hcounter, hfiles, hpath, henabled]
    exact hs.candles detailed
  accounted := by rwa [hcounter]
  fits := by
    rw [hcounter]
    exact hs.fits

theorem Counted.refresh (hs : Counted s) : Counted s.refreshRecordingManifestLocked := by
  obtain ⟨henabled, hpath, -⟩ := accountUnavailable_names { s.manifest with
    sessionStatus :=
      if s.manifest.sessionStatus ≠ .incomplete then .recording else s.manifest.sessionStatus
    count := s.counter }
  refine hs.of_same ⟨hs.running.session, hs.running.sink⟩ rfl rfl hpath
    (fun detailed => congrFun henabled _) ?_
  exact (accountUnavailable_total hs.fits hs.accounted).le

theorem Counted.writeManifestFile (hs : Counted s) : Counted (s.writeManifestFile true).2 := by
  have hwritten : (s.writeManifestFile true).2 = { s with manifestFile := some s.manifest } := by
    simp [Coordinator.writeManifestFile, hs.running.session]
  rw [hwritten]
  exact { hs with running := ⟨hs.running.session, hs.running.sink⟩ }

/-! ### Calls that store candles -/

/-- The rows that `n` detailed candles give a candle channel. -/
def rowsIn (config : CandleConfig) (n : ℕ) (detailed : Bool) : ℕ :=
  if detailed then n else n * legacyRows config

theorem detailedRows_candle (config : CandleConfig) (n : ℕ) (detailed : Bool) :
    detailedRows config n (candleChannel detailed) = rowsIn config n detailed := by
  cases detailed <;> simp [detailedRows, inChannel, candleChannel, rowsIn]

theorem detailedLines_candle (config : CandleConfig) (n : ℕ) {file : Bytes}
    (hfile : IsCandleFile detailed file) : detailedLines config n file
      = inFile (detailedCandlesRelativePath config.tfText detailed) (rowsIn config n detailed) file := by
  have hother := hfile.ne_other (isCandleFile_detailed config.tfText (!detailed))
  cases detailed <;> simp_all [detailedLines, rowsIn, inFile]

theorem detailedLines_live (config : CandleConfig) (n : ℕ) (channel : LiveChannel) :
    detailedRows config n channel.channel
      = detailedLines config n (channelJsonlRelativePath channel.channel) := by
  have h2 := (isCandleFile_detailed config.tfText true).ne_live channel
  have h1 := (isCandleFile_detailed config.tfText false).ne_live channel
  rw [detailedLines, inFile, inFile, if_neg h2.symm, if_neg h1.symm]
  cases channel <;> rfl

theorem rowSum_detailedRows (config : CandleConfig) (n : ℕ) :
    rowSum (detailedRows config n) = n * (1 + legacyRows config) := by
  simp [rowSum, detailedRows, inChannel, Nat.mul_add, Nat.add_comm]

variable {n : ℕ}

/-- The manifest's names after a detailed capture: the channels that got rows are enabled with the
file of the timeframe, the others keep what they had. -/
theorem nameDetailed_names (config : CandleConfig) (s : Coordinator) (hn : n ≠ 0)
    (detailed : Bool) :
    ((s.nameDetailed config).manifest.enabled (candleChannel detailed)
      = if rowsIn config n detailed = 0 then s.manifest.enabled (candleChannel detailed) else true) ∧
    ((s.nameDetailed config).manifest.path (candleChannel detailed)
      = if rowsIn config n detailed = 0 then s.manifest.path (candleChannel detailed)
        else detailedCandlesRelativePath config.tfText detailed) := by
  cases hlegacy : writeLegacyCandles config.tfText <;> cases detailed <;>
    simp [nameDetailed, nameFile, hlegacy, rowsIn, legacyRows, hn, candleChannel]

theorem nameDetailed_live (config : CandleConfig) (s : Coordinator) (channel : LiveChannel) :
    (s.nameDetailed config).manifest.path channel.channel = s.manifest.path channel.channel := by
  cases hlegacy : writeLegacyCandles config.tfText <;> cases channel <;>
    simp [nameDetailed, nameFile, hlegacy, LiveChannel.channel]

theorem nameDetailed_frame (config : CandleConfig) (s : Coordinator) :
    (s.nameDetailed config).files = s.files ∧ (s.nameDetailed config).counter = s.counter ∧
    (s.nameDetailed config).sessionOpen = s.sessionOpen ∧
    (s.nameDetailed config).sinkOpen = s.sinkOpen ∧
    (s.nameDetailed config).manifest.arrivalClock = s.manifest.arrivalClock := by
  unfold nameDetailed nameFile
  dsimp only
  split <;> exact ⟨rfl, rfl, rfl, rfl, rfl⟩

/-- A candle channel can take the rows of a timeframe. -/
def CandleReady (config : CandleConfig) (n : ℕ) (s : Coordinator) (detailed : Bool) : Prop :=
  rowsIn config n detailed = 0 ∨ s.counter (candleChannel detailed) = 0 ∨
    s.manifest.enabled (candleChannel detailed) = true ∧
      s.manifest.path (candleChannel detailed) = detailedCandlesRelativePath config.tfText detailed

theorem no_lines_of_rowsIn {config : CandleConfig} {files : Bytes → ℕ}
    (h : rowsIn config n detailed = 0) (file : Bytes) (hfile : IsCandleFile detailed file) :
    files file + detailedLines config n file = files file := by
  rw [detailedLines_candle config n hfile, h, inFile_zero, Nat.add_zero]

/-- Detailed candles whose files the manifest names in the end. -/
theorem Counted.detailed_named {s₁ : Coordinator} (hs : Counted s) (config : CandleConfig)
    (hn : n ≠ 0) (hstores : Stores (detailedLines config n) (detailedRows config n) arrivals s s₁)
    (hfits : rowTotal s.counter + rowSum (detailedRows config n) < 2 ^ 64)
    (hready : ∀ detailed, CandleReady config n s detailed)
    (hsession : s'.sessionOpen = s₁.sessionOpen) (hsink : s'.sinkOpen = s₁.sinkOpen)
    (hfiles : s'.files = s₁.files) (hcounter : s'.counter = s₁.counter)
    (henabled : s'.manifest.enabled = (s₁.nameDetailed config).manifest.enabled)
    (hpath : s'.manifest.path = (s₁.nameDetailed config).manifest.path)
    (htotal : s'.manifest.arrivalClock.total ≤ rowTotal s.counter + rowSum (detailedRows config n)) :
    Counted s' := by
  refine hs.of_stores hstores hfits (detailedLines_live config n) hsession hsink hfiles hcounter
    (fun channel => by rw [hpath, nameDetailed_live, hstores.path]) htotal fun detailed => ?_
  obtain ⟨hen, hpa⟩ := nameDetailed_names config s₁ hn detailed
  rw [henabled, hpath, hen, hpa, detailedRows_candle, hstores.enabled, hstores.path]
  by_cases hzero : rowsIn config n detailed = 0
  · rw [if_pos hzero, if_pos hzero, hzero, Nat.add_zero]
    exact (hs.candles detailed).of_lines (no_lines_of_rowsIn hzero)
  · rw [if_neg hzero, if_neg hzero]
    refine ((hs.candles detailed).append hzero (isCandleFile_detailed config.tfText detailed)
      ?_).of_lines fun file hfile => ?_
    · rcases hready detailed with h | h | h
      · exact absurd h hzero
      · exact Or.inl (by rw [h]; rfl)
      · exact Or.inr h
    · rw [detailedLines_candle config n hfile]

theorem Counted.detailed_abandoned (hs : Counted s) (config : CandleConfig)
    (hstores : Stores (detailedLines config n) (detailedRows config n) 0 s s')
    (hfits : rowTotal s.counter + rowSum (detailedRows config n) < 2 ^ 64)
    (hready : ∀ detailed, rowsIn config n detailed = 0 ∨ s.counter (candleChannel detailed) = 0) :
    Counted s' := by
  have hle := hs.accounted
  refine hs.of_stores hstores hfits (detailedLines_live config n) rfl rfl rfl rfl
    (fun channel => by rw [hstores.path]) (by rw [hstores.total (by omega)]; omega)
    fun detailed => ?_
  rw [detailedRows_candle, hstores.enabled, hstores.path]
  by_cases hzero : rowsIn config n detailed = 0
  · rw [hzero, Nat.add_zero]
    exact (hs.candles detailed).of_lines (no_lines_of_rowsIn hzero)
  · have hcounter := (hready detailed).resolve_left hzero
    have hcandles := hs.candles detailed
    rw [hcounter] at hcandles ⊢
    rw [UInt64.toNat_zero, Nat.zero_add]
    exact hcandles.abandon hzero

/-! ## Runs -/

/-- A call of the session with what the venue answers. The file writes succeed. -/
inductive SessionOp
  | external (op : ExternalOp)
  | start (accepted : Bool) (channels requestedChannels : LiveChannel → Bool)
  | candlesOnce (config : CandleConfig) (history : Option TieredCandleHistory)
  | detailedOnce (accepted : Bool) (config : CandleConfig) (fetched : Option (List Ohlcv))
      (persisted : Bool)
  | detailedBulk (accepted : Bool) (config : CandleConfig) (pages : List (List Ohlcv))
      (fetched persisted : Bool)
  | tradesHistory (accepted : Bool) (rows : List TradeRow) (fetched persisted : Bool)

namespace SessionOp

def apply : SessionOp → Coordinator → Coordinator
  | external op, s => (op.apply s).2
  | start accepted channels requestedChannels, s =>
    (s.startExternalCapture accepted true true channels requestedChannels).2
  | candlesOnce config history, s => (s.captureCandlesOnce config history).2
  | detailedOnce accepted config fetched persisted, s =>
    (s.captureDetailedCandlesOnce accepted config fetched persisted).2
  | detailedBulk accepted config pages fetched persisted, s =>
    (s.captureDetailedCandlesBulk accepted config pages fetched persisted).2
  | tradesHistory accepted rows fetched persisted, s =>
    (s.captureTradesHistoryOnce accepted rows fetched persisted).2

def size : SessionOp → ℕ
  | external _ => 1
  | start .. => 0
  | candlesOnce _ none => 0
  | candlesOnce config (some history) => (allTierRows config history).length
  | detailedOnce _ _ none _ => 0
  | detailedOnce _ config (some rows) _ => rowSum (detailedRows config (storedCandles rows).length)
  | detailedBulk _ config pages _ _ =>
    rowSum (detailedRows config (pages.flatMap storedCandles).length)
  | tradesHistory _ rows _ _ => (historyTrades rows).length

/-- The condition on the candle files of a call that gets as far as to its files.
`captureCandlesOnce` finds no writer on the file of a timeframe; rows of a detailed capture go to the
file that holds all earlier rows of their channel; a bulk capture empties no file that the manifest
names and adds to no channel that has rows. -/
def FilesFit : SessionOp → Coordinator → Prop
  | candlesOnce config (some history), s =>
    textEqualsAscii config.exchange (text "finam") = true → config.routed = true →
    s.counter .candles = 0 → allTierRows config history ≠ [] →
      s.candlesWriter.getD (channelJsonlRelativePath .candles) = channelJsonlRelativePath .candles
  | detailedOnce accepted config (some rows) persisted, s =>
    textEqualsAscii config.exchange (text "finam") = true → accepted = true → persisted = true →
    ∀ detailed, CandleReady config (storedCandles rows).length s detailed
  | detailedBulk accepted config pages _ _, s =>
    textEqualsAscii config.exchange (text "finam") = true → accepted = true → config.routed = true →
    ∀ detailed, (detailed || writeLegacyCandles config.tfText) = true →
      s.counter (candleChannel detailed) = 0 ∨
        pages.flatMap storedCandles = [] ∧
          s.manifest.path (candleChannel detailed)
            ≠ detailedCandlesRelativePath config.tfText detailed
  | _, _ => True

/-- The condition on a call in the state it is made in. -/
def Conforms (op : SessionOp) (s : Coordinator) : Prop :=
  rowTotal s.counter + op.size < 2 ^ 64 ∧ op.FilesFit s

end SessionOp

def afterCalls (ops : List SessionOp) (s : Coordinator) : Coordinator :=
  ops.foldl (fun s op => op.apply s) s

/-- Every call meets the condition in the state it is made in. -/
def AllConform : List SessionOp → Coordinator → Prop
  | [], _ => True
  | op :: ops, s => op.Conforms s ∧ AllConform ops (op.apply s)

theorem Counted.external (hs : Counted s) (op : ExternalOp)
    (hfits : rowTotal s.counter + 1 < 2 ^ 64) : Counted (op.apply s).2 := by
  rcases op.storesLive hs.running with rfl | ⟨lines, rows, hstores, hrows⟩
  · have hrefresh : s.refreshExternalManifest true
        = s.refreshRecordingManifestLocked.writeManifestFile true := by
      simp [refreshExternalManifest, hs.running.session]
    rw [ExternalOp.apply, hrefresh]
    exact hs.refresh.writeManifestFile
  · exact hstores.counted hs (by omega)

theorem ensureSession_running (hs : s.Running) (accepted : Bool) :
    s.ensureSession accepted = (if accepted then .ok else .invalidArgument, s) := by
  cases accepted <;> simp [ensureSession, hs.session]

theorem Counted.start (hs : Counted s) (accepted : Bool)
    (channels requestedChannels : LiveChannel → Bool) :
    Counted (s.startExternalCapture accepted true true channels requestedChannels).2 := by
  unfold startExternalCapture
  rw [ensureSession_running hs.running]
  cases accepted with
  | false => exact hs
  | true =>
    have henable : Counted { s with
        manifest := enableChannels channels requestedChannels s.manifest } :=
      hs.of_same ⟨hs.running.session, hs.running.sink⟩ rfl rfl rfl
        (fun detailed => by cases detailed <;> simp [enableChannels, candleChannel])
        hs.accounted
    exact henable.refresh.writeManifestFile

theorem Counted.setCount (hs : Counted s) (count : Channel → UInt64) :
    Counted { s with manifest := { s.manifest with count := count } } :=
  { hs with running := ⟨hs.running.session, hs.running.sink⟩ }

theorem Counted.tradesHistory (hs : Counted s) (accepted : Bool) (rows : List TradeRow)
    (fetched persisted : Bool) (hfits : rowTotal s.counter + (historyTrades rows).length < 2 ^ 64) :
    Counted (s.captureTradesHistoryOnce accepted rows fetched persisted).2 := by
  unfold captureTradesHistoryOnce
  rw [ensureSession_running hs.running]
  cases accepted with
  | false => exact hs
  | true =>
    have henable : Counted { s with manifest := { s.manifest with
        enabled := Function.update s.manifest.enabled .trades true } } :=
      hs.of_same ⟨hs.running.session, hs.running.sink⟩ rfl rfl rfl
        (fun detailed => by cases detailed <;> simp [candleChannel]) hs.accounted
    have hstores := Stores.foldl (fun (s : Coordinator) (row : TradeRow) =>
      stores_storeRow (newline_not_mem_renderTradeJsonLine row) .trades
        (channelJsonlRelativePath .trades) row.arrival row.tsNs s) (historyTrades rows)
      { s with manifest := { s.manifest with
          enabled := Function.update s.manifest.enabled .trades true } }
    have hlive := storesLive_rows .trades (historyTrades rows).length 0 (hstores.congr
      (by funext path; simp [mul_inFile, inFile_zero, LiveChannel.channel])
      (by funext channel; simp [mul_inChannel, LiveChannel.channel]) (by simp))
    have hstored := hlive.counted henable (by rwa [rowSum_inChannel])
    dsimp only
    simp only [if_true, ne_eq, not_true_eq_false, if_false]
    split <;> exact (hstored.setCount _).writeManifestFile

theorem counted_openCandleFiles (hs : Counted s) (config : CandleConfig) :
    Counted (s.openCandleFiles config) :=
  { hs with running := ⟨hs.running.session, hs.running.sink⟩ }

/-- The first rows of the legacy channel, in its default file. -/
theorem Counted.tiers {s₁ : Coordinator} (hs : Counted s) (hn : n ≠ 0)
    (hstores : Stores (inFile (channelJsonlRelativePath .candles) n) (inChannel .candles (n * 1)) n s s₁)
    (hfits : rowTotal s.counter + n < 2 ^ 64) (hcounter : s.counter .candles = 0) :
    Counted (if s₁.counter .candles ≠ 0 then
      (Status.ok, { s₁ with manifest := { s₁.manifest with
        enabled := Function.update s₁.manifest.enabled .candles true } })
      else (Status.ok, s₁)).2 := by
  rw [Nat.mul_one] at hstores
  have hfits' : rowTotal s.counter + rowSum (inChannel .candles n) < 2 ^ 64 := by
    rwa [rowSum_inChannel]
  have hfile : IsCandleFile false (channelJsonlRelativePath .candles) := Or.inl rfl
  have hcount := toNat_counter hstores hfits' .candles
  have hstored : s₁.counter .candles ≠ 0 := by
    intro hzero
    simp only [hzero, hcounter, inChannel, if_true, UInt64.toNat_zero] at hcount
    omega
  rw [if_pos hstored]
  have hle := hs.accounted
  refine hs.of_stores hstores hfits' ?_ rfl rfl rfl rfl (fun channel => by rw [hstores.path]) ?_ ?_
  · intro channel
    rw [inFile, if_neg (hfile.ne_live channel).symm]
    cases channel <;> rfl
  · rw [rowSum_inChannel]
    dsimp only
    rw [hstores.total (by omega)]
    omega
  · intro detailed
    have hcandles := hs.candles detailed
    dsimp only
    rw [hstores.path, hstores.enabled]
    cases detailed with
    | false =>
      have hzero : (s.counter (candleChannel false)).toNat = 0 := by
        rw [show candleChannel false = .candles from rfl, hcounter]
        rfl
      have hdefault := (hcandles.zero hzero).2.1
      rw [hdefault]
      exact hcandles.append hn hfile (Or.inl hzero)
    | true =>
      rw [inChannel, if_neg (by decide), Nat.add_zero, Function.update_of_ne (by decide)]
      refine hcandles.of_lines fun file hother => ?_
      rw [inFile, if_neg (hother.ne_other hfile), Nat.add_zero]

theorem Counted.candlesOnce (hs : Counted s) (config : CandleConfig)
    (history : Option TieredCandleHistory) (h : (SessionOp.candlesOnce config history).Conforms s) :
    Counted (s.captureCandlesOnce config history).2 := by
  unfold captureCandlesOnce
  split
  · exact hs
  rename_i hfinam
  split
  · exact hs
  rename_i hrouted
  split
  · exact hs
  rename_i hcounter
  rw [not_not] at hcounter
  simp only [Bool.not_eq_true, Bool.not_eq_false', Bool.or_eq_false_iff] at hfinam hrouted
  cases history with
  | none => exact hs
  | some history =>
    obtain ⟨hfits, hwriter⟩ := h
    simp only [SessionOp.size, SessionOp.FilesFit, hfinam, hrouted.1, forall_const] at hfits hwriter
    dsimp only
    generalize s.candlesWriter.getD (channelJsonlRelativePath .candles) = path at hwriter
    have hopen : Counted { s with candlesWriter := some path } :=
      { hs with running := ⟨hs.running.session, hs.running.sink⟩ }
    by_cases hrows : allTierRows config history = []
    · rw [storeTiers, hrows, List.foldl_nil, if_neg (not_not.mpr hcounter)]
      exact hopen
    · obtain rfl := hwriter hcounter hrows
      have hn : (allTierRows config history).length ≠ 0 := by
        rwa [ne_eq, List.length_eq_zero_iff]
      have hstores := (Stores.foldl (fun (s : Coordinator) (row : CandleRow) =>
        stores_storeCandle .candles (channelJsonlRelativePath .candles) row s)
        (allTierRows config history) { s with
          candlesWriter := some (channelJsonlRelativePath .candles) }).congr
        (by funext path; rw [mul_inFile, Nat.mul_one]) (by funext channel; rw [mul_inChannel])
        (Nat.mul_one _)
      exact hopen.tiers hn hstores hfits hcounter

theorem Counted.detailedOnce (hs : Counted s) (accepted : Bool) (config : CandleConfig)
    (fetched : Option (List Ohlcv)) (persisted : Bool)
    (h : (SessionOp.detailedOnce accepted config fetched persisted).Conforms s) :
    Counted (s.captureDetailedCandlesOnce accepted config fetched persisted).2 := by
  unfold captureDetailedCandlesOnce
  rw [ensureSession_running hs.running]
  split
  · exact hs
  rename_i hfinam
  simp only [Bool.not_eq_true, Bool.not_eq_false'] at hfinam
  cases accepted with
  | false => exact hs
  | true =>
    cases fetched with
    | none => exact hs
    | some rows =>
      cases persisted with
      | false => exact hs
      | true =>
        obtain ⟨hfits, hready⟩ := h
        simp only [SessionOp.size, SessionOp.FilesFit, hfinam, forall_const] at hfits hready
        have hopen := counted_openCandleFiles hs config
        have hstores := Stores.detailed (stores_storeDetailed config) (storedCandles rows)
          (s.openCandleFiles config)
        have hle := hs.accounted
        dsimp only
        simp only [if_true, ne_eq, not_true_eq_false, if_false, Bool.not_true, Bool.false_eq_true]
        by_cases hrows : storedCandles rows = []
        · rw [if_pos hrows, hrows, List.foldl_nil]
          exact hopen
        · rw [if_neg hrows]
          have hn : (storedCandles rows).length ≠ 0 := by rwa [ne_eq, List.length_eq_zero_iff]
          obtain ⟨hfiles, hcounter, hsession, hsink, hclock⟩ := nameDetailed_frame config
            ((storedCandles rows).foldl (storeDetailed config) (s.openCandleFiles config))
          refine Counted.writeManifestFile (hopen.detailed_named config hn hstores hfits hready
            hsession hsink hfiles hcounter rfl rfl ?_)
          have htotal : (s.openCandleFiles config).manifest.arrivalClock.total
              ≤ rowTotal (s.openCandleFiles config).counter := hle
          rw [rowSum_detailedRows] at hfits ⊢
          have hbound : (s.openCandleFiles config).manifest.arrivalClock.total +
              (storedCandles rows).length * (1 + legacyRows config) < 2 ^ 64 := by
            exact lt_of_le_of_lt (Nat.add_le_add_right htotal _) hfits
          rw [hclock, hstores.total hbound]
          exact Nat.add_le_add_right htotal _

/-- Emptying the files of a timeframe changes nothing if the manifest names neither. -/
theorem counted_truncateCandleFiles (hs : Counted s) (config : CandleConfig)
    (h : ∀ detailed, (detailed || writeLegacyCandles config.tfText) = true →
      s.counter (candleChannel detailed) = 0 ∨ s.manifest.path (candleChannel detailed)
        ≠ detailedCandlesRelativePath config.tfText detailed) :
    Counted (s.truncateCandleFiles config) := by
  -- A file is empty afterwards, or it is as it was.
  have hfiles : ∀ path, (s.truncateCandleFiles config).files path =
      if path = detailedCandlesRelativePath config.tfText true ∨
        writeLegacyCandles config.tfText = true ∧
          path = detailedCandlesRelativePath config.tfText false
      then [] else s.files path := by
    intro path
    simp only [truncateCandleFiles]
    cases writeLegacyCandles config.tfText <;> simp [Function.update_apply]
    by_cases hlegacy : path = detailedCandlesRelativePath config.tfText false <;>
      by_cases hdetailed : path = detailedCandlesRelativePath config.tfText true <;>
      simp [hlegacy, hdetailed]
  have hnotlive : ∀ channel : LiveChannel, (s.truncateCandleFiles config).files
      (channelJsonlRelativePath channel.channel)
        = s.files (channelJsonlRelativePath channel.channel) := by
    intro channel
    rw [hfiles, if_neg]
    rintro (heq | ⟨-, heq⟩)
    · exact (isCandleFile_detailed config.tfText true).ne_live channel heq.symm
    · exact (isCandleFile_detailed config.tfText false).ne_live channel heq.symm
  refine ⟨⟨hs.running.session, hs.running.sink⟩, fun channel => ?_, hs.livePath, fun detailed => ?_,
    hs.accounted, hs.fits⟩
  · rw [hnotlive]
    exact hs.live channel
  · -- Of the files of this channel at most one is emptied.
    have hother : ∀ file, IsCandleFile detailed file →
        file ≠ detailedCandlesRelativePath config.tfText !detailed := fun file hfile =>
      hfile.ne_other (isCandleFile_detailed config.tfText !detailed)
    by_cases hwritten : (detailed || writeLegacyCandles config.tfText) = true
    · refine ((hs.candles detailed).empty (detailedCandlesRelativePath config.tfText detailed)
        (fun _ => rfl) ?_).of_lines fun file hfile => ?_
      · exact (h detailed hwritten).imp (fun hzero => by rw [hzero]; rfl) id
      · rw [hfiles]
        have hne := hother file hfile
        cases detailed <;> simp_all <;> split <;> simp_all [lineCount]
    · refine (hs.candles detailed).of_lines fun file hfile => ?_
      rw [hfiles]
      have hne := hother file hfile
      cases detailed <;> simp_all

theorem total_addHistoricalRows (s : Coordinator) (h : s.manifest.arrivalClock.total + n < 2 ^ 64) :
    (s.addHistoricalRows n).manifest.arrivalClock.total = s.manifest.arrivalClock.total + n := by
  have hn : (UInt64.ofNat n).toNat = n := UInt64.toNat_ofNat_of_lt' (show n < 2 ^ 64 by omega)
  simp only [addHistoricalRows, ArrivalClockSummary.total] at h ⊢
  rw [toNat_saturatingAdd (by rw [hn]; omega), hn]
  omega

/-- `captureDetailedCandlesBulk` keeps the counts. -/
theorem Counted.detailedBulk (hs : Counted s) (accepted : Bool) (config : CandleConfig)
    (pages : List (List Ohlcv)) (fetched persisted : Bool)
    (h : (SessionOp.detailedBulk accepted config pages fetched persisted).Conforms s) :
    Counted (s.captureDetailedCandlesBulk accepted config pages fetched persisted).2 := by
  unfold captureDetailedCandlesBulk
  rw [ensureSession_running hs.running]
  split
  · exact hs
  rename_i hfinam
  simp only [Bool.not_eq_true, Bool.not_eq_false'] at hfinam
  cases accepted with
  | false => exact hs
  | true =>
    dsimp only
    simp only [if_true, ne_eq, not_true_eq_false, if_false]
    split
    · exact hs
    rename_i hrouted
    simp only [Bool.not_eq_true, Bool.not_eq_false'] at hrouted
    obtain ⟨hfits, hready⟩ := h
    simp only [SessionOp.size, SessionOp.FilesFit, hfinam, hrouted, forall_const] at hfits hready
    generalize pages.flatMap storedCandles = stored at hfits hready
    -- The files are emptied before the first row is stored.
    have hempty := counted_truncateCandleFiles (counted_openCandleFiles hs config) config
      fun detailed hwritten => (hready detailed hwritten).imp id And.right
    generalize hbefore : (s.openCandleFiles config).truncateCandleFiles config = before at hempty
    have hcounter : before.counter = s.counter := by rw [← hbefore]; rfl
    rw [← hcounter] at hfits
    have hzero : ∀ detailed, rowsIn config stored.length detailed = 0 ∨
        before.counter (candleChannel detailed) = 0 := by
      intro detailed
      by_cases hwritten : (detailed || writeLegacyCandles config.tfText) = true
      · rcases hready detailed hwritten with hnone | ⟨rfl, -⟩
        · exact Or.inr (by rw [hcounter, hnone])
        · exact Or.inl (by simp [rowsIn])
      · left
        simp only [Bool.or_eq_true, not_or, Bool.not_eq_true] at hwritten
        simp [rowsIn, legacyRows, hwritten]
    have hstores := (Stores.detailed (stores_storeBulk config) stored before).congr rfl rfl (Nat.mul_zero _)
    -- A capture that fails from here on has stored its rows and counted them.
    have habandoned := hempty.detailed_abandoned config hstores hfits hzero
    split
    · exact habandoned
    split
    · exact habandoned
    split
    · exact habandoned
    rename_i hstored
    have hn : stored.length ≠ 0 := by rwa [ne_eq, List.length_eq_zero_iff]
    obtain ⟨hfiles, hcounters, hsession, hsink, hclock⟩ :=
      nameDetailed_frame config (stored.foldl (storeBulk config) before)
    generalize hnamed : (stored.foldl (storeBulk config) before).nameDetailed config = named
      at hfiles hcounters hsession hsink hclock ⊢
    refine Counted.writeManifestFile (hempty.detailed_named config hn hstores hfits
      (fun detailed => (hzero detailed).imp id Or.inl) hsession hsink hfiles hcounters
      (by rw [hnamed]; rfl) (by rw [hnamed]; rfl) ?_)
    have hle := hempty.accounted
    rw [rowSum_detailedRows] at hfits ⊢
    have htotal := hstores.total (by omega)
    rw [Nat.add_zero, ← hclock] at htotal
    have hlegacy : (if writeLegacyCandles config.tfText then stored.length else 0)
        = stored.length * legacyRows config := by
      unfold legacyRows
      split <;> simp
    rw [hlegacy]
    rw [Nat.mul_add, Nat.mul_one] at hfits ⊢
    have hfirst := total_addHistoricalRows named (show _ + stored.length < 2 ^ 64 by omega)
    rw [total_addHistoricalRows _ (by omega), hfirst, htotal]
    omega

theorem Counted.step (hs : Counted s) (op : SessionOp) (h : op.Conforms s) :
    Counted (op.apply s) := by
  cases op with
  | external op => exact hs.external op h.1
  | start accepted channels requestedChannels => exact hs.start accepted channels requestedChannels
  | candlesOnce config history => exact hs.candlesOnce config history h
  | detailedOnce accepted config fetched persisted =>
    exact hs.detailedOnce accepted config fetched persisted h
  | detailedBulk accepted config pages fetched persisted =>
    exact hs.detailedBulk accepted config pages fetched persisted h
  | tradesHistory accepted rows fetched persisted =>
    exact hs.tradesHistory accepted rows fetched persisted h.1

theorem Counted.run (hs : Counted s) (ops : List SessionOp) (h : AllConform ops s) :
    Counted (afterCalls ops s) := by
  induction ops generalizing s with
  | nil => exact hs
  | cons op ops ih => exact ih (hs.step op h.1) h.2

def openedSession : Coordinator := (({} : Coordinator).ensureSession true).2

theorem counted_openedSession : Counted openedSession where
  running := ⟨rfl, rfl⟩
  live channel := by cases channel <;> rfl
  livePath channel := by cases channel <;> rfl
  candles detailed := ⟨fun _ => ⟨fun _ _ => rfl, rfl, rfl⟩, fun _ => rfl, Or.inl rfl⟩
  accounted := le_rfl
  fits := by decide

theorem finalize_counts (hs : Counted s) (replayed : SessionHealth × Bool) :
    ∃ m, (s.finalizeSession {} replayed).2.manifestFile = some m ∧
      m.count = s.counter ∧ m.enabled = s.manifest.enabled ∧ m.path = s.manifest.path ∧
      m.arrivalClock.total = rowTotal s.counter ∧
      (s.finalizeSession {} replayed).2.files = s.files := by
  obtain ⟨henabled, hpath, hcount⟩ := accountUnavailable_names { s.manifest with count := s.counter }
  have htotal := accountUnavailable_total (m := { s.manifest with count := s.counter }) hs.fits
    hs.accounted
  generalize hcounted : accountUnavailable { s.manifest with count := s.counter }
    = counted at henabled hpath hcount htotal
  simp only [finalizeSession, hs.running.session, hcounted, Bool.not_true,
    Bool.false_eq_true, if_false, Coordinator.writeManifestFile, ne_eq, not_true_eq_false]
  cases hasCapturedRows counted <;> exact ⟨_, rfl, hcount, henabled, hpath, htotal, rfl⟩

/-- A session whose calls all meet the condition ends with a manifest that counts the lines of its
files. -/
theorem manifest_counts_lines (ops : List SessionOp) (replayed : SessionHealth × Bool)
    (h : AllConform ops openedSession) :
    let final := ((afterCalls ops openedSession).finalizeSession {} replayed).2
    ∃ m, final.manifestFile = some m ∧
      (∀ channel, m.enabled channel = true →
        (m.count channel).toNat = lineCount (final.files (m.path channel))) ∧
      m.arrivalClock.total = rowTotal m.count := by
  have hs := counted_openedSession.run ops h
  obtain ⟨m, hm, hcount, henabled, hpath, htotal, hfiles⟩ := finalize_counts hs replayed
  refine ⟨m, hm, fun channel hchannel => ?_, by rw [htotal, hcount]⟩
  rw [henabled] at hchannel
  rw [hcount, hpath, hfiles]
  have hlive : ∀ live : LiveChannel, ((afterCalls ops openedSession).counter live.channel).toNat
      = lineCount ((afterCalls ops openedSession).files
        ((afterCalls ops openedSession).manifest.path live.channel)) := fun live => by
    rw [hs.livePath, hs.live]
  cases channel with
  | trades => exact hlive .trades
  | bookTicker => exact hlive .bookTicker
  | depth => exact hlive .depth
  | candles => exact (hs.candles false).named hchannel
  | candles2 => exact (hs.candles true).named hchannel

def sampleCandle : Ohlcv where
  ts := 60
  openPrice := 5
  high := 7
  low := 4
  close := 6
  amount := 1
  quoteAmount := 5

/-- The request for the candles of a timeframe. -/
def timeframeConfig (timeframe : String) : CandleConfig where
  exchange := text "finam"
  market := text "stocks"
  symbol := text "SBER"
  routed := true
  detailedCandlesTimeframe := text timeframe

/-- A detailed capture of one timeframe that delivers one candle. -/
def captureTimeframe (timeframe : String) : SessionOp :=
  .detailedOnce true (timeframeConfig timeframe) (some [sampleCandle]) true

/-- Whether the detailed candles are enabled, their declared count, and the lines of the file that the
manifest names for them. -/
def detailedCounts (ops : List SessionOp) : Option (Bool × UInt64 × ℕ) :=
  let final := ((afterCalls ops openedSession).finalizeSession {} (.clean, false)).2
  final.manifestFile.map fun m =>
    (m.enabled .candles2, m.count .candles2, lineCount (final.files (m.path .candles2)))

/-- Two timeframes of one session: both candles are counted, and the manifest names the file of the
second. -/
theorem manifest_counts_two_timeframes :
    detailedCounts [captureTimeframe "1m", captureTimeframe "15m"] = some (true, 2, 1) := by
  decide +kernel

/-- A timeframe that is captured twice meets the condition. -/
theorem manifest_counts_lines_again :
    detailedCounts [captureTimeframe "1m", captureTimeframe "1m"] = some (true, 2, 2) ∧
    let final := ((afterCalls [captureTimeframe "1m", captureTimeframe "1m"]
      openedSession).finalizeSession {} (.clean, false)).2
    ∃ m, final.manifestFile = some m ∧
      (∀ channel, m.enabled channel = true →
        (m.count channel).toNat = lineCount (final.files (m.path channel))) ∧
      m.arrivalClock.total = rowTotal m.count := by
  refine ⟨by decide +kernel, manifest_counts_lines _ _ ⟨⟨by decide +kernel, ?_⟩,
    ⟨by decide +kernel, ?_⟩, trivial⟩⟩
  · intro _ _ _ detailed
    exact Or.inr (Or.inl (by cases detailed <;> rfl))
  · intro _ _ _ detailed
    refine Or.inr (Or.inr ?_)
    cases detailed <;> decide +kernel

end HftRecorder.Session
