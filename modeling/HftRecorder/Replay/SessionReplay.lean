import HftRecorder.Json.FileLines
import HftRecorder.Lib.PosixPath
import HftRecorder.Replay.Book
import HftRecorder.Replay.Integrity

/-!
# The replay of a session

`SessionReplay` of `Replay/SessionReplay.cpp` and `Replay/SessionReplayTimeline.cpp`: the loaded rows,
the timeline that is built from them, the checks of their sequence numbers, and the book that moves
along the timeline. `gapDetected_` is never set and the counters of failures have accessors only, so
they are left out. Where a file is read, its contents are an argument: `none` for a file that cannot be
opened.
-/

namespace HftRecorder.Replay

open ByteLayout (Bytes)
open Json Decimal
open Session (LiveChannel SessionHealth)

/-! ## The timeline -/

inductive EventKind
  | depth
  | trade
  | bookTicker
  deriving DecidableEq

def EventKind.value : EventKind → ℕ
  | .depth => 0
  | .trade => 1
  | .bookTicker => 3

structure Event where
  tsNs : Int64
  ingestSeq : Int64
  rowIndex : UInt32
  kind : EventKind
  deriving DecidableEq

/-- The comparison of `rebuildEvents_`. -/
def eventLess (a b : Event) : Bool :=
  if a.tsNs ≠ b.tsNs then a.tsNs < b.tsNs
  else if a.ingestSeq > 0 ∧ b.ingestSeq > 0 ∧ a.ingestSeq ≠ b.ingestSeq then a.ingestSeq < b.ingestSeq
  else if a.kind ≠ b.kind then a.kind.value < b.kind.value
  else a.rowIndex < b.rowIndex

structure BucketItem where
  ingestSeq : Int64
  rowIndex : UInt32
  kind : EventKind
  deriving DecidableEq

structure ReplayBucket where
  tsNs : Int64
  items : List BucketItem := []
  deriving DecidableEq

/-- The depth rows are not ordered by their sequence numbers. -/
def depthEvents (rows : List DepthRow) : List Event :=
  rows.mapIdx fun i row => { tsNs := row.tsNs, ingestSeq := 0, rowIndex := UInt32.ofNat i, kind := .depth }

def tradeEvents (rows : List TradeRow) : List Event :=
  rows.mapIdx fun i row =>
    { tsNs := row.tsNs, ingestSeq := row.ingestSeq, rowIndex := UInt32.ofNat i, kind := .trade }

def bookTickerEvents (rows : List BookTickerRow) : List Event :=
  rows.mapIdx fun i row =>
    { tsNs := row.tsNs, ingestSeq := row.ingestSeq, rowIndex := UInt32.ofNat i, kind := .bookTicker }

/-- The rows of the three channels, sorted stably. -/
def sortedEvents (trades : List TradeRow) (bookTickers : List BookTickerRow)
    (depths : List DepthRow) : List Event :=
  (depthEvents depths ++ tradeEvents trades ++ bookTickerEvents bookTickers).mergeSort
    fun a b => !eventLess b a

def Event.item (event : Event) : BucketItem :=
  { ingestSeq := event.ingestSeq, rowIndex := event.rowIndex, kind := event.kind }

/-- An event joins the last bucket if that has its time. -/
def addToBuckets (buckets : List ReplayBucket) (event : Event) : List ReplayBucket :=
  match buckets.getLast? with
  | some last =>
    if last.tsNs ≠ event.tsNs then buckets ++ [{ tsNs := event.tsNs, items := [event.item] }]
    else buckets.dropLast ++ [{ last with items := last.items ++ [event.item] }]
  | none => [{ tsNs := event.tsNs, items := [event.item] }]

/-! ## The state -/

structure SessionReplay where
  trades : List TradeRow := []
  bookTickers : List BookTickerRow := []
  candles : List CandleRow := []
  candles2 : List CandleRow := []
  depths : List DepthRow := []
  events : List Event := []
  buckets : List ReplayBucket := []
  snapshot : SnapshotDocument := {}
  snapshotLoaded : Bool := false
  book : BookState := {}
  cursor : ℕ := 0
  firstTsNs : Int64 := 0
  lastTsNs : Int64 := 0
  status : Status := .ok
  errorDetail : Bytes := []
  partialDepthCorrupt : Bool := false
  partialDepthError : Bytes := []
  partialDepthLine : ℕ := 0
  integritySummary : SessionIntegritySummary := {}
  manifestHints : ManifestHints := {}

namespace SessionReplay

def rowCount (s : SessionReplay) : LiveChannel → ℕ
  | .trades => s.trades.length
  | .bookTicker => s.bookTickers.length
  | .depth => s.depths.length

/-! ### Rows -/

def appendTradeRow (row : TradeRow) (s : SessionReplay) : SessionReplay :=
  { s with trades := s.trades ++ [row] }

def appendBookTickerRow (row : BookTickerRow) (s : SessionReplay) : SessionReplay :=
  { s with bookTickers := s.bookTickers ++ [row] }

def appendDepthRow (row : DepthRow) (s : SessionReplay) : SessionReplay :=
  { s with depths := s.depths ++ [row] }

def appendSnapshotDocument (snapshot : SnapshotDocument) (s : SessionReplay) : SessionReplay :=
  { s with snapshot, snapshotLoaded := true, book := .applySnapshot snapshot }

/-! ### Building the timeline -/

def rebuildEvents (s : SessionReplay) : SessionReplay :=
  { s with events := sortedEvents s.trades s.bookTickers s.depths }

/-- `absorbCandleBounds`. -/
def absorbCandleBounds (bounds : Int64 × Int64) (rows : List CandleRow) : Int64 × Int64 :=
  match rows.head?, rows.getLast? with
  | some front, some back =>
    (if bounds.1 = 0 ∨ front.tsNs < bounds.1 then front.tsNs else bounds.1,
      if back.tsNs > bounds.2 then back.tsNs else bounds.2)
  | _, _ => bounds

/-- `firstTsNs_` and `lastTsNs_` for some buckets. -/
def timeBounds (buckets : List ReplayBucket) (s : SessionReplay) : Int64 × Int64 :=
  match buckets.head?, buckets.getLast? with
  | some front, some back => (front.tsNs, back.tsNs)
  | _, _ =>
    if s.candles ≠ [] ∨ s.candles2 ≠ [] then
      absorbCandleBounds (absorbCandleBounds (0, 0) s.candles) s.candles2
    else if s.snapshot.tsNs ≠ 0 then (s.snapshot.tsNs, s.snapshot.tsNs)
    else (0, 0)

def rebuildBuckets (s : SessionReplay) : SessionReplay :=
  let buckets := s.events.foldl addToBuckets []
  { s with
    buckets
    cursor := 0
    firstTsNs := (s.timeBounds buckets).1
    lastTsNs := (s.timeBounds buckets).2 }

/-! ### The book -/

def baseBook (s : SessionReplay) : BookState :=
  if s.snapshotLoaded then .applySnapshot s.snapshot else {}

def rewindToSnapshot (s : SessionReplay) : SessionReplay :=
  { s with book := s.baseBook, cursor := 0 }

/-- The depth row of an item, if the item is one. -/
def depthRow? (depths : List DepthRow) (item : BucketItem) : Option DepthRow :=
  if item.kind = .depth then depths[item.rowIndex.toNat]? else none

def applyBucket (depths : List DepthRow) (book : BookState) (bucket : ReplayBucket) : BookState :=
  bucket.items.foldl (fun book item =>
    match depthRow? depths item with
    | some row => book.applyDelta row
    | none => book) book

def currentTsNs (s : SessionReplay) : Int64 :=
  if s.cursor = 0 then s.snapshot.tsNs else (s.buckets[s.cursor - 1]?.map (·.tsNs)).getD 0

/-- The loop of `seek`: the buckets from the cursor on that are not later than the target. -/
def advance (targetTsNs : Int64) (s : SessionReplay) : SessionReplay :=
  let passed := (s.buckets.drop s.cursor).takeWhile fun bucket => bucket.tsNs ≤ targetTsNs
  { s with
    book := passed.foldl (applyBucket s.depths) s.book
    cursor := s.cursor + passed.length }

def seek (targetTsNs : Int64) (s : SessionReplay) : SessionReplay :=
  if s.status ≠ .ok then s
  else if targetTsNs < s.currentTsNs then s.rewindToSnapshot.advance targetTsNs
  else s.advance targetTsNs

/-! ### The checks of the sequence numbers -/

end SessionReplay

/-- The members of a row that the checks read. -/
structure SequenceRow where
  tsNs : Int64
  captureSeq : Int64
  ingestSeq : Int64

def TradeRow.sequence (row : TradeRow) : SequenceRow :=
  { tsNs := row.tsNs, captureSeq := row.captureSeq, ingestSeq := row.ingestSeq }

def BookTickerRow.sequence (row : BookTickerRow) : SequenceRow :=
  { tsNs := row.tsNs, captureSeq := row.captureSeq, ingestSeq := row.ingestSeq }

def DepthRow.sequence (row : DepthRow) : SequenceRow :=
  { tsNs := row.tsNs, captureSeq := row.captureSeq, ingestSeq := row.ingestSeq }

/-- Which of the two numbers of a row does not increase. -/
inductive SequenceFault
  | capture
  | ingest
  deriving DecidableEq

def anyHave (number : SequenceRow → Int64) (rows : List SequenceRow) : Bool :=
  rows.any fun row => number row > 0

def allHave (number : SequenceRow → Int64) (rows : List SequenceRow) : Bool :=
  rows.all fun row => number row > 0

/-- The loop over the rows of a channel, up to the first fault. A row without an ingest number is
compared with no other. -/
def firstFault : ℕ → Int64 → Int64 → List SequenceRow → Option (SequenceFault × ℕ × SequenceRow)
  | _, _, _, [] => none
  | i, previousCaptureSeq, previousIngestSeq, row :: rows =>
    if row.captureSeq > 0 ∧ previousCaptureSeq ≠ 0 ∧ row.captureSeq ≤ previousCaptureSeq then
      some (.capture, i, row)
    else if row.ingestSeq > 0 ∧ previousIngestSeq > 0 ∧ row.ingestSeq ≤ previousIngestSeq then
      some (.ingest, i, row)
    else
      firstFault (i + 1) (if row.captureSeq > 0 then row.captureSeq else previousCaptureSeq)
        row.ingestSeq rows

/-- The sorted numbers up to the first one that is not larger than the one before it. -/
def firstDuplicate : ℕ → List Int64 → Option (ℕ × Int64)
  | i, a :: b :: rest => if b ≤ a then some (i + 1, b) else firstDuplicate (i + 1) (b :: rest)
  | _, _ => none

/-- The incident of a row that does not increase. -/
def faultIncident (channel : IntegrityChannel) (name : Bytes) (fault : SequenceFault) (i : ℕ)
    (row : SequenceRow) : IntegrityIncident :=
  match fault with
  | .capture =>
    { channel
      kind := .depthNonMonotonic
      severity := .error
      reasonCode := text "non_increasing_capture_seq"
      message := name ++ text " capture sequence failure at row " ++ decimal i ++
        text ": non-increasing captureSeq"
      detectedAtTsNs := row.tsNs
      rowIndex := i
      expectedValue := text "strictly increasing captureSeq"
      observedValue := appendInt row.captureSeq.toInt }
  | .ingest =>
    { channel
      kind := .depthNonMonotonic
      severity := .error
      reasonCode := text "non_increasing_ingest_seq"
      message := name ++ text " ingest sequence failure at row " ++ decimal i ++
        text ": non-increasing ingestSeq"
      detectedAtTsNs := row.tsNs
      rowIndex := i
      expectedValue := text "strictly increasing ingestSeq"
      observedValue := appendInt row.ingestSeq.toInt }

/-- The incident of a channel that has a number on some rows only. -/
def inconsistentIncident (channel : IntegrityChannel) (name : Bytes) (fault : SequenceFault)
    (front : SequenceRow) : IntegrityIncident :=
  match fault with
  | .capture =>
    { channel
      kind := .unknownIntegrity
      severity := .error
      reasonCode := text "missing_capture_seq"
      message := name ++ text " capture sequence metadata is missing or inconsistent"
      detectedAtTsNs := front.tsNs
      expectedValue := text "all rows have positive captureSeq" }
  | .ingest =>
    { channel
      kind := .unknownIntegrity
      severity := .error
      reasonCode := text "inconsistent_ingest_seq"
      message := name ++ text " ingest sequence metadata is missing or inconsistent"
      detectedAtTsNs := front.tsNs
      expectedValue := text "all rows either have ingestSeq or do not" }

/-- The incident of a channel that has only one of the two numbers; `fault` is the missing one. -/
def absentIncident (channel : IntegrityChannel) (name : Bytes) (fault : SequenceFault)
    (front : SequenceRow) : IntegrityIncident :=
  let (reasonCode, detail) := match fault with
    | .capture => (text "missing_capture_seq",
        text " capture sequence metadata is absent; exact ordering is unprovable")
    | .ingest => (text "missing_ingest_seq",
        text " ingest sequence metadata is absent; exact ordering is unprovable")
  { channel
    kind := .exactnessUnprovable
    severity := .warning
    reasonCode
    message := name ++ detail
    detectedAtTsNs := front.tsNs
    expectedValue := text "positive captureSeq and ingestSeq on every row" }

def duplicateIncident (i : ℕ) (ingestSeq : Int64) : IntegrityIncident where
  channel := .trades
  kind := .exactnessUnprovable
  severity := .warning
  reasonCode := text "duplicate_merged_ingest_seq"
  message := text ("merged event ingest sequence contains duplicates across channels; " ++
    "exact ordering is unprovable")
  rowIndex := i
  expectedValue := text "unique ingestSeq across all channels"
  observedValue := appendInt ingestSeq.toInt

namespace SessionReplay

/-- A channel that fails a check is corrupt. -/
def failChannel (channel : IntegrityChannel) (incident : IntegrityIncident) (s : SessionReplay) :
    SessionReplay :=
  { s with
    errorDetail := incident.message
    integritySummary := (s.integritySummary.setState channel .corrupt).noteIncident incident }

def validateChannel (channel : IntegrityChannel) (name : Bytes) (rows : List SequenceRow)
    (s : SessionReplay) : Bool × SessionReplay :=
  match rows with
  | [] => (true, s)
  | front :: _ =>
    match firstFault 0 0 0 rows with
    | some (fault, i, row) => (false, s.failChannel channel (faultIncident channel name fault i row))
    | none =>
      if anyHave (·.captureSeq) rows && !allHave (·.captureSeq) rows then
        (false, s.failChannel channel (inconsistentIncident channel name .capture front))
      else if anyHave (·.ingestSeq) rows && !allHave (·.ingestSeq) rows then
        (false, s.failChannel channel (inconsistentIncident channel name .ingest front))
      else if anyHave (·.captureSeq) rows != anyHave (·.ingestSeq) rows then
        let missing := if !anyHave (·.captureSeq) rows then .capture else .ingest
        (true,
          { s with
            integritySummary := (s.integritySummary.degrade channel).noteIncident
              (absentIncident channel name missing front) })
      else (true, s)

/-- The positive ingest numbers of the timeline in increasing order. -/
def mergedIngestSeqs (events : List Event) : List Int64 :=
  ((events.filter fun event => 0 < event.ingestSeq).map (·.ingestSeq)).mergeSort fun a b => a ≤ b

/-- The check across the channels, which never fails. -/
def noteDuplicates (s : SessionReplay) : SessionReplay :=
  match firstDuplicate 0 (mergedIngestSeqs s.events) with
  | none => s
  | some (i, ingestSeq) =>
    { s with
      integritySummary :=
        (((s.integritySummary.degrade .trades).degrade .bookTicker).degrade .depth).noteIncident
          (duplicateIncident i ingestSeq) }

def validateSequenceMetadata (s : SessionReplay) : Bool × SessionReplay :=
  let (tradesOk, s) := s.validateChannel .trades (text "trades") (s.trades.map (·.sequence))
  let (bookTickerOk, s) :=
    s.validateChannel .bookTicker (text "bookticker") (s.bookTickers.map (·.sequence))
  if !tradesOk || !bookTickerOk then (false, s) else (true, s.noteDuplicates)

def validateDepthStream (_s : SessionReplay) : Bool := true

/-! ### Finishing -/

def restorePartialDepthIncident (s : SessionReplay) : SessionReplay :=
  if !s.partialDepthCorrupt then s
  else
    { s with
      errorDetail := if s.errorDetail = [] then s.partialDepthError else s.errorDetail
      integritySummary := (s.integritySummary.updateChannel .depth fun summary =>
        { summary with state := .corrupt, exactReplayEligible := false }).noteIncident
        { channel := .depth
          kind := .parseError
          severity := .error
          reasonCode := text "parse_error"
          message := s.partialDepthError
          rowIndex := s.partialDepthLine
          observedValue := text "depth_tape.jsonl+depth_sidecar.jsonl" } }

def markStaleLiveChannels (s : SessionReplay) : SessionReplay :=
  { s with
    integritySummary := s.integritySummary.markStaleLiveChannels s.manifestHints
      (s.bookTickers.map (·.arrival)) (s.depths.map (·.arrival)) }

def refreshHealthSummary (s : SessionReplay) : SessionReplay :=
  { s with integritySummary :=
      s.integritySummary.refreshHealth s.manifestHints s.rowCount s.snapshotLoaded }

/-- The new start of both `refreshLiveTimeline` and `finalize`. -/
def restart (s : SessionReplay) : SessionReplay :=
  { s with status := .ok, errorDetail := [], integritySummary := .reset s.manifestHints }

def refreshLiveTimeline (s : SessionReplay) : SessionReplay :=
  let s := s.restart.rebuildEvents.rebuildBuckets
  let depthValid := s.validateDepthStream
  let (sequenceMetadataValid, s) := s.validateSequenceMetadata
  let s := s.markStaleLiveChannels.refreshHealthSummary
  if !depthValid || !sequenceMetadataValid || s.integritySummary.sessionHealth = .corrupt then
    { s with status := .corruptData }
  else s

/-- A depth file that was read in part can still be shown. -/
def renderablePartialDepth (s : SessionReplay) : Bool :=
  s.partialDepthCorrupt && !s.depths.isEmpty &&
  (s.integritySummary.channel .depth).state = .corrupt &&
  (s.integritySummary.channel .trades).state ≠ .corrupt &&
  (s.integritySummary.channel .bookTicker).state ≠ .corrupt &&
  (s.integritySummary.channel .snapshot).state ≠ .corrupt

def finalize (s : SessionReplay) : SessionReplay :=
  let s := s.restart.rebuildEvents.rebuildBuckets.rewindToSnapshot.restorePartialDepthIncident
  let depthValid := s.validateDepthStream
  let (sequenceMetadataValid, s) := s.validateSequenceMetadata
  let s := s.markStaleLiveChannels.refreshHealthSummary
  if !depthValid || !sequenceMetadataValid ||
      (s.integritySummary.sessionHealth = .corrupt && !s.renderablePartialDepth) then
    { s with status := .corruptData }
  else s

/-! ### Files -/

end SessionReplay

/-- What reading the lines of a file leaves: the rows so far, also if a line fails. -/
structure LoadedRows (ρ : Type) where
  status : Status := .ok
  rows : List ρ
  errorDetail : Option Bytes := none
  lineNumber : ℕ

/-- The loop of `loadJsonl`; lines without text are passed over. -/
def loadLines {ρ : Type} (parse : Bytes → Option ρ) (artifact : Bytes) :
    ℕ → List ρ → List Bytes → LoadedRows ρ
  | lineNumber, out, [] => { rows := out, lineNumber }
  | lineNumber, out, line :: lines =>
    let line := dropCarriageReturn line
    if line = [] then loadLines parse artifact (lineNumber + 1) out lines
    else
      match parse line with
      | some row => loadLines parse artifact (lineNumber + 1) (out ++ [row]) lines
      | none =>
        { status := .corruptData
          rows := out
          errorDetail := some (text "failed to parse " ++ artifact ++ text " line " ++
            decimal (lineNumber + 1) ++ text ": CorruptData")
          lineNumber := lineNumber + 1 }

/-- A file that cannot be opened has no rows. -/
def loadJsonl {ρ : Type} (parse : Bytes → Option ρ) (path : Bytes) (file : Option Bytes)
    (out : List ρ) : LoadedRows ρ :=
  match file with
  | none => { rows := out, lineNumber := 0 }
  | some content => loadLines parse (PosixPath.filename path) 0 out (getlines content)

def parseFinamCandleArchiveLine (line : Bytes) : Option CandleRow :=
  (parseCandleLine line).filter fun row =>
    row.exchange = text "finam" && isHistoricalBackfill row.arrival

def sortCandles (rows : List CandleRow) : List CandleRow :=
  rows.mergeSort fun lhs rhs => !candleLess rhs lhs
where
  candleLess (lhs rhs : CandleRow) : Bool :=
    if lhs.tsNs ≠ rhs.tsNs then lhs.tsNs < rhs.tsNs else lhs.tier < rhs.tier

namespace SessionReplay

def addCandlesFile (path : Bytes) (file : Option Bytes) (rebuildTimeline : Bool) (s : SessionReplay) :
    Status × SessionReplay :=
  if path = [] then (.invalidArgument, { s with errorDetail := text "candles path is empty" })
  else
    let loaded := loadJsonl parseFinamCandleArchiveLine path file s.candles
    let s := { s with candles := loaded.rows, errorDetail := loaded.errorDetail.getD s.errorDetail }
    if loaded.status ≠ .ok then (loaded.status, { s with status := loaded.status })
    else
      let s := { s with candles := sortCandles s.candles }
      (.ok, if rebuildTimeline then s.rebuildBuckets else s)

def addCandles2File (path : Bytes) (file : Option Bytes) (rebuildTimeline : Bool)
    (s : SessionReplay) : Status × SessionReplay :=
  if path = [] then (.invalidArgument, { s with errorDetail := text "candles2 path is empty" })
  else
    let loaded := loadJsonl parseFinamCandleArchiveLine path file s.candles2
    let s := { s with candles2 := loaded.rows, errorDetail := loaded.errorDetail.getD s.errorDetail }
    if loaded.status ≠ .ok then (loaded.status, { s with status := loaded.status })
    else
      let s := { s with candles2 := sortCandles s.candles2 }
      (.ok, if rebuildTimeline then s.rebuildBuckets else s)

end SessionReplay

end HftRecorder.Replay
