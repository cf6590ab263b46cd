import HftRecorder.Replay.Lines
import HftRecorder.Writer.State
import Mathlib.Logic.Function.Basic

/-!
# The session coordinator

`CaptureCoordinator` of `Capture/Coordinator/CaptureCoordinator.cpp` as far as it owns a session: the
rows that the capture hands over, the notices about its health, and the manifest that is refreshed
while the session runs and decided when it is finalized.

The state holds the counters, the part of the manifest that the operations decide, and the files of
the session directory. `lastError_` and the warning summary made from it are texts for the operator
that nothing reads back, so they are left out. The counts of the retired channels are never set by the
coordinator and stay zero. What depends on the operating system is an argument: whether a write
succeeds, and what a replay of the finished session reports.
-/

namespace HftRecorder.Session

open ByteLayout (Bytes)
open Json Replay

/-! ## The manifest -/

/-- The values of `sessionStatus` that the coordinator writes. -/
inductive SessionStatus
  | recording
  | incomplete
  | failedEmpty
  | complete
  | completeDegraded
  deriving DecidableEq

inductive SessionHealth
  | clean
  | degraded
  | corrupt
  deriving DecidableEq

/-- The values of `ChannelRuntimeHealth::state`. -/
inductive ChannelState
  | notRequested
  | unsupported
  | waitingFirstRow
  | live
  | degraded
  | reconnecting
  | terminal
  deriving DecidableEq

structure ChannelRuntimeHealth where
  state : ChannelState := .notRequested
  required : Bool := false
  firstRowNs : Int64 := 0
  lastRowNs : Int64 := 0
  reconnectCount : UInt64 := 0
  droppedEventCount : UInt64 := 0
  unroutableEventCount : UInt64 := 0
  lastError : Bytes := []
  deriving DecidableEq

structure ArrivalClockSummary where
  capturedRows : UInt64 := 0
  historicalRows : UInt64 := 0
  unavailableRows : UInt64 := 0
  realtimeRegressions : UInt64 := 0
  monotonicNonIncreasing : UInt64 := 0
  exchangeAheadOfReceive : UInt64 := 0
  exchangeTimestampMissing : UInt64 := 0
  firstReceiveRealtimeNs : Int64 := 0
  lastReceiveRealtimeNs : Int64 := 0
  firstReceiveMonotonicNs : UInt64 := 0
  lastReceiveMonotonicNs : UInt64 := 0
  deriving DecidableEq

/-- The channels that a session records. -/
inductive Channel
  | trades
  | bookTicker
  | depth
  | candles
  | candles2
  deriving DecidableEq

/-- The channels of a capture, which have a runtime health. -/
inductive LiveChannel
  | trades
  | bookTicker
  | depth
  deriving DecidableEq

def LiveChannel.channel : LiveChannel → Channel
  | .trades => .trades
  | .bookTicker => .bookTicker
  | .depth => .depth

/-- The names by which the capture refers to its channels. -/
def LiveChannel.name : LiveChannel → Bytes
  | .trades => text "trades"
  | .bookTicker => text "bookticker"
  | .depth => text "depth"

def runtimeHealthForChannel (channel : Bytes) : Option LiveChannel :=
  if channel = text "trades" then some .trades
  else if channel = text "bookticker" then some .bookTicker
  else if channel = text "depth" then some .depth
  else none

/-- `channelJsonlRelativePath`; the file of the depth channel is its tape. -/
def channelJsonlRelativePath : Channel → Bytes
  | .trades => text "jsonl/trades.jsonl"
  | .bookTicker => text "jsonl/bookticker.jsonl"
  | .depth => text "jsonl/depth_tape.jsonl"
  | .candles => text "jsonl/candles.jsonl"
  | .candles2 => text "jsonl/candles2.jsonl"

def depthSidecarRelativePath : Bytes := text "jsonl/depth_sidecar.jsonl"

/-- The members of `SessionManifest` that the operations of a session decide. -/
structure Manifest where
  sessionStatus : SessionStatus := .complete
  sessionHealth : SessionHealth := .clean
  exactReplayEligible : Bool := false
  enabled : Channel → Bool := fun _ => false
  path : Channel → Bytes := channelJsonlRelativePath
  count : Channel → UInt64 := fun _ => 0
  runtime : LiveChannel → ChannelRuntimeHealth := fun _ => {}
  arrivalClock : ArrivalClockSummary := {}

/-- `std::numeric_limits<std::uint64_t>::max()`. -/
def maxCount : UInt64 := 0xffffffffffffffff

/-- The test by which the source sees that `total + count` does not fit: `count > max - total`. -/
def exceeds (total count : UInt64) : Bool := count.toNat > maxCount.toNat - total.toNat

/-- `total + count`, or the largest value if that does not fit. -/
def saturatingAdd (total count : UInt64) : UInt64 :=
  if exceeds total count then maxCount else total + count

def canonicalRowCount (manifest : Manifest) : UInt64 :=
  [Channel.trades, .bookTicker, .depth, .candles, .candles2].foldl
    (fun total channel => saturatingAdd total (manifest.count channel)) 0

def hasCapturedRows (manifest : Manifest) : Bool :=
  [Channel.trades, .bookTicker, .depth, .candles, .candles2].any
    fun channel => manifest.count channel != 0

/-- The sum of the three totals, `none` if it does not fit. -/
def arrivalAccountedRowCount (arrival : ArrivalClockSummary) : Option UInt64 :=
  let total := arrival.capturedRows
  if exceeds total arrival.historicalRows then none
  else
    let total := total + arrival.historicalRows
    if exceeds total arrival.unavailableRows then none
    else some (total + arrival.unavailableRows)

def arrivalContractDegraded (manifest : Manifest) : Bool :=
  let arrival := manifest.arrivalClock
  let canonical := canonicalRowCount manifest
  if canonical = 0 then false
  else
    match arrivalAccountedRowCount arrival with
    | none => true
    | some accounted =>
      accounted != canonical || arrival.unavailableRows != 0 || arrival.capturedRows == 0

def ChannelRuntimeHealth.isDegraded (health : ChannelRuntimeHealth) : Bool :=
  (health.required && health.state != .live) ||
  health.reconnectCount != 0 ||
  health.droppedEventCount != 0 ||
  health.unroutableEventCount != 0 ||
  (health.lastError != [] && health.required)

def runtimeHealthDegraded (manifest : Manifest) : Bool :=
  [LiveChannel.trades, .bookTicker, .depth].any fun channel => (manifest.runtime channel).isDegraded

/-! ## What the operations do to the health of a channel -/

def noteExternalRow (tsNs : Int64) (health : ChannelRuntimeHealth) : ChannelRuntimeHealth :=
  { health with
    firstRowNs := if health.firstRowNs = 0 then tsNs else health.firstRowNs
    lastRowNs := tsNs
    state := if health.state ≠ .terminal then .live else health.state }

/-- The text that a refused row leaves in the health of its channel. -/
def appendError (channel : LiveChannel) (arrival : EventArrival) : Bytes :=
  channel.name ++
    if hasCapturedApplicationArrival arrival then text ": canonical storage append failed"
    else text ": parser application-frame arrival is missing or invalid"

def noteRefused (channel : LiveChannel) (arrival : EventArrival) (health : ChannelRuntimeHealth) :
    ChannelRuntimeHealth :=
  { health with
    droppedEventCount := health.droppedEventCount + 1
    state := .degraded
    lastError := if health.lastError = [] then appendError channel arrival else health.lastError }

def noteLoss (count : UInt64) (health : ChannelRuntimeHealth) : ChannelRuntimeHealth :=
  { health with
    droppedEventCount := health.droppedEventCount + count
    state := .degraded
    lastError := text "capture storage handoff lost events; recording stopped" }

def noteTerminal (error : Bytes) (health : ChannelRuntimeHealth) : ChannelRuntimeHealth :=
  if health.state = .notRequested then health
  else { health with state := .terminal, lastError := error }

def noteError (error : Bytes) (health : ChannelRuntimeHealth) : ChannelRuntimeHealth :=
  { health with
    lastError := error
    state := if health.state ≠ .live then .degraded else health.state }

def noteUnsupported (error : Bytes) (health : ChannelRuntimeHealth) : ChannelRuntimeHealth :=
  { health with state := .unsupported, lastError := error }

def noteUnroutable (error : Bytes) (health : ChannelRuntimeHealth) : ChannelRuntimeHealth :=
  { health with
    unroutableEventCount := health.unroutableEventCount + 1
    state := .degraded
    lastError := if health.lastError = [] then error else health.lastError }

def noteConnection (connected reconnected : Bool) (health : ChannelRuntimeHealth) :
    ChannelRuntimeHealth :=
  if health.state = .notRequested ∨ health.state = .unsupported then health
  else { health with
    reconnectCount := if reconnected then health.reconnectCount + 1 else health.reconnectCount
    state :=
      if !connected then .reconnecting
      else if health.firstRowNs = 0 then .waitingFirstRow else .live }

/-- `initializeHealth` of `startExternalCapture`; every requested channel is required. -/
def initializeHealth (requested enabled : Bool) (health : ChannelRuntimeHealth) :
    ChannelRuntimeHealth :=
  { health with
    state :=
      if requested then if enabled then .waitingFirstRow else .unsupported else .notRequested
    required := requested
    lastError :=
      if requested && !enabled then text "requested channel is not supported by venue runtime"
      else health.lastError }

/-! ## The coordinator -/

structure Coordinator where
  /-- `sessionDir_` is set. -/
  sessionOpen : Bool := false
  /-- `jsonSink_` has a directory. -/
  sinkOpen : Bool := false
  manifest : Manifest := {}
  /-- `tradesCount_` to `candles2Count_`. -/
  counter : Channel → UInt64 := fun _ => 0
  /-- The relative path that `candlesWriter_` has open. -/
  candlesWriter : Option Bytes := none
  candles2Writer : Option Bytes := none
  /-- The contents of the files of the session directory by their relative paths. -/
  files : Bytes → Bytes := fun _ => []
  /-- `manifest.json`, as the manifest it was rendered from. -/
  manifestFile : Option Manifest := none

namespace Coordinator

def updateHealth (channel : LiveChannel) (f : ChannelRuntimeHealth → ChannelRuntimeHealth)
    (s : Coordinator) : Coordinator :=
  { s with manifest := { s.manifest with
      runtime := Function.update s.manifest.runtime channel (f (s.manifest.runtime channel)) } }

def increment (channel : Channel) (s : Coordinator) : Coordinator :=
  { s with counter := Function.update s.counter channel (s.counter channel + 1) }

def appendLine (path line : Bytes) (s : Coordinator) : Coordinator :=
  { s with files := Function.update s.files path (s.files path ++ line ++ [10]) }

/-- `JsonSessionSink::writeLine_`: `written` says whether the stream can be opened and written. -/
def writeLine (written : Bool) (path line : Bytes) (s : Coordinator) : Status × Coordinator :=
  if !s.sinkOpen then (.invalidArgument, s)
  else if !written then (.ioError, s)
  else (.ok, s.appendLine path line)

def noteArrival (arrival : EventArrival) (exchangeTsNs : Int64) (summary : ArrivalClockSummary) :
    ArrivalClockSummary :=
  let summary :=
    if hasCapturedApplicationArrival arrival then
      { summary with
        capturedRows := saturatingAdd summary.capturedRows 1
        firstReceiveRealtimeNs :=
          if summary.firstReceiveRealtimeNs = 0 then arrival.receiveRealtimeNs
          else summary.firstReceiveRealtimeNs
        lastReceiveRealtimeNs := arrival.receiveRealtimeNs
        firstReceiveMonotonicNs :=
          if summary.firstReceiveMonotonicNs = 0 then arrival.receiveMonotonicNs
          else summary.firstReceiveMonotonicNs
        lastReceiveMonotonicNs := arrival.receiveMonotonicNs }
    else if isHistoricalBackfill arrival then
      { summary with historicalRows := saturatingAdd summary.historicalRows 1 }
    else { summary with unavailableRows := saturatingAdd summary.unavailableRows 1 }
  { summary with
    realtimeRegressions :=
      if arrival.flags &&& EventArrivalRealtimeRegression ≠ 0
      then saturatingAdd summary.realtimeRegressions 1 else summary.realtimeRegressions
    monotonicNonIncreasing :=
      if arrival.flags &&& EventArrivalMonotonicNonIncreasing ≠ 0
      then saturatingAdd summary.monotonicNonIncreasing 1 else summary.monotonicNonIncreasing
    exchangeAheadOfReceive :=
      if arrival.flags &&& EventArrivalExchangeAheadOfReceive ≠ 0 ∨
        (arrival.receiveRealtimeNs > 0 ∧ exchangeTsNs > arrival.receiveRealtimeNs)
      then saturatingAdd summary.exchangeAheadOfReceive 1 else summary.exchangeAheadOfReceive
    exchangeTimestampMissing :=
      if arrival.flags &&& EventArrivalExchangeTimestampMissing ≠ 0 ∨ exchangeTsNs ≤ 0
      then saturatingAdd summary.exchangeTimestampMissing 1 else summary.exchangeTimestampMissing }

def updateArrival (arrival : EventArrival) (exchangeTsNs : Int64) (s : Coordinator) : Coordinator :=
  { s with manifest := { s.manifest with
      arrivalClock := noteArrival arrival exchangeTsNs s.manifest.arrivalClock } }

def accountExternalAppend (status : Status) (channel : LiveChannel) (tsNs : Int64)
    (arrival : EventArrival) (s : Coordinator) : Status × Coordinator :=
  if status = .ok then
    (status, ((s.increment channel.channel).updateHealth channel (noteExternalRow tsNs)).updateArrival
      arrival tsNs)
  else
    (status, s.updateHealth channel (noteRefused channel arrival))

theorem accountExternalAppend_fst (status : Status) (channel : LiveChannel) (tsNs : Int64)
    (arrival : EventArrival) (s : Coordinator) :
    (s.accountExternalAppend status channel tsNs arrival).1 = status := by
  unfold accountExternalAppend
  split <;> rfl

def appendExternalTrade (written : Bool) (row : TradeRow) (s : Coordinator) : Status × Coordinator :=
  if !hasCapturedApplicationArrival row.arrival then
    s.accountExternalAppend .invalidArgument .trades row.tsNs row.arrival
  else
    let (status, s) := s.writeLine written (channelJsonlRelativePath .trades) (renderTradeJsonLine row)
    s.accountExternalAppend status .trades row.tsNs row.arrival

def appendExternalBookTicker (written : Bool) (row : BookTickerRow) (s : Coordinator) :
    Status × Coordinator :=
  if !hasCapturedApplicationArrival row.arrival then
    s.accountExternalAppend .invalidArgument .bookTicker row.tsNs row.arrival
  else
    let (status, s) :=
      s.writeLine written (channelJsonlRelativePath .bookTicker) (renderBookTickerJsonLine row)
    s.accountExternalAppend status .bookTicker row.tsNs row.arrival

/-- `JsonSessionSink::appendDepthTapeSidecarLines`: two files, in this order. -/
def writeDepthLines (tapeWritten sidecarWritten : Bool) (tapeLine sidecarLine : Bytes)
    (s : Coordinator) : Status × Coordinator :=
  let (tapeStatus, s) := s.writeLine tapeWritten (channelJsonlRelativePath .depth) tapeLine
  if tapeStatus ≠ .ok then (tapeStatus, s)
  else s.writeLine sidecarWritten depthSidecarRelativePath sidecarLine

def appendExternalDepth (tapeWritten sidecarWritten : Bool) (row : DepthRow) (s : Coordinator) :
    Status × Coordinator :=
  if !hasCapturedApplicationArrival row.arrival then
    s.accountExternalAppend .invalidArgument .depth row.tsNs row.arrival
  else
    let (status, s) := s.writeDepthLines tapeWritten sidecarWritten (renderDepthTapeJsonLine row)
      (renderDepthRleSidecarJsonLine row)
    s.accountExternalAppend status .depth row.tsNs row.arrival

/-! ### Notices -/

/-- A notice for the channel of that name, none for any other name. -/
def noteChannel (channel : Bytes) (f : ChannelRuntimeHealth → ChannelRuntimeHealth)
    (s : Coordinator) : Coordinator :=
  match runtimeHealthForChannel channel with
  | some live => s.updateHealth live f
  | none => s

def noteExternalCaptureLoss (channel : Bytes) (count : UInt64) : Coordinator → Coordinator :=
  noteChannel channel (noteLoss count)

def noteExternalCaptureTerminal (error : Bytes) (s : Coordinator) : Coordinator :=
  { s with manifest := { s.manifest with
      sessionStatus := .incomplete
      sessionHealth := .degraded
      exactReplayEligible := false
      runtime := fun channel => noteTerminal error (s.manifest.runtime channel) } }

def noteExternalChannelError (channel error : Bytes) : Coordinator → Coordinator :=
  noteChannel channel (noteError error)

def noteExternalUnsupportedChannel (channel error : Bytes) : Coordinator → Coordinator :=
  noteChannel channel (noteUnsupported error)

def noteExternalUnroutableEvent (channel error : Bytes) : Coordinator → Coordinator :=
  noteChannel channel (noteUnroutable error)

def noteExternalChannelConnection (channel : Bytes) (connected reconnected : Bool) :
    Coordinator → Coordinator :=
  noteChannel channel (noteConnection connected reconnected)

/-! ### The manifest while the session runs -/

/-- Rows that no operation accounted for have no known arrival. -/
def accountUnavailable (manifest : Manifest) : Manifest :=
  let totalRows := canonicalRowCount manifest
  match arrivalAccountedRowCount manifest.arrivalClock with
  | none => manifest
  | some accountedRows =>
    if accountedRows < totalRows then
      { manifest with arrivalClock := { manifest.arrivalClock with
          unavailableRows := manifest.arrivalClock.unavailableRows + (totalRows - accountedRows) } }
    else manifest

def refreshRecordingManifestLocked (s : Coordinator) : Coordinator :=
  { s with manifest := accountUnavailable { s.manifest with
      sessionStatus :=
        if s.manifest.sessionStatus ≠ .incomplete then .recording else s.manifest.sessionStatus
      count := s.counter } }

def writeManifestFile (written : Bool) (s : Coordinator) : Status × Coordinator :=
  if !s.sessionOpen then (.invalidArgument, s)
  else if !written then (.ioError, s)
  else (.ok, { s with manifestFile := some s.manifest })

def refreshExternalManifest (written : Bool) (s : Coordinator) : Status × Coordinator :=
  if !s.sessionOpen then (.ok, s)
  else s.refreshRecordingManifestLocked.writeManifestFile written

/-! ### The start of a capture -/

/-- `ensureSession`. `accepted` stands for the checks of the configuration and for the new session
directory, which is empty. A file of the new session that cannot be written counts as not accepted
too, although the code then keeps the directory's name and with it an open session. -/
def ensureSession (accepted : Bool) (s : Coordinator) : Status × Coordinator :=
  if !accepted then (.invalidArgument, s)
  else if s.sessionOpen then (.ok, s)
  else
    (.ok, { s with
      sessionOpen := true
      sinkOpen := true
      manifest := { sessionStatus := .recording }
      files := fun _ => []
      manifestFile := some { sessionStatus := .recording } })

/-- `channels` are the enabled and `requestedChannels` the requested channels. -/
def enableChannels (channels requestedChannels : LiveChannel → Bool) (manifest : Manifest) :
    Manifest :=
  { manifest with
    enabled := fun channel => manifest.enabled channel ||
      match channel with
      | .trades => channels .trades
      | .bookTicker => channels .bookTicker
      | .depth => channels .depth
      | _ => false
    runtime := fun channel =>
      initializeHealth (requestedChannels channel) (channels channel) (manifest.runtime channel) }

/-- `created` says whether the files of the enabled channels can be created, which leaves their
contents alone. -/
def startExternalCapture (accepted created written : Bool)
    (channels requestedChannels : LiveChannel → Bool) (s : Coordinator) : Status × Coordinator :=
  let (sessionStatus, s) := s.ensureSession accepted
  if sessionStatus ≠ .ok then (sessionStatus, s)
  else
    let s := { s with manifest := enableChannels channels requestedChannels s.manifest }
    let status := if created then Status.ok else .ioError
    let (manifestStatus, s) := s.refreshRecordingManifestLocked.writeManifestFile written
    (if status = .ok then manifestStatus else status, s)

/-! ### The end of the session -/

/-- Which writes of `finalizeSession` succeed. -/
structure FinalizeIo where
  seed : Bool := true
  support : Bool := true
  manifest : Bool := true

def resetSessionState (s : Coordinator) : Coordinator :=
  { s with
    sessionOpen := false
    manifest := {}
    counter := fun _ => 0
    candlesWriter := none
    candles2Writer := none }

/-- `syncManifestIntegrityFromReplay_`: what a replay of the session directory reports. -/
def syncManifestIntegrityFromReplay (replayed : SessionHealth × Bool) (manifest : Manifest) :
    Manifest :=
  { manifest with sessionHealth := replayed.1, exactReplayEligible := replayed.2 }

/-- The manifest of a session without a row. -/
def emptyManifest (terminal : Bool) (manifest : Manifest) : Manifest :=
  { manifest with
    sessionStatus := if terminal then .incomplete else .failedEmpty
    sessionHealth := .degraded
    exactReplayEligible := false }

/-- The manifest of a session with rows, after the replay. -/
def finalManifest (terminal : Bool) (manifest : Manifest) : Manifest :=
  let degraded := runtimeHealthDegraded manifest || arrivalContractDegraded manifest
  { manifest with
    sessionStatus :=
      if terminal then .incomplete else if degraded then .completeDegraded else .complete
    sessionHealth := if terminal || degraded then .degraded else manifest.sessionHealth
    exactReplayEligible := if terminal || degraded then false else manifest.exactReplayEligible }

def finalizeSession (io : FinalizeIo) (replayed : SessionHealth × Bool) (s : Coordinator) :
    Status × Coordinator :=
  if !s.sessionOpen then (.ok, s)
  else
    let terminal := s.manifest.sessionStatus = .incomplete
    let s := { s with
      manifest := accountUnavailable { s.manifest with count := s.counter }
      sinkOpen := false
      candlesWriter := none
      candles2Writer := none }
    if !hasCapturedRows s.manifest then
      let (manifestStatus, s) :=
        { s with manifest := emptyManifest terminal s.manifest }.writeManifestFile io.manifest
      if manifestStatus ≠ .ok then (manifestStatus, s)
      else if !io.support then (.ioError, s)
      else (if terminal then .unknown else .ok, s.resetSessionState)
    else
      let (seedStatus, s) := s.writeManifestFile io.seed
      if seedStatus ≠ .ok then (seedStatus, s)
      else
        let s := { s with
          manifest := finalManifest terminal (syncManifestIntegrityFromReplay replayed s.manifest) }
        if !io.support then (.ioError, s)
        else
          let (manifestStatus, s) := s.writeManifestFile io.manifest
          if manifestStatus ≠ .ok then (manifestStatus, s)
          else (if terminal then .unknown else .ok, s.resetSessionState)

end Coordinator

end HftRecorder.Session
