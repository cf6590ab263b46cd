import HftRecorder.Session.Coordinator

/-!
# The integrity summary of a replay

The types of `CorpusContract/Integrity.hpp` and the functions of `SessionReplay` that decide from a
summary and the hints of the manifest whether the replay is exact. The summaries of the five channels
are one function of the channel (`summaryFor_`); the liquidations are never touched. A channel whose
summary has an incident is not exact, so every fault that is noted as an incident costs exactness.
-/

namespace HftRecorder.Replay

open ByteLayout (Bytes)
open Json Decimal
open Session (LiveChannel SessionHealth)

inductive ChannelHealthState
  | notCaptured
  | missing
  | clean
  | degraded
  | corrupt
  deriving DecidableEq

inductive IntegritySeverity
  | info
  | warning
  | error
  deriving DecidableEq

def IntegritySeverity.rank : IntegritySeverity → ℕ
  | .info => 0
  | .warning => 1
  | .error => 2

/-- The kinds that a replay notes. -/
inductive IntegrityIncidentKind
  | missingFile
  | parseError
  | depthSequenceGap
  | depthNonMonotonic
  | exactnessUnprovable
  | streamStale
  | captureAborted
  | unknownIntegrity
  deriving DecidableEq

inductive IntegrityChannel
  | trades
  | liquidations
  | bookTicker
  | depth
  | snapshot
  deriving DecidableEq

/-- The summary of a channel of the capture. -/
def integrityChannel : LiveChannel → IntegrityChannel
  | .trades => .trades
  | .bookTicker => .bookTicker
  | .depth => .depth

structure IntegrityIncident where
  channel : IntegrityChannel
  kind : IntegrityIncidentKind
  severity : IntegritySeverity
  reasonCode : Bytes
  message : Bytes
  detectedAtTsNs : Int64 := 0
  rowIndex : ℕ := 0
  expectedValue : Bytes := []
  observedValue : Bytes := []
  exactnessLost : Bool := true
  deriving DecidableEq

structure ChannelIntegritySummary where
  state : ChannelHealthState := .notCaptured
  exactReplayEligible : Bool := false
  incidentCount : ℕ := 0
  gapCount : ℕ := 0
  parseErrorCount : ℕ := 0
  highestSeverity : IntegritySeverity := .info
  reasonCode : Bytes := []
  reasonText : Bytes := []
  deriving DecidableEq

structure SessionIntegritySummary where
  sessionHealth : SessionHealth := .clean
  exactReplayEligible : Bool := false
  totalIncidents : ℕ := 0
  highestSeverity : IntegritySeverity := .info
  channel : IntegrityChannel → ChannelIntegritySummary := fun _ => {}
  incidents : List IntegrityIncident := []

/-- What a replay keeps of the manifest. -/
structure ManifestHints where
  present : Bool := false
  exchange : Bytes := []
  enabled : LiveChannel → Bool := fun _ => true
  required : LiveChannel → Bool := fun _ => true
  endedAtNs : Int64 := 0
  capturedExactReplayEligible : Bool := true
  /-- The messages of `capturedIncidents`. -/
  capturedIncidents : LiveChannel → Option Bytes := fun _ => none

/-! ## Incidents -/

def worse (highest severity : IntegritySeverity) : IntegritySeverity :=
  if severity.rank > highest.rank then severity else highest

def orElseText (current value : Bytes) : Bytes := if current = [] then value else current

namespace ChannelIntegritySummary

/-- What an incident leaves in the summary of its channel. -/
def addIncident (incident : IntegrityIncident) (summary : ChannelIntegritySummary) :
    ChannelIntegritySummary :=
  { summary with
    incidentCount := summary.incidentCount + 1
    gapCount := if incident.kind = .depthSequenceGap then summary.gapCount + 1 else summary.gapCount
    parseErrorCount :=
      if incident.kind = .parseError then summary.parseErrorCount + 1 else summary.parseErrorCount
    highestSeverity := worse summary.highestSeverity incident.severity
    reasonCode := orElseText summary.reasonCode incident.reasonCode
    reasonText := orElseText summary.reasonText incident.message }

def decided (state : ChannelHealthState) (exact : Bool) (code reason : Bytes)
    (summary : ChannelIntegritySummary) : ChannelIntegritySummary :=
  { summary with
    state
    exactReplayEligible := exact
    reasonCode := orElseText summary.reasonCode code
    reasonText := orElseText summary.reasonText reason }

end ChannelIntegritySummary

namespace SessionIntegritySummary

def updateChannel (channel : IntegrityChannel)
    (f : ChannelIntegritySummary → ChannelIntegritySummary) (summary : SessionIntegritySummary) :
    SessionIntegritySummary :=
  { summary with channel := Function.update summary.channel channel (f (summary.channel channel)) }

def noteIncident (summary : SessionIntegritySummary) (incident : IntegrityIncident) :
    SessionIntegritySummary :=
  { summary with
    incidents := summary.incidents ++ [incident]
    totalIncidents := summary.totalIncidents + 1
    highestSeverity := worse summary.highestSeverity incident.severity }.updateChannel
    incident.channel (·.addIncident incident)

def setState (channel : IntegrityChannel) (state : ChannelHealthState)
    (summary : SessionIntegritySummary) : SessionIntegritySummary :=
  summary.updateChannel channel fun s => { s with state }

/-- A channel that is not corrupt becomes degraded. -/
def degrade (channel : IntegrityChannel) (summary : SessionIntegritySummary) :
    SessionIntegritySummary :=
  summary.updateChannel channel fun s =>
    { s with state := if s.state ≠ .corrupt then .degraded else s.state }

/-- The incident that the manifest retains for a channel. -/
def capturedIncident (hints : ManifestHints) (channel : LiveChannel) : Option IntegrityIncident :=
  (hints.capturedIncidents channel).map fun message =>
    { channel := integrityChannel channel
      kind := .captureAborted
      severity := .warning
      reasonCode := text "captured_runtime_incident"
      message }

/-- `resetIntegrity_`: the incidents that the manifest retains are noted anew. -/
def reset (hints : ManifestHints) : SessionIntegritySummary :=
  ([LiveChannel.trades, .bookTicker, .depth].filterMap (capturedIncident hints)).foldl noteIncident {}

/-! ## Stale streams -/

/-- `kLiveStreamStaleGraceNs`. -/
def liveStreamStaleGraceNs : Int64 := 30000000000

/-- A stream whose last row was received more than the grace time before the end of the session. -/
def isStale (endedAtNs lastReceiveRealtimeNs : Int64) : Bool :=
  !(lastReceiveRealtimeNs ≤ 0 || endedAtNs ≤ lastReceiveRealtimeNs) &&
  !(endedAtNs - lastReceiveRealtimeNs ≤ liveStreamStaleGraceNs)

def staleIncident (channel : IntegrityChannel) (endedAtNs lastReceiveRealtimeNs : Int64) :
    IntegrityIncident where
  channel
  kind := .streamStale
  severity := .warning
  reasonCode := text "stream_stale"
  message := text "enabled live stream stopped before session end"
  detectedAtTsNs := endedAtNs
  expectedValue := appendInt endedAtNs.toInt
  observedValue := appendInt lastReceiveRealtimeNs.toInt

/-- The latest receive time, at least zero. -/
def latestReceiveRealtime (arrivals : List EventArrival) : Int64 :=
  arrivals.foldl (fun latest arrival =>
    if arrival.receiveRealtimeNs > latest then arrival.receiveRealtimeNs else latest) 0

/-- `mark` for a channel with the arrivals of its rows. -/
def markStale (hints : ManifestHints) (channel : LiveChannel) (arrivals : List EventArrival)
    (summary : SessionIntegritySummary) : SessionIntegritySummary :=
  if hints.enabled channel && !arrivals.isEmpty &&
      isStale hints.endedAtNs (latestReceiveRealtime arrivals) then
    summary.noteIncident (staleIncident (integrityChannel channel) hints.endedAtNs
      (latestReceiveRealtime arrivals))
  else summary

def markStaleLiveChannels (hints : ManifestHints) (bookTickers depths : List EventArrival)
    (summary : SessionIntegritySummary) : SessionIntegritySummary :=
  if hints.endedAtNs ≤ 0 then summary
  else (summary.markStale hints .bookTicker bookTickers).markStale hints .depth depths

/-! ## The states of the channels -/

def missingIncident (channel : IntegrityChannel) : IntegrityIncident where
  channel
  kind := .missingFile
  severity := .warning
  reasonCode := text "missing_file"
  message := text "enabled channel has no rows"

def markSimpleChannel (channel : IntegrityChannel) (enabled required : Bool) (count : ℕ)
    (summary : SessionIntegritySummary) : SessionIntegritySummary :=
  let own := summary.channel channel
  if !enabled then
    summary.updateChannel channel
      (·.decided .notCaptured false (text "not_captured") (text "channel disabled for session"))
  else if own.state = .corrupt then
    summary.updateChannel channel fun s => { s with exactReplayEligible := false }
  else if own.incidentCount ≠ 0 then
    summary.updateChannel channel fun s => { s with state := .degraded, exactReplayEligible := false }
  else if count = 0 then
    if !required then
      summary.updateChannel channel
        (·.decided .clean true (text "empty_optional") (text "optional channel captured no events"))
    else
      (summary.updateChannel channel (·.decided .missing false (text "missing_file")
        (text "enabled channel has no rows"))).noteIncident (missingIncident channel)
  else
    summary.updateChannel channel (·.decided .clean true (text "ok") (text "channel loaded cleanly"))

def markSnapshot (orderbookEnabled snapshotLoaded : Bool) (summary : SessionIntegritySummary) :
    SessionIntegritySummary :=
  if !orderbookEnabled then
    summary.updateChannel .snapshot (·.decided .notCaptured false (text "not_captured")
      (text "orderbook channel disabled for session"))
  else if !snapshotLoaded then
    summary.updateChannel .snapshot (·.decided .notCaptured false (text "optional_not_captured")
      (text "separate orderbook snapshot file is not part of the corpus"))
  else if (summary.channel .snapshot).incidentCount = 0 then
    summary.updateChannel .snapshot (·.decided .clean true (text "ok")
      (text "snapshot anchor available"))
  else summary

def markDepth (enabled required : Bool) (count : ℕ) (summary : SessionIntegritySummary) :
    SessionIntegritySummary :=
  let own := summary.channel .depth
  if !enabled then
    summary.updateChannel .depth (·.decided .notCaptured false (text "not_captured")
      (text "orderbook channel disabled for session"))
  else if own.state = .corrupt then
    summary.updateChannel .depth fun s => { s with exactReplayEligible := false }
  else if count = 0 && required then
    summary.updateChannel .depth (·.decided .missing false (text "missing_file")
      (text "depth channel enabled but file has no rows"))
  else if own.incidentCount = 0 then
    summary.updateChannel .depth (·.decided .clean true (text "ok")
      (if count = 0 then text "optional depth channel captured no events"
        else text "depth rows loaded"))
  else
    summary.updateChannel .depth fun s => { s with state := .degraded, exactReplayEligible := false }

/-- `count` gives the rows of each channel. -/
def finalizeChannelStates (hints : ManifestHints) (count : LiveChannel → ℕ) (snapshotLoaded : Bool)
    (summary : SessionIntegritySummary) : SessionIntegritySummary :=
  ((((summary.markSimpleChannel .trades (hints.enabled .trades) (hints.required .trades)
    (count .trades)).markSimpleChannel .bookTicker (hints.enabled .bookTicker)
    (hints.required .bookTicker) (count .bookTicker)).markSnapshot (hints.enabled .depth)
    snapshotLoaded).markDepth (hints.enabled .depth) (hints.required .depth) (count .depth))

/-- The loop over the channels: it stops at a corrupt one. -/
def worstHealth (summary : SessionIntegritySummary) :
    SessionHealth → List IntegrityChannel → SessionHealth
  | health, [] => health
  | health, channel :: channels =>
    if (summary.channel channel).state = .corrupt then .corrupt
    else if (summary.channel channel).state = .degraded ∨ (summary.channel channel).state = .missing
      then worstHealth summary .degraded channels
    else worstHealth summary health channels

def refreshHealth (hints : ManifestHints) (count : LiveChannel → ℕ) (snapshotLoaded : Bool)
    (summary : SessionIntegritySummary) : SessionIntegritySummary :=
  let summary := summary.finalizeChannelStates hints count snapshotLoaded
  let live := [LiveChannel.trades, .bookTicker, .depth].filter hints.enabled
  let exact := live.all fun channel => (summary.channel (integrityChannel channel)).exactReplayEligible
  { summary with
    exactReplayEligible := !live.isEmpty && exact && hints.capturedExactReplayEligible
    sessionHealth := worstHealth summary
      (if hints.capturedExactReplayEligible then .clean else .degraded)
      [.trades, .liquidations, .bookTicker, .depth, .snapshot] }

end SessionIntegritySummary

end HftRecorder.Replay
