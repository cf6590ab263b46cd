import HftRecorder.Session.Coordinator
import Mathlib.Algebra.Order.BigOperators.Group.List

/-!
# What a finished session remembers of its capture

A capture hands rows to the coordinator, notes losses, errors and reconnects, and refreshes the
manifest, in any order; then the session is finalized. The states of the channels are overwritten by
later rows and notices, so what a manifest that says `complete` stands for has to be carried through
the whole run: `ChannelRecord` ties the health of one channel to everything that was done so far,
`ChannelRecord.step` is one operation, `Recorded.run` any sequence of them.

A channel ignores the connection notices of a capture that did not request it, and an error with an
empty text takes an earlier error of its channel back. So of reconnects, errors and losses of no event a
manifest that says `complete` speaks for the requested channels only, and for those that were given no
error without a text (`TextsGiven`); of everything else it speaks for all of them
(`complete_session_without_faults`).
-/

namespace HftRecorder.Session

open ByteLayout (Bytes)
open Json Replay Coordinator

/-- The operations between the start and the end of a capture. -/
inductive ExternalOp
  | appendTrade (row : TradeRow)
  | appendBookTicker (row : BookTickerRow)
  | appendDepth (row : DepthRow)
  | captureLoss (channel : Bytes) (count : UInt64)
  | captureTerminal (error : Bytes)
  | channelError (channel error : Bytes)
  | unsupportedChannel (channel error : Bytes)
  | unroutableEvent (channel error : Bytes)
  | channelConnection (channel : Bytes) (connected reconnected : Bool)
  | refreshManifest

namespace ExternalOp

/-- An operation whose file writes succeed, with the status it returns. -/
def apply : ExternalOp → Coordinator → Status × Coordinator
  | appendTrade row, s => s.appendExternalTrade true row
  | appendBookTicker row, s => s.appendExternalBookTicker true row
  | appendDepth row, s => s.appendExternalDepth true true row
  | captureLoss channel count, s => (.ok, s.noteExternalCaptureLoss channel count)
  | captureTerminal error, s => (.ok, s.noteExternalCaptureTerminal error)
  | channelError channel error, s => (.ok, s.noteExternalChannelError channel error)
  | unsupportedChannel channel error, s => (.ok, s.noteExternalUnsupportedChannel channel error)
  | unroutableEvent channel error, s => (.ok, s.noteExternalUnroutableEvent channel error)
  | channelConnection channel connected reconnected, s =>
    (.ok, s.noteExternalChannelConnection channel connected reconnected)
  | refreshManifest, s => s.refreshExternalManifest true

/-- The status of an operation on an open session. -/
def status : ExternalOp → Status
  | appendTrade row => rowStatus row.arrival
  | appendBookTicker row => rowStatus row.arrival
  | appendDepth row => rowStatus row.arrival
  | _ => .ok
where
  rowStatus (arrival : EventArrival) : Status :=
    if hasCapturedApplicationArrival arrival then .ok else .invalidArgument

/-- The channel that an operation is about; a terminal notice is about all of them. -/
def target : ExternalOp → Option LiveChannel
  | appendTrade _ => some .trades
  | appendBookTicker _ => some .bookTicker
  | appendDepth _ => some .depth
  | captureLoss channel _ => runtimeHealthForChannel channel
  | captureTerminal _ => none
  | channelError channel _ => runtimeHealthForChannel channel
  | unsupportedChannel channel _ => runtimeHealthForChannel channel
  | unroutableEvent channel _ => runtimeHealthForChannel channel
  | channelConnection channel _ _ => runtimeHealthForChannel channel
  | refreshManifest => none

/-- What an operation does to the health of the channel it is about. -/
def onHealth : ExternalOp → ChannelRuntimeHealth → ChannelRuntimeHealth
  | appendTrade row => onRow .trades row.tsNs row.arrival
  | appendBookTicker row => onRow .bookTicker row.tsNs row.arrival
  | appendDepth row => onRow .depth row.tsNs row.arrival
  | captureLoss _ count => noteLoss count
  | captureTerminal _ => id
  | channelError _ error => noteError error
  | unsupportedChannel _ error => noteUnsupported error
  | unroutableEvent _ error => noteUnroutable error
  | channelConnection _ connected reconnected => noteConnection connected reconnected
  | refreshManifest => id
where
  onRow (channel : LiveChannel) (tsNs : Int64) (arrival : EventArrival) :
      ChannelRuntimeHealth → ChannelRuntimeHealth :=
    if hasCapturedApplicationArrival arrival then noteExternalRow tsNs
    else noteRefused channel arrival

def isAppend : ExternalOp → Bool
  | appendTrade _ | appendBookTicker _ | appendDepth _ => true
  | _ => false

def isTerminal : ExternalOp → Bool
  | captureTerminal _ => true
  | _ => false

/-- The operation sets the error text of its channel. -/
def isError : ExternalOp → Bool
  | channelError .. | unsupportedChannel .. | captureLoss .. => true
  | _ => false

def isUnroutable : ExternalOp → Bool
  | unroutableEvent .. => true
  | _ => false

def isReconnect : ExternalOp → Bool
  | channelConnection _ _ reconnected => reconnected
  | _ => false

def delivers (op : ExternalOp) : Bool := op.isAppend && op.status = .ok

/-- The events that an operation reports as lost: a refused row, or what a notice of loss says. -/
def lost : ExternalOp → ℕ
  | captureLoss _ count => count.toNat
  | op => if op.status = .ok then 0 else 1

/-- The number of events an operation stands for: itself and what it reports as lost. -/
def events (op : ExternalOp) : ℕ := 1 + op.lost

def textGiven : ExternalOp → Bool
  | channelError _ error => error != []
  | unsupportedChannel _ error => error != []
  | _ => true

theorem lost_append {op : ExternalOp} (h : op.isAppend = true) :
    op.lost = if op.status = .ok then 0 else 1 := by
  cases op <;> first | rfl | cases h

theorem exists_target_append {op : ExternalOp} (h : op.isAppend = true) :
    ∃ channel, op.target = some channel := by
  cases op <;> first | exact ⟨_, rfl⟩ | cases h

end ExternalOp

/-- The coordinator after a sequence of operations. -/
def afterOps : List ExternalOp → Coordinator → Coordinator
  | [], s => s
  | op :: ops, s => afterOps ops (op.apply s).2

/-- The operations with the statuses they returned. -/
def performed : List ExternalOp → Coordinator → List (ExternalOp × Status)
  | [], _ => []
  | op :: ops, s => (op, (op.apply s).1) :: performed ops (op.apply s).2

/-! ## One operation -/

/-- A session that takes rows. -/
structure Coordinator.Running (s : Coordinator) : Prop where
  session : s.sessionOpen = true
  sink : s.sinkOpen = true

/-- Everything that an operation on a running session does, as far as it matters here. -/
structure ExternalOp.Effect (op : ExternalOp) (s s' : Coordinator) : Prop where
  running : s'.Running
  runtime : op.isTerminal = false → ∀ channel, s'.manifest.runtime channel =
    if op.target = some channel then op.onHealth (s.manifest.runtime channel)
    else s.manifest.runtime channel
  incomplete : s'.manifest.sessionStatus = .incomplete ↔
    op.isTerminal = true ∨ s.manifest.sessionStatus = .incomplete

theorem Coordinator.updateHealth_runtime (channel other : LiveChannel)
    (f : ChannelRuntimeHealth → ChannelRuntimeHealth) (s : Coordinator) :
    (s.updateHealth channel f).manifest.runtime other =
      if channel = other then f (s.manifest.runtime other) else s.manifest.runtime other := by
  simp only [updateHealth, Function.update_apply, eq_comm (a := other)]
  split
  · rename_i h
    rw [h]
  · rfl

variable {s : Coordinator} {op : ExternalOp}

theorem noteChannel_effect (hs : s.Running) {channel : Bytes}
    {f : ChannelRuntimeHealth → ChannelRuntimeHealth}
    (htarget : op.target = runtimeHealthForChannel channel) (hf : op.onHealth = f)
    (hterminal : op.isTerminal = false) : op.Effect s (s.noteChannel channel f) := by
  unfold noteChannel
  cases hlive : runtimeHealthForChannel channel with
  | none =>
    rw [hlive] at htarget
    exact ⟨hs, fun _ channel => by simp [htarget], by simp [hterminal]⟩
  | some live =>
    rw [hlive] at htarget
    refine ⟨⟨hs.session, hs.sink⟩, fun _ channel => ?_, by simp [hterminal, Coordinator.updateHealth]⟩
    rw [htarget, updateHealth_runtime, hf]
    simp only [Option.some.injEq]

theorem accountExternalAppend_effect {s' : Coordinator} (hs' : s'.Running)
    (hmanifest : s'.manifest = s.manifest) {live : LiveChannel} {tsNs : Int64}
    {arrival : EventArrival} (htarget : op.target = some live)
    (hhealth : op.onHealth = ExternalOp.onHealth.onRow live tsNs arrival)
    (hterminal : op.isTerminal = false) :
    op.Effect s
      (s'.accountExternalAppend (ExternalOp.status.rowStatus arrival) live tsNs arrival).2 := by
  unfold accountExternalAppend ExternalOp.status.rowStatus
  cases hcaptured : hasCapturedApplicationArrival arrival with
  | true =>
    refine ⟨⟨hs'.session, hs'.sink⟩, fun _ channel => ?_,
      by simp [hterminal, Coordinator.updateHealth, updateArrival, increment, hmanifest]⟩
    rw [htarget, hhealth, ExternalOp.onHealth.onRow, hcaptured]
    simp only [if_true, updateArrival, updateHealth_runtime,
      increment, hmanifest, Option.some.injEq]
  | false =>
    refine ⟨⟨hs'.session, hs'.sink⟩, fun _ channel => ?_,
      by simp [hterminal, Coordinator.updateHealth, hmanifest]⟩
    rw [htarget, hhealth, ExternalOp.onHealth.onRow, hcaptured]
    simp only [Bool.false_eq_true, reduceCtorEq, if_false, updateHealth_runtime,
      hmanifest, Option.some.injEq]

theorem Coordinator.writeLine_running (hs : s.Running) (path line : Bytes) :
    s.writeLine true path line = (.ok, s.appendLine path line) := by
  rw [writeLine, hs.sink]
  rfl

theorem Coordinator.Running.appendLine (hs : s.Running) (path line : Bytes) :
    (s.appendLine path line).Running := ⟨hs.session, hs.sink⟩

/-- The coordinator once the lines of a row are written: a refused row writes nothing. -/
def Coordinator.withLines (arrival : EventArrival) (lines : List (Bytes × Bytes)) (s : Coordinator) :
    Coordinator :=
  if hasCapturedApplicationArrival arrival then
    lines.foldl (fun s line => s.appendLine line.1 line.2) s
  else s

theorem Coordinator.withLines_manifest (arrival : EventArrival) (lines : List (Bytes × Bytes))
    (s : Coordinator) : (s.withLines arrival lines).manifest = s.manifest := by
  unfold withLines
  split
  · induction lines generalizing s with
    | nil => rfl
    | cons line lines ih => exact ih (s.appendLine line.1 line.2)
  · rfl

theorem Coordinator.Running.withLines (hs : s.Running) (arrival : EventArrival)
    (lines : List (Bytes × Bytes)) : (s.withLines arrival lines).Running := by
  unfold Coordinator.withLines
  split
  · induction lines generalizing s with
    | nil => exact hs
    | cons line lines ih => exact ih (hs.appendLine line.1 line.2)
  · exact hs

theorem appendExternalTrade_running (hs : s.Running) (row : TradeRow) :
    s.appendExternalTrade true row = (s.withLines row.arrival
      [(channelJsonlRelativePath .trades, renderTradeJsonLine row)]).accountExternalAppend
      (ExternalOp.status.rowStatus row.arrival) .trades row.tsNs row.arrival := by
  unfold appendExternalTrade ExternalOp.status.rowStatus Coordinator.withLines
  cases hasCapturedApplicationArrival row.arrival with
  | false => rfl
  | true => simp [writeLine_running hs]

theorem appendExternalBookTicker_running (hs : s.Running) (row : BookTickerRow) :
    s.appendExternalBookTicker true row = (s.withLines row.arrival
      [(channelJsonlRelativePath .bookTicker, renderBookTickerJsonLine row)]).accountExternalAppend
      (ExternalOp.status.rowStatus row.arrival) .bookTicker row.tsNs row.arrival := by
  unfold appendExternalBookTicker ExternalOp.status.rowStatus Coordinator.withLines
  cases hasCapturedApplicationArrival row.arrival with
  | false => rfl
  | true => simp [writeLine_running hs]

theorem appendExternalDepth_running (hs : s.Running) (row : DepthRow) :
    s.appendExternalDepth true true row = (s.withLines row.arrival
      [(channelJsonlRelativePath .depth, renderDepthTapeJsonLine row),
        (depthSidecarRelativePath, renderDepthRleSidecarJsonLine row)]).accountExternalAppend
      (ExternalOp.status.rowStatus row.arrival) .depth row.tsNs row.arrival := by
  unfold appendExternalDepth ExternalOp.status.rowStatus Coordinator.withLines
  cases hasCapturedApplicationArrival row.arrival with
  | false => rfl
  | true =>
    simp [writeDepthLines, writeLine_running hs, writeLine_running (hs.appendLine _ _)]

theorem accountUnavailable_frame (manifest : Manifest) :
    (accountUnavailable manifest).runtime = manifest.runtime ∧
    (accountUnavailable manifest).sessionStatus = manifest.sessionStatus := by
  unfold accountUnavailable
  cases arrivalAccountedRowCount manifest.arrivalClock with
  | none => exact ⟨rfl, rfl⟩
  | some accounted =>
    dsimp only
    split <;> exact ⟨rfl, rfl⟩

/-- A refresh leaves the health of the channels alone and does not forget a terminal notice. -/
theorem refresh_effect (hs : s.Running) :
    (s.refreshExternalManifest true).1 = .ok ∧
      ExternalOp.refreshManifest.Effect s (s.refreshExternalManifest true).2 := by
  have hopen : s.refreshRecordingManifestLocked.sessionOpen = true := hs.session
  have hcall : s.refreshExternalManifest true = (.ok, { s.refreshRecordingManifestLocked with
      manifestFile := some s.refreshRecordingManifestLocked.manifest }) := by
    simp [refreshExternalManifest, writeManifestFile, hs.session, hopen]
  have hframe := accountUnavailable_frame { s.manifest with
    sessionStatus :=
      if s.manifest.sessionStatus ≠ .incomplete then .recording else s.manifest.sessionStatus
    count := s.counter }
  rw [hcall]
  refine ⟨rfl, ⟨hs.session, hs.sink⟩, fun _ channel => ?_, ?_⟩
  · exact congrFun hframe.1 channel
  · simp only [refreshRecordingManifestLocked, hframe.2, ExternalOp.isTerminal,
      Bool.false_eq_true, false_or]
    by_cases h : s.manifest.sessionStatus = .incomplete <;> simp [h]

theorem ExternalOp.apply_effect (op : ExternalOp) (hs : s.Running) :
    (op.apply s).1 = op.status ∧ op.Effect s (op.apply s).2 := by
  cases op with
  | appendTrade row | appendBookTicker row | appendDepth row =>
    simp only [apply, appendExternalTrade_running hs, appendExternalBookTicker_running hs,
      appendExternalDepth_running hs]
    exact ⟨accountExternalAppend_fst .., accountExternalAppend_effect
      (hs.withLines ..) (withLines_manifest ..) rfl rfl rfl⟩
  | captureLoss | channelError | unsupportedChannel | unroutableEvent | channelConnection =>
    exact ⟨rfl, noteChannel_effect hs rfl rfl rfl⟩
  | captureTerminal error =>
    exact ⟨rfl, ⟨hs.session, hs.sink⟩, fun h => Bool.noConfusion h,
      ⟨fun _ => Or.inl rfl, fun _ => rfl⟩⟩
  | refreshManifest => exact refresh_effect hs

/-! ## What the health of a channel records -/

/-- Some operation of `past` about the channel satisfies `p`. -/
def noted (p : ExternalOp → Bool) (channel : LiveChannel) (past : List ExternalOp) : Bool :=
  past.any fun op => op.target = some channel && p op

/-- Every error that `past` noted on the channel has a text. -/
def TextsGiven (channel : LiveChannel) (past : List ExternalOp) : Prop :=
  ∀ op ∈ past, op.target = some channel → op.textGiven = true

variable {past : List ExternalOp} {channel : LiveChannel}

theorem TextsGiven.tail (h : TextsGiven channel (op :: past)) : TextsGiven channel past :=
  fun other hother => h other (List.mem_cons_of_mem _ hother)

/-- The events that `past` lost on the channel. -/
def lostOn (channel : LiveChannel) (past : List ExternalOp) : ℕ :=
  (past.map fun op => if op.target = some channel then op.lost else 0).sum

def unroutableOn (channel : LiveChannel) (past : List ExternalOp) : ℕ :=
  (past.map fun op => if op.target = some channel ∧ op.isUnroutable then 1 else 0).sum

def eventsOf (past : List ExternalOp) : ℕ := (past.map ExternalOp.events).sum

theorem lostOn_le (channel : LiveChannel) (past : List ExternalOp) :
    lostOn channel past ≤ eventsOf past := by
  refine List.sum_le_sum fun op _ => ?_
  unfold ExternalOp.events
  split <;> omega

theorem unroutableOn_le (channel : LiveChannel) (past : List ExternalOp) :
    unroutableOn channel past ≤ eventsOf past := by
  refine List.sum_le_sum fun op _ => ?_
  unfold ExternalOp.events
  split <;> omega

/-- The health of a channel and what has been done so far, most recent operation first, as long as
the capture has not been noted terminal. -/
structure ChannelRecord (requested : Bool) (channel : LiveChannel) (past : List ExternalOp)
    (health : ChannelRuntimeHealth) : Prop where
  required : health.required = requested
  dropped : health.droppedEventCount.toNat = lostOn channel past
  unroutable : health.unroutableEventCount.toNat = unroutableOn channel past
  delivered : health.state = .live ∨ health.firstRowNs ≠ 0 →
    noted ExternalOp.delivers channel past = true
  errored : TextsGiven channel past → noted ExternalOp.isError channel past = true →
    health.lastError ≠ []
  /-- A channel without support has an error, which outlives that state. -/
  unsupported : TextsGiven channel past → health.state = .unsupported → health.lastError ≠ []
  asked : health.state = .notRequested → requested = false
  /-- The counter of reconnects cannot wrap. -/
  reconnects_le : health.reconnectCount.toNat ≤ eventsOf past
  reconnected : TextsGiven channel past → requested = true →
    noted ExternalOp.isReconnect channel past = true →
    health.reconnectCount ≠ 0 ∨ health.lastError ≠ []

theorem toNat_add_of_lt {a b : UInt64} (h : a.toNat + b.toNat < 2 ^ 64) :
    (a + b).toNat = a.toNat + b.toNat := by
  rw [UInt64.toNat_add, Nat.mod_eq_of_lt h]

theorem ChannelRecord.skip {requested : Bool} {health : ChannelRuntimeHealth}
    (h : ChannelRecord requested channel past health) (htarget : op.target ≠ some channel) :
    ChannelRecord requested channel (op :: past) health := by
  have hnoted : ∀ p, noted p channel (op :: past) = noted p channel past := by
    intro p
    simp [noted, htarget]
  refine ⟨h.required, ?_, ?_, ?_, ?_, fun hgiven => h.unsupported hgiven.tail, h.asked, ?_, ?_⟩
  · simpa [lostOn, htarget] using h.dropped
  · simpa [unroutableOn, htarget] using h.unroutable
  · rw [hnoted]
    exact h.delivered
  · rw [hnoted]
    exact fun hgiven => h.errored hgiven.tail
  · have hle := h.reconnects_le
    simp only [eventsOf, List.map_cons, List.sum_cons] at hle ⊢
    omega
  · rw [hnoted]
    exact fun hgiven => h.reconnected hgiven.tail

section
variable {requested : Bool} {channel : LiveChannel} {past : List ExternalOp}
  {health : ChannelRuntimeHealth} {op : ExternalOp}

theorem noted_cons (htarget : op.target = some channel) (p : ExternalOp → Bool) :
    noted p channel (op :: past) = (p op || noted p channel past) := by
  simp [noted, htarget]

theorem lostOn_cons (htarget : op.target = some channel) :
    lostOn channel (op :: past) = op.lost + lostOn channel past := by
  simp [lostOn, htarget]

theorem unroutableOn_cons (htarget : op.target = some channel) :
    unroutableOn channel (op :: past)
      = (if op.isUnroutable then 1 else 0) + unroutableOn channel past := by
  simp [unroutableOn, htarget]

theorem eventsOf_cons : eventsOf (op :: past) = 1 + op.lost + eventsOf past := by
  simp [eventsOf, ExternalOp.events]

/-- What an operation does to the health of the channel that it is about. -/
structure HealthStep (op : ExternalOp) (health health' : ChannelRuntimeHealth) : Prop where
  required : health'.required = health.required
  dropped : health'.droppedEventCount.toNat = op.lost + health.droppedEventCount.toNat
  unroutable : health'.unroutableEventCount.toNat
    = (if op.isUnroutable then 1 else 0) + health.unroutableEventCount.toNat
  delivered : health'.state = .live ∨ health'.firstRowNs ≠ 0 →
    op.delivers = true ∨ health.state = .live ∨ health.firstRowNs ≠ 0
  /-- An error stays, whatever follows. -/
  errored : op.textGiven = true → op.isError = true ∨ health.lastError ≠ [] → health'.lastError ≠ []
  unsupported : op.textGiven = true → health'.state = .unsupported →
    health.state = .unsupported ∨ health'.lastError ≠ []
  asked : health'.state = .notRequested → health.state = .notRequested
  reconnects : health'.reconnectCount.toNat = health.reconnectCount.toNat ∨
    health'.reconnectCount.toNat = 1 + health.reconnectCount.toNat
  /-- A channel ignores the notice of a reconnect where it was not asked for or has no support. -/
  reconnected : op.isReconnect = true →
    health'.reconnectCount.toNat = 1 + health.reconnectCount.toNat ∨
      health.state = .notRequested ∨ health.state = .unsupported

theorem toNat_add_one {a : UInt64} (h : 1 + a.toNat < 2 ^ 64) : (a + 1).toNat = 1 + a.toNat := by
  rw [toNat_add_of_lt (by simp; omega), UInt64.toNat_one, Nat.add_comm]

theorem healthStep_onRow (hdropped : op.lost + health.droppedEventCount.toNat < 2 ^ 64)
    (happend : op.isAppend = true) {live : LiveChannel} {tsNs : Int64} {arrival : EventArrival}
    (hstatus : op.status = ExternalOp.status.rowStatus arrival) :
    HealthStep op health (ExternalOp.onHealth.onRow live tsNs arrival health) := by
  obtain ⟨herror, hunroutable, hreconnect⟩ :
      op.isError = false ∧ op.isUnroutable = false ∧ op.isReconnect = false := by
    cases op <;> first | exact ⟨rfl, rfl, rfl⟩ | cases happend
  have hlost := ExternalOp.lost_append happend
  unfold ExternalOp.status.rowStatus at hstatus
  unfold ExternalOp.onHealth.onRow
  cases hcaptured : hasCapturedApplicationArrival arrival <;> rw [hcaptured] at hstatus <;>
    simp only [hstatus, Bool.false_eq_true, if_true, if_false, reduceCtorEq] at hlost ⊢
  · rw [hlost] at hdropped
    constructor <;> grind [noteRefused, toNat_add_one]
  · constructor <;> grind [noteExternalRow, ExternalOp.delivers]

/-- Every operation, as long as no counter is full. -/
theorem ExternalOp.healthStep (op : ExternalOp)
    (hdropped : op.lost + health.droppedEventCount.toNat < 2 ^ 64)
    (hunroutable : 1 + health.unroutableEventCount.toNat < 2 ^ 64)
    (hreconnects : 1 + health.reconnectCount.toNat < 2 ^ 64) :
    HealthStep op health (op.onHealth health) := by
  cases op with
  | appendTrade row | appendBookTicker row | appendDepth row => exact healthStep_onRow hdropped rfl rfl
  | captureTerminal | refreshManifest =>
    change HealthStep _ health health
    constructor <;> grind [lost, status, isUnroutable, isError, isReconnect]
  | captureLoss name count =>
    have hcount := toNat_add_of_lt (Nat.add_comm _ _ ▸ hdropped)
    simp only [onHealth, noteLoss]
    constructor <;> grind [lost, isUnroutable, isReconnect, text]
  | channelError name error =>
    simp only [onHealth, noteError]
    constructor <;> grind [lost, status, isUnroutable, isReconnect, textGiven]
  | unsupportedChannel name error =>
    simp only [onHealth, noteUnsupported]
    constructor <;> grind [lost, status, isUnroutable, isReconnect, textGiven]
  | unroutableEvent name error =>
    have hcount := toNat_add_one hunroutable
    simp only [onHealth, noteUnroutable]
    constructor <;> grind [lost, status, isUnroutable, isError, isReconnect]
  | channelConnection name connected reconnected =>
    have hcount := toNat_add_one hreconnects
    simp only [onHealth, noteConnection]
    constructor <;> grind [lost, status, isUnroutable, isError, isReconnect]

/-- An operation about the channel keeps its record. -/
theorem ChannelRecord.note (h : ChannelRecord requested channel past health)
    (htarget : op.target = some channel) {health' : ChannelRuntimeHealth}
    (hstep : HealthStep op health health') :
    ChannelRecord requested channel (op :: past) health' := by
  have htext : TextsGiven channel (op :: past) → op.textGiven = true := fun hgiven =>
    hgiven op List.mem_cons_self htarget
  have hne : ∀ {n : UInt64}, n ≠ 0 ↔ 0 < n.toNat := fun {n} => by
    rw [Nat.pos_iff_ne_zero, ne_eq, ne_eq, ← UInt64.toNat_inj, UInt64.toNat_zero]
  have hreconnects := hstep.reconnects
  refine ⟨hstep.required.trans h.required, ?_, ?_, fun hlive => ?_, fun hgiven herror => ?_,
    fun hgiven hunsupported => ?_, fun hn => h.asked (hstep.asked hn), ?_,
    fun hgiven hrequested hn => ?_⟩
  · rw [lostOn_cons htarget, hstep.dropped, h.dropped]
  · rw [unroutableOn_cons htarget, hstep.unroutable, h.unroutable]
  · rw [noted_cons htarget, Bool.or_eq_true]
    exact (hstep.delivered hlive).imp_right h.delivered
  · rw [noted_cons htarget, Bool.or_eq_true] at herror
    exact hstep.errored (htext hgiven) (herror.imp_right (h.errored hgiven.tail))
  · rcases hstep.unsupported (htext hgiven) hunsupported with hbefore | herror
    · exact hstep.errored (htext hgiven) (.inr (h.unsupported hgiven.tail hbefore))
    · exact herror
  · have hle := h.reconnects_le
    rw [eventsOf_cons]
    omega
  · have hkept : health.lastError ≠ [] → health'.lastError ≠ [] := fun herror =>
      hstep.errored (htext hgiven) (.inr herror)
    rw [noted_cons htarget, Bool.or_eq_true] at hn
    rw [hne]
    rcases hn with hn | hn
    · rcases hstep.reconnected hn with hcount | hignored | hignored
      · exact .inl (by omega)
      · rw [h.asked hignored] at hrequested
        cases hrequested
      · exact .inr (hkept (h.unsupported hgiven.tail hignored))
    · refine (h.reconnected hgiven.tail hrequested hn).imp (fun hcount => ?_) hkept
      rw [hne] at hcount
      omega

end

/-! ## Whole runs -/

/-- The coordinator and everything that was done since the start of the capture, most recent
operation first. -/
structure Recorded (requested : LiveChannel → Bool) (past : List ExternalOp) (s : Coordinator) :
    Prop where
  running : s.Running
  channels : past.any ExternalOp.isTerminal = false →
    ∀ channel, ChannelRecord (requested channel) channel past (s.manifest.runtime channel)

variable {requested : LiveChannel → Bool}

theorem Recorded.step (h : Recorded requested past s) (hevents : eventsOf (op :: past) < 2 ^ 64) :
    Recorded requested (op :: past) (op.apply s).2 := by
  obtain ⟨-, heffect⟩ := op.apply_effect h.running
  refine ⟨heffect.running, fun hterminal channel => ?_⟩
  rw [List.any_cons, Bool.or_eq_false_iff] at hterminal
  rw [heffect.runtime hterminal.1]
  split
  · rename_i htarget
    have hchannel := h.channels hterminal.2 channel
    have hlost := lostOn_le channel past
    have hunroutable := unroutableOn_le channel past
    have hle := hchannel.reconnects_le
    rw [eventsOf_cons] at hevents
    rw [← hchannel.dropped] at hlost
    rw [← hchannel.unroutable] at hunroutable
    exact hchannel.note htarget (op.healthStep (by omega) (by omega) (by omega))
  · rename_i htarget
    exact (h.channels hterminal.2 channel).skip htarget

theorem Recorded.run (h : Recorded requested past s) (ops : List ExternalOp)
    (hevents : eventsOf ops + eventsOf past < 2 ^ 64) :
    Recorded requested (ops.reverse ++ past) (afterOps ops s) := by
  induction ops generalizing past s with
  | nil => exact h
  | cons op ops ih =>
    rw [eventsOf_cons] at hevents
    have hop : eventsOf (op :: past) < 2 ^ 64 := by rw [eventsOf_cons]; omega
    have hstep := h.step hop
    have hrun := ih hstep (by rw [eventsOf_cons]; omega)
    rwa [List.reverse_cons, List.append_assoc, List.singleton_append]

theorem afterOps_incomplete (hs : s.Running) (ops : List ExternalOp) :
    (afterOps ops s).Running ∧ ((afterOps ops s).manifest.sessionStatus = .incomplete ↔
      ops.any ExternalOp.isTerminal = true ∨ s.manifest.sessionStatus = .incomplete) := by
  induction ops generalizing s with
  | nil => exact ⟨hs, by simp [afterOps]⟩
  | cons op ops ih =>
    obtain ⟨-, heffect⟩ := op.apply_effect hs
    obtain ⟨hrunning, hincomplete⟩ := ih heffect.running
    refine ⟨hrunning, ?_⟩
    rw [afterOps, hincomplete, heffect.incomplete, List.any_cons, Bool.or_eq_true]
    exact ⟨fun h => h.elim (fun h => Or.inl (Or.inr h)) (Or.imp_left Or.inl),
      fun h => h.elim (fun h => h.elim (fun h => Or.inr (Or.inl h)) Or.inl)
        fun h => Or.inr (Or.inr h)⟩

theorem performed_eq (hs : s.Running) (ops : List ExternalOp) :
    performed ops s = ops.map fun op => (op, op.status) := by
  induction ops generalizing s with
  | nil => rfl
  | cons op ops ih =>
    obtain ⟨hstatus, heffect⟩ := op.apply_effect hs
    rw [performed, hstatus, ih heffect.running, List.map_cons]

/-- The session that `startExternalCapture` opens. -/
theorem recorded_start (hclosed : s.sessionOpen = false) (channels requested : LiveChannel → Bool) :
    Recorded requested [] (s.startExternalCapture true true true channels requested).2 ∧
    (s.startExternalCapture true true true channels requested).2.manifest.sessionStatus
      = .recording := by
  obtain ⟨m, hm⟩ : ∃ m, m = accountUnavailable
      { enableChannels channels requested { sessionStatus := .recording } with
        sessionStatus := .recording, count := s.counter } := ⟨_, rfl⟩
  have hstart : (s.startExternalCapture true true true channels requested).2 = { s with
      sessionOpen := true, sinkOpen := true, manifest := m, files := fun _ => []
      manifestFile := some m } := by
    simp [startExternalCapture, ensureSession, hclosed, writeManifestFile,
      refreshRecordingManifestLocked, enableChannels, hm]
  obtain ⟨hruntime, hstatus⟩ := accountUnavailable_frame
    { enableChannels channels requested { sessionStatus := .recording } with
      sessionStatus := .recording, count := s.counter }
  rw [← hm] at hruntime hstatus
  rw [hstart]
  refine ⟨⟨⟨rfl, rfl⟩, fun _ channel => ?_⟩, hstatus⟩
  · rw [show m.runtime channel = initializeHealth (requested channel) (channels channel) {} from
      congrFun hruntime channel]
    refine ⟨rfl, rfl, rfl, ?_, ?_, ?_, ?_, Nat.zero_le _, ?_⟩
    · simp only [initializeHealth]
      cases requested channel <;> cases channels channel <;> simp
    · intro _ hn
      cases hn
    · simp only [initializeHealth]
      cases requested channel <;> cases channels channel <;> simp [text]
    · simp only [initializeHealth]
      cases requested channel <;> cases channels channel <;> simp
    · intro _ _ hn
      cases hn

/-- What the manifest of a finalized session says. -/
theorem finalize_manifest (hs : s.Running) (replayed : SessionHealth × Bool) :
    ∃ m, (s.finalizeSession {} replayed).2.manifestFile = some m ∧
      (m.sessionStatus = .complete →
        s.manifest.sessionStatus ≠ .incomplete ∧ runtimeHealthDegraded s.manifest = false) ∧
      (s.manifest.sessionStatus = .incomplete →
        m.sessionStatus = .incomplete ∧ m.exactReplayEligible = false ∧
        (s.finalizeSession {} replayed).1 = .unknown) := by
  have hframe := accountUnavailable_frame { s.manifest with count := s.counter }
  generalize hcounted : accountUnavailable { s.manifest with count := s.counter }
    = counted at hframe
  simp only [finalizeSession, hs.session, hcounted, Bool.not_true, Bool.false_eq_true,
    if_false, writeManifestFile, ne_eq, not_true_eq_false]
  cases hrows : hasCapturedRows counted with
  | false =>
    refine ⟨_, rfl, ?_, ?_⟩
    · simp only [emptyManifest]
      split <;> simp
    · intro hterminal
      simp [emptyManifest, hterminal]
  | true =>
    refine ⟨_, rfl, ?_, ?_⟩
    · intro hcomplete
      simp only [finalManifest] at hcomplete
      split at hcomplete
      · cases hcomplete
      · rename_i hterminal
        split at hcomplete
        · cases hcomplete
        · rename_i hdegraded
          rw [Bool.or_eq_true, not_or, Bool.not_eq_true] at hdegraded
          refine ⟨by simpa using hterminal, ?_⟩
          have hruntime := hdegraded.1
          simp only [runtimeHealthDegraded, syncManifestIntegrityFromReplay, hframe.1] at hruntime ⊢
          exact hruntime
    · intro hterminal
      simp [finalManifest, hterminal]

theorem LiveChannel.target_name (channel : LiveChannel) :
    runtimeHealthForChannel channel.name = some channel := by
  cases channel <;> decide

/-- A channel whose health is not degraded at the end. -/
theorem ChannelRecord.faultless {requested : Bool} {health : ChannelRuntimeHealth}
    (h : ChannelRecord requested channel past health) (hhealth : health.isDegraded = false) :
    lostOn channel past = 0 ∧ unroutableOn channel past = 0 ∧
    (requested = true → noted ExternalOp.delivers channel past = true ∧
      (TextsGiven channel past → noted ExternalOp.isReconnect channel past = false ∧
        noted ExternalOp.isError channel past = false)) := by
  simp only [ChannelRuntimeHealth.isDegraded, Bool.or_eq_false_iff, Bool.and_eq_false_imp,
    bne_eq_false_iff_eq, h.required] at hhealth
  obtain ⟨⟨⟨⟨hstate, hreconnects⟩, hdropped⟩, hunroutable⟩, herror⟩ := hhealth
  refine ⟨?_, ?_, fun hrequested => ?_⟩
  · rw [← h.dropped, hdropped]
    rfl
  · rw [← h.unroutable, hunroutable]
    rfl
  · have hempty : health.lastError = [] := by
      by_contra hn
      have := herror (by simpa using hn)
      rw [hrequested] at this
      cases this
    refine ⟨h.delivered (Or.inl (hstate hrequested)), fun hgiven => ⟨?_, ?_⟩⟩
    · rw [← Bool.not_eq_true]
      exact fun hn =>
        (h.reconnected hgiven hrequested hn).elim (fun h => h hreconnects) fun h => h hempty
    · rw [← Bool.not_eq_true]
      exact fun hn => h.errored hgiven hn hempty

/-- Everything that `complete` stands for. Reconnects, errors and losses of no event are those of a
requested channel whose errors all have a text. -/
structure Faultless (requested : LiveChannel → Bool) (ops : List ExternalOp)
    (log : List (ExternalOp × Status)) : Prop where
  appended : ∀ entry ∈ log, entry.1.isAppend = true → entry.2 = .ok
  no_loss : ∀ (channel : LiveChannel) (count : UInt64),
    .captureLoss channel.name count ∈ ops → count = 0
  no_unroutable : ∀ (channel : LiveChannel) (error : Bytes),
    .unroutableEvent channel.name error ∉ ops
  no_terminal : ∀ error, .captureTerminal error ∉ ops
  delivered : ∀ channel : LiveChannel, requested channel = true →
    ∃ entry ∈ log, entry.1.isAppend = true ∧ entry.1.target = some channel ∧ entry.2 = .ok
  no_reconnect : ∀ channel : LiveChannel, requested channel = true → TextsGiven channel ops →
    ∀ connected, .channelConnection channel.name connected true ∉ ops
  no_error : ∀ channel : LiveChannel, requested channel = true → TextsGiven channel ops →
    ∀ error count, .channelError channel.name error ∉ ops ∧
      .unsupportedChannel channel.name error ∉ ops ∧ .captureLoss channel.name count ∉ ops

theorem eq_false_of_not_noted {p : ExternalOp → Bool} (h : noted p channel past = false)
    (hop : op ∈ past) (htarget : op.target = some channel) : p op = false := by
  simpa [htarget] using List.any_eq_false.mp h op hop

theorem lost_eq_zero (h : lostOn channel past = 0) (hop : op ∈ past)
    (htarget : op.target = some channel) : op.lost = 0 := by
  have hle := List.single_le_sum (fun _ _ => Nat.zero_le _) _
    (List.mem_map_of_mem (f := fun op : ExternalOp =>
      if op.target = some channel then op.lost else 0) hop)
  rw [if_pos htarget] at hle
  exact Nat.le_zero.mp (hle.trans h.le)

theorem isUnroutable_eq_false (h : unroutableOn channel past = 0) (hop : op ∈ past)
    (htarget : op.target = some channel) : op.isUnroutable = false := by
  have hle := List.single_le_sum (fun _ _ => Nat.zero_le _) _
    (List.mem_map_of_mem (f := fun op : ExternalOp =>
      if op.target = some channel ∧ op.isUnroutable then 1 else 0) hop)
  rw [← Bool.not_eq_true]
  intro hunroutable
  rw [if_pos ⟨htarget, hunroutable⟩] at hle
  exact absurd (hle.trans h.le) (by omega)

/-- Channels that are not degraded at the end of a run have seen no fault in it. -/
theorem faultless_of_records {started : Coordinator} (hstarted : started.Running)
    {ops : List ExternalOp} {runtime : LiveChannel → ChannelRuntimeHealth}
    (hrecords : ∀ channel, ChannelRecord (requested channel) channel ops.reverse (runtime channel))
    (hterminal : ops.any ExternalOp.isTerminal = false)
    (hhealth : ∀ channel, (runtime channel).isDegraded = false) :
    Faultless requested ops (performed ops started) := by
  have hchannel := fun channel => (hrecords channel).faultless (hhealth channel)
  have hmem : ∀ {op}, op ∈ ops → op ∈ ops.reverse := List.mem_reverse.mpr
  have hpast : ∀ {channel}, TextsGiven channel ops → TextsGiven channel ops.reverse :=
    fun hgiven op hop => hgiven op (List.mem_reverse.mp hop)
  rw [performed_eq hstarted]
  refine ⟨?_, ?_, ?_, ?_, ?_, ?_, ?_⟩
  · intro entry hentry happend
    obtain ⟨op, hop, rfl⟩ := List.mem_map.mp hentry
    obtain ⟨channel, htarget⟩ := ExternalOp.exists_target_append happend
    have hzero := lost_eq_zero (hchannel channel).1 (hmem hop) htarget
    by_contra hstatus
    rw [ExternalOp.lost_append happend, if_neg hstatus] at hzero
    cases hzero
  · intro channel count hop
    have hzero := lost_eq_zero (hchannel channel).1 (hmem hop) channel.target_name
    exact UInt64.toNat_inj.mp hzero
  · intro channel error hop
    have hfalse := isUnroutable_eq_false (hchannel channel).2.1 (hmem hop) channel.target_name
    cases hfalse
  · intro error hop
    exact absurd rfl (List.any_eq_false.mp hterminal _ hop)
  · intro channel hrequested
    have hnoted := ((hchannel channel).2.2 hrequested).1
    obtain ⟨op, hop, hdelivers⟩ := List.any_eq_true.mp hnoted
    simp only [ExternalOp.delivers, Bool.and_eq_true, decide_eq_true_eq] at hdelivers
    exact ⟨(op, op.status), List.mem_map_of_mem (List.mem_reverse.mp hop), hdelivers.2.1,
      hdelivers.1, hdelivers.2.2⟩
  · intro channel hrequested hgiven connected hop
    have hnoted := (((hchannel channel).2.2 hrequested).2 (hpast hgiven)).1
    cases eq_false_of_not_noted hnoted (hmem hop) channel.target_name
  · intro channel hrequested hgiven error count
    have hnoted := (((hchannel channel).2.2 hrequested).2 (hpast hgiven)).2
    refine ⟨?_, ?_, ?_⟩ <;> intro hop <;>
      cases eq_false_of_not_noted hnoted (hmem hop) channel.target_name

/-- A session whose manifest says `complete` had no fault, if the counters do not wrap; a capture that
was noted terminal ends incomplete. -/
theorem complete_session_without_faults {s : Coordinator} (hclosed : s.sessionOpen = false)
    (channels requested : LiveChannel → Bool) (ops : List ExternalOp)
    (replayed : SessionHealth × Bool) :
    let started := (s.startExternalCapture true true true channels requested).2
    let finished := (afterOps ops started).finalizeSession {} replayed
    (eventsOf ops < 2 ^ 64 →
      ∀ m, finished.2.manifestFile = some m → m.sessionStatus = .complete →
        Faultless requested ops (performed ops started)) ∧
    ((∃ error, .captureTerminal error ∈ ops) →
      ∃ m, finished.2.manifestFile = some m ∧ m.sessionStatus = .incomplete ∧
        m.exactReplayEligible = false ∧ finished.1 ≠ .ok) := by
  intro started finished
  obtain ⟨hstart, hrecording⟩ := recorded_start hclosed channels requested
  obtain ⟨hrunning, hincomplete⟩ := afterOps_incomplete hstart.running ops
  obtain ⟨m, hm, hcomplete, hterminal⟩ := finalize_manifest hrunning replayed
  constructor
  · intro hevents m' hm' hstatus
    have hrun := hstart.run ops (by simpa [eventsOf] using hevents)
    rw [List.append_nil] at hrun
    obtain rfl : m = m' := Option.some.inj (hm.symm.trans hm')
    obtain ⟨hnot, hhealth⟩ := hcomplete hstatus
    have hnone : ops.any ExternalOp.isTerminal = false := by
      rw [← Bool.not_eq_true]
      exact fun h => hnot (hincomplete.mpr (Or.inl h))
    refine faultless_of_records hstart.running (hrun.channels (by simpa using hnone)) hnone ?_
    intro channel
    simp only [runtimeHealthDegraded, List.any_cons, List.any_nil, Bool.or_false,
      Bool.or_eq_false_iff] at hhealth
    cases channel
    · exact hhealth.1
    · exact hhealth.2.1
    · exact hhealth.2.2
  · rintro ⟨error, herror⟩
    have hany : ops.any ExternalOp.isTerminal = true := List.any_eq_true.mpr ⟨_, herror, rfl⟩
    obtain ⟨hstatus, hexact, hreturned⟩ := hterminal (hincomplete.mpr (Or.inl hany))
    exact ⟨m, hm, hstatus, hexact, by rw [hreturned]; simp⟩

def capturedTicker : BookTickerRow where
  eventId := 1
  tsNs := 7
  arrival := {
    receiveRealtimeNs := 8, receiveMonotonicNs := 1, producerEpoch := 1, sourceGeneration := 1
    sessionEpoch := 1, frameSequence := 1, shardSequence := 1, sourceId := 1, flags := 1 }

/-- The status that a capture of book tickers only ends with. -/
def tickerSessionStatus (ops : List ExternalOp) : Option SessionStatus :=
  let requested := fun channel => decide (channel = LiveChannel.bookTicker)
  let started := (({} : Coordinator).startExternalCapture true true true requested requested).2
  ((afterOps ops started).finalizeSession {} (.clean, true)).2.manifestFile.map (·.sessionStatus)

/-- Three sessions that end `complete` although something was noted: a reconnect of a channel that
was not requested, a loss of no event, and an error without a text. -/
theorem complete_session_with_notices :
    tickerSessionStatus [.channelConnection (text "trades") true true, .appendBookTicker capturedTicker]
      = some .complete ∧
    tickerSessionStatus [.captureLoss (text "trades") 0, .appendBookTicker capturedTicker]
      = some .complete ∧
    tickerSessionStatus [.channelError (text "bookticker") [], .appendBookTicker capturedTicker]
      = some .complete := by
  decide +kernel

/-- A session with one row. -/
theorem complete_session_without_faults_ticker :
    tickerSessionStatus [.appendBookTicker capturedTicker] = some .complete ∧
    Faultless (fun channel => decide (channel = LiveChannel.bookTicker))
      [.appendBookTicker capturedTicker]
      (performed [.appendBookTicker capturedTicker] (({} : Coordinator).startExternalCapture true true
        true (fun channel => decide (channel = LiveChannel.bookTicker))
        (fun channel => decide (channel = LiveChannel.bookTicker))).2) := by
  have hstatus : tickerSessionStatus [.appendBookTicker capturedTicker] = some .complete := by
    decide +kernel
  refine ⟨hstatus, ?_⟩
  simp only [tickerSessionStatus, Option.map_eq_some_iff] at hstatus
  obtain ⟨m, hm, hcomplete⟩ := hstatus
  exact (complete_session_without_faults (s := {}) rfl _ _ _ (.clean, true)).1 (by decide)
    m hm hcomplete

end HftRecorder.Session
