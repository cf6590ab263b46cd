import HftRecorder.Lib.Machine
import HftRecorder.Capture.SpscRing
import HftRecorder.Writer.Segment

/-!
# The native market capture

`NativeMarketCapture.cpp`: the market thread hands events to a storage thread through a ring, and the
levels of a depth event through an arena of rows beside it. The two threads are program counters, and
an action is one load or store of a shared variable, one row copied into or out of the arena, or one
call of a sink. The market thread alone uses `rowHead_`, and what it computes from it belongs to the
operation before. The external market types are a value of any type and what `consume` asks about it.
The refresh of the manifests, which uses nothing of the handoff, is left out, and the counters of
rows and losses are natural numbers, where the code has 64 bits that wrap.

The numbers of the calls and the lists at the end of `NativeState` are not in the code: they record
which calls were made and what became of them.
-/

namespace HftRecorder.Capture

open Corpus

/-- The members of `PublicMarketObject` that the code names. -/
inductive PublicMarketObject
  | trade
  | bookTicker
  | depth
  deriving DecidableEq

/-- The name of an object's channel in `shutdown`, and the channel that `consume` accounts to. -/
def PublicMarketObject.name : PublicMarketObject → String
  | .trade => "trades"
  | .depth => "depth"
  | .bookTicker => "bookticker"

/-- The members `trade`, `bbo`, and `depth` of `NativeMarketCapture::Event`. -/
inductive MarketValue (δ : Type)
  /-- A trade, and whether its initiator's side is unknown. -/
  | trade (unknownSide : Bool) (value : δ)
  | bookTicker (value : δ)
  /-- A depth frame, whether its kind is `Delta`, and whether its origin is `NativeStream`. -/
  | depth (delta nativeStream : Bool) (value : δ)

namespace MarketValue

variable {δ : Type}

/-- `Event::object`. -/
def object : MarketValue δ → PublicMarketObject
  | .trade _ _ => .trade
  | .bookTicker _ => .bookTicker
  | .depth _ _ _ => .depth

/-- The error of `consume` for a value that it cannot represent. -/
def refusal : MarketValue δ → Option String
  | .trade true _ => some "canonical JSON trade corpus cannot represent an unknown initiator side"
  | .trade false _ => none
  | .bookTicker _ => none
  | .depth delta nativeStream _ =>
    if !delta ∨ !nativeStream then
      some ("canonical JSON depth cannot represent native snapshot/rebase metadata; " ++
        "recording stopped")
    else none

end MarketValue

/-- The levels of a depth frame: a null pointer with a count, or rows. -/
inductive DepthLevels (ℓ : Type)
  | missing (levelCount : ℕ)
  | given (levels : List ℓ)

namespace DepthLevels

variable {ℓ : Type}

/-- `levelCount`. -/
def count : DepthLevels ℓ → ℕ
  | .missing levelCount => levelCount
  | .given levels => levels.length

def rows : DepthLevels ℓ → List ℓ
  | .missing _ => []
  | .given levels => levels

/-- The test `count && !value.levels`. -/
def absent : DepthLevels ℓ → Bool
  | .missing levelCount => levelCount ≠ 0
  | .given _ => false

end DepthLevels

/-- A call of `onTrade`, `onBbo`, or `onDepth`, with `metadata.sourceId`. -/
inductive MarketCall (δ ℓ : Type)
  | onTrade (sourceId : ℕ) (unknownSide : Bool) (value : δ)
  | onBbo (sourceId : ℕ) (value : δ)
  | onDepth (sourceId : ℕ) (delta nativeStream : Bool) (value : δ) (levels : DepthLevels ℓ)

namespace MarketCall

variable {δ ℓ : Type}

def sourceId : MarketCall δ ℓ → ℕ
  | .onTrade id _ _ | .onBbo id _ | .onDepth id _ _ _ _ => id

def value : MarketCall δ ℓ → MarketValue δ
  | .onTrade _ unknownSide value => .trade unknownSide value
  | .onBbo _ value => .bookTicker value
  | .onDepth _ delta nativeStream value _ => .depth delta nativeStream value

def levels : MarketCall δ ℓ → List ℓ
  | .onTrade _ _ _ | .onBbo _ _ => []
  | .onDepth _ _ _ _ levels => levels.rows

end MarketCall

/-- `NativeMarketCapture::Event`. The pointer `depth.levels` is the index of a row. -/
structure NativeEvent (δ : Type) where
  /-- The number of the call. -/
  call : ℕ
  /-- `metadata.sourceId`. -/
  sourceId : ℕ
  value : MarketValue δ
  /-- `depth.levels` and `depth.levelCount`. -/
  levels : ℕ := 0
  levelCount : ℕ := 0
  rowEnd : ℕ := 0

/-- The three operations of `lost`. -/
inductive LossStep
  | total
  | bySource
  | failed

/-- Where the market thread is: between calls, before an operation of a call, or in `shutdown`. -/
inductive MarketPc (δ ℓ : Type)
  | idle
  /-- The tests of `onDepth` before it looks at `rowTail_`. -/
  | testing (event : NativeEvent δ) (levels : DepthLevels ℓ)
  /-- Its load of `rowTail_`. -/
  | placing (event : NativeEvent δ) (levels : List ℓ)
  /-- It copies the levels that are left to the rows from `row` on. -/
  | copying (event : NativeEvent δ) (row : ℕ) (levels : List ℓ)
  /-- The load of `failed_` in `publish`. -/
  | publishing (event : NativeEvent δ)
  /-- The load of `tail_` in `tryPush`. -/
  | pushing (event : NativeEvent δ)
  /-- Its store into the slot. -/
  | storing (event : NativeEvent δ)
  /-- Its store into `head_`. -/
  | stored (event : NativeEvent δ)
  | losing (call sourceId : ℕ) (step : LossStep)
  /-- `shutdown` has set `stopStorage_` and waits for the storage thread. -/
  | joining
  /-- `shutdown` is before a source of its loop. -/
  | reporting (source : ℕ)
  /-- `shutdown` has returned. -/
  | returned

/-- Where the storage thread is in the loop of `drainWorker`. -/
inductive StoragePc (δ ℓ : Type)
  /-- The load of `head_` in `tryPop`. -/
  | top
  /-- Its load from the slot. -/
  | popping
  /-- Its store into `tail_`. -/
  | popped (event : NativeEvent δ)
  /-- The load of `failed_`. -/
  | testing (event : NativeEvent δ)
  | consuming (event : NativeEvent δ)
  /-- It copies the levels, of which `levels` are read. -/
  | reading (event : NativeEvent δ) (levels : List ℓ)
  /-- The call of the sink, with the levels of the row. -/
  | appending (event : NativeEvent δ) (levels : List ℓ)
  /-- The store into `failed_` after a refused event. The text is what the sink is told. -/
  | failing (event : NativeEvent δ) (note : Option String)
  | losing (event : NativeEvent δ) (step : LossStep) (note : Option String)
  | noting (event : NativeEvent δ) (note : String)
  /-- The store into `rowTail_`. -/
  | retiring (event : NativeEvent δ)
  /-- The load of `stopStorage_`. -/
  | loadStop
  | ended

/-- The storage thread tells the sink, if there is a text, before it goes on. -/
def StoragePc.noted {δ ℓ : Type} (event : NativeEvent δ) : Option String → StoragePc δ ℓ
  | some note => .noting event note
  | none => .retiring event

/-- What `configure` has set up: the objects of the sources, and `rowCapacity_`. An array of that many
rows is allocated, which bounds their number. -/
structure NativeTopology where
  sources : List PublicMarketObject
  rowCapacity : ℕ
  sources_ne : sources ≠ []
  sources_le : sources.length ≤ 60
  rowCapacity_le : rowCapacity ≤ 2 ^ 62

/-- The members of `NativeMarketCapture` that the handoff uses, and the threads. -/
structure NativeState (δ ℓ : Type) where
  /-- `queue_`, of 128 slots. -/
  queue : SpscRing 7 (NativeEvent δ)
  /-- `rows_`. -/
  rows : ℕ → ℓ
  rowHead : ℕ := 0
  rowTail : ℕ := 0
  failed : Bool := false
  error : String := ""
  stopStorage : Bool := false
  committedRows : ℕ := 0
  lostEvents : ℕ := 0
  lostBySource : ℕ → ℕ := fun _ => 0
  /-- What `noteExternalCaptureLoss` was called with, with the source's index. -/
  captureLosses : List (ℕ × String × ℕ) := []
  /-- What `noteExternalChannelError` was called with, with the source's index. -/
  channelErrors : List (ℕ × String × String) := []
  market : MarketPc δ ℓ := .idle
  storage : StoragePc δ ℓ := .top
  /-- The calls made. -/
  calls : List (MarketCall δ ℓ) := []
  /-- The events pushed, and how many of them were popped. -/
  pushed : List (NativeEvent δ) := []
  popped : ℕ := 0
  /-- The events that `consume` was called with. -/
  consumed : List (NativeEvent δ) := []
  /-- The rows handed to a sink: the event and its levels. -/
  handed : List (NativeEvent δ × List ℓ) := []
  /-- The calls whose row a sink took. -/
  committed : List ℕ := []
  /-- The calls counted in `lostEvents_`, with their sources. -/
  lost : List (ℕ × ℕ) := []
  /-- The calls that the source check or a sink refused. -/
  refused : List ℕ := []

/-- What happens next. -/
inductive NativeAction (δ ℓ : Type)
  /-- The market thread makes a call. -/
  | call (call : MarketCall δ ℓ)
  | shutdown
  /-- The market thread goes on. -/
  | market
  /-- The storage thread goes on; if it calls a sink, `ok` says whether the sink takes the row, and
  `lastError` is the sink's text if not. -/
  | storage (ok : Bool) (lastError : String)

namespace NativeState

variable {δ ℓ : Type}

/-- One operation of `lost`. -/
def lose (s : NativeState δ ℓ) (call sourceId : ℕ) : LossStep → NativeState δ ℓ
  | .total => { s with lostEvents := s.lostEvents + 1, lost := s.lost ++ [(call, sourceId)] }
  | .bySource =>
    { s with lostBySource :=
      if sourceId ≠ 0 ∧ sourceId ≤ 60 then
        Function.update s.lostBySource (sourceId - 1) (s.lostBySource (sourceId - 1) + 1)
      else s.lostBySource }
  | .failed => { s with failed := true }

/-- The position at which `onDepth` places rows: the head, or the next multiple of the capacity if the
rows do not fit before it. The test before has left room for the sum in 64 bits. -/
def rowBegin (capacity rowHead count : ℕ) : ℕ :=
  if rowHead % capacity + count > capacity then rowHead + (capacity - rowHead % capacity)
  else rowHead

/-- The next operation of the market thread. -/
def marketStep (T : NativeTopology) (s : NativeState δ ℓ) : Option (NativeState δ ℓ) :=
  match s.market with
  | .idle => none
  | .testing event levels =>
    some { s with
      market :=
        if s.failed ∨ T.rowCapacity = 0 ∨ levels.count > T.rowCapacity ∨ levels.absent ∨
            s.rowHead > subWrap (subWrap maximumUInt64 T.rowCapacity) levels.count then
          .losing event.call event.sourceId .total
        else .placing event levels.rows }
  | .placing event levels =>
    let start := rowBegin T.rowCapacity s.rowHead levels.length
    let stop := start + levels.length
    some { s with
      market :=
        if subWrap stop s.rowTail > T.rowCapacity then .losing event.call event.sourceId .total
        else .copying
          { event with
            levels := start % T.rowCapacity
            levelCount := levels.length
            rowEnd := stop }
          (start % T.rowCapacity) levels }
  | .copying event row (level :: levels) =>
    some { s with
      rows := Function.update s.rows row level
      market := .copying event (row + 1) levels }
  | .copying event _ [] => some { s with rowHead := event.rowEnd, market := .publishing event }
  | .publishing event =>
    some { s with market :=
      if s.failed then .losing event.call event.sourceId .total else .pushing event }
  | .pushing event =>
    some { s with market :=
      if s.queue.full then .losing event.call event.sourceId .total else .storing event }
  | .storing event => some { s with queue := s.queue.store event, market := .stored event }
  | .stored event =>
    some { s with
      queue := s.queue.publish
      pushed := s.pushed ++ [event]
      market := .idle }
  | .losing call sourceId step =>
    some { s.lose call sourceId step with market :=
      match step with
      | .total => .losing call sourceId .bySource
      | .bySource => .losing call sourceId .failed
      | .failed => .idle }
  | .joining =>
    match s.storage with
    | .ended => some { s with market := .reporting 0 }
    | _ => none
  | .reporting i =>
    match T.sources[i]? with
    | some object =>
      some { s with
        lostBySource := Function.update s.lostBySource i 0
        captureLosses :=
          if s.lostBySource i = 0 then s.captureLosses
          else s.captureLosses ++ [(i, object.name, s.lostBySource i)]
        market := .reporting (i + 1) }
    | none => some { s with market := .returned }
  | .returned => none

/-- The next operation of the storage thread. -/
def storageStep (T : NativeTopology) (s : NativeState δ ℓ) (ok : Bool) (lastError : String) :
    Option (NativeState δ ℓ) :=
  match s.storage with
  | .top => some { s with storage := if s.queue.empty then .loadStop else .popping }
  | .popping => some { s with storage := .popped s.queue.front }
  | .popped event =>
    some { s with queue := s.queue.advance, popped := s.popped + 1, storage := .testing event }
  | .testing event =>
    some { s with storage := if s.failed then .losing event .total none else .consuming event }
  | .consuming event =>
    let s := { s with consumed := s.consumed ++ [event] }
    if event.sourceId = 0 ∨ event.sourceId > T.sources.length then
      some { s with
        error := "capture commit source outside configured membership"
        refused := s.refused ++ [event.call]
        storage := .failing event none }
    else
      match event.value.refusal with
      | some detail =>
        some { s with error := detail, storage := .losing event .total (some detail) }
      | none => some { s with storage := .reading event [] }
  | .reading event levels =>
    some { s with
      storage :=
        if levels.length < event.levelCount then
          .reading event (levels ++ [s.rows (event.levels + levels.length)])
        else .appending event levels }
  | .appending event levels =>
    let s := { s with handed := s.handed ++ [(event, levels)] }
    if ok then
      some { s with
        committedRows := s.committedRows + 1
        committed := s.committed ++ [event.call]
        storage := .retiring event }
    else
      let detail := if lastError = "" then "capture row append rejected" else lastError
      some { s with
        error := detail
        refused := s.refused ++ [event.call]
        storage := .failing event (some detail) }
  | .failing event note =>
    some { s with failed := true, storage := .noted event note }
  | .losing event step note =>
    some { s.lose event.call event.sourceId step with storage :=
      match step with
      | .total => .losing event .bySource note
      | .bySource => .losing event .failed note
      | .failed => .noted event note }
  | .noting event note =>
    some { s with
      channelErrors := s.channelErrors ++ [(event.sourceId - 1, event.value.object.name, note)]
      storage := .retiring event }
  | .retiring event =>
    some { s with
      rowTail := if event.value.object = .depth then event.rowEnd else s.rowTail
      storage := .top }
  | .loadStop => some { s with storage := if s.stopStorage then .ended else .top }
  | .ended => none

/-- Where the market thread is after it has built the event of a call. -/
def entry (number : ℕ) : MarketCall δ ℓ → MarketPc δ ℓ
  | .onTrade sourceId unknownSide value =>
    .publishing { call := number, sourceId, value := .trade unknownSide value }
  | .onBbo sourceId value =>
    .publishing { call := number, sourceId, value := .bookTicker value }
  | .onDepth sourceId delta nativeStream value levels =>
    .testing { call := number, sourceId, value := .depth delta nativeStream value } levels

def step (T : NativeTopology) (s : NativeState δ ℓ) : NativeAction δ ℓ → Option (NativeState δ ℓ)
  | .call call =>
    match s.market with
    | .idle =>
      some { s with market := entry s.calls.length call, calls := s.calls ++ [call] }
    | _ => none
  | .shutdown =>
    match s.market with
    | .idle => some { s with stopStorage := true, market := .joining }
    | _ => none
  | .market => s.marketStep T
  | .storage ok lastError => s.storageStep T ok lastError

/-- The state after a successful `configure`. -/
def configured (slots : ℕ → NativeEvent δ) (rows : ℕ → ℓ) : NativeState δ ℓ :=
  { queue := { slots }, rows }

end NativeState

end HftRecorder.Capture
