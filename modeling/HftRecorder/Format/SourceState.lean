import HftRecorder.Format.Record

/-!
# Source states

`BinaryMarketSourceState.hpp`: what the writer and the reader know of a source after the records seen
so far. `advanceBinaryMarketSourceState` admits a record and moves the state; it changes nothing when
it refuses, so a refusal is `none`. The reader reports a native rebase by the last argument, which the
writer leaves `false`.
-/

namespace HftRecorder.Corpus

open ByteLayout BinaryMarketChannel

/-- `BinaryMarketSourceState`. -/
structure BinaryMarketSourceState where
  metadata : BinaryMarketSource
  generation : ℕ := 0
  availableMask : UInt16 := 0
  directoryRevision : ℕ := 0
  unhealthyMask : UInt16 := 0
  administrativeUnhealthyMask : UInt16 := 0
  recoveryPendingMask : UInt16 := 0
  deriving DecidableEq

/-- `initialBinaryMarketSourceState`. -/
def initialBinaryMarketSourceState (source : BinaryMarketSource) : BinaryMarketSourceState where
  metadata := source
  generation := if source.initiallyPresent ≠ 0 then source.initialSourceGeneration else 0
  availableMask := if source.initiallyPresent ≠ 0 then source.availableChannelMask else 0

/-- The entry with the compatibility of every channel outside the mask set to unavailable. -/
def withUnavailableOutside (mask : UInt16) (source : BinaryMarketSource) : BinaryMarketSource :=
  (List.finRange 8).foldl (fun s c =>
    if mask &&& (1 <<< UInt16.ofNat c.val) = 0 then s.withCompatibility c .unavailable else s) source

/-- `effectiveBinaryMarketSource`. -/
def effectiveBinaryMarketSource (state : BinaryMarketSourceState) : BinaryMarketSource :=
  withUnavailableOutside state.availableMask
    ((((state.metadata.withInitiallyPresent (if state.availableMask ≠ 0 then 1 else 0)
      ).withInitialSourceGeneration state.generation
      ).withAvailableChannelMask state.availableMask
      ).withTraderReplayChannelMask (state.metadata.traderReplayChannelMask &&& state.availableMask))

/-- A market record that is not a health notification is admitted: its channel is available, and its
compatibility covers the record's. -/
def marketRecordAdmitted (r : BinaryMarketRecord) (state : BinaryMarketSourceState) : Bool :=
  let compatibility := state.metadata.compatibility (binaryMarketChannelIndex r.channel)
  state.availableMask &&& binaryMarketChannelBit r.channel ≠ 0 && compatibility ≠ .unavailable &&
    (!r.hasFlag recordTraderReplayCompatible || compatibility = .exactTraderReplay)

/-- The health masks after an admitted market record. -/
def recoverChannel (r : BinaryMarketRecord) (nativeRebaseSnapshot : Bool)
    (state : BinaryMarketSourceState) : BinaryMarketSourceState :=
  let bit := binaryMarketChannelBit r.channel
  if !r.hasFlag recordTraderReplayCompatible then state
  else if r.channel ≠ depth then { state with unhealthyMask := state.unhealthyMask &&& ~~~bit }
  else if !r.hasFlag recordDepthCoverage ∧ state.administrativeUnhealthyMask &&& bit = 0 then
    let nativeState := r.depthChunkPayload.state
    if nativeState = .healthy ∨ nativeState = .partialDepth ∨ nativeRebaseSnapshot then
      { state with
        unhealthyMask := state.unhealthyMask &&& ~~~bit
        recoveryPendingMask := state.recoveryPendingMask &&& ~~~bit }
    else state
  else state

def advanceMarketRecord (r : BinaryMarketRecord) (nativeRebaseSnapshot : Bool)
    (state : BinaryMarketSourceState) : Option BinaryMarketSourceState :=
  if state.generation ≠ r.sourceGeneration then none
  else if binaryMarketRecordIsSourceHealth r then
    some { state with unhealthyMask := state.unhealthyMask ||| binaryMarketChannelBit r.channel }
  else if marketRecordAdmitted r state then some (recoverChannel r nativeRebaseSnapshot state)
  else none

/-- The health masks after a native transition of a channel. -/
def transitionHealth (p : BinaryMarketSourceLifecyclePayload) (state : BinaryMarketSourceState) :
    BinaryMarketSourceState :=
  let bit := binaryMarketChannelBit (.ofCode p.affectedChannel)
  if binaryMarketTransitionIsUnhealthy p.cause then
    if p.affectedChannel = depth.code then
      { state with
        unhealthyMask := state.unhealthyMask ||| bit
        administrativeUnhealthyMask := state.administrativeUnhealthyMask ||| bit
        recoveryPendingMask := state.recoveryPendingMask &&& ~~~bit }
    else { state with unhealthyMask := state.unhealthyMask ||| bit }
  else if p.cause = .nativeRecovered then
    if p.affectedChannel = depth.code then
      { state with
        administrativeUnhealthyMask := state.administrativeUnhealthyMask &&& ~~~bit
        recoveryPendingMask := state.recoveryPendingMask ||| bit
        unhealthyMask := state.unhealthyMask ||| bit }
    else { state with unhealthyMask := state.unhealthyMask &&& ~~~bit }
  else state

/-- The branch for lifecycle records with a native cause. -/
def advanceNativeHealth (r : BinaryMarketRecord) (state : BinaryMarketSourceState) :
    Option BinaryMarketSourceState :=
  let p := r.lifecyclePayload
  if p.kind ≠ .directoryChanged ∨ !sameBinaryMarketSourceRules state.metadata p.source ∨
      r.sourceGeneration < state.generation ∨
      (r.sourceGeneration ≠ state.generation ∧ p.cause ≠ .nativeRecovered) ∨
      p.channelMaskBefore ≠ p.channelMaskAfter then none
  else some { transitionHealth p state with generation := r.sourceGeneration }

/-- The channel masks of a subscription change fit its kind. -/
def validLifecycleChange (r : BinaryMarketRecord) (state : BinaryMarketSourceState) : Bool :=
  let p := r.lifecyclePayload
  let added := p.channelMaskAfter &&& ~~~p.channelMaskBefore
  let removed := p.channelMaskBefore &&& ~~~p.channelMaskAfter
  match p.kind with
  | .added => !(p.channelMaskAfter = 0 || added = 0 || removed ≠ 0)
  | .removed =>
    !(r.sourceGeneration ≠ state.generation || p.channelMaskBefore = 0 || removed = 0 || added ≠ 0)
  | .readded => !(p.channelMaskAfter = 0 || state.generation = 0 || added = 0 || removed ≠ 0)
  | .directoryChanged => !(p.channelMaskBefore ≠ p.channelMaskAfter || state.generation = 0)
  | .other _ => true

/-- The branch for lifecycle records with the subscription cause. A new generation clears the health
masks, and within a generation the changed channels are cleared. -/
def advanceSubscription (r : BinaryMarketRecord) (state : BinaryMarketSourceState) :
    Option BinaryMarketSourceState :=
  let p := r.lifecyclePayload
  if p.previousSourceGeneration ≠ state.generation ∨ p.channelMaskBefore ≠ state.availableMask ∨
      r.sourceGeneration < state.generation ∨ p.directoryRevision ≤ state.directoryRevision then none
  else if !validLifecycleChange r state then none
  else
    let kept : UInt16 :=
      if r.sourceGeneration ≠ state.generation then 0
      else ~~~(p.channelMaskBefore ^^^ p.channelMaskAfter)
    some {
      metadata := p.source
      generation := r.sourceGeneration
      availableMask := p.channelMaskAfter
      directoryRevision := p.directoryRevision
      unhealthyMask := state.unhealthyMask &&& kept
      administrativeUnhealthyMask := state.administrativeUnhealthyMask &&& kept
      recoveryPendingMask := state.recoveryPendingMask &&& kept }

/-- `advanceBinaryMarketSourceState`: the state after a record of the source, or `none` if the record
is refused. The writer passes `false` for the last argument. -/
def advanceBinaryMarketSourceState (r : BinaryMarketRecord) (state : BinaryMarketSourceState)
    (nativeRebaseSnapshot : Bool) : Option BinaryMarketSourceState :=
  if r.channel ≠ sourceLifecycle then advanceMarketRecord r nativeRebaseSnapshot state
  else if !sameBinaryMarketSourceIdentity state.metadata r.lifecyclePayload.source then none
  else if r.lifecyclePayload.cause ≠ .subscription then advanceNativeHealth r state
  else advanceSubscription r state

/-- The state of a source after a list of its records, with `rebase` reporting native rebases. -/
def runSourceState (rebase : BinaryMarketRecord → Bool) (s : BinaryMarketSourceState) :
    List BinaryMarketRecord → Option BinaryMarketSourceState
  | [] => some s
  | r :: rs =>
    match advanceBinaryMarketSourceState r s (rebase r) with
    | none => none
    | some s => runSourceState rebase s rs

end HftRecorder.Corpus
