import HftRecorder.Capture.RingDrain
import HftRecorder.Format.SourceState

/-!
# Late health rows

A native health row says that a feed is stale, degraded, or has a gap, and it may come after the
marker that took its channel away: `advanceBinaryMarketSourceState` therefore admits a health row of
the source's generation whether or not its channel is available. `convertRecord` has no such
exception. It looks at the descriptor in the client's directory, which is the one of the last marker
that was drained for the source (`FollowsMarkers`), and refuses every market row of a channel that the
descriptor calls unavailable, so `drainTo` ends the capture with `CorruptData` at a row that the corpus
would take.
-/

namespace HftRecorder.Capture

open ByteLayout Corpus ClientState ParserProtocol

variable {π σ : Type} {P : ParserProtocol π σ} {L : LossProtocol} {X : Platform} {A : ArenaShape}
  {s t : ClientState π σ}

/-! ## The directory follows the markers -/

/-- The membership marker of a source that a sink has taken by a call. -/
def SinkCall.marker (sourceId : UInt32) : SinkCall π σ → Option (MarketCaptureRecord π)
  | .record h .ok =>
    if h.record.channel = .membership ∧ h.record.sourceId = sourceId then some h.record else none
  | _ => none

/-- The membership markers of a source that were drained, in the order in which they were. -/
def drainedMarkers (log : List (SinkCall π σ)) (sourceId : UInt32) : List (MarketCaptureRecord π) :=
  log.filterMap (SinkCall.marker sourceId)

theorem drainedMarkers_append (log : List (SinkCall π σ)) (c : SinkCall π σ) (sourceId : UInt32) :
    drainedMarkers (log ++ [c]) sourceId =
      drainedMarkers log sourceId ++ (c.marker sourceId).toList := by
  rw [drainedMarkers, List.filterMap_append]
  cases h : c.marker sourceId with
  | none => rw [List.filterMap_cons_none h]; rfl
  | some a => rw [List.filterMap_cons_some h]; rfl

/-- The descriptor that a marker brings. -/
def ParserProtocol.markerSource (P : ParserProtocol π σ) (marker : MarketCaptureRecord π) : σ :=
  (P.membershipPayload marker.payload).source

/-- The descriptor of every source with a drained marker is the one of the last such marker, and it is
valid at its place. -/
def FollowsMarkers (P : ParserProtocol π σ) (sources : List σ) (log : List (SinkCall π σ)) : Prop :=
  ∀ sourceId marker, (drainedMarkers log sourceId).getLast? = some marker →
    sourceId ≠ 0 ∧ sources[sourceId.toNat - 1]? = some (P.markerSource marker) ∧
      P.validSourceDescriptor (P.markerSource marker) (sourceId.toNat - 1) = true

variable {log : List (SinkCall π σ)}

theorem FollowsMarkers.grow {sources more : List σ} (h : FollowsMarkers P sources log)
    (hmore : sources <+: more) : FollowsMarkers P more log := by
  intro sourceId marker hlast
  obtain ⟨hid, hsource, hvalid⟩ := h sourceId marker hlast
  obtain ⟨rest, rfl⟩ := hmore
  rw [List.getElem?_append_left (List.getElem?_eq_some_iff.mp hsource).1]
  exact ⟨hid, hsource, hvalid⟩

/-- A call that takes no marker changes nothing. -/
theorem FollowsMarkers.call {sources : List σ} {c : SinkCall π σ} (h : FollowsMarkers P sources log)
    (hc : ∀ sourceId, c.marker sourceId = none) : FollowsMarkers P sources (log ++ [c]) := by
  intro sourceId marker hlast
  rw [drainedMarkers_append, hc, Option.toList_none, List.append_nil] at hlast
  exact h sourceId marker hlast

variable {r : MarketCaptureRecord π} {shard : ℕ}

/-- What `convertRecord` has tested of a marker. -/
theorem membership_of_convertRecord {directory : List σ} {output : BinaryMarketRecord}
    (h : P.convertRecord X r shard directory = some output) (hchannel : r.channel = .membership) :
    r.sourceId ≠ 0 ∧ r.sourceId.toNat ≤ directory.length ∧
      P.validSourceDescriptor (P.markerSource r) (r.sourceId.toNat - 1) = true := by
  unfold convertRecord at h
  split at h
  · cases h
  rename_i htests
  simp only [not_or, not_not, Nat.not_lt, gt_iff_lt] at htests
  obtain ⟨-, -, hlength, -, hid⟩ := htests
  refine ⟨hid, hlength, ?_⟩
  have hcopied : P.copyMembership r ≠ none := by
    intro hnone
    simp only [copyRecordPayload, hchannel, hnone] at h
    repeat' split at h
    all_goals cases h
  unfold copyMembership at hcopied
  dsimp only at hcopied
  split at hcopied
  · exact absurd rfl hcopied
  split at hcopied
  · exact absurd rfl hcopied
  rename_i hallowed
  simp only [Bool.not_eq_true', Bool.not_eq_false, membershipAllowed, Bool.and_eq_true] at hallowed
  have hindex : (r.sourceId - 1).toNat = r.sourceId.toNat - 1 := by
    have hpos : r.sourceId.toNat ≠ 0 := fun h0 => hid (UInt32.toNat_inj.mp h0)
    rw [UInt32.toNat_sub_of_le _ _ (UInt32.le_iff_toNat_le.mpr (by
      rw [UInt32.toNat_one]; omega)), UInt32.toNat_one]
  rw [← hindex]
  exact hallowed.1.1.1.1.1.1.1.1.1.1

/-- The end of the loop's body: the directory gets the descriptor of a drained marker. -/
theorem FollowsMarkers.advance {h : Handed π σ} {output : BinaryMarketRecord}
    (hfollows : FollowsMarkers P s.sources log)
    (hconverted : P.convertRecord X h.record shard s.sources = some output) :
    FollowsMarkers P (s.advanceHead P shard h.record).sources (log ++ [.record h .ok]) := by
  dsimp only [advanceHead]
  by_cases hchannel : h.record.channel = .membership
  · obtain ⟨hid, hlength, hvalid⟩ := membership_of_convertRecord hconverted hchannel
    have hpos : h.record.sourceId.toNat ≠ 0 := fun h0 => hid (UInt32.toNat_inj.mp h0)
    rw [if_pos hchannel]
    intro sourceId marker hlast
    rw [drainedMarkers_append] at hlast
    by_cases hsame : h.record.sourceId = sourceId
    · simp only [SinkCall.marker, hchannel, hsame, and_self, if_true, Option.toList_some,
        List.getLast?_append, List.getLast?_singleton, Option.some_or, Option.some.injEq] at hlast
      subst hlast hsame
      exact ⟨hid, List.getElem?_set_self (by omega), hvalid⟩
    · simp only [SinkCall.marker, hsame, and_false, if_false, Option.toList_none,
        List.append_nil] at hlast
      obtain ⟨hother, hsource, hotherValid⟩ := hfollows sourceId marker hlast
      have hne : h.record.sourceId.toNat ≠ sourceId.toNat := fun heq =>
        hsame (UInt32.toNat_inj.mp heq)
      have hpositive : sourceId.toNat ≠ 0 := fun h0 => hother (UInt32.toNat_inj.mp h0)
      refine ⟨hother, ?_, hotherValid⟩
      rw [List.getElem?_set_ne (by omega)]
      exact hsource
  · rw [if_neg hchannel]
    exact hfollows.call fun sourceId => by simp [SinkCall.marker, hchannel]

/-- The invariant of the directory. Between the sink's `Ok` and the store of `read` the last marker is
not yet taken over. -/
def Directory (P : ParserProtocol π σ) (X : Platform) (s : ClientState π σ) : Prop :=
  match s.pc with
  | .draining _ (.handing _ shard record output) =>
    P.convertRecord X record shard s.sources = some output ∧ FollowsMarkers P s.sources s.log
  | .draining _ (.advancing _ shard record) => ∃ before h output,
    s.log = before ++ [.record h .ok] ∧ h.record = record ∧
      P.convertRecord X record shard s.sources = some output ∧ FollowsMarkers P s.sources before
  | _ => FollowsMarkers P s.sources s.log

theorem directory_of_headless (h : s.pc.headless = true) :
    Directory P X s ↔ FollowsMarkers P s.sources s.log := by
  unfold Directory
  split <;> simp_all [ClientPc.headless]

theorem FollowsMarkers.quiet (h : FollowsMarkers P s.sources s.log) (hquiet : Quiet s t)
    (hsources : s.sources <+: t.sources) : FollowsMarkers P t.sources t.log := by
  rcases hquiet.log_eq with hlog | ⟨c, hc, hlog⟩
  · rw [hlog]
    exact h.grow hsources
  · rw [hlog]
    refine (h.grow hsources).call fun sourceId => ?_
    cases c with
    | record => cases hc
    | _ => rfl

theorem sources_loadStep (s : ClientState π σ) (call : ClientCall) (pc : LoadPc σ)
    (input : ClientInput) : s.sources <+: (s.loadStep P A call pc input).sources := by
  cases pc with
  | confirmCount generation copied =>
    dsimp only [loadStep, installDirectory]
    grind [finish]
  | _ => grind [loadStep, finish]

theorem sources_progressStep (s : ClientState π σ) (call : ClientCall) (pc : ProgressPc)
    (input : ClientInput) : (s.progressStep L A call pc input).sources = s.sources := by
  cases pc with
  | losses => grind [progressStep, lossStep, finish]
  | gaps work remaining =>
    cases remaining <;> grind [progressStep, finish, called]
  | _ => grind [progressStep, finish, called]

theorem directory_drainLoop (call : ClientCall) (drained : ℕ)
    (h : FollowsMarkers P s.sources s.log) : Directory P X (s.drainLoop call drained) := by
  unfold drainLoop Directory
  dsimp only
  split_ifs <;> exact h

theorem directory_drainStep {call : ClientCall} {pc : DrainPc π} (h : Directory P X s)
    (hpc : s.pc = .draining call pc) (input : ClientInput) :
    Directory P X (s.drainStep P X A call pc input) := by
  unfold Directory at h
  rw [hpc] at h
  cases pc with
  | checkGeneration | checkCount =>
    dsimp only [drainStep, Directory]
    split_ifs <;> exact h
  | registering =>
    have hcalled : ∀ source, FollowsMarkers P s.sources (s.log ++ [.source source input.result]) :=
      fun source => h.call fun _ => rfl
    dsimp only [drainStep]
    split
    · exact directory_drainLoop call 0 h
    split_ifs
    · exact h
    · unfold Directory called
      dsimp only
      rw [hpc]
      exact hcalled _
    · exact hcalled _
  | scanning drained candidate first =>
    dsimp only [drainStep]
    split
    · split
      · exact h
      · exact h
    · cases first <;> exact h
  | taking drained shard =>
    dsimp only [drainStep, takeHead]
    split_ifs
    · exact h
    · exact h
    · exact h
    split
    · exact h
    · rename_i output houtput
      exact ⟨houtput, h⟩
  | handing drained shard record output =>
    -- An accepted record is in the log before the client follows its marker.
    obtain ⟨hconverted, hfollows⟩ := h
    dsimp only [drainStep]
    split
    · rename_i hok
      rw [hok]
      exact ⟨s.log, s.handed shard record output, output, rfl, rfl, hconverted, hfollows⟩
    · rename_i hok
      refine hfollows.call fun sourceId => ?_
      cases hresult : input.result with
      | ok => exact absurd hresult hok
      | _ => rfl
  | advancing drained shard record =>
    obtain ⟨before, handed, output, hlog, rfl, hconverted, hfollows⟩ := h
    have hadvanced := hfollows.advance hconverted
    rw [← hlog] at hadvanced
    exact directory_drainLoop call (drained + 1) hadvanced

/-- An action keeps what is known of the directory. -/
theorem directory_step {a : ClientAction π σ} (ht : s.step P L X A a = some t)
    (h : Directory P X s) : Directory P X t := by
  cases a with
  | call call =>
    simp only [ClientState.step] at ht
    split at ht
    · rename_i hpc
      cases ht
      unfold Directory at h
      rw [hpc] at h
      refine (directory_of_headless (quiet_enter s call).2).mpr (h.quiet (quiet_enter s call).1 ?_)
      cases call <;> grind [enter, finish]
    · cases ht
  | client input =>
    simp only [ClientState.step, clientStep] at ht
    split at ht
    · cases ht
    · rename_i call pc hpc
      cases ht
      unfold Directory at h
      rw [hpc] at h
      exact (directory_of_headless (quiet_loadStep s call pc input).2).mpr
        (h.quiet (quiet_loadStep s call pc input).1 (sources_loadStep s call pc input))
    · rename_i call pc hpc
      cases ht
      exact directory_drainStep h hpc input
    · rename_i call pc hpc
      cases ht
      unfold Directory at h
      rw [hpc] at h
      exact (directory_of_headless (quiet_progressStep s call pc input).2).mpr
        (h.quiet (quiet_progressStep s call pc input).1
          (sources_progressStep s call pc input ▸ List.prefix_rfl))
  | store | publish | arena =>
    -- The producer leaves the client's own state.
    have hsame : t.pc = s.pc ∧ t.sources = s.sources ∧ t.log = s.log := by
      grind [ClientState.step, ClientState.storeRecord, ClientState.publishRecord]
    unfold Directory
    rw [hsame.1, hsame.2.1, hsame.2.2]
    exact h

theorem directory_run {actions : List (ClientAction π σ)}
    (h : Machine.run (ClientState.step P L X A) s actions = some t) (hs : Directory P X s) :
    Directory P X t :=
  Machine.run_invariant (fun _ _ _ hstep hs => directory_step hstep hs) h hs

/-! ## Health rows -/

namespace ParserProtocol

variable (P)

/-- The test of `convertRecord` that looks at the descriptor: its compatibility covers the record's
channel, and the record's own if the record is replay-compatible. -/
def covers (r : MarketCaptureRecord π) (source : σ) : Bool :=
  P.compatibility source r.channel ≠ .unavailable &&
    (!P.hasFlag r .traderReplayCompatible || P.compatibility source r.channel = .exactTraderReplay)

/-- The tests of `convertRecord` that look at the record's flags and the rest of its payload. -/
def wellFormed (r : MarketCaptureRecord π) : Bool :=
  !((P.hasFlag r .bboFreshnessOnly && r.channel ≠ .bookTicker) ||
      (r.flags &&& P.depthFlags ≠ 0 && r.channel ≠ .depth) ||
      (r.channel = .depth && r.flags &&& P.depthKindFlags = 0)) &&
    P.payloadTailIsZero r.payload r.payloadBytes

/-- The bit of a channel in the masks of a descriptor. -/
def channelBit (channel : MarketCaptureChannel) : UInt16 :=
  1 <<< UInt16.ofNat (P.marketCaptureChannelIndex channel)

/-- The masks of a descriptor have the record's channel, and have it for the replay if the record is
replay-compatible. -/
def offers (r : MarketCaptureRecord π) (source : σ) : Bool :=
  (P.descriptor source).availableChannelMask &&& P.channelBit r.channel ≠ 0 &&
    (!P.hasFlag r .traderReplayCompatible ||
      (P.descriptor source).traderReplayChannelMask &&& P.channelBit r.channel ≠ 0)

end ParserProtocol

variable {source : σ}

/-- The compatibility of a valid descriptor is the one of its masks. -/
theorem covers_eq_offers {index : ℕ} (hvalid : P.validSourceDescriptor source index = true)
    (hchannel : P.marketCaptureChannelIndex r.channel < P.kMarketCaptureChannelCount) :
    P.covers r source = P.offers r source := by
  have hmasks : P.validDescriptorChannel source (P.marketCaptureChannelIndex r.channel) = true := by
    simp only [validSourceDescriptor, Bool.and_eq_true] at hvalid
    exact List.all_eq_true.mp hvalid.2 _ (List.mem_range.mpr hchannel)
  unfold validDescriptorChannel at hmasks
  unfold covers offers compatibility
    channelBit
  grind

theorem recordAllowed_of_market (hmarket : r.channel ≠ .membership) (source : σ) :
    P.recordAllowed r source = (P.covers r source && P.wellFormed r) := by
  have hdescriptor : (!(decide (r.channel ≠ .membership) &&
      (decide (P.compatibility source r.channel = .unavailable) ||
        (P.hasFlag r .traderReplayCompatible &&
          decide (P.compatibility source r.channel ≠ .exactTraderReplay))))) =
      P.covers r source := by
    unfold covers
    simp only [hmarket, ne_eq, not_false_eq_true, decide_true, Bool.true_and, Bool.not_or,
      Bool.not_and, decide_not, Bool.not_not]
  unfold recordAllowed ParserProtocol.wellFormed
  dsimp only
  rw [hdescriptor, Bool.and_assoc]

/-- A record of the parser that is a native health row for a shard, and the corpus's row for it: it
passes every test of `convertRecord` that does not look at the directory. -/
structure HealthRow (P : ParserProtocol π σ) (X : Platform) (r : MarketCaptureRecord π) (shard : ℕ)
    (output : BinaryMarketRecord) : Prop where
  valid : P.validMarketCaptureRecord r = true
  shardIndex_eq : r.shardIndex.toNat = shard
  sourceFlags_known : r.sourceFlags &&& ~~~P.kSourceFlagsKnown = 0
  market : r.channel ≠ .membership
  channel_lt : P.marketCaptureChannelIndex r.channel < P.kMarketCaptureChannelCount
  wellFormed : P.wellFormed r = true
  converts : ∃ payloadBytes payload, P.copyRecordPayload X r = some (payloadBytes, payload) ∧
    output = P.outputRecord r payloadBytes payload
  outputValid : validBinaryMarketRecord X output = true
  health : binaryMarketRecordIsSourceHealth output = true

variable {r : MarketCaptureRecord π} {shard : ℕ} {output : BinaryMarketRecord}

theorem HealthRow.convertRecord_eq (h : HealthRow P X r shard output) {directory : List σ}
    (hid : r.sourceId ≠ 0) (hsource : directory[r.sourceId.toNat - 1]? = some source) :
    P.convertRecord X r shard directory = if P.covers r source then some output else none := by
  obtain ⟨payloadBytes, payload, hcopy, hout⟩ := h.converts
  have hlength : ¬ r.sourceId.toNat > directory.length := by
    have hlt := List.getElem?_eq_some_iff.mp hsource |>.1
    have hpos : r.sourceId.toNat ≠ 0 := fun h0 => hid (UInt32.toNat_inj.mp h0)
    omega
  unfold convertRecord
  rw [if_neg (by simp [h.valid, h.shardIndex_eq, h.sourceFlags_known, hid, hlength]), hsource]
  dsimp only
  rw [recordAllowed_of_market h.market, h.wellFormed, Bool.and_true, hcopy]
  dsimp only
  rw [← hout, if_pos h.outputValid]

/-- The source state of the writer admits a health row exactly if it is of the source's generation. -/
theorem advance_health (h : binaryMarketRecordIsSourceHealth output)
    (state : BinaryMarketSourceState) :
    (advanceBinaryMarketSourceState output state false).isSome ↔
      state.generation = output.sourceGeneration := by
  have hmarket : output.channel ≠ .sourceLifecycle := by
    intro hchannel
    rw [binaryMarketRecordIsSourceHealth, hchannel] at h
    cases h
  unfold advanceBinaryMarketSourceState advanceMarketRecord
  rw [if_pos hmarket, h]
  by_cases hgeneration : state.generation = output.sourceGeneration
  · simp [hgeneration]
  · simp [hgeneration]

def headRecord (s : ClientState π σ) (shard : ℕ) : MarketCaptureRecord π :=
  ringRecord (s.arena.rings shard) (s.arena.rings shard).read

variable {call : ClientCall} {drained : ℕ}

/-- The next step of the client hands the head of a shard to the sink. -/
def HandsOver (P : ParserProtocol π σ) (L : LossProtocol) (X : Platform) (A : ArenaShape)
    (s : ClientState π σ) (call : ClientCall) (drained shard : ℕ) (output : BinaryMarketRecord) :
    Prop :=
  ∀ input, s.clientStep P L X A input =
    some { s with pc := .draining call (.handing drained shard (headRecord s shard) output) }

/-- A health row at the head of a shard is handed over if `convertRecord` takes it, and otherwise ends
the call with `CorruptData`. -/
theorem HealthRow.clientStep_eq (h : HealthRow P X (headRecord s shard) shard output)
    (hpc : s.pc = .draining call (.taking drained shard)) (hid : (headRecord s shard).sourceId ≠ 0)
    (hsource : s.sources[(headRecord s shard).sourceId.toNat - 1]? = some source)
    (input : ClientInput) :
    s.clientStep P L X A input = some
      (if P.covers (headRecord s shard) source then
        { s with pc := .draining call (.handing drained shard (headRecord s shard) output) }
      else s.finish .corruptData "parser capture record contract mismatch") := by
  have hlength : (headRecord s shard).sourceId.toNat ≤ s.sources.length := by
    have hlt := List.getElem?_eq_some_iff.mp hsource |>.1
    omega
  have hvisible :
      visible P s.sources s.directoryGeneration (headRecord s shard) = true := by
    simp [visible, h.market, hlength]
  unfold clientStep
  rw [hpc]
  dsimp only [drainStep, takeHead]
  rw [← headRecord, if_neg (fun hmembership => h.market hmembership.1), hvisible,
    if_neg (by simp), h.convertRecord_eq hid hsource]
  by_cases hcovers : P.covers (headRecord s shard) source = true
  · rw [if_pos hcovers, if_pos hcovers]
  · rw [if_neg hcovers, if_neg hcovers]

/-- A native health row of a channel that a drained marker has taken away, and that the writer's
source state admits, is taken by `convertRecord` and handed over by `drainTo` exactly if it is not of
the generation of the source state, which then does not admit it, or the last marker drained after
the removal has brought the channel back. -/
theorem late_health_handed_over_iff {arena : CaptureArena π σ}
    {slots : ℕ → ℕ → MarketCaptureRecord π} {epoch : UInt64} {actions : List (ClientAction π σ)}
    (hrun : Machine.run (ClientState.step P L X A) (.attached A arena slots epoch) actions = some s)
    (hpc : s.pc = .draining call (.taking drained shard))
    {before after : List (MarketCaptureRecord π)} {removal : MarketCaptureRecord π}
    (hmarkers : drainedMarkers s.log (headRecord s shard).sourceId = before ++ removal :: after)
    (hremoved : (P.descriptor (P.markerSource removal)).availableChannelMask &&&
      P.channelBit (headRecord s shard).channel = 0)
    (hrow : HealthRow P X (headRecord s shard) shard output) (state : BinaryMarketSourceState) :
    ((advanceBinaryMarketSourceState output state false).isSome →
      P.convertRecord X (headRecord s shard) shard s.sources = some output ∧
        HandsOver P L X A s call drained shard output) ↔
    state.generation ≠ output.sourceGeneration ∨ ∃ marker, after.getLast? = some marker ∧
      P.offers (headRecord s shard) (P.markerSource marker) = true := by
  have hdirectory : FollowsMarkers P s.sources s.log := by
    have h := directory_run hrun (P := P) (X := X) (fun _ _ h => by cases h)
    unfold Directory at h
    rw [hpc] at h
    exact h
  obtain ⟨last, hlast⟩ : ∃ last, (removal :: after).getLast? = some last :=
    ⟨_, List.getLast?_eq_some_getLast (List.cons_ne_nil removal after)⟩
  obtain ⟨hid, hsource, hvalid⟩ := hdirectory _ last
    (by rw [hmarkers, List.getLast?_append, hlast, Option.some_or])
  have hcovers := covers_eq_offers hvalid hrow.channel_lt
  -- The last marker is the removal itself, which does not offer the channel, or a later one.
  have hback : P.offers (headRecord s shard) (P.markerSource last) = true ↔
      ∃ marker, after.getLast? = some marker ∧
        P.offers (headRecord s shard) (P.markerSource marker) = true := by
    cases after with
    | nil =>
      cases hlast
      simp [offers, hremoved]
    | cons marker after =>
      rw [List.getLast?_cons_cons] at hlast
      simp [hlast]
  unfold HandsOver
  rw [advance_health hrow.health, hrow.convertRecord_eq hid hsource, ← hback, ← hcovers]
  simp only [hrow.clientStep_eq hpc hid hsource]
  by_cases htaken : P.covers (headRecord s shard) (P.markerSource last) = true
  · simp [htaken]
  · simp [htaken]

/-! ## A removed channel

One source, whose book ticker is taken away by a marker before a stale book ticker arrives. -/

def removedSource : BinaryMarketSource :=
  withUnavailableOutside 0 ((smallSource.withAvailableChannelMask 0).withTraderReplayChannelMask 0)

/-- A marker that changes the available channels of the source. -/
def changeMarker (receiveMonotonicNs shardSequence revision : UInt64) (action : UInt8)
    (before after : UInt16) (source : BinaryMarketSource) : MarketCaptureRecord SamplePayload :=
  { smallTicker receiveMonotonicNs shardSequence with
    flags := recordTraderReplayCompatible, sessionEpoch := 0, frameSequence := 0
    payloadBytes := 304, sourceFlags := 0, channel := .membership
    payload :=
      { membership :=
          { directoryRevision := revision, previousSourceGeneration := 1, requestSequence := 0
            sourceGeneration := 1, sessionEpoch := 0, canonicalSymbolId := 1, venueId := 1
            marketRaw := 1, channelMaskBefore := before, channelMaskAfter := after
            affectedChannel := 1, action, status := 0, cause := .subscription, reserved := []
            source } } }

/-- The marker that takes the channel away, and the one that brings it back. -/
def removalMarker : MarketCaptureRecord SamplePayload := changeMarker 10 1 1 2 1 0 removedSource
def readdedMarker : MarketCaptureRecord SamplePayload := changeMarker 20 2 2 1 0 1 smallSource

/-- A stale book ticker with a bid. -/
def staleTicker : MarketCaptureRecord SamplePayload :=
  { smallTicker 30 3 with sourceFlags := 0x10 ||| sourceStale }

def rowOf (r : MarketCaptureRecord SamplePayload) : BinaryMarketRecord :=
  match smallProtocol.copyRecordPayload .stored r with
  | none => ⟨Raw.ofBytes 1024 []⟩
  | some (payloadBytes, payload) => smallProtocol.outputRecord r payloadBytes payload

/-- An arena with the revision of both markers. -/
def changedArena : CaptureArena SamplePayload BinaryMarketSource :=
  { smallArena with directoryGeneration := 2 }

def changedStart : ClientState SamplePayload BinaryMarketSource :=
  .attached smallShape changedArena (fun _ _ => smallTicker 0 0) 1

def callDrain : ClientAction SamplePayload BinaryMarketSource :=
  .call (.drainTo 0 ⟨false, false, false⟩)

/-- The markers are drained, and then a stale book ticker is published and `drainTo` called until it
is about to read it. -/
def staleAfter (markers : List (MarketCaptureRecord SamplePayload)) (steps : ℕ) :
    List (ClientAction SamplePayload BinaryMarketSource) :=
  .call .loadSourceDirectory :: goOn 6 ++
    markers.flatMap (fun marker => [.store 0 marker, .publish 0]) ++ callDrain :: goOn steps ++
    [.store 0 staleTicker, .publish 0] ++ callDrain :: goOn 5

/-- The shard whose head the client is about to read. -/
def ClientPc.taking? : ClientPc π σ → Option ℕ
  | .draining _ (.taking _ shard) => some shard
  | _ => none

theorem eq_of_taking? {pc : ClientPc π σ} (h : pc.taking? = some shard) :
    ∃ call drained, pc = .draining call (.taking drained shard) := by
  unfold ClientPc.taking? at h
  split at h
  · cases h
    exact ⟨_, _, rfl⟩
  · cases h

/-- The parts of `HealthRow` that are not about the corpus's row, for a book ticker. -/
def plainTicker (r : MarketCaptureRecord SamplePayload) : Bool :=
  r.shardIndex = 0 && r.sourceFlags &&& ~~~smallProtocol.kSourceFlagsKnown = 0 &&
    r.channel = .bookTicker && smallProtocol.wellFormed r &&
    (smallProtocol.copyRecordPayload .stored r).isSome

theorem healthRow_of_plainTicker {r : MarketCaptureRecord SamplePayload} (h : plainTicker r = true)
    (hrow : rowOf r = rowOf staleTicker) : HealthRow smallProtocol .stored r 0 (rowOf staleTicker) := by
  simp only [plainTicker, Bool.and_eq_true, decide_eq_true_eq] at h
  obtain ⟨⟨⟨⟨hshard, hflags⟩, hchannel⟩, hformed⟩, hsome⟩ := h
  obtain ⟨⟨payloadBytes, payload⟩, hcopy⟩ := Option.isSome_iff_exists.mp hsome
  refine ⟨rfl, by rw [hshard]; rfl, hflags, by rw [hchannel]; decide, by rw [hchannel]; decide, hformed,
    ⟨payloadBytes, payload, hcopy, ?_⟩, by decide +kernel, by decide +kernel⟩
  rw [← hrow, rowOf, hcopy]

/-- The source state of the writer after the rows of some markers. -/
def stateAfter (markers : List (MarketCaptureRecord SamplePayload)) :
    Option BinaryMarketSourceState :=
  runSourceState (fun _ => false) (initialBinaryMarketSourceState smallSource) (markers.map rowOf)

theorem staleAfter_readded_run :
    (Machine.run (ClientState.step smallProtocol smallLosses .stored smallShape) changedStart
      (staleAfter [removalMarker, readdedMarker] 32)).map (fun s => decide
        (s.pc.taking? = some 0 ∧ (headRecord s 0).sourceId = 1 ∧ plainTicker (headRecord s 0) = true ∧
          rowOf (headRecord s 0) = rowOf staleTicker ∧
          (drainedMarkers s.log 1).map (fun marker =>
            (descriptorOf (smallProtocol.markerSource marker)).availableChannelMask) = [0, 1] ∧
          (headRecord s 0).flags = 0)) = some true := by
  decide +kernel

theorem stateAfter_admits :
    (stateAfter [removalMarker]).map (fun state => decide (state.availableMask = 0 ∧
        (advanceBinaryMarketSourceState (rowOf staleTicker) state false).isSome = true)) = some true ∧
      (stateAfter [removalMarker, readdedMarker]).map (fun state => decide
        ((advanceBinaryMarketSourceState (rowOf staleTicker) state false).isSome = true)) =
          some true := by
  decide +kernel

/-- The channel is taken away and brought back, and the stale book ticker is handed over. -/
theorem late_health_handed_over_readded :
    ∃ s call drained removal readded state,
      Machine.run (ClientState.step smallProtocol smallLosses .stored smallShape) changedStart
          (staleAfter [removalMarker, readdedMarker] 32) = some s ∧
        drainedMarkers s.log (headRecord s 0).sourceId = [removal, readded] ∧
        (descriptorOf (smallProtocol.markerSource removal)).availableChannelMask = 0 ∧
        stateAfter [removalMarker, readdedMarker] = some state ∧
        (advanceBinaryMarketSourceState (rowOf staleTicker) state false).isSome ∧
        smallProtocol.convertRecord .stored (headRecord s 0) 0 s.sources = some (rowOf staleTicker) ∧
        HandsOver smallProtocol smallLosses .stored smallShape s call drained 0
          (rowOf staleTicker) := by
  obtain ⟨s, hs, heq⟩ := Option.map_eq_some_iff.mp staleAfter_readded_run
  obtain ⟨htaking, hid, hplain, hrow, hmasks, hflags⟩ := of_decide_eq_true heq
  obtain ⟨state, hstate, heq⟩ := Option.map_eq_some_iff.mp stateAfter_admits.2
  have hadmitted := of_decide_eq_true heq
  obtain ⟨call, drained, hpc⟩ := eq_of_taking? htaking
  obtain ⟨removal, rest, hmarkers, hremoved, hrest⟩ := List.map_eq_cons_iff.mp hmasks
  obtain ⟨readded, rfl, hreadded⟩ := List.map_eq_singleton_iff.mp hrest
  rw [← hid] at hmarkers
  have hchannel : (headRecord s 0).channel = .bookTicker := by
    simp only [plainTicker, Bool.and_eq_true, decide_eq_true_eq] at hplain
    exact hplain.1.1.2
  have hoffers : smallProtocol.offers (headRecord s 0) (smallProtocol.markerSource readded) = true := by
    have hmask : (smallProtocol.descriptor (smallProtocol.markerSource readded)).availableChannelMask =
      1 := hreadded
    rw [offers, hasFlag, hchannel, hmask, hflags]
    rfl
  refine ⟨s, call, drained, removal, readded, state, hs, hmarkers, hremoved, hstate, hadmitted,
    (late_health_handed_over_iff hs hpc (hmarkers.trans (List.nil_append _).symm) ?_
      (healthRow_of_plainTicker hplain hrow) state).mpr (.inr ⟨readded, rfl, hoffers⟩) hadmitted⟩
  have hmask : (smallProtocol.descriptor (smallProtocol.markerSource removal)).availableChannelMask =
    0 := hremoved
  rw [hmask, UInt16.zero_and]

theorem staleAfter_removed_run :
    (Machine.run (ClientState.step smallProtocol smallLosses .stored smallShape) changedStart
      (staleAfter [removalMarker] 27 ++ goOn 1)).map (fun s => decide
        ((deliveries s.log 0).map Handed.output = [rowOf removalMarker] ∧
          plainTicker (headRecord s 0) = true ∧ rowOf (headRecord s 0) = rowOf staleTicker ∧
          (smallProtocol.convertRecord .stored (headRecord s 0) 0 s.sources).isNone = true ∧
          s.status = .corruptData ∧ s.error = "parser capture record contract mismatch")) =
      some true := by
  decide +kernel

/-- The channel is taken away. The source state of the writer admits the stale book ticker that
follows, and the capture ends at it. -/
theorem late_health_ends_capture :
    ∃ s state, Machine.run (ClientState.step smallProtocol smallLosses .stored smallShape)
        changedStart (staleAfter [removalMarker] 27 ++ goOn 1) = some s ∧
      (deliveries s.log 0).map Handed.output = [rowOf removalMarker] ∧
      stateAfter [removalMarker] = some state ∧ state.availableMask = 0 ∧
      HealthRow smallProtocol .stored (headRecord s 0) 0 (rowOf staleTicker) ∧
      (advanceBinaryMarketSourceState (rowOf staleTicker) state false).isSome = true ∧
      (smallProtocol.convertRecord .stored (headRecord s 0) 0 s.sources).isNone = true ∧
      s.status = .corruptData ∧ s.error = "parser capture record contract mismatch" := by
  obtain ⟨s, hs, heq⟩ := Option.map_eq_some_iff.mp staleAfter_removed_run
  obtain ⟨hdelivered, hplain, hrow, hrefused, hstatus, herror⟩ := of_decide_eq_true heq
  obtain ⟨state, hstate, heq⟩ := Option.map_eq_some_iff.mp stateAfter_admits.1
  obtain ⟨hmask, hadmitted⟩ := of_decide_eq_true heq
  exact ⟨s, state, hs, hdelivered, hstate, hmask, healthRow_of_plainTicker hplain hrow, hadmitted,
    hrefused, hstatus, herror⟩

end HftRecorder.Capture
