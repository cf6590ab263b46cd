import HftRecorder.Format.SourceState
import HftRecorder.Lib.Mask

/-!
# The health of a source

What the three health masks of a source state mean over a whole run. `Advanced` lists what an admitted
record can do to a source state. From it follow that a source keeps its identity and does not go back,
that the two administrative masks stay within the depth bit and apart (`HealthMasks`), and that a depth
channel which was marked unhealthy becomes healthy again in two ways only, a change of its subscription
or a native recovery confirmed by a depth record. The writer and the reader advance their source states
with different reports of native rebases, and `Follows` is what the reader's state is to the writer's.
-/

namespace HftRecorder.Corpus

open BinaryMarketChannel ByteLayout Mask

variable {r : BinaryMarketRecord} {f : Bool} {s t u : BinaryMarketSourceState}

/-! ## Bits of channels -/

/-- The position of the depth channel in a mask. -/
def depthIndex : ℕ := binaryMarketChannelIndex depth

theorem has_channelBit (n i : ℕ) :
    has (binaryMarketChannelBit (.ofCode n)) i = decide (1 ≤ n ∧ n ≤ 8 ∧ i = n - 1) := by
  unfold binaryMarketChannelBit validBinaryMarketChannel binaryMarketChannelIndex
  rw [code_ofCode]
  split_ifs with hvalid
  · simp only [Bool.and_eq_true, decide_eq_true_eq] at hvalid
    rw [has_shiftLeft (by omega), decide_eq_decide]
    omega
  · simp only [Bool.and_eq_true, decide_eq_true_eq] at hvalid
    rw [has_zero]
    symm
    rw [decide_eq_false_iff_not]
    omega

theorem has_depthBit (i : ℕ) : has (binaryMarketChannelBit depth) i = decide (i = depthIndex) := by
  refine (has_channelBit 3 i).trans (decide_eq_decide.mpr ?_)
  simp [depthIndex, binaryMarketChannelIndex, code]

theorem depthIndex_lt : depthIndex < 16 := by decide

theorem and_depthBit_ne_zero (m : UInt16) :
    m &&& binaryMarketChannelBit depth ≠ 0 ↔ has m depthIndex = true := by
  rw [ne_eq, and_eq_zero_iff]
  constructor
  · intro h
    by_contra hm
    refine h fun i hi => ?_
    rw [has_depthBit, decide_eq_false_iff_not]
    rintro rfl
    exact hm hi
  · intro h hall
    have := hall depthIndex h
    rw [has_depthBit] at this
    simp at this

theorem has_channelBit_depthIndex {n : ℕ} (hn : BinaryMarketChannel.ofCode n ≠ depth) :
    has (binaryMarketChannelBit (.ofCode n)) depthIndex = false := by
  rw [has_channelBit, decide_eq_false_iff_not]
  rintro ⟨-, -, h⟩
  have hthree : n = 3 := by
    change 2 = n - 1 at h
    omega
  exact hn (by rw [hthree]; rfl)

/-! ## What a record can do -/

/-- The state after an admitted change of the subscription. -/
def subscribed (r : BinaryMarketRecord) (s : BinaryMarketSourceState) (kept : UInt16) :
    BinaryMarketSourceState where
  metadata := r.lifecyclePayload.source
  generation := r.sourceGeneration
  availableMask := r.lifecyclePayload.channelMaskAfter
  directoryRevision := r.lifecyclePayload.directoryRevision
  unhealthyMask := s.unhealthyMask &&& kept
  administrativeUnhealthyMask := s.administrativeUnhealthyMask &&& kept
  recoveryPendingMask := s.recoveryPendingMask &&& kept

/-- The record is a native marker for the depth channel with a cause that is unhealthy. -/
def isDepthUnhealthyMarker (r : BinaryMarketRecord) : Bool :=
  r.channel = sourceLifecycle && binaryMarketTransitionIsUnhealthy r.lifecyclePayload.cause &&
    r.lifecyclePayload.affectedChannel = depth.code

/-- The record is a `NativeRecovered` marker for the depth channel. -/
def isDepthRecoveredMarker (r : BinaryMarketRecord) : Bool :=
  r.channel = sourceLifecycle && r.lifecyclePayload.cause = .nativeRecovered &&
    r.lifecyclePayload.affectedChannel = depth.code

/-- The record changes the subscription of the depth channel, or starts a generation. -/
def altersDepth (r : BinaryMarketRecord) : Bool :=
  let p := r.lifecyclePayload
  r.channel = sourceLifecycle && p.cause = .subscription &&
    ((p.channelMaskBefore ^^^ p.channelMaskAfter) &&& binaryMarketChannelBit depth ≠ 0 ||
      r.sourceGeneration ≠ p.previousSourceGeneration)

/-- The record can confirm a recovery of the depth channel: it is replay-compatible, has no coverage,
and is healthy, partial, or reported as a native rebase snapshot. -/
def confirmsDepth (r : BinaryMarketRecord) (nativeRebaseSnapshot : Bool) : Bool :=
  r.channel = depth && r.hasFlag recordTraderReplayCompatible && !r.hasFlag recordDepthCoverage &&
    (r.depthChunkPayload.state = .healthy || r.depthChunkPayload.state = .partialDepth ||
      nativeRebaseSnapshot)

/-- What an admitted record does to the state of its source. -/
inductive Advanced (r : BinaryMarketRecord) (f : Bool) (s : BinaryMarketSourceState) :
    BinaryMarketSourceState → Prop
  /-- A market record changes nothing. -/
  | plain (hmarket : r.channel ≠ sourceLifecycle) (hgeneration : s.generation = r.sourceGeneration) :
      Advanced r f s s
  /-- A health notification marks its channel. -/
  | notified (hmarket : r.channel ≠ sourceLifecycle)
      (hgeneration : s.generation = r.sourceGeneration) :
      Advanced r f s
        { s with unhealthyMask := s.unhealthyMask ||| binaryMarketChannelBit r.channel }
  /-- A replay-compatible record of another channel than depth clears its channel. -/
  | cleared (hmarket : r.channel ≠ sourceLifecycle)
      (hgeneration : s.generation = r.sourceGeneration) (hchannel : r.channel ≠ depth) :
      Advanced r f s
        { s with unhealthyMask := s.unhealthyMask &&& ~~~binaryMarketChannelBit r.channel }
  /-- A depth record clears its channel if no administrative marker stands against it. -/
  | confirmed (hgeneration : s.generation = r.sourceGeneration) (hconfirms : confirmsDepth r f = true)
      (hadministrative : s.administrativeUnhealthyMask &&& binaryMarketChannelBit depth = 0) :
      Advanced r f s { s with
        unhealthyMask := s.unhealthyMask &&& ~~~binaryMarketChannelBit depth
        recoveryPendingMask := s.recoveryPendingMask &&& ~~~binaryMarketChannelBit depth }
  /-- A native marker says that depth is unhealthy. -/
  | depthMarked (hgeneration : s.generation ≤ r.sourceGeneration)
      (hmarker : isDepthUnhealthyMarker r = true) :
      Advanced r f s { s with
        generation := r.sourceGeneration
        unhealthyMask := s.unhealthyMask ||| binaryMarketChannelBit depth
        administrativeUnhealthyMask :=
          s.administrativeUnhealthyMask ||| binaryMarketChannelBit depth
        recoveryPendingMask := s.recoveryPendingMask &&& ~~~binaryMarketChannelBit depth }
  /-- A native marker says that depth has recovered, which a depth record is to confirm. -/
  | depthRecovered (hgeneration : s.generation ≤ r.sourceGeneration)
      (hmarker : isDepthRecoveredMarker r = true) :
      Advanced r f s { s with
        generation := r.sourceGeneration
        administrativeUnhealthyMask :=
          s.administrativeUnhealthyMask &&& ~~~binaryMarketChannelBit depth
        recoveryPendingMask := s.recoveryPendingMask ||| binaryMarketChannelBit depth
        unhealthyMask := s.unhealthyMask ||| binaryMarketChannelBit depth }
  /-- A native marker is about another channel, or about none: the depth bit stays. -/
  | otherMarked {unhealthyMask : UInt16} (hgeneration : s.generation ≤ r.sourceGeneration)
      (hmarker : isDepthUnhealthyMarker r = false)
      (hdepth : has unhealthyMask depthIndex = has s.unhealthyMask depthIndex) :
      Advanced r f s { s with generation := r.sourceGeneration, unhealthyMask }
  /-- The subscription changes. The health of changed channels is cleared, and that of all channels
  with a new generation. -/
  | changed {kept : UInt16} (hcause : r.lifecyclePayload.cause = .subscription)
      (hgeneration : s.generation ≤ r.sourceGeneration)
      (hidentity : sameBinaryMarketSourceIdentity s.metadata r.lifecyclePayload.source = true)
      (hrevision : s.directoryRevision < r.lifecyclePayload.directoryRevision)
      (hkept : has kept depthIndex = true ∨ altersDepth r = true) :
      Advanced r f s (subscribed r s kept)

/-- An admitted market record. -/
theorem advanced_recoverChannel (hmarket : r.channel ≠ sourceLifecycle)
    (hgeneration : s.generation = r.sourceGeneration) : Advanced r f s (recoverChannel r f s) := by
  unfold recoverChannel
  dsimp only
  split
  · exact .plain hmarket hgeneration
  rename_i hcompatible
  split
  · rename_i hchannel
    exact .cleared hmarket hgeneration hchannel
  rename_i hchannel
  rw [not_not] at hchannel
  split
  · rename_i hclear
    split
    · rename_i hstate
      have hconfirms : confirmsDepth r f = true := by
        simp only [Bool.not_eq_true', Bool.not_eq_false] at hcompatible hclear
        simp only [confirmsDepth, hchannel, hcompatible, hclear.1, decide_true, Bool.true_and,
          Bool.not_false, Bool.or_eq_true, decide_eq_true_eq]
        tauto
      rw [hchannel] at hclear ⊢
      exact .confirmed hgeneration hconfirms hclear.2
    · exact .plain hmarket hgeneration
  · exact .plain hmarket hgeneration

/-- An admitted native marker. -/
theorem advanced_transitionHealth (hchannel : r.channel = sourceLifecycle)
    (hgeneration : s.generation ≤ r.sourceGeneration) :
    Advanced r f s
      { transitionHealth r.lifecyclePayload s with generation := r.sourceGeneration } := by
  have hother : r.lifecyclePayload.affectedChannel ≠ depth.code →
      has (binaryMarketChannelBit (.ofCode r.lifecyclePayload.affectedChannel)) depthIndex = false := by
    intro hne
    refine has_channelBit_depthIndex fun h => hne ?_
    rw [← h, code_ofCode]
  have hdepth : r.lifecyclePayload.affectedChannel = depth.code →
      BinaryMarketChannel.ofCode r.lifecyclePayload.affectedChannel = depth := by
    intro h
    rw [h]
    rfl
  unfold transitionHealth
  dsimp only
  split
  · rename_i hunhealthy
    split
    · rename_i haffected
      rw [hdepth haffected]
      exact .depthMarked hgeneration (by simp [isDepthUnhealthyMarker, hchannel, hunhealthy, haffected])
    · rename_i haffected
      refine .otherMarked hgeneration (by simp [isDepthUnhealthyMarker, haffected]) ?_
      simp [hother haffected]
  split
  · rename_i hrecovered
    split
    · rename_i haffected
      rw [hdepth haffected]
      exact .depthRecovered hgeneration
        (by simp [isDepthRecoveredMarker, hchannel, hrecovered, haffected])
    · rename_i haffected
      refine .otherMarked hgeneration (by simp [isDepthUnhealthyMarker, haffected]) ?_
      simp [hother haffected, depthIndex_lt]
  · rename_i hunhealthy _
    exact .otherMarked hgeneration (by simp [isDepthUnhealthyMarker, hunhealthy]) rfl

/-- An admitted change of the subscription. -/
theorem advanced_subscription (hchannel : r.channel = sourceLifecycle)
    (hcause : r.lifecyclePayload.cause = .subscription)
    (hidentity : sameBinaryMarketSourceIdentity s.metadata r.lifecyclePayload.source = true)
    (h : advanceSubscription r s = some t) : Advanced r f s t := by
  unfold advanceSubscription at h
  dsimp only at h
  split at h
  · cases h
  rename_i hfirst
  push Not at hfirst
  obtain ⟨hprevious, -, hgeneration, hrevision⟩ := hfirst
  split at h
  · cases h
  cases h
  refine .changed hcause hgeneration hidentity hrevision ?_
  -- What is kept lacks the depth bit only if depth is changed, or the generation is new.
  split_ifs with hnew
  · exact .inr (by simp [altersDepth, hchannel, hcause, hprevious, hnew])
  · by_cases hbit : has (r.lifecyclePayload.channelMaskBefore ^^^
        r.lifecyclePayload.channelMaskAfter) depthIndex = true
    · refine .inr ?_
      have hne := (and_depthBit_ne_zero _).mpr hbit
      simp [altersDepth, hchannel, hcause, hne]
    · rw [Bool.not_eq_true] at hbit
      refine .inl ?_
      rw [has_not, hbit]
      rfl

/-- A record that is admitted does one of these things. -/
theorem advanced_of_some (h : advanceBinaryMarketSourceState r s f = some t) : Advanced r f s t := by
  unfold advanceBinaryMarketSourceState at h
  split at h
  · rename_i hmarket
    unfold advanceMarketRecord at h
    split at h
    · cases h
    rename_i hgeneration
    rw [not_not] at hgeneration
    split at h
    · cases h
      exact .notified hmarket hgeneration
    split at h
    · cases h
      exact advanced_recoverChannel hmarket hgeneration
    · cases h
  rename_i hchannel
  rw [not_not] at hchannel
  split at h
  · cases h
  rename_i hidentity
  rw [Bool.not_eq_true, Bool.not_eq_false'] at hidentity
  split at h
  · unfold advanceNativeHealth at h
    dsimp only at h
    split at h
    · cases h
    rename_i hvalid
    push Not at hvalid
    cases h
    exact advanced_transitionHealth hchannel hvalid.2.2.1
  · rename_i hcause
    rw [not_not] at hcause
    exact advanced_subscription hchannel hcause hidentity h

/-! ## Identity and order -/

/-- A later state of the same source. -/
structure LaterState (s t : BinaryMarketSourceState) : Prop where
  identity : sameBinaryMarketSourceIdentity s.metadata t.metadata = true
  generation : s.generation ≤ t.generation
  directoryRevision : s.directoryRevision ≤ t.directoryRevision

theorem sameBinaryMarketSourceIdentity_refl (source : BinaryMarketSource) :
    sameBinaryMarketSourceIdentity source source = true := by
  simp [sameBinaryMarketSourceIdentity]

theorem sameBinaryMarketSourceIdentity_trans {a b c : BinaryMarketSource}
    (h : sameBinaryMarketSourceIdentity a b = true) (g : sameBinaryMarketSourceIdentity b c = true) :
    sameBinaryMarketSourceIdentity a c = true := by
  simp only [sameBinaryMarketSourceIdentity, Bool.and_eq_true, decide_eq_true_eq] at h g ⊢
  obtain ⟨⟨⟨⟨⟨⟨⟨⟨⟨⟨⟨h1, h2⟩, h3⟩, h4⟩, h5⟩, h6⟩, h7⟩, h8⟩, h9⟩, h10⟩, h11⟩, h12⟩ := h
  rw [h1, h2, h3, h4, h5, h6, h7, h8, h9, h10, h11, h12]
  exact g

theorem LaterState.refl (s : BinaryMarketSourceState) : LaterState s s :=
  ⟨sameBinaryMarketSourceIdentity_refl _, le_rfl, le_rfl⟩

theorem LaterState.trans (h : LaterState s t) (g : LaterState t u) : LaterState s u :=
  ⟨sameBinaryMarketSourceIdentity_trans h.identity g.identity, h.generation.trans g.generation,
    h.directoryRevision.trans g.directoryRevision⟩

theorem Advanced.later (h : Advanced r f s t) : LaterState s t := by
  have hsame := sameBinaryMarketSourceIdentity_refl s.metadata
  cases h with
  | plain | notified | cleared | confirmed => exact ⟨hsame, le_rfl, le_rfl⟩
  | depthMarked hgeneration | depthRecovered hgeneration | otherMarked hgeneration =>
    exact ⟨hsame, hgeneration, le_rfl⟩
  | changed _ hgeneration hidentity hrevision => exact ⟨hidentity, hgeneration, hrevision.le⟩

/-! ## The health masks -/

/-- The administrative masks are about depth only, mark it unhealthy, and are apart. -/
structure HealthMasks (s : BinaryMarketSourceState) : Prop where
  administrative_depth : Within s.administrativeUnhealthyMask (binaryMarketChannelBit depth)
  recovery_depth : Within s.recoveryPendingMask (binaryMarketChannelBit depth)
  administrative_unhealthy : Within s.administrativeUnhealthyMask s.unhealthyMask
  recovery_unhealthy : Within s.recoveryPendingMask s.unhealthyMask
  disjoint : s.administrativeUnhealthyMask &&& s.recoveryPendingMask = 0

/-- The same, bit by bit: the administrative masks have the depth bit at most. -/
theorem healthMasks_iff : HealthMasks s ↔
    (∀ i, has s.administrativeUnhealthyMask i = true → i = depthIndex) ∧
      (∀ i, has s.recoveryPendingMask i = true → i = depthIndex) ∧
      (has s.administrativeUnhealthyMask depthIndex = true → has s.unhealthyMask depthIndex = true) ∧
      (has s.recoveryPendingMask depthIndex = true → has s.unhealthyMask depthIndex = true) ∧
      (has s.administrativeUnhealthyMask depthIndex = true →
        has s.recoveryPendingMask depthIndex = false) := by
  constructor
  · intro h
    have h1 := within_iff.mp h.administrative_depth
    have h2 := within_iff.mp h.recovery_depth
    simp only [has_depthBit, decide_eq_true_eq] at h1 h2
    exact ⟨h1, h2, within_iff.mp h.administrative_unhealthy _, within_iff.mp h.recovery_unhealthy _,
      and_eq_zero_iff.mp h.disjoint _⟩
  · rintro ⟨h1, h2, h3, h4, h5⟩
    refine ⟨within_iff.mpr ?_, within_iff.mpr ?_, within_iff.mpr ?_, within_iff.mpr ?_,
      and_eq_zero_iff.mpr ?_⟩
    · simpa only [has_depthBit, decide_eq_true_eq] using h1
    · simpa only [has_depthBit, decide_eq_true_eq] using h2
    · intro i hi
      obtain rfl := h1 i hi
      exact h3 hi
    · intro i hi
      obtain rfl := h2 i hi
      exact h4 hi
    · intro i hi
      obtain rfl := h1 i hi
      exact h5 hi

/-- An admitted record keeps the masks within their bounds. -/
theorem Advanced.healthMasks (h : Advanced r f s t) (hs : HealthMasks s) : HealthMasks t := by
  have hself : has (binaryMarketChannelBit depth) depthIndex = true := by simp [has_depthBit]
  rw [healthMasks_iff] at hs ⊢
  obtain ⟨h1, h2, h3, h4, h5⟩ := hs
  cases h with
  | plain => exact ⟨h1, h2, h3, h4, h5⟩
  | notified =>
    refine ⟨h1, h2, fun h => ?_, fun h => ?_, h5⟩
    · rw [has_or, h3 h, Bool.true_or]
    · rw [has_or, h4 h, Bool.true_or]
  | cleared _ _ hchannel =>
    have hbit : has (binaryMarketChannelBit r.channel) depthIndex = false :=
      has_channelBit_depthIndex hchannel
    refine ⟨h1, h2, fun h => ?_, fun h => ?_, h5⟩
    · simp [h3 h, hbit, depthIndex_lt]
    · simp [h4 h, hbit, depthIndex_lt]
  | confirmed _ _ hadministrative =>
    -- Without the depth bit the administrative mask is empty.
    have hnone : has s.administrativeUnhealthyMask depthIndex = false := by
      rw [← Bool.not_eq_true]
      intro h
      exact (and_depthBit_ne_zero _).mpr h hadministrative
    refine ⟨h1, fun i hi => h2 i ?_, fun h => ?_, fun h => ?_, fun h => ?_⟩
    · simp only [has_and, Bool.and_eq_true] at hi
      exact hi.1
    · rw [hnone] at h
      cases h
    · simp [hself] at h
    · rw [hnone] at h
      cases h
  | depthMarked =>
    refine ⟨fun i hi => ?_, fun i hi => h2 i ?_, fun _ => ?_, fun h => ?_, fun _ => ?_⟩
    · simp only [has_or, has_depthBit, Bool.or_eq_true, decide_eq_true_eq] at hi
      exact hi.elim (h1 i) id
    · simp only [has_and, Bool.and_eq_true] at hi
      exact hi.1
    · simp [hself]
    · simp [hself] at h
    · simp [hself]
  | depthRecovered =>
    refine ⟨fun i hi => h1 i ?_, fun i hi => ?_, fun h => ?_, fun _ => ?_, fun h => ?_⟩
    · simp only [has_and, Bool.and_eq_true] at hi
      exact hi.1
    · simp only [has_or, has_depthBit, Bool.or_eq_true, decide_eq_true_eq] at hi
      exact hi.elim (h2 i) id
    · simp [hself] at h
    · simp [hself]
    · simp [hself] at h
  | otherMarked _ _ hdepth =>
    refine ⟨h1, h2, fun h => ?_, fun h => ?_, h5⟩
    · rw [hdepth, h3 h]
    · rw [hdepth, h4 h]
  | changed =>
    refine ⟨fun i hi => h1 i ?_, fun i hi => h2 i ?_, ?_, ?_, ?_⟩ <;>
      simp only [subscribed, has_and, Bool.and_eq_true] at *
    · exact hi.1
    · exact hi.1
    · exact fun h => ⟨h3 h.1, h.2⟩
    · exact fun h => ⟨h4 h.1, h.2⟩
    · exact fun h => by rw [h5 h.1, Bool.false_and]

/-! ## Marks against depth -/

/-- Depth stays unhealthy through a record that neither alters it nor can confirm a recovery. -/
theorem Advanced.depth_unhealthy (h : Advanced r f s t)
    (hs : has s.unhealthyMask depthIndex = true) (halters : altersDepth r = false)
    (hconfirms : confirmsDepth r f = false) : has t.unhealthyMask depthIndex = true := by
  cases h with
  | plain => exact hs
  | notified | depthMarked | depthRecovered => rw [has_or, hs, Bool.true_or]
  | cleared _ _ hchannel =>
    have hbit : has (binaryMarketChannelBit r.channel) depthIndex = false :=
      has_channelBit_depthIndex hchannel
    simp [hs, hbit, depthIndex_lt]
  | confirmed _ h =>
    rw [hconfirms] at h
    cases h
  | otherMarked _ _ hdepth => rw [hdepth, hs]
  | changed _ _ _ _ hkept =>
    rw [halters] at hkept
    simpa [subscribed, hs] using hkept

/-- The administrative mark against depth stays through a record that neither alters depth nor
reports its recovery, and with it depth is unhealthy. -/
theorem Advanced.depth_marked (h : Advanced r f s t)
    (hs : has s.administrativeUnhealthyMask depthIndex = true) (halters : altersDepth r = false)
    (hrecovered : isDepthRecoveredMarker r = false) :
    has t.administrativeUnhealthyMask depthIndex = true := by
  cases h with
  | plain | notified | cleared | confirmed | otherMarked => exact hs
  | depthMarked => rw [has_or, hs, Bool.true_or]
  | depthRecovered _ hmarker =>
    rw [hrecovered] at hmarker
    cases hmarker
  | changed _ _ _ _ hkept =>
    rw [halters] at hkept
    simpa [subscribed, hs] using hkept

/-- A native marker that says that depth is unhealthy leaves the administrative mark. -/
theorem Advanced.marks_depth (h : Advanced r f s t) (hmarker : isDepthUnhealthyMarker r = true) :
    has t.administrativeUnhealthyMask depthIndex = true := by
  have hparts := hmarker
  simp only [isDepthUnhealthyMarker, Bool.and_eq_true, decide_eq_true_eq] at hparts
  obtain ⟨⟨hchannel, hunhealthy⟩, -⟩ := hparts
  cases h with
  | plain hmarket | notified hmarket | cleared hmarket => exact absurd hchannel hmarket
  | confirmed _ hconfirms =>
    simp [confirmsDepth, hchannel] at hconfirms
  | depthMarked => simp [has_depthBit]
  | depthRecovered _ hrecovered =>
    simp only [isDepthRecoveredMarker, Bool.and_eq_true, decide_eq_true_eq] at hrecovered
    rw [hrecovered.1.2] at hunhealthy
    cases hunhealthy
  | otherMarked _ hother =>
    rw [hmarker] at hother
    cases hother
  | changed hcause =>
    rw [hcause] at hunhealthy
    cases hunhealthy

/-! ## Runs -/

/-- The state of a source after a list of its records, each with what is reported of a native
rebase. -/
def advanceAll (s : BinaryMarketSourceState) :
    List (BinaryMarketRecord × Bool) → Option BinaryMarketSourceState
  | [] => some s
  | (r, nativeRebaseSnapshot) :: records =>
    (advanceBinaryMarketSourceState r s nativeRebaseSnapshot).bind fun t => advanceAll t records

variable {records : List (BinaryMarketRecord × Bool)}

theorem advanceAll_cons (h : advanceAll s ((r, f) :: records) = some u) :
    ∃ t, Advanced r f s t ∧ advanceAll t records = some u := by
  obtain ⟨t, ht, hrest⟩ := Option.bind_eq_some_iff.mp h
  exact ⟨t, advanced_of_some ht, hrest⟩

theorem advanceAll_later (h : advanceAll s records = some t) : LaterState s t := by
  induction records generalizing s with
  | nil =>
    cases h
    exact .refl _
  | cons entry records ih =>
    obtain ⟨u, hu, hrest⟩ := advanceAll_cons h
    exact hu.later.trans (ih hrest)

theorem advanceAll_healthMasks (hs : HealthMasks s) (h : advanceAll s records = some t) :
    HealthMasks t := by
  induction records generalizing s with
  | nil =>
    cases h
    exact hs
  | cons entry records ih =>
    obtain ⟨u, hu, hrest⟩ := advanceAll_cons h
    exact ih (hu.healthMasks hs) hrest

theorem healthMasks_initialState (source : BinaryMarketSource) :
    HealthMasks (initialBinaryMarketSourceState source) := by
  have hnone : ∀ i, has 0 i = true → False := fun i h => by simp at h
  exact healthMasks_iff.mpr ⟨fun i h => (hnone i h).elim, fun i h => (hnone i h).elim,
    fun h => (hnone _ h).elim, fun h => (hnone _ h).elim, fun h => (hnone _ h).elim⟩

/-- The records give depth its health back: one of them alters its subscription or the generation,
or one reports its recovery and a later one confirms it. -/
def ReleasesDepth (records : List (BinaryMarketRecord × Bool)) : Prop :=
  (∃ entry ∈ records, altersDepth entry.1 = true) ∨
    ∃ before marker between entry after, records = before ++ marker :: (between ++ entry :: after) ∧
      isDepthRecoveredMarker marker.1 = true ∧ confirmsDepth entry.1 entry.2 = true

theorem ReleasesDepth.cons (h : ReleasesDepth records) (entry : BinaryMarketRecord × Bool) :
    ReleasesDepth (entry :: records) := by
  rcases h with ⟨other, hother, halters⟩ | ⟨before, marker, between, last, after, rfl, hm, hc⟩
  · exact .inl ⟨other, List.mem_cons_of_mem _ hother, halters⟩
  · exact .inr ⟨entry :: before, marker, between, last, after, rfl, hm, hc⟩

/-- Depth that is unhealthy is unhealthy in the end, or a record alters it or could confirm a
recovery. -/
theorem advanceAll_unhealthy (hs : has s.unhealthyMask depthIndex = true)
    (h : advanceAll s records = some t) :
    has t.unhealthyMask depthIndex = true ∨ (∃ entry ∈ records, altersDepth entry.1 = true) ∨
      ∃ before entry after, records = before ++ entry :: after ∧
        confirmsDepth entry.1 entry.2 = true := by
  induction records generalizing s with
  | nil =>
    cases h
    exact .inl hs
  | cons entry records ih =>
    obtain ⟨u, hu, hrest⟩ := advanceAll_cons h
    by_cases halters : altersDepth entry.1 = true
    · exact .inr (.inl ⟨entry, List.mem_cons_self, halters⟩)
    by_cases hconfirms : confirmsDepth entry.1 entry.2 = true
    · exact .inr (.inr ⟨[], entry, records, rfl, hconfirms⟩)
    rw [Bool.not_eq_true] at halters hconfirms
    rcases ih (hu.depth_unhealthy hs halters hconfirms) hrest with
      ht | ⟨other, hother, hlast⟩ | ⟨before, last, after, rfl, hlast⟩
    · exact .inl ht
    · exact .inr (.inl ⟨other, List.mem_cons_of_mem _ hother, hlast⟩)
    · exact .inr (.inr ⟨entry :: before, last, after, rfl, hlast⟩)

/-- Depth with a mark against it is unhealthy in the end, or the records release it. -/
theorem advanceAll_marked (hmasks : HealthMasks s)
    (hs : has s.administrativeUnhealthyMask depthIndex = true) (h : advanceAll s records = some t) :
    has t.unhealthyMask depthIndex = true ∨ ReleasesDepth records := by
  induction records generalizing s with
  | nil =>
    cases h
    exact .inl ((healthMasks_iff.mp hmasks).2.2.1 hs)
  | cons entry records ih =>
    obtain ⟨u, hu, hrest⟩ := advanceAll_cons h
    have humasks := hu.healthMasks hmasks
    by_cases halters : altersDepth entry.1 = true
    · exact .inr (.inl ⟨entry, List.mem_cons_self, halters⟩)
    rw [Bool.not_eq_true] at halters
    by_cases hrecovered : isDepthRecoveredMarker entry.1 = true
    · -- From the report of a recovery on, depth is unhealthy until a record confirms it.
      have hunhealthy := (healthMasks_iff.mp hmasks).2.2.1 hs
      have hnot : confirmsDepth entry.1 entry.2 = false := by
        simp only [isDepthRecoveredMarker, Bool.and_eq_true, decide_eq_true_eq] at hrecovered
        simp [confirmsDepth, hrecovered.1.1]
      rcases advanceAll_unhealthy (hu.depth_unhealthy hunhealthy halters hnot) hrest with
        ht | ⟨other, hother, hother'⟩ | ⟨between, last, after, rfl, hlast⟩
      · exact .inl ht
      · exact .inr (.inl ⟨other, List.mem_cons_of_mem _ hother, hother'⟩)
      · exact .inr (.inr ⟨[], entry, between, last, after, rfl, hrecovered, hlast⟩)
    · rw [Bool.not_eq_true] at hrecovered
      rcases ih humasks (hu.depth_marked hs halters hrecovered) hrest with ht | hreleases
      · exact .inl ht
      · exact .inr (hreleases.cons entry)

/-- Along every run of a source from its initial state, the identity stays and the generation and the
directory revision do not decrease, the administrative masks are kept in order, and a depth channel that
a native marker finds unhealthy stays so until the records release it. -/
theorem source_health (source : BinaryMarketSource) {before after : List (BinaryMarketRecord × Bool)}
    (hbefore : advanceAll (initialBinaryMarketSourceState source) before = some s)
    (hafter : advanceAll s after = some t) :
    LaterState s t ∧ HealthMasks t ∧
      ∀ marker records, after = marker :: records → isDepthUnhealthyMarker marker.1 = true →
        t.unhealthyMask &&& binaryMarketChannelBit depth ≠ 0 ∨ ReleasesDepth records := by
  have hs := advanceAll_healthMasks (healthMasks_initialState source) hbefore
  refine ⟨advanceAll_later hafter, advanceAll_healthMasks hs hafter, ?_⟩
  rintro marker records rfl hmarker
  obtain ⟨u, hu, hrest⟩ := advanceAll_cons hafter
  rw [and_depthBit_ne_zero]
  exact advanceAll_marked (hu.healthMasks hs) (hu.marks_depth hmarker) hrest

/-- A futures source with a depth feed that is present from the start. -/
def smallDepthSource : BinaryMarketSource :=
  ⟨Raw.ofBytes 272 (pack
    [4, 4, 8, 40, 8, 32, 4, 4, 2, 2, 2, 2, 2, 2, 4, 1, 1, 1, 1, 1, 1, 1, 1, 1, 1, 7, 1, 5, 16, 16, 48,
      48, 1]
    [1, 1, 1, 0, 0, 0, 1, 2, 1, 8, 4, 4, 4, 0, 0, 1, 1, 0, 0, 0, 1, 7, 1, 1, 0, 0x100, 1, 0, 0x62,
      0x73657275747566, 0x62, 0x62, 0])⟩

/-- A native marker for its depth channel, with the code of a cause. -/
def smallMarker (cause shardSequence : ℕ) : BinaryMarketRecord :=
  ⟨Raw.ofBytes 1024 (pack
    [4, 4, 8, 8, 8, 8, 8, 8, 8, 8, 8, 8, 2, 2, 2, 1, 1, 2, 2, 4, 8, 8, 8, 2, 2, 1, 1, 1, 1]
    [1, 0x1001, 1, 0, 1, 0, 0, 0, 1, 5, 5, shardSequence, 304, 0, 0, 9, 0, 0, 0, 0, 1, 1, 0, 4, 4, 4, 3,
      0, cause] ++ smallDepthSource.bytes ++ List.replicate 616 0)⟩

/-- A gap in the depth feed, and its recovery that no depth record confirms. -/
theorem source_health_gap : ∃ t,
    (∀ cause ∈ [3, 4], validBinaryMarketRecord .stored (smallMarker cause 1) = true) ∧
    advanceAll (initialBinaryMarketSourceState smallDepthSource)
      [(smallMarker 3 1, false), (smallMarker 4 2, false)] = some t ∧
    HealthMasks t ∧
    (t.unhealthyMask &&& binaryMarketChannelBit depth ≠ 0 ∨
      ReleasesDepth [(smallMarker 4 2, false)]) := by
  have hrun : (advanceAll (initialBinaryMarketSourceState smallDepthSource)
      [(smallMarker 3 1, false), (smallMarker 4 2, false)]).isSome = true := by decide +kernel
  obtain ⟨t, ht⟩ := Option.isSome_iff_exists.mp hrun
  have hstart : advanceAll (initialBinaryMarketSourceState smallDepthSource) [] =
      some (initialBinaryMarketSourceState smallDepthSource) := rfl
  obtain ⟨-, hmasks, hmarked⟩ := source_health smallDepthSource hstart ht
  exact ⟨t, by decide +kernel, ht, hmasks, hmarked _ _ rfl (by decide +kernel)⟩

/-! ## The writer's state and the reader's -/

/-- What the reader's state of a source is to the writer's: the same but for channels that a native
rebase has made healthy. -/
structure Follows (writer reader : BinaryMarketSourceState) : Prop where
  metadata : reader.metadata = writer.metadata
  generation : reader.generation = writer.generation
  availableMask : reader.availableMask = writer.availableMask
  directoryRevision : reader.directoryRevision = writer.directoryRevision
  administrative : reader.administrativeUnhealthyMask = writer.administrativeUnhealthyMask
  unhealthy : Within reader.unhealthyMask writer.unhealthyMask
  recovery : Within reader.recoveryPendingMask writer.recoveryPendingMask

theorem Follows.refl (s : BinaryMarketSourceState) : Follows s s :=
  ⟨rfl, rfl, rfl, rfl, rfl, .refl _, .refl _⟩

theorem within_or {a b : UInt16} (h : Within a b) (c : UInt16) : Within (a ||| c) (b ||| c) := by
  rw [within_iff] at h ⊢
  intro i hi
  rw [has_or, Bool.or_eq_true] at hi ⊢
  exact hi.imp (h i) id

theorem within_and {a b : UInt16} (h : Within a b) (c : UInt16) : Within (a &&& c) (b &&& c) := by
  rw [within_iff] at h ⊢
  intro i hi
  rw [has_and, Bool.and_eq_true] at hi ⊢
  exact ⟨h i hi.1, hi.2⟩

theorem within_of_and {a b : UInt16} (h : Within a b) (c : UInt16) : Within (a &&& c) b := by
  rw [within_iff] at h ⊢
  intro i hi
  rw [has_and, Bool.and_eq_true] at hi
  exact h i hi.1

variable {w v : BinaryMarketSourceState}

/-- A market record: what clears a mask of the writer clears it for the reader, whose report of a
native rebase can clear more. -/
theorem Follows.recoverChannel (h : Follows w v) (r : BinaryMarketRecord) (f : Bool) :
    Follows (recoverChannel r false w) (recoverChannel r f v) := by
  unfold Corpus.recoverChannel
  dsimp only
  rw [h.administrative]
  split
  · exact h
  split
  · exact { h with administrative := rfl, unhealthy := within_and h.unhealthy _ }
  split
  · by_cases hstate : r.depthChunkPayload.state = .healthy ∨ r.depthChunkPayload.state = .partialDepth
    · rw [if_pos (by tauto), if_pos (by tauto)]
      exact { h with
        administrative := rfl
        unhealthy := within_and h.unhealthy _
        recovery := within_and h.recovery _ }
    · rw [if_neg (by simp; tauto)]
      split
      · exact { h with
          administrative := rfl
          unhealthy := within_of_and h.unhealthy _
          recovery := within_of_and h.recovery _ }
      · exact h
  · exact h

/-- A native marker acts alike on the two states. -/
theorem Follows.transitionHealth (h : Follows w v) (p : BinaryMarketSourceLifecyclePayload) :
    Follows (transitionHealth p w) (transitionHealth p v) := by
  unfold Corpus.transitionHealth
  dsimp only
  rw [h.administrative]
  split
  · split
    · exact { h with
        administrative := rfl
        unhealthy := within_or h.unhealthy _
        recovery := within_and h.recovery _ }
    · exact { h with administrative := rfl, unhealthy := within_or h.unhealthy _ }
  split
  · split
    · exact { h with
        administrative := rfl
        unhealthy := within_or h.unhealthy _
        recovery := within_or h.recovery _ }
    · exact { h with administrative := rfl, unhealthy := within_and h.unhealthy _ }
  · exact h

/-- A record is admitted on both sides or on neither, and the reader's state follows the writer's. -/
theorem advance_follows (h : Follows w v) (r : BinaryMarketRecord) (f : Bool) :
    Option.Rel Follows (advanceBinaryMarketSourceState r w false)
      (advanceBinaryMarketSourceState r v f) := by
  unfold advanceBinaryMarketSourceState
  rw [h.metadata]
  split
  · unfold advanceMarketRecord marketRecordAdmitted
    rw [h.metadata, h.generation, h.availableMask]
    split
    · exact .none
    split
    · exact .some ⟨rfl, rfl, rfl, h.directoryRevision, h.administrative, within_or h.unhealthy _,
        h.recovery⟩
    split
    · exact .some (h.recoverChannel r f)
    · exact .none
  split
  · exact .none
  split
  · unfold advanceNativeHealth
    rw [h.metadata, h.generation]
    dsimp only
    split
    · exact .none
    · exact .some { h.transitionHealth r.lifecyclePayload with generation := rfl }
  · unfold advanceSubscription validLifecycleChange
    rw [h.generation, h.availableMask, h.directoryRevision, h.administrative]
    dsimp only
    split
    · exact .none
    split
    · exact .none
    · exact .some ⟨rfl, rfl, rfl, rfl, rfl, within_and h.unhealthy _, within_and h.recovery _⟩

/-- Given the same records of a source in the same order, the writer and the reader admit the same
number of them, and after every record the reader's state follows the writer's. -/
theorem writer_reader_agree (X : Platform) (source : BinaryMarketSource)
    (records : List BinaryMarketRecord) :
    Option.Rel Follows
      (runSourceState (fun _ => false) (initialBinaryMarketSourceState source) records)
      (runSourceState (binaryMarketDepthRecordIsNativeRebaseSnapshot X)
        (initialBinaryMarketSourceState source) records) := by
  suffices hrun : ∀ w v, Follows w v →
      Option.Rel Follows (runSourceState (fun _ => false) w records)
        (runSourceState (binaryMarketDepthRecordIsNativeRebaseSnapshot X) v records) from
    hrun _ _ (.refl _)
  induction records with
  | nil => exact fun w v h => .some h
  | cons r records ih =>
    intro w v h
    have hr := advance_follows h r (binaryMarketDepthRecordIsNativeRebaseSnapshot X r)
    simp only [runSourceState]
    revert hr
    rcases advanceBinaryMarketSourceState r w false with _ | w' <;>
      rcases advanceBinaryMarketSourceState r v _ with _ | v' <;> intro hr
    · exact .none
    · cases hr
    · cases hr
    · cases hr with
      | some hfollows => exact ih w' v' hfollows

end HftRecorder.Corpus
