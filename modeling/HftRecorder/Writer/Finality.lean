import HftRecorder.Writer.Faults
import HftRecorder.Writer.Solvency

/-!
# Finalized cuts

`finalize` completes the manifest before it publishes, and the cut that it publishes is marked as
finalized from then on. If a later step of `finalize` fails the writer stays active, and it takes
data in as before: the next publication has the mark and other data. So a finalized cut is final only
where no data is offered after it. `Final cut s` says that the state has the data of the cut and
nothing pending; every call that takes no data in keeps it, whatever fails on the way.
-/

namespace HftRecorder.Corpus

open ByteLayout Codec

variable {X : Platform} {s t u : WriterState} {cut later : CorpusCut}

/-- The call offers the writer sources, a record, or a gap. -/
def takesData : WriterCall → Bool
  | .registerSources _ | .append _ | .appendGap _ => true
  | _ => false

def finalizedPublished (s : WriterState) : Bool :=
  match s.publication.latest with
  | some cut => cut.finalized
  | none => false

/-- In the run, data is offered only while no finalized cut is the latest. -/
def DataBeforeFinal (X : Platform) : WriterState → List (WriterCall × List (Option ℕ)) → Prop
  | _, [] => True
  | s, (call, faults) :: calls =>
    (takesData call = true → finalizedPublished s = false) ∧
      DataBeforeFinal X (execWith X s call faults).2 calls

/-- Whether a run meets the condition can be computed. -/
def decideDataBeforeFinal (X : Platform) :
    (s : WriterState) → (calls : List (WriterCall × List (Option ℕ))) →
      Decidable (DataBeforeFinal X s calls)
  | _, [] => .isTrue trivial
  | s, (call, faults) :: calls =>
    have := decideDataBeforeFinal X (execWith X s call faults).2 calls
    inferInstanceAs (Decidable ((_ → _) ∧ _))

instance (X : Platform) (s : WriterState) (calls : List (WriterCall × List (Option ℕ))) :
    Decidable (DataBeforeFinal X s calls) := decideDataBeforeFinal X s calls

/-- Two cuts have the same records, sources, gaps, and blocks. -/
structure SameData (cut later : CorpusCut) : Prop where
  sources : later.sources = cut.sources
  gaps : later.gaps = cut.gaps
  blocks : later.blocks = cut.blocks
  recordCount : later.manifest.recordCount = cut.manifest.recordCount

/-- The cut has the data of the state. -/
structure DataOf (s : WriterState) (cut : CorpusCut) : Prop where
  sources : cut.sources = s.sources
  gaps : cut.gaps = s.gaps
  blocks : cut.blocks = s.blocks
  recordCount : cut.manifest.recordCount = s.manifest.recordCount

/-- What a call that takes no data in does: it settles, and it may publish the cut of a state with
nothing pending, which is finalized as the manifest is. -/
inductive Outcome (s t : WriterState) : Prop
  | kept (h : Settled s t)
  | published (u : WriterState) (cut : CorpusCut) (h : Settled s u) (flushed : AllFlushed u)
      (data : DataOf u cut) (mark : cut.finalized = decide (0 < u.manifest.finalizedReceiveNs))
      (after : Settled (adoptCut u cut) t)

/-- The finalized cut is final in a state: the latest cut has the same data, and so has the state. -/
structure Final (cut : CorpusCut) (s : WriterState) : Prop where
  latest : ∃ later, s.publication.latest = some later ∧ later.finalized = true ∧ SameData cut later
  data : DataOf s cut
  flushed : AllFlushed s
  finalized : 0 < s.manifest.finalizedReceiveNs

theorem DataOf.sameData (h : DataOf s cut) (g : DataOf s later) : SameData cut later :=
  ⟨g.sources.trans h.sources.symm, g.gaps.trans h.gaps.symm, g.blocks.trans h.blocks.symm,
    g.recordCount.trans h.recordCount.symm⟩

theorem DataOf.adoptCut (h : DataOf s cut) (later : CorpusCut) : DataOf (adoptCut s later) cut :=
  ⟨h.sources, h.gaps, h.blocks, h.recordCount⟩

theorem Final.settled (h : Final cut s) (hst : Settled s t) : Final cut t where
  latest := by rw [hst.latest]; exact h.latest
  data := ⟨h.data.sources.trans hst.sources.symm, h.data.gaps.trans hst.gaps.symm,
    h.data.blocks.trans (hst.blocks h.flushed).symm, h.data.recordCount.trans hst.recordCount.symm⟩
  flushed := hst.allFlushed h.flushed
  finalized := hst.finalized h.finalized

theorem Final.outcome (h : Final cut s) (hst : Outcome s t) : Final cut t := by
  rcases hst with hst | ⟨u, later, hsu, hflushed, hdata, hmark, hafter⟩
  · exact h.settled hst
  · have hu := h.settled hsu
    have hadopted : Final cut (adoptCut u later) := by
      refine ⟨⟨later, rfl, ?_, hu.data.sameData hdata⟩, hu.data.adoptCut later, hflushed, hu.finalized⟩
      rw [hmark]
      exact decide_eq_true hu.finalized
    exact hadopted.settled hafter

theorem Outcome.final (h : Outcome s t) (hs : finalizedPublished s = false)
    (hlatest : t.publication.latest = some cut) (hcut : cut.finalized = true) : Final cut t := by
  rcases h with hst | ⟨u, later, hsu, hflushed, hdata, hmark, hafter⟩
  · -- Nothing was published: the cut was there before.
    rw [hst.latest] at hlatest
    simp [finalizedPublished, hlatest, hcut] at hs
  · obtain rfl : later = cut := by
      rw [hafter.latest] at hlatest
      exact Option.some.inj hlatest
    have hadopted : Final later (adoptCut u later) :=
      ⟨⟨later, rfl, hcut, hdata.sameData hdata⟩, hdata.adoptCut later, hflushed,
        of_decide_eq_true (hmark ▸ hcut)⟩
    exact hadopted.settled hafter

theorem Outcome.closedEmpty (h : Outcome s t) (hs : ClosedEmpty s) : ClosedEmpty t := by
  rcases h with hst | ⟨u, cut, hsu, -, -, -, hafter⟩
  · exact hst.closed hs
  · exact hafter.closed (hsu.closed hs)

/-! ## The calls that take no data in -/

theorem Outcome.trans_settled (h : Outcome s t) (g : Settled t u) : Outcome s u := by
  rcases h with hst | ⟨v, cut, hsv, hflushed, hdata, hmark, hafter⟩
  · exact .kept (hst.trans g)
  · exact .published v cut hsv hflushed hdata hmark (hafter.trans g)

theorem Outcome.settled_trans (h : Settled s t) (g : Outcome t u) : Outcome s u := by
  rcases g with htu | ⟨v, cut, htv, hflushed, hdata, hmark, hafter⟩
  · exact .kept (h.trans htu)
  · exact .published v cut (h.trans htv) hflushed hdata hmark hafter

theorem bindReference_data {now : ℕ} (h : bindReference s (currentCut s now) = .ok cut) :
    DataOf s cut ∧ cut.finalized = decide (0 < s.manifest.finalizedReceiveNs) := by
  rw [bindReference_eq h]
  exact ⟨⟨rfl, rfl, rfl, rfl⟩, rfl⟩

theorem Published.outcome {now : ℕ} {result : Status × WriterState} (hclosed : ClosedEmpty s)
    (h : Published X s now result) : Outcome s result.2 := by
  cases h with
  | failed _ h => exact .kept h.settled
  | @published u before after cut _ _ hflush _ hbind _ _ =>
    have hshards : ∀ shard ∈ s.shards, shard < s.shardCount := fun shard h => List.mem_range.mp h
    have hsettled := (changes_flushAndSyncShards (X := X) s.shards hshards).settled
    have hpending := flushAndSyncShards_pending (X := X) s.shards hshards hclosed
    rw [hflush] at hsettled hpending
    obtain ⟨hdata, hmark⟩ := bindReference_data hbind
    refine .published (u.setDisk after) cut (hsettled.trans (Change.disk (X := X) u after).settled)
      (fun k hk => ?_) ⟨hdata.sources, hdata.gaps, hdata.blocks, hdata.recordCount⟩ hmark (.refl _)
    exact hpending rfl k (List.mem_range.mpr (hsettled.shardCount ▸ hk))

theorem settled_sealManifest (s : WriterState) : Settled s (sealManifest s).2 := by
  obtain ⟨disk, he | he⟩ := sealManifest_cases s <;> rw [he] <;>
    exact .of_segments rfl rfl rfl rfl id rfl rfl rfl

theorem Finalized.outcome {reason : BinaryMarketStopReason} {finalizedReceiveNs : Int64} {now : ℕ}
    {result : Status × WriterState} (hclosed : ClosedEmpty s)
    (h : Finalized X s reason finalizedReceiveNs now result) : Outcome s result.2 := by
  have hcompleted : ∀ {t}, 0 < finalizedReceiveNs.toInt →
      Settled t (completed t reason finalizedReceiveNs.toInt) := fun hreceive =>
    .of_segments rfl rfl rfl rfl
      (fun _ => lt_of_lt_of_le hreceive ((le_max_left _ _).trans (le_max_left _ _))) rfl rfl rfl
  cases h with
  | failed _ h => exact .kept h.settled
  | unpublished hreceive hsealed _ h =>
    exact .kept (((changes_seal hsealed).settled.trans (hcompleted hreceive)).trans h.settled)
  | published hreceive _ hsealed h =>
    have hall := (changes_seal hsealed).settled.trans (hcompleted hreceive)
    exact (Outcome.settled_trans hall (h.outcome (hall.closed hclosed))).trans_settled
      (settled_sealManifest _)

/-! ## The calls that take data in -/

/-- Taking data in publishes nothing, and only open segments get pending records. -/
structure TakesIn (s t : WriterState) : Prop where
  closed : ClosedEmpty s → ClosedEmpty t
  latest : t.publication.latest = s.publication.latest

theorem Settled.takesIn (h : Settled s t) : TakesIn s t := ⟨h.closed, h.latest⟩

theorem TakesIn.trans (h : TakesIn s t) (g : TakesIn t u) : TakesIn s u :=
  ⟨fun hs => g.closed (h.closed hs), g.latest.trans h.latest⟩

theorem TakesIn.of_segments (hsegments : t.segments = s.segments)
    (hlatest : t.publication.latest = s.publication.latest) : TakesIn s t := by
  refine ⟨fun h k => ?_, hlatest⟩
  rw [hsegments]
  exact h k

theorem takesIn_update {shard : ℕ} {segment : SegmentState}
    (hsegments : t.segments = Function.update s.segments shard segment)
    (hlatest : t.publication.latest = s.publication.latest) (hopen : segment.isOpen = true) :
    TakesIn s t := by
  refine ⟨fun h k hk => ?_, hlatest⟩
  rw [hsegments] at hk ⊢
  by_cases hks : k = shard
  · subst hks
    rw [Function.update_self, hopen] at hk
    cases hk
  · rw [Function.update_of_ne hks] at hk ⊢
    exact h k hk

theorem takesIn_withSource (s : WriterState) (a : Admission) : TakesIn s (withSource s a) := by
  unfold withSource
  split
  · exact .of_segments rfl rfl
  · exact .of_segments rfl rfl

theorem leadsToStore_takesIn : LeadsToStore X TakesIn where
  trans := .trans
  changes h := h.settled.takesIn
  price _ _ _ := .of_segments rfl rfl
  prepared h := h.settled.takesIn
  source := takesIn_withSource
  index _ hopen := takesIn_update rfl rfl hopen

theorem Appended.takesIn {r : BinaryMarketRecord} {result : Status × WriterState}
    (h : Appended X s r result) : TakesIn s result.2 := by
  rcases h.beforeStore leadsToStore_takesIn with ⟨-, h⟩ | ⟨a, w, position, -, hw, hopen, rfl⟩
  · exact h
  · refine hw.trans (takesIn_update rfl rfl ?_)
    rw [accept_isOpen]
    exact hopen

/-! ## Runs -/

/-- Every call takes data in, or settles and publishes at most one cut. -/
theorem Executed.takesIn_or_outcome {call : WriterCall} {result : Status × WriterState}
    (hclosed : ClosedEmpty s) (h : Executed X s call result) :
    (takesData call = true ∧ TakesIn s result.2) ∨
      (takesData call = false ∧ Outcome s result.2) := by
  cases h with
  | failed _ h =>
    cases htakes : takesData call with
    | true => exact .inl ⟨rfl, h.settled.takesIn⟩
    | false => exact .inr ⟨rfl, .kept h.settled⟩
  | registered => exact .inl ⟨rfl, .of_segments rfl rfl⟩
  | appended h => exact .inl ⟨rfl, h.takesIn⟩
  | gapTaken h => cases h <;> exact .inl ⟨rfl, .of_segments rfl rfl⟩
  | progressed | referenced | draining =>
    exact .inr ⟨rfl, .kept (.of_segments rfl rfl rfl rfl id rfl rfl rfl)⟩
  | published h => exact .inr ⟨rfl, h.outcome hclosed⟩
  | finalized h => exact .inr ⟨rfl, h.outcome hclosed⟩

theorem execWith_cases (hprepaid : Prepaid X s) (hclosed : ClosedEmpty s) (call : WriterCall)
    (faults : List (Option ℕ)) :
    (takesData call = true ∧ TakesIn s (execWith X s call faults).2) ∨
      (takesData call = false ∧ Outcome s (execWith X s call faults).2) := by
  have hfaults : Settled s (s.withFaults faults) := .of_segments rfl rfl rfl rfl id rfl rfl rfl
  have hexecuted : Executed X (s.withFaults faults) call (execWith X s call faults) :=
    executed_exec (hprepaid.withFaults faults).sized.sources_le call
  exact (hexecuted.takesIn_or_outcome (hfaults.closed hclosed)).imp
    (fun h => ⟨h.1, hfaults.takesIn.trans h.2⟩) fun h => ⟨h.1, .settled_trans hfaults h.2⟩

/-- The invariant of a run in which data comes before the finalized cut: only open segments have
pending records, and a finalized cut is final. -/
structure FinalIfPublished (X : Platform) (s : WriterState) : Prop where
  prepaid : Prepaid X s
  closed : ClosedEmpty s
  final : ∀ cut, s.publication.latest = some cut → cut.finalized = true → Final cut s

theorem finalizedPublished_false_iff :
    finalizedPublished s = false ↔
      ∀ cut, s.publication.latest = some cut → cut.finalized = false := by
  unfold finalizedPublished
  split
  · rename_i cut hcut
    simp [hcut]
  · rename_i hnone
    simp [hnone]

/-- One call keeps the invariant. -/
theorem FinalIfPublished.execWith (h : FinalIfPublished X s) (call : WriterCall)
    (faults : List (Option ℕ)) (hdata : takesData call = true → finalizedPublished s = false) :
    FinalIfPublished X (execWith X s call faults).2 := by
  have hprepaid := h.prepaid.execWith call faults
  rcases execWith_cases h.prepaid h.closed call faults with ⟨htakes, hst⟩ | ⟨-, hst⟩
  · refine ⟨hprepaid, hst.closed h.closed, fun cut hcut hfinal => ?_⟩
    -- No finalized cut was published before the call, and the call publishes none.
    rw [hst.latest] at hcut
    rw [finalizedPublished_false_iff.mp (hdata htakes) cut hcut] at hfinal
    cases hfinal
  · refine ⟨hprepaid, hst.closedEmpty h.closed, fun cut hcut hfinal => ?_⟩
    cases hs : finalizedPublished s with
    | false => exact hst.final hs hcut hfinal
    | true =>
      obtain ⟨before, hbefore⟩ : ∃ before, s.publication.latest = some before ∧
          before.finalized = true := by
        unfold finalizedPublished at hs
        split at hs
        · exact ⟨_, ‹_›, hs⟩
        · cases hs
      have hkept := (h.final before hbefore.1 hbefore.2).outcome hst
      obtain ⟨later, hlater, -, hsame⟩ := hkept.latest
      obtain rfl : later = cut := Option.some.inj (hlater.symm.trans hcut)
      refine ⟨⟨later, hlater, hfinal, rfl, rfl, rfl, rfl⟩, ?_, hkept.flushed, hkept.finalized⟩
      exact ⟨hsame.sources.trans hkept.data.sources, hsame.gaps.trans hkept.data.gaps,
        hsame.blocks.trans hkept.data.blocks, hsame.recordCount.trans hkept.data.recordCount⟩

theorem finalIfPublished_start {config : BinaryMarketWriterConfig} {root : RootEntry}
    {faults : List (Option ℕ)} (h : start X config root faults = (.ok, some s)) :
    FinalIfPublished X s := by
  have hprepaid := prepaid_start h
  obtain ⟨-, budget, u, -, hdirectory, rfl⟩ := changes_start h
  refine ⟨hprepaid, hdirectory.settled.closed fun _ _ => rfl, fun cut hcut => ?_⟩
  cases hdirectory.settled.latest.symm.trans hcut

theorem FinalIfPublished.runWith (h : FinalIfPublished X s)
    (calls : List (WriterCall × List (Option ℕ))) (hdata : DataBeforeFinal X s calls) :
    FinalIfPublished X (runWith X s calls) := by
  induction calls generalizing s with
  | nil => exact h
  | cons call calls ih =>
    exact ih (h.execWith call.1 call.2 hdata.1) hdata.2

theorem Final.runWith (h : Final cut s) (hs : FinalIfPublished X s)
    (calls : List (WriterCall × List (Option ℕ))) (hdata : DataBeforeFinal X s calls) :
    Final cut (runWith X s calls) := by
  induction calls generalizing s with
  | nil => exact h
  | cons call calls ih =>
    refine ih ?_ (hs.execWith call.1 call.2 hdata.1) hdata.2
    rcases execWith_cases hs.prepaid hs.closed call.1 call.2 with ⟨htakes, -⟩ | ⟨-, hst⟩
    · -- With a finalized cut published the call cannot be one that takes data in.
      obtain ⟨later, hlater, hfinal, -⟩ := h.latest
      rw [finalizedPublished_false_iff.mp (hdata.1 htakes) later hlater] at hfinal
      cases hfinal
    · exact h.outcome hst

theorem runWith_append (X : Platform) (s : WriterState)
    (calls more : List (WriterCall × List (Option ℕ))) :
    runWith X s (calls ++ more) = runWith X (runWith X s calls) more := by
  induction calls generalizing s with
  | nil => rfl
  | cons call calls ih => exact ih _

theorem dataBeforeFinal_append {calls more : List (WriterCall × List (Option ℕ))} :
    DataBeforeFinal X s (calls ++ more) ↔
      DataBeforeFinal X s calls ∧ DataBeforeFinal X (runWith X s calls) more := by
  induction calls generalizing s with
  | nil => simp [DataBeforeFinal, runWith]
  | cons call calls ih => simp only [List.cons_append, DataBeforeFinal, runWith, ih, and_assoc]

/-- Wherever calls fail: if data is offered only while no finalized cut is the latest, then every cut
that is the latest after a finalized one is finalized with the same data. -/
theorem finalized_cut_final {config : BinaryMarketWriterConfig} {root : RootEntry}
    {faults : List (Option ℕ)} (hstart : start X config root faults = (.ok, some s))
    (before after : List (WriterCall × List (Option ℕ)))
    (hdata : DataBeforeFinal X s (before ++ after))
    (hcut : (runWith X s before).publication.latest = some cut) (hfinal : cut.finalized = true) :
    ∃ later, (runWith X s (before ++ after)).publication.latest = some later ∧
      later.finalized = true ∧ SameData cut later := by
  obtain ⟨hbefore, hafter⟩ := dataBeforeFinal_append.mp hdata
  have hinvariant := (finalIfPublished_start hstart).runWith before hbefore
  rw [runWith_append]
  exact ((hinvariant.final cut hcut hfinal).runWith hinvariant after hafter).latest

/-- The calls of a run whose `finalize` publishes its cut and then fails to write the manifest. -/
def failedFinalize : List (WriterCall × List (Option ℕ)) :=
  [(.append (smallRecord 10 10 1 0), []),
    (.finalize .requested 20 1, List.replicate 34 none ++ [some 0])]

/-- The cut of the failed `finalize` stays as it is when only publications follow. -/
theorem finalized_cut_final_small :
    ∃ cut later, (runWith .stored smallStart failedFinalize).publication.latest = some cut ∧
      (runWith .stored smallStart (failedFinalize ++ [(.publishCut 2, [])])).publication.latest =
        some later ∧ later.finalized = true ∧ SameData cut later := by
  have hmark : (runWith .stored smallStart failedFinalize).publication.latest.map
      CorpusCut.finalized = some true := by decide +kernel
  obtain ⟨cut, hcut, hfinal⟩ := Option.map_eq_some_iff.mp hmark
  obtain ⟨later, hlater, hlaterMark, hsame⟩ := finalized_cut_final start_smallConfig failedFinalize
    [(.publishCut 2, [])] (by decide +kernel) hcut hfinal
  exact ⟨cut, later, hcut, hlater, hlaterMark, hsame⟩

/-- After the failed `finalize` the writer takes a second record and publishes it in a cut that is
finalized too. -/
theorem finalized_cut_grows :
    start .stored smallConfig .absent [] = (.ok, some smallStart) ∧
      (runWith .stored smallStart failedFinalize).publication.latest.map
          (fun cut => (cut.finalized, cut.manifest.recordCount, cut.blocks.length)) =
        some (true, 1, 1) ∧
      (runWith .stored smallStart (failedFinalize ++
          [(.append (smallRecord 20 20 2 0), []), (.publishCut 2, [])])).publication.latest.map
          (fun cut => (cut.finalized, cut.manifest.recordCount, cut.blocks.length)) =
        some (true, 2, 2) := by
  refine ⟨start_smallConfig, ?_, ?_⟩
  · decide +kernel
  · decide +kernel

end HftRecorder.Corpus
