import HftRecorder.Format.DepthGrammar
import HftRecorder.Writer.Outcomes
import Mathlib.Data.List.Induction

/-!
# The records of a shard

What the writer keeps of the records that it has taken from a shard: the sequence of the last one, and
the depth transaction that they leave open. `ShardHistory` says that the writer's state of a shard is
that of a list of records, whose sequences increase; where a transaction is open it started with one
of these records, and every record since then belongs to it. A record that is taken extends the list,
and no other call, and no failure, changes what is kept.
-/

namespace HftRecorder.Corpus

open ByteLayout BinaryMarketChannel

variable {X : Platform} {r : BinaryMarketRecord} {s t : BinaryMarketDepthTransactionState}

/-! ## Where an open transaction started -/

/-- What an accepted record of the transaction keeps of its first one. -/
structure SameStart (s t : BinaryMarketDepthTransactionState) : Prop where
  firstShardSequence : t.firstShardSequence = s.firstShardSequence
  receiveMonotonicNs : t.receiveMonotonicNs = s.receiveMonotonicNs

/-- A coverage record stays in its transaction. -/
theorem sameStart_advanceDepthCoverage (h : advanceDepthCoverage r s = some t)
    (hactive : t.active = true) : SameStart s t := by
  unfold advanceDepthCoverage at h
  dsimp only at h
  generalize hu : (if s.nextCoverage = 0 then
    { s with totalCoverageCount := r.depthCoveragePayload.totalCoverageCount,
             coverageParts := r.depthCoveragePayload.partCount } else s) = u at h
  have hstart : SameStart s u := by
    rw [← hu]
    split <;> exact ⟨rfl, rfl⟩
  split at h
  · cases h
  split at h
  · cases h
  split at h
  · split at h
    · cases h
      cases hactive
    · cases h
  · cases h
    exact ⟨hstart.firstShardSequence, hstart.receiveMonotonicNs⟩

theorem sameStart_countDepthChunk (s : BinaryMarketDepthTransactionState)
    (hactive : (countDepthChunk s).active = true) : SameStart s (countDepthChunk s) := by
  unfold countDepthChunk at hactive ⊢
  dsimp only at hactive ⊢
  split
  · rename_i hchunk
    rw [if_pos hchunk] at hactive
    split
    · rename_i hnative
      rw [if_pos hnative] at hactive
      split
      · exact ⟨rfl, rfl⟩
      · rename_i hcoverage
        rw [if_neg hcoverage] at hactive
        cases hactive
    · exact ⟨rfl, rfl⟩
  · exact ⟨rfl, rfl⟩

/-- A chunk stays in its transaction. -/
theorem sameStart_advanceDepthChunk (h : advanceDepthChunk X r s = some t)
    (hactive : t.active = true) : SameStart s t := by
  unfold advanceDepthChunk at h
  dsimp only at h
  generalize hu : (if s.nextChunk = 0 then beginDepthPart r.depthChunkPayload s else s) = u at h
  have hstart : SameStart s u := by
    rw [← hu]
    split <;> exact ⟨rfl, rfl⟩
  split at h
  · cases h
  split at h
  · cases h
  split at h
  · cases h
  split at h
  · cases h
  · cases h
    have hcount := sameStart_countDepthChunk _ hactive
    exact ⟨hcount.firstShardSequence.trans hstart.firstShardSequence,
      hcount.receiveMonotonicNs.trans hstart.receiveMonotonicNs⟩

/-- A record that leaves a transaction open belongs to the one that was open, or starts it. -/
theorem start_of_advance (h : advanceBinaryMarketDepthTransaction X r s = some t)
    (hactive : t.active = true) :
    r.channel = depth ∧
      ((s.active = true ∧ SameStart s t) ∨
        (s.active = false ∧ t.firstShardSequence = r.shardSequence ∧
          t.receiveMonotonicNs = r.receiveMonotonicNs)) := by
  unfold advanceBinaryMarketDepthTransaction at h
  split at h
  · split at h
    · cases h
    · rename_i hs
      cases h
      exact absurd hactive hs
  rename_i hchannel
  rw [not_not] at hchannel
  refine ⟨hchannel, ?_⟩
  split at h
  · cases h
  split at h
  · cases h
  rename_i u hbegin
  split at h
  · cases h
  have hstart : SameStart u t := by
    split at h
    · exact sameStart_advanceDepthCoverage h hactive
    · exact sameStart_advanceDepthChunk h hactive
  unfold beginDepthTransaction at hbegin
  dsimp only at hbegin
  split at hbegin
  · rename_i hs
    cases hbegin
    exact .inl ⟨hs, hstart⟩
  rename_i hs
  split at hbegin
  · cases hbegin
  split at hbegin
  · cases hbegin
  · cases hbegin
    exact .inr ⟨Bool.not_eq_true _ ▸ hs, hstart.firstShardSequence, hstart.receiveMonotonicNs⟩

/-! ## The history of a shard -/

/-- The record is part of a depth transaction and does not end it. -/
def BinaryMarketRecord.leavesOpen (r : BinaryMarketRecord) : Bool :=
  r.channel = depth && !r.hasFlag recordDepthTransactionEnd

/-- A transaction that is open started with one of the records, and all since then belong to it. -/
structure OpenSince (s : BinaryMarketDepthTransactionState) (first : BinaryMarketRecord)
    (rest : List BinaryMarketRecord) : Prop where
  firstShardSequence : s.firstShardSequence = first.shardSequence
  receiveMonotonicNs : s.receiveMonotonicNs = first.receiveMonotonicNs
  leavesOpen : ∀ r ∈ first :: rest, r.leavesOpen = true

/-- The writer's state of a shard is that of the given records. -/
structure ShardHistory (X : Platform) (segment : SegmentState)
    (transaction : BinaryMarketDepthTransactionState) (records : List BinaryMarketRecord) : Prop where
  increasing : records.Pairwise fun a b => a.shardSequence < b.shardSequence
  sequence_ne : ∀ r ∈ records, r.shardSequence ≠ 0
  previous_eq : segment.previousShardSequence =
    (records.getLast?.map BinaryMarketRecord.shardSequence).getD 0
  depth_eq : runDepthTransactions X {} records = some transaction
  openSince : transaction.active = true → ∃ before first rest,
    records = before ++ first :: rest ∧ OpenSince transaction first rest

variable {segment segment' : SegmentState} {transaction : BinaryMarketDepthTransactionState}
  {records : List BinaryMarketRecord}

theorem ShardHistory.nil (X : Platform) (h : segment.previousShardSequence = 0) :
    ShardHistory X segment {} [] :=
  ⟨.nil, nofun, h, rfl, nofun⟩

theorem ShardHistory.congr (h : ShardHistory X segment transaction records)
    (heq : segment'.previousShardSequence = segment.previousShardSequence) :
    ShardHistory X segment' transaction records :=
  ⟨h.increasing, h.sequence_ne, heq.trans h.previous_eq, h.depth_eq, h.openSince⟩

theorem ShardHistory.le_previous (h : ShardHistory X segment transaction records)
    (hr : r ∈ records) : r.shardSequence ≤ segment.previousShardSequence := by
  rw [h.previous_eq]
  rcases List.eq_nil_or_concat records with rfl | ⟨before, last, rfl⟩
  · cases hr
  · rw [List.concat_eq_append] at hr ⊢
    rw [List.getLast?_concat, Option.map_some, Option.getD_some]
    rcases List.mem_append.mp hr with hr | hr
    · have hincreasing := h.increasing
      rw [List.concat_eq_append, List.pairwise_append] at hincreasing
      exact (hincreasing.2.2 r hr last (List.mem_singleton_self last)).le
    · rw [List.mem_singleton.mp hr]

/-- A record that the tests of `append` admit extends the history. -/
theorem ShardHistory.append (h : ShardHistory X segment transaction records)
    (hvalid : validBinaryMarketRecord X r = true) (hordered : shardOrdered segment r = true)
    (hadvance : advanceBinaryMarketDepthTransaction X r transaction = some t)
    (hsegment : segment'.previousShardSequence = r.shardSequence) :
    ShardHistory X segment' t (records ++ [r]) := by
  have hne := (validHeader_of_valid hvalid).shardSequence_ne
  have hlt : ∀ a ∈ records, a.shardSequence < r.shardSequence := by
    intro a ha
    have hle := h.le_previous ha
    have hpos := h.sequence_ne a ha
    unfold shardOrdered at hordered
    simp only [Bool.not_eq_true', Bool.or_eq_false_iff, Bool.and_eq_false_iff,
      decide_eq_false_iff_not, not_not, not_le, ne_eq] at hordered
    rcases hordered.1 with hzero | hprevious
    · omega
    · omega
  refine ⟨?_, ?_, ?_, ?_, fun hactive => ?_⟩
  · rw [List.pairwise_append]
    refine ⟨h.increasing, List.pairwise_singleton _ _, fun a ha b hb => ?_⟩
    rw [List.mem_singleton.mp hb]
    exact hlt a ha
  · intro a ha
    rcases List.mem_append.mp ha with ha | ha
    · exact h.sequence_ne a ha
    · rw [List.mem_singleton.mp ha]
      exact hne
  · rw [List.getLast?_concat, hsegment]
    rfl
  · rw [runDepthTransactions_append, h.depth_eq, Option.bind_some, runDepthTransactions, hadvance]
    rfl
  · -- The end flag would have closed the transaction.
    obtain ⟨hchannel, hstart⟩ := start_of_advance hadvance hactive
    have hend : r.hasFlag recordDepthTransactionEnd = false := by
      have hshaped := runDepthTransactions_shaped .nil h.depth_eq
      have hiff := (advance_shaped hshaped hadvance).2 hchannel
      cases hflag : r.hasFlag recordDepthTransactionEnd with
      | false => rfl
      | true =>
        rw [hiff.mpr hflag] at hactive
        cases hactive
    have hopen : r.leavesOpen = true := by
      unfold BinaryMarketRecord.leavesOpen
      rw [hend, hchannel]
      rfl
    rcases hstart with ⟨hs, hstart⟩ | ⟨-, hfirst, hmonotonic⟩
    · obtain ⟨before, first, rest, rfl, hsince⟩ := h.openSince hs
      refine ⟨before, first, rest ++ [r], by rw [List.append_assoc]; rfl, ?_⟩
      refine ⟨hstart.firstShardSequence.trans hsince.firstShardSequence,
        hstart.receiveMonotonicNs.trans hsince.receiveMonotonicNs, fun a ha => ?_⟩
      rw [← List.cons_append] at ha
      rcases List.mem_append.mp ha with ha | ha
      · exact hsince.leavesOpen a ha
      · rw [List.mem_singleton.mp ha]
        exact hopen
    · refine ⟨records, r, [], rfl, hfirst, hmonotonic, fun a ha => ?_⟩
      rw [List.mem_singleton.mp ha]
      exact hopen

/-! ## What the calls do to it -/

variable {s t u : WriterState} {a : Admission}

/-- What every call keeps, but for the record or the progress that it takes. -/
structure Steady (s t : WriterState) : Prop where
  config : t.config = s.config
  progress : t.progress = s.progress
  depthTransactions : t.depthTransactions = s.depthTransactions
  previous : ∀ k, (t.segments k).previousShardSequence = (s.segments k).previousShardSequence

theorem Steady.trans (h : Steady s t) (g : Steady t u) : Steady s u :=
  ⟨g.config.trans h.config, g.progress.trans h.progress,
    g.depthTransactions.trans h.depthTransactions, fun k => (g.previous k).trans (h.previous k)⟩

theorem steady_of_kept (h : t.kept = s.kept) : Steady s t :=
  ⟨config_of_kept h, progress_of_kept h, depthTransactions_of_kept h,
    previousShardSequence_of_kept h⟩

theorem Changes.steady (h : Changes X s t) : Steady s t := steady_of_kept h.kept_eq

theorem steady_withSource (s : WriterState) (a : Admission) : Steady s (withSource s a) := by
  unfold withSource
  split <;> exact ⟨rfl, rfl, rfl, fun _ => rfl⟩

theorem steady_withIndex (s : WriterState) (shard : ℕ) (key : IndexKey) :
    Steady s (withIndex s shard key) := by
  refine ⟨rfl, rfl, rfl, fun k => ?_⟩
  rcases eq_or_ne k shard with rfl | hne
  · rw [withIndex_segments_self]
  · rw [withIndex_segments_of_ne hne]

variable {result : Status × WriterState}

theorem leadsToStore_steady : LeadsToStore X Steady where
  trans := .trans
  changes h := h.steady
  price _ _ _ := ⟨rfl, rfl, rfl, fun _ => rfl⟩
  prepared h := steady_of_kept h.kept_eq
  source := steady_withSource
  index key _ := steady_withIndex _ _ key

theorem Published.steady {now : ℕ} (h : Published X s now result) : Steady s result.2 := by
  cases h with
  | failed _ h => exact h.steady
  | published _ _ hflush =>
    exact (changes_flushAll hflush).steady.trans ⟨rfl, rfl, rfl, fun _ => rfl⟩

theorem steady_sealManifest (s : WriterState) : Steady s (sealManifest s).2 := by
  obtain ⟨disk, he | he⟩ := sealManifest_cases s <;> rw [he] <;>
    exact ⟨rfl, rfl, rfl, fun _ => rfl⟩

theorem Finalized.steady {reason : BinaryMarketStopReason} {finalizedReceiveNs : Int64} {now : ℕ}
    (h : Finalized X s reason finalizedReceiveNs now result) : Steady s result.2 := by
  have hcompleted : ∀ {u}, andThen (sealShards X s.shards s) writeTables = (true, u) →
      Steady s (completed u reason finalizedReceiveNs.toInt) := fun hsealed =>
    (changes_seal hsealed).steady.trans ⟨rfl, rfl, rfl, fun _ => rfl⟩
  cases h with
  | failed _ h => exact h.steady
  | unpublished _ hsealed _ h => exact (hcompleted hsealed).trans h.steady
  | published _ _ hsealed h =>
    exact ((hcompleted hsealed).trans h.steady).trans (steady_sealManifest _)

/-- The records of a shard that a call takes. -/
def WriterCall.taken (call : WriterCall) (status : Status) (k : ℕ) : List BinaryMarketRecord :=
  match call, status with
  | .append r, .ok => if r.shardIndex = k then [r] else []
  | _, _ => []

def WriterCall.progressAfter (call : WriterCall) (status : Status) (s : WriterState) :
    CorpusProducerProgress :=
  match call, status with
  | .updateProgress progress, .ok => progress
  | _, _ => s.progress

variable {call : WriterCall}

theorem taken_of_ne {status : Status} (h : status ≠ .ok) (k : ℕ) : call.taken status k = [] := by
  cases call with
  | append =>
    cases status with
    | ok => exact absurd rfl h
    | _ => rfl
  | _ => rfl

theorem progressAfter_of_ne {status : Status} (h : status ≠ .ok) :
    call.progressAfter status s = s.progress := by
  cases call with
  | updateProgress =>
    cases status with
    | ok => exact absurd rfl h
    | _ => rfl
  | _ => rfl

/-- The writer's state of its shards is that of the given records. -/
def ShardRecords (X : Platform) (s : WriterState) (records : ℕ → List BinaryMarketRecord) : Prop :=
  ∀ k, ShardHistory X (s.segments k) (s.depthTransactions k) (records k)

variable {records : ℕ → List BinaryMarketRecord}

theorem ShardRecords.steady (h : ShardRecords X s records) (hst : Steady s t) :
    ShardRecords X t records := fun k => by
  rw [hst.depthTransactions]
  exact (h k).congr (hst.previous k)

theorem ShardRecords.accept (h : ShardRecords X s records) (ha : admitRecord X s r = .ok a)
    (hst : Steady s t) (position : ℕ) :
    ShardRecords X (acceptRecord X t r a position)
      fun k => records k ++ (WriterCall.append r).taken .ok k := by
  intro k
  have hadmitted := admitted_of_ok ha
  dsimp only [acceptRecord, WriterCall.taken]
  rcases eq_or_ne k r.shardIndex with rfl | hne
  · rw [Function.update_self, Function.update_self, if_pos rfl]
    exact (h r.shardIndex).append hadmitted.valid hadmitted.ordered hadmitted.depth rfl
  · rw [Function.update_of_ne hne, Function.update_of_ne hne, if_neg hne.symm, List.append_nil]
    exact h.steady hst k

/-- What a call leaves of the records of the shards, and of the progress. -/
structure Noted (X : Platform) (s : WriterState) (records : ℕ → List BinaryMarketRecord)
    (call : WriterCall) (result : Status × WriterState) : Prop where
  records : ShardRecords X result.2 fun k => records k ++ call.taken result.1 k
  config : result.2.config = s.config
  progress : result.2.progress = call.progressAfter result.1 s

theorem ShardRecords.noted (h : ShardRecords X s records) (hst : Steady s result.2)
    (htaken : ∀ k, call.taken result.1 k = [])
    (hprogress : call.progressAfter result.1 s = s.progress) : Noted X s records call result := by
  refine ⟨fun k => ?_, hst.config, hst.progress.trans hprogress.symm⟩
  dsimp only
  rw [htaken, List.append_nil]
  exact h.steady hst k

theorem ShardRecords.executed (hs : ShardRecords X s records) (h : Executed X s call result) :
    Noted X s records call result := by
  cases h with
  | failed hne h => exact hs.noted h.steady (taken_of_ne hne) (progressAfter_of_ne hne)
  | registered => exact hs.noted ⟨rfl, rfl, rfl, fun _ => rfl⟩ (fun _ => rfl) rfl
  | appended h =>
    rcases h.beforeStore leadsToStore_steady with ⟨hne, hst⟩ | ⟨a, w, position, ha, hst, -, rfl⟩
    · exact hs.noted hst (taken_of_ne hne) (progressAfter_of_ne hne)
    · exact ⟨hs.accept ha hst position, hst.config, hst.progress⟩
  | gapTaken h =>
    cases h <;> exact hs.noted ⟨rfl, rfl, rfl, fun _ => rfl⟩ (fun _ => rfl) rfl
  | progressed =>
    refine ⟨fun k => ?_, rfl, rfl⟩
    change ShardHistory X (s.segments k) (s.depthTransactions k) (records k ++ [])
    rw [List.append_nil]
    exact hs k
  | referenced | draining => exact hs.noted ⟨rfl, rfl, rfl, fun _ => rfl⟩ (fun _ => rfl) rfl
  | published h => exact hs.noted h.steady (fun _ => rfl) rfl
  | finalized h => exact hs.noted h.steady (fun _ => rfl) rfl

/-- Only `finalize` ends the writer. -/
theorem Executed.active (h : Executed X s call result)
    (hcall : ∀ reason finalizedReceiveNs now, call ≠ .finalize reason finalizedReceiveNs now) :
    result.2.active = s.active := by
  cases h with
  | failed _ h => exact active_of_kept h.kept_eq
  | registered | progressed | referenced | draining => rfl
  | appended h =>
    have hpaid : ∀ {u v : WriterState} {a : Admission} {bytes : ℕ} {newIndex : Bool},
        Payable X s u a bytes newIndex → v.kept = (afterPrice u a bytes).kept →
        v.active = s.active := by
      intro u v a bytes newIndex hpay hv
      have hu : u.active = s.active := active_of_kept hpay.changes.kept_eq
      exact (active_of_kept hv).trans hu
    have hsource : ∀ (v : WriterState) (a : Admission), (withSource v a).active = v.active := by
      intro v a
      unfold withSource
      split <;> rfl
    cases h with
    | refused => rfl
    | unpaid _ h => exact active_of_kept h.changes.kept_eq
    | unstored _ hpay h => exact hpaid hpay h.kept_eq
    | unindexed _ hpay h => exact (hsource _ _).trans (hpaid hpay h.kept_eq)
    | stored _ hpay h _ _ hindex =>
      rcases hindex with ⟨-, rfl⟩ | ⟨-, -, -, rfl⟩ <;>
        exact (hsource _ _).trans (hpaid hpay h.kept_eq)
  | gapTaken h => cases h <;> rfl
  | published h =>
    cases h with
    | failed _ h => exact active_of_kept h.kept_eq
    | @published u _ _ _ _ _ hflush =>
      have hu : u.active = s.active := active_of_kept (changes_flushAll hflush).kept_eq
      exact hu
  | finalized => exact absurd rfl (hcall _ _ _)

/-! ## Progress

A progress that covers no record of an open transaction, and only records that the writer has, is
taken. -/

/-- A progress is right about a shard of which some records are covered. -/
structure Coverable (progress : CorpusProducerProgress) (k : ℕ)
    (covered rest : List BinaryMarketRecord) : Prop where
  sequence_eq : (progress.shardSequences k).toNat =
    (covered.getLast?.map BinaryMarketRecord.shardSequence).getD 0
  closed : ∀ r ∈ covered.getLast?, r.leavesOpen = false
  later : ∀ r ∈ rest, progress.safeMonotonicNs.toNat ≤ r.receiveMonotonicNs

variable {progress : CorpusProducerProgress} {covered rest : List BinaryMarketRecord}

theorem ShardHistory.covered_lt {k : ℕ} (h : ShardHistory X segment transaction (covered ++ rest))
    (hcover : Coverable progress k covered rest) (hr : r ∈ rest) :
    (progress.shardSequences k).toNat < r.shardSequence := by
  rw [hcover.sequence_eq]
  cases hlast : covered.getLast? with
  | none => exact Nat.pos_of_ne_zero (h.sequence_ne r (List.mem_append_right _ hr))
  | some last =>
    exact (List.pairwise_append.mp h.increasing).2.2 last (List.mem_of_getLast? hlast) r hr

theorem ShardHistory.open_after {k : ℕ} (h : ShardHistory X segment transaction (covered ++ rest))
    (hcover : Coverable progress k covered rest) (hactive : transaction.active = true) :
    ∃ first ∈ rest, transaction.firstShardSequence = first.shardSequence ∧
      transaction.receiveMonotonicNs = first.receiveMonotonicNs := by
  obtain ⟨before, first, tail, hsplit, hsince⟩ := h.openSince hactive
  refine ⟨first, ?_, hsince.firstShardSequence, hsince.receiveMonotonicNs⟩
  rcases List.append_eq_append_iff.mp hsplit with ⟨middle, -, hrest⟩ | ⟨middle, hcovered, hrest⟩
  · rw [hrest]
    simp
  · -- If the covered records go beyond its start, the last of them is one of the transaction.
    rcases List.eq_nil_or_concat middle with rfl | ⟨middle, last, rfl⟩
    · rw [List.nil_append] at hrest
      rw [← hrest]
      exact List.mem_cons_self
    · rw [List.concat_eq_append] at hcovered hrest
      have hlast : covered.getLast? = some last := by
        rw [hcovered, ← List.append_assoc, List.getLast?_concat]
      have hmem : last ∈ first :: tail := by
        rw [hrest]
        simp
      have hfalse := hcover.closed last hlast
      rw [hsince.leavesOpen last hmem] at hfalse
      cases hfalse

theorem ShardHistory.progressAllowed {k : ℕ}
    (h : ShardHistory X (s.segments k) (s.depthTransactions k) (covered ++ rest))
    (hcover : Coverable progress k covered rest)
    (hgrows : s.progress.shardSequences k ≤ progress.shardSequences k) :
    shardProgressAllowed s progress k = true := by
  have hgrows : (s.progress.shardSequences k).toNat ≤ (progress.shardSequences k).toNat :=
    UInt64.le_iff_toNat_le.mp hgrows
  have hprevious : (progress.shardSequences k).toNat ≤ (s.segments k).previousShardSequence := by
    rw [hcover.sequence_eq]
    cases hlast : covered.getLast? with
    | none => exact Nat.zero_le _
    | some r => exact h.le_previous (List.mem_append_left _ (List.mem_of_getLast? hlast))
  unfold shardProgressAllowed
  simp only [Bool.not_eq_true', Bool.or_eq_false_iff, Bool.and_eq_false_iff,
    decide_eq_false_iff_not, not_lt, not_le]
  refine ⟨⟨hgrows, hprevious⟩, ?_⟩
  cases hactive : (s.depthTransactions k).active with
  | false => exact .inl rfl
  | true =>
    obtain ⟨first, hfirst, hsequence, hmonotonic⟩ := h.open_after hcover hactive
    rw [hsequence, hmonotonic]
    exact .inr ⟨h.covered_lt hcover hfirst, hcover.later first hfirst⟩

theorem updateProgress_ok (hactive : s.active = true)
    (hepoch : progress.producerEpoch = s.config.producerEpoch)
    (hcount : progress.shardCount = s.config.shardCount)
    (hsafe : s.progress.safeMonotonicNs ≤ progress.safeMonotonicNs)
    (hloss : s.progress.lossEpoch ≤ progress.lossEpoch)
    (hdirectory : s.progress.directoryRevision ≤ progress.directoryRevision)
    (hshards : ∀ k < s.shardCount, shardProgressAllowed s progress k = true) :
    updateProgress s progress = (.ok, { s with progress }) := by
  unfold updateProgress
  rw [if_neg, if_pos]
  · exact List.all_eq_true.mpr fun k hk => hshards k (List.mem_range.mp hk)
  · simp only [Bool.not_eq_true', not_or, not_not, UInt64.not_lt, Bool.not_eq_false]
    exact ⟨hactive, hepoch, hcount, hsafe, hloss, hdirectory⟩

end HftRecorder.Corpus
