import HftRecorder.Lib.ChunkedLog
import HftRecorder.Writer.Finality
import HftRecorder.Writer.ShardHistory

/-!
# The blocks are the accepted records

What the writer has accepted from a shard is a list of records, and its blocks with the pending
records are this list: every block has the next records of its shard, and what is pending comes after
the last block. `BlockLog` says so, and it holds whatever directory operations fail, since a flush that
fails leaves its records pending. A cut is published with nothing pending, so it has every record that
was accepted before it, and none twice.
-/

namespace HftRecorder.Corpus

open ByteLayout Codec ChunkedLog

variable {X : Platform} {s t u : WriterState} {shard : ℕ} {records : ℕ → List BinaryMarketRecord}

/-- The ranges of the blocks of one shard. -/
def blocksOf (blocks : List CorpusBlockRange) (k : ℕ) : List CorpusBlockRange :=
  blocks.filter fun range => range.shardIndex = k

/-- The range is that of the block which `flushBlock` writes for the records: it has their number,
sequences, and times, and the checksums of their bytes, raw and encoded. -/
def BlockOf (X : Platform) (range : CorpusBlockRange) (records : List BinaryMarketRecord) : Prop :=
  ∃ header first rest encoded, records = first :: rest ∧
    X.encodeByteBlock (binaryMarketBlockLayout first.channel) (rawBlock records)
      (X.byteBlockEncodeBound (binaryMarketBlockLayout .depth) kBinaryMarketBlockRecords) =
        some encoded ∧
    range = blockRange header first rest (blockHeader header.blockCount first rest encoded)

/-- The blocks and the pending records of one shard are the records accepted from it. -/
structure ShardLog (X : Platform) (k : ℕ) (segment : SegmentState) (blocks : List CorpusBlockRange)
    (records : List BinaryMarketRecord) : Prop where
  closed : segment.isOpen = false → segment.pending = []
  shardIndex : segment.isOpen = true → segment.header.shardIndex = k
  log : Chunked (BlockOf X) (blocksOf blocks k) segment.pending records

/-- The blocks and the pending records are the records accepted from each shard. -/
def BlockLog (X : Platform) (s : WriterState) (records : ℕ → List BinaryMarketRecord) : Prop :=
  ∀ k, ShardLog X k (s.segments k) s.blocks (records k)

/-- The blocks of a cut are the records of each shard. -/
def CutOf (X : Platform) (cut : CorpusCut) (shardCount : ℕ)
    (records : ℕ → List BinaryMarketRecord) : Prop :=
  ∀ k < shardCount, Chunked (BlockOf X) (blocksOf cut.blocks k) [] (records k)

theorem shardCount_congr (h : t.config = s.config) : t.shardCount = s.shardCount :=
  congrArg (fun config => config.shardCount.toNat) h

/-! ## The changes of segments -/

/-- A change of one segment, which adds blocks and records of its shard only. -/
theorem BlockLog.update {records' : ℕ → List BinaryMarketRecord} {segment : SegmentState}
    (h : BlockLog X s records) (hsegments : t.segments = Function.update s.segments shard segment)
    (hself : ShardLog X shard segment t.blocks (records' shard))
    (hblocks : ∀ k ≠ shard, blocksOf t.blocks k = blocksOf s.blocks k)
    (hrecords : ∀ k ≠ shard, records' k = records k) : BlockLog X t records' := by
  intro k
  rw [hsegments]
  rcases eq_or_ne k shard with rfl | hne
  · rw [Function.update_self]
    exact hself
  · rw [Function.update_of_ne hne, hrecords k hne]
    have hk := h k
    exact ⟨hk.closed, hk.shardIndex, (hblocks k hne).symm ▸ hk.log⟩

/-- The pending records of a shard go to its next block. -/
theorem BlockLog.flush (h : BlockLog X s records) {first : BinaryMarketRecord}
    {rest : List BinaryMarketRecord} {encoded : Bytes}
    (hopen : (s.segments shard).isOpen = true) (hguard : FlushGuard X s shard first rest encoded) :
    BlockLog X (recordFlush X s shard first rest encoded) records := by
  have hindex : (flushedRange (s.segments shard) first rest encoded).shardIndex = shard :=
    (h shard).shardIndex hopen
  have hblock : BlockOf X (flushedRange (s.segments shard) first rest encoded)
      (s.segments shard).pending := by
    refine ⟨(s.segments shard).header, first, rest, encoded, hguard.pending_eq, ?_, rfl⟩
    rw [hguard.pending_eq]
    exact hguard.encode_eq
  refine h.update rfl ⟨fun _ => rfl, fun _ => ?_, ?_⟩ (fun k hk => ?_) fun _ _ => rfl
  · rw [flushed_header]
    exact hindex
  · rw [flushed_pending, recordFlush, blocksOf, List.filter_append,
      List.filter_cons_of_pos (by simpa using hindex)]
    exact (h shard).log.close hblock
  · rw [recordFlush, blocksOf, List.filter_append, List.filter_cons_of_neg, List.filter_nil,
      List.append_nil, blocksOf]
    rw [hindex]
    simpa using hk.symm

theorem sealedHeader_shardIndex (header : BinaryMarketSegmentHeader) :
    (sealedHeader header).shardIndex = header.shardIndex := by
  cases header; rfl

/-- Every change keeps the blocks those of the accepted records. -/
theorem Change.blockLog (hchange : Change X s t) (h : BlockLog X s records) :
    BlockLog X t records := by
  -- A change of one segment that stores no block.
  have hone : ∀ {t : WriterState} {shard : ℕ} {segment : SegmentState},
      t.segments = Function.update s.segments shard segment → t.blocks = s.blocks →
      segment.pending = (s.segments shard).pending →
      (segment.isOpen = false → (s.segments shard).pending = []) →
      (segment.isOpen = true → segment.header.shardIndex = shard) → BlockLog X t records := by
    intro t shard segment hsegments hblocks hpending hclosed hindex
    refine h.update hsegments ?_ (fun _ _ => by rw [hblocks]) fun _ _ => rfl
    rw [hblocks]
    refine ⟨?_, hindex, ?_⟩ <;> rw [hpending]
    exacts [hclosed, (h shard).log]
  cases hchange with
  | disk | quota => exact h
  | stream shard => exact hone rfl rfl rfl (h shard).closed (h shard).shardIndex
  | checksum shard =>
    refine hone rfl rfl rfl (h shard).closed fun hopen => ?_
    rw [sealedHeader_shardIndex]
    exact (h shard).shardIndex hopen
  | flush _ hopen hguard => exact h.flush hopen hguard
  | close _ hpending => exact hone rfl rfl rfl (fun _ => hpending) nofun
  | @reset shard hclosed =>
    have hpending := (h shard).closed hclosed
    exact hone rfl rfl hpending.symm (fun _ => hpending) nofun
  | @number shard _ hclosed =>
    exact hone rfl rfl rfl (h shard).closed fun hopen => absurd hopen (by simp [hclosed])

/-- An operation that takes in no record and publishes nothing. -/
structure Keeps (X : Platform) (s t : WriterState) : Prop where
  log : ∀ {records}, BlockLog X s records → BlockLog X t records
  config : t.config = s.config
  latest : t.publication.latest = s.publication.latest

theorem Keeps.trans (h : Keeps X s t) (g : Keeps X t u) : Keeps X s u :=
  ⟨fun hs => g.log (h.log hs), g.config.trans h.config, g.latest.trans h.latest⟩

theorem Keeps.refl (s : WriterState) : Keeps X s s := ⟨id, rfl, rfl⟩

theorem Change.keeps (h : Change X s t) : Keeps X s t := by
  refine ⟨h.blockLog, ?_, ?_⟩
  · change t.kept.config = s.kept.config
    rw [h.kept_eq]
  · change t.kept.publication.latest = s.kept.publication.latest
    rw [h.kept_eq]

theorem Changes.keeps (h : Changes X s t) : Keeps X s t :=
  h.invariant (P := Keeps X s) (fun hstep hs => hs.trans hstep.keeps) (.refl s)

theorem Prepared.keeps {ok : Bool} (h : Prepared X s shard (ok, t)) : Keeps X s t := by
  cases h with
  | kept hchanges => exact hchanges.keeps
  | opened hchanges _ hnumbered =>
    refine hchanges.keeps.trans ⟨fun h => ?_, rfl, rfl⟩
    refine h.update rfl ⟨nofun, fun _ => ?_, (h shard).log⟩ (fun _ _ => rfl) fun _ _ => rfl
    dsimp only
    rw [hnumbered.header_eq]
    rfl

/-! ## The calls -/

theorem keeps_withSource (s : WriterState) (a : Admission) : Keeps X s (withSource s a) := by
  unfold withSource
  split
  · exact ⟨id, rfl, rfl⟩
  · exact .refl s

/-- A record is added to the pending ones of its shard. -/
theorem BlockLog.accept {r : BinaryMarketRecord} (h : BlockLog X s records)
    (hopen : (s.segments r.shardIndex).isOpen = true) (a : Admission) (position : ℕ) :
    BlockLog X (acceptRecord X s r a position)
      fun k => records k ++ (WriterCall.append r).taken .ok k := by
  refine h.update rfl ⟨fun hclosed => ?_, fun _ => (h r.shardIndex).shardIndex hopen, ?_⟩
    (fun _ _ => rfl) fun k hk => ?_
  · rw [accept_isOpen, hopen] at hclosed
    cases hclosed
  · rw [accept_pending, WriterCall.taken, if_pos rfl]
    exact (h r.shardIndex).log.append [r]
  · rw [WriterCall.taken, if_neg hk.symm, List.append_nil]

theorem leadsToStore_keeps : LeadsToStore X (Keeps X) where
  trans := .trans
  changes h := h.keeps
  price _ _ _ := ⟨id, rfl, rfl⟩
  prepared h := h.keeps
  source := keeps_withSource
  index {_ shard} _ _ := by
    refine ⟨fun h => ?_, rfl, rfl⟩
    have hshard := h shard
    exact h.update rfl ⟨hshard.closed, hshard.shardIndex, hshard.log⟩ (fun _ _ => rfl) fun _ _ => rfl

/-- The cut is made of a state with nothing pending. -/
structure CutFrom (s : WriterState) (cut : CorpusCut) : Prop where
  flushed : AllFlushed s
  blocks : cut.blocks = s.blocks

/-- A cut is made and published on the way, and nothing else is taken in. -/
def Commits (X : Platform) (s t : WriterState) : Prop :=
  ∃ u cut, Keeps X s u ∧ CutFrom u cut ∧ Keeps X (adoptCut u cut) t

/-- `publishCut`, wherever it ends. -/
theorem Published.commits {now : ℕ} {result : Status × WriterState} (h : Published X s now result)
    (hclosed : ClosedEmpty s) : (result.1 ≠ .ok ∧ Keeps X s result.2) ∨ Commits X s result.2 := by
  cases h with
  | failed hne h => exact .inl ⟨hne, h.keeps⟩
  | @published u before after cut _ _ hflush _ hbind _ _ =>
    have hkeeps : Keeps X s (u.setDisk after) :=
      (changes_flushAll hflush).keeps.trans (Change.disk u after).keeps
    have hpending := flushAndSyncShards_pending (X := X) s.shards
      (fun k hk => List.mem_range.mp hk) hclosed
    rw [hflush] at hpending
    have hcut := bindReference_eq hbind
    refine .inr ⟨_, cut, hkeeps, ⟨fun k hk => ?_, by rw [hcut]; rfl⟩, .refl _⟩
    exact hpending rfl k (List.mem_range.mpr (shardCount_congr hkeeps.config ▸ hk))

/-- `finalize`, wherever it ends. -/
theorem Finalized.commits {reason : BinaryMarketStopReason} {finalizedReceiveNs : Int64} {now : ℕ}
    {result : Status × WriterState} (h : Finalized X s reason finalizedReceiveNs now result)
    (hclosed : ClosedEmpty s) : Keeps X s result.2 ∨ Commits X s result.2 := by
  have hcompleted : ∀ {u}, andThen (sealShards X s.shards s) writeTables = (true, u) →
      Keeps X s (completed u reason finalizedReceiveNs.toInt) := fun hsealed =>
    (changes_seal hsealed).keeps.trans ⟨id, rfl, rfl⟩
  cases h with
  | failed _ h => exact .inl h.keeps
  | unpublished _ hsealed _ h => exact .inl ((hcompleted hsealed).trans h.keeps)
  | @published u t _ _ hsealed h =>
    have hempty : ClosedEmpty (completed u reason finalizedReceiveNs.toInt) :=
      (changes_seal hsealed).settled.closed hclosed
    have hmanifest : Keeps X t (sealManifest t).2 := by
      obtain ⟨disk, he | he⟩ := sealManifest_cases t <;> rw [he] <;> exact ⟨id, rfl, rfl⟩
    rcases h.commits hempty with ⟨-, ht⟩ | ⟨v, cut, hv, hcut, ht⟩
    · exact .inl (((hcompleted hsealed).trans ht).trans hmanifest)
    · exact .inr ⟨v, cut, (hcompleted hsealed).trans hv, hcut, ht.trans hmanifest⟩

/-- What a call leaves: the blocks and the pending records are the records before it and what it
takes, and a cut that it publishes has all of them. -/
structure Logged (X : Platform) (s : WriterState) (records : ℕ → List BinaryMarketRecord)
    (call : WriterCall) (result : Status × WriterState) : Prop where
  log : BlockLog X result.2 fun k => records k ++ call.taken result.1 k
  config : result.2.config = s.config
  cut : result.2.publication.latest = s.publication.latest ∨
    ∃ cut, result.2.publication.latest = some cut ∧
      CutOf X cut s.shardCount fun k => records k ++ call.taken result.1 k

section Logged

variable {call : WriterCall} {result : Status × WriterState} (hlog : BlockLog X s records)

include hlog

theorem Keeps.logged (h : Keeps X s result.2) (htaken : ∀ k, call.taken result.1 k = []) :
    Logged X s records call result := by
  refine ⟨?_, h.config, .inl h.latest⟩
  simpa only [htaken, List.append_nil] using h.log hlog

/-- A cut that is published has all the records, since nothing is pending in the state that it is
made of. -/
theorem Commits.cut (h : Commits X s t) :
    ∃ cut, t.publication.latest = some cut ∧ CutOf X cut s.shardCount records := by
  obtain ⟨u, cut, hu, hcut, ht⟩ := h
  refine ⟨cut, ht.latest, fun k hk => ?_⟩
  rw [hcut.blocks, ← hcut.flushed k (shardCount_congr hu.config ▸ hk)]
  exact (hu.log hlog k).log

theorem Commits.logged (h : Commits X s result.2) (htaken : ∀ k, call.taken result.1 k = []) :
    Logged X s records call result := by
  have hcut := h.cut hlog
  obtain ⟨u, cut, hu, -, ht⟩ := h
  have hadopted : BlockLog X (adoptCut u cut) records := hu.log hlog
  refine ⟨?_, ht.config.trans hu.config, .inr ?_⟩ <;> simp only [htaken, List.append_nil]
  exacts [ht.log hadopted, hcut]

/-- Every call, wherever it ends. -/
theorem Executed.logged (h : Executed X s call result) : Logged X s records call result := by
  have hclosed : ClosedEmpty s := fun k => (hlog k).closed
  cases h with
  | failed hne h => exact h.keeps.logged hlog (taken_of_ne hne)
  | registered | referenced | draining => exact Keeps.logged hlog ⟨id, rfl, rfl⟩ fun _ => rfl
  | gapTaken h => cases h <;> exact Keeps.logged hlog ⟨id, rfl, rfl⟩ fun _ => rfl
  | appended h =>
    rcases h.beforeStore leadsToStore_keeps with ⟨hne, hkeeps⟩ | ⟨a, w, position, -, hkeeps, hopen, rfl⟩
    · exact hkeeps.logged hlog (taken_of_ne hne)
    · exact ⟨(hkeeps.log hlog).accept hopen a position, hkeeps.config, .inl hkeeps.latest⟩
  | progressed =>
    refine ⟨?_, rfl, .inl rfl⟩
    simp only [WriterCall.taken, List.append_nil]
    exact hlog
  | published h =>
    rcases h.commits hclosed with ⟨-, h⟩ | h
    · exact h.logged hlog fun _ => rfl
    · exact h.logged hlog fun _ => rfl
  | finalized h =>
    rcases h.commits hclosed with h | h
    · exact h.logged hlog fun _ => rfl
    · exact h.logged hlog fun _ => rfl

end Logged

/-! ## Runs -/

/-- One call, whatever its directory operations meet. -/
theorem BlockLog.logged (h : BlockLog X s records) (hprepaid : Prepaid X s) (call : WriterCall)
    (faults : List (Option ℕ)) :
    Logged X (s.withFaults faults) records call (execWith X s call faults) :=
  Executed.logged h (executed_exec (hprepaid.withFaults faults).sized.sources_le call)

/-- A call of `publishCut` that returns `Ok` has published a cut, with all the records. -/
theorem BlockLog.published (h : BlockLog X s records) {now : UInt64} {faults : List (Option ℕ)}
    (hok : (execWith X s (.publishCut now) faults).1 = .ok) :
    ∃ cut, (execWith X s (.publishCut now) faults).2.publication.latest = some cut ∧
      CutOf X cut s.shardCount records := by
  have hfaults : BlockLog X (s.withFaults faults) records := h
  rcases (published_publishCut X (s.withFaults faults) now.toNat).commits
    fun k => (hfaults k).closed with ⟨hne, -⟩ | hcommits
  · exact absurd hok hne
  · have hcut := hcommits.cut hfaults
    exact hcut

/-- A writer that was just started has accepted nothing. -/
theorem blockLog_start {config : BinaryMarketWriterConfig} {root : RootEntry}
    {faults : List (Option ℕ)} (h : start X config root faults = (.ok, some s)) :
    BlockLog X s fun _ => [] := by
  obtain ⟨-, budget, u, -, hchanges, rfl⟩ := changes_start h
  have hempty : BlockLog X (initialState config budget ⟨∅, faults⟩) fun _ => [] := fun _ =>
    ⟨fun _ => rfl, nofun, .nil⟩
  exact hchanges.keeps.log hempty

/-- The records that a run accepts from a shard, in order. -/
def acceptedBy (X : Platform) (s : WriterState) :
    List (WriterCall × List (Option ℕ)) → ℕ → List BinaryMarketRecord
  | [], _ => []
  | (call, faults) :: calls, k =>
    call.taken (execWith X s call faults).1 k ++ acceptedBy X (execWith X s call faults).2 calls k

theorem acceptedBy_snoc (X : Platform) (s : WriterState)
    (calls : List (WriterCall × List (Option ℕ))) (call : WriterCall) (faults : List (Option ℕ)) :
    acceptedBy X s (calls ++ [(call, faults)]) = fun k => acceptedBy X s calls k ++
      call.taken (execWith X (runWith X s calls) call faults).1 k := by
  funext k
  induction calls generalizing s with
  | nil => exact List.append_nil _
  | cons first calls ih =>
    rw [List.cons_append, acceptedBy, ih, acceptedBy, List.append_assoc]
    rfl

/-- The state of a run, with what it has accepted. -/
theorem BlockLog.runWith (h : BlockLog X s records) (hrecords : ShardRecords X s records)
    (hprepaid : Prepaid X s) (calls : List (WriterCall × List (Option ℕ))) :
    BlockLog X (runWith X s calls) (fun k => records k ++ acceptedBy X s calls k) ∧
      ShardRecords X (runWith X s calls) (fun k => records k ++ acceptedBy X s calls k) ∧
      (runWith X s calls).config = s.config := by
  induction calls generalizing s records with
  | nil => simpa only [acceptedBy, List.append_nil] using ⟨h, hrecords, rfl⟩
  | cons first calls ih =>
    obtain ⟨call, faults⟩ := first
    have hlogged := h.logged hprepaid call faults
    have hfaults : ShardRecords X (s.withFaults faults) records := hrecords
    have hnoted := hfaults.executed
      (executed_exec (hprepaid.withFaults faults).sized.sources_le call)
    obtain ⟨hlog, hshards, hconfig⟩ :=
      ih hlogged.log hnoted.records (hprepaid.execWith call faults)
    refine ⟨?_, ?_, hconfig.trans hlogged.config⟩
    · simpa only [acceptedBy, Corpus.runWith, List.append_assoc] using hlog
    · simpa only [acceptedBy, Corpus.runWith, List.append_assoc] using hshards

section Started

variable {config : BinaryMarketWriterConfig} {root : RootEntry} {faults : List (Option ℕ)}

/-- The state of a run from the start, with what it has accepted. -/
theorem run_records (h : start X config root faults = (.ok, some s))
    (calls : List (WriterCall × List (Option ℕ))) :
    BlockLog X (runWith X s calls) (acceptedBy X s calls) ∧
      ShardRecords X (runWith X s calls) (acceptedBy X s calls) ∧
      (runWith X s calls).config = s.config := by
  have hlog := blockLog_start h
  have hprepaid := prepaid_start h
  obtain ⟨-, budget, u, -, hchanges, rfl⟩ := changes_start h
  have hshards : ShardRecords X u fun _ => [] := fun k => by
    rw [hchanges.steady.depthTransactions]
    exact .nil X (hchanges.steady.previous k)
  have hrun := hlog.runWith hshards hprepaid calls
  simpa only [List.nil_append] using hrun

/-- Whatever calls are made and whatever of their directory operations fail, the blocks and the
pending records are the accepted records, and a cut that the next call publishes has them all. -/
theorem run_accounted (hstart : start X config root faults = (.ok, some s))
    (calls : List (WriterCall × List (Option ℕ))) (call : WriterCall) (outcomes : List (Option ℕ)) :
    BlockLog X (runWith X s calls) (acceptedBy X s calls) ∧
      ((execWith X (runWith X s calls) call outcomes).2.publication.latest =
          (runWith X s calls).publication.latest ∨
        ∃ cut, (execWith X (runWith X s calls) call outcomes).2.publication.latest = some cut ∧
          CutOf X cut s.shardCount (acceptedBy X s (calls ++ [(call, outcomes)]))) := by
  obtain ⟨hlog, -, hconfig⟩ := run_records hstart calls
  refine ⟨hlog, ?_⟩
  have hlogged := hlog.logged ((prepaid_start hstart).runWith calls) call outcomes
  rcases hlogged.cut with hsame | ⟨cut, hcut, hrecords⟩
  · exact .inl hsame
  · rw [acceptedBy_snoc]
    exact .inr ⟨cut, hcut, shardCount_congr hconfig ▸ hrecords⟩

theorem run_accounted_failedPublication :
    ((execWith .stored (runWith .stored smallStart failedPublication) (.publishCut 3)
        []).2.publication.latest.map fun cut => cut.blocks.length) = some 2 ∧
      BlockLog .stored (runWith .stored smallStart failedPublication)
        (acceptedBy .stored smallStart failedPublication) :=
  ⟨by decide +kernel, (run_accounted start_smallConfig failedPublication (.publishCut 3) []).1⟩

/-- Whatever directory operations fail, the records accepted from a shard have increasing sequences
that are not zero, and the depth transactions among them are those of the writer's own state: a
reader that runs the same validation over them takes every one. -/
theorem accepted_records_valid (hstart : start X config root faults = (.ok, some s))
    (calls : List (WriterCall × List (Option ℕ))) (k : ℕ) :
    (acceptedBy X s calls k).Pairwise (fun a b => a.shardSequence < b.shardSequence) ∧
      (∀ r ∈ acceptedBy X s calls k, r.shardSequence ≠ 0) ∧
      runDepthTransactions X {} (acceptedBy X s calls k) =
        some ((runWith X s calls).depthTransactions k) := by
  obtain ⟨-, hshards, -⟩ := run_records hstart calls
  exact ⟨(hshards k).increasing, (hshards k).sequence_ne, (hshards k).depth_eq⟩

theorem accepted_records_valid_failedPublication :
    (acceptedBy .stored smallStart failedPublication 0).length = 2 ∧
      (acceptedBy .stored smallStart failedPublication 0).Pairwise fun a b =>
        a.shardSequence < b.shardSequence :=
  ⟨by decide +kernel, (accepted_records_valid start_smallConfig failedPublication 0).1⟩

/-- Whatever directory operations fail, what the shards' current segments store, what their pending
records may take, and the reservation for the next cut are within the projection, and the projection
is within the quota. -/
theorem projection_within_quota (hstart : start X config root faults = (.ok, some s))
    (calls : List (WriterCall × List (Option ℕ))) :
    fixedMetadataBytes + (runWith X s calls).index.length * 72 +
        shardSum (runWith X s calls) (SegmentState.heldBytes X) +
        (runWith X s calls).cutReservedBytes ≤ (runWith X s calls).projectedBytes ∧
      (runWith X s calls).projectedBytes ≤ (runWith X s calls).writeLimitBytes ∧
      (runWith X s calls).writeLimitBytes ≤ s.config.maximumBytes.toNat := by
  obtain ⟨-, -, hconfig⟩ := run_records hstart calls
  have h := ((prepaid_start hstart).runWith calls).solvent
  exact ⟨h.held_le, h.projected_le, hconfig ▸ h.limit_le⟩

theorem projection_within_quota_failedPublication :
    (runWith .stored smallStart failedPublication).blocks.length = 2 ∧
      (runWith .stored smallStart failedPublication).projectedBytes ≤
        (runWith .stored smallStart failedPublication).writeLimitBytes :=
  ⟨by decide +kernel, (projection_within_quota start_smallConfig failedPublication).2.1⟩

end Started

end HftRecorder.Corpus
