import HftRecorder.Capture.Recorder
import HftRecorder.Writer.Solvency

/-!
# The watermark is safe

`publishProgressTo` samples the progress cells of the shards one after the other, while the producer
goes on, and forwards the least of their times and the sequence of each. Of a cell it requires that the
client has drained the ring as far as the cell counts. `Covered` is what this gives of a shard: the
progress is about some of the records already delivered, these end outside a depth transaction, and no
later record, published or not, is below its time. It stays true as the producer goes on, since a cell
never goes back. With what the writer knows of the records that it has taken, the writer's tests of a
progress hold, and every record that is delivered afterwards is beyond it.
-/

namespace HftRecorder.Capture

open ByteLayout Corpus ClientState

variable {π σ : Type} {P : ParserProtocol π σ} {L : LossProtocol} {X : Platform} {A : ArenaShape}

/-! ## A cell and the records of its shard -/

/-- The first `n` records of a shard end outside a depth transaction and with the given sequence, and
no later one arrived before the given time. -/
structure SafeAt (P : ParserProtocol π σ) (published : List (MarketCaptureRecord π)) (n : ℕ)
    (safe sequence : UInt64) : Prop where
  count_le : n ≤ published.length
  later : ∀ r ∈ published.drop n, safe ≤ r.receiveMonotonicNs
  sequence_eq : sequence =
    ((published.take n).getLast?.map MarketCaptureRecord.shardSequence).getD 0
  closed : ∀ r ∈ (published.take n).getLast?, P.leavesOpen r = false

/-- A progress of a shard is safe for records that were already read, and not beyond the cell. -/
structure Covered (P : ParserProtocol π σ) (published : List (MarketCaptureRecord π))
    (cell : MarketCaptureShardProgress) (read : ℕ) (safe sequence : UInt64) : Prop where
  safe_le : safe ≤ cell.receiveMonotonicNs
  sequence_le : sequence ≤ cell.completedShardSequence
  safeAt : ∃ n ≤ read, SafeAt P published n safe sequence

section Cells

variable {published published' : List (MarketCaptureRecord π)}
  {cell cell' : MarketCaptureShardProgress} {n read read' : ℕ} {safe safe' sequence : UInt64}

theorem safeAt_of_cellHolds (h : cellHolds P published cell = true) :
    SafeAt P published cell.completedWrite cell.receiveMonotonicNs cell.completedShardSequence := by
  unfold cellHolds at h
  rw [Bool.and_eq_true, Bool.and_eq_true, decide_eq_true_eq, List.all_eq_true] at h
  obtain ⟨⟨hcount, hlater⟩, hlast⟩ := h
  refine ⟨hcount, fun r hr => of_decide_eq_true (hlater r hr), ?_, ?_⟩
  · cases hget : (published.take cell.completedWrite).getLast? with
    | none =>
      rw [hget] at hlast
      exact of_decide_eq_true hlast
    | some r =>
      rw [hget] at hlast
      exact of_decide_eq_true (Bool.and_eq_true_iff.mp hlast).1
  · intro r hr
    rw [Option.mem_def] at hr
    rw [hr] at hlast
    exact Bool.not_eq_true' _ ▸ (Bool.and_eq_true_iff.mp hlast).2

theorem SafeAt.mono (h : SafeAt P published n safe sequence) (hle : safe' ≤ safe) :
    SafeAt P published n safe' sequence :=
  ⟨h.count_le, fun r hr => UInt64.le_trans hle (h.later r hr), h.sequence_eq, h.closed⟩

theorem SafeAt.publish (h : SafeAt P published n safe sequence) (hbefore : published <+: published')
    (hlater : ∀ r ∈ published'.drop published.length, safe ≤ r.receiveMonotonicNs) :
    SafeAt P published' n safe sequence := by
  obtain ⟨more, rfl⟩ := hbefore
  have htake : (published ++ more).take n = published.take n :=
    List.take_append_of_le_length h.count_le
  refine ⟨h.count_le.trans (by simp), fun r hr => ?_, by rw [htake]; exact h.sequence_eq,
    by rw [htake]; exact h.closed⟩
  rw [List.drop_append_of_le_length h.count_le] at hr
  rw [List.drop_left] at hlater
  rcases List.mem_append.mp hr with hr | hr
  · exact h.later r hr
  · exact hlater r hr

theorem Covered.mono (h : Covered P published cell read safe sequence) (hle : safe' ≤ safe) :
    Covered P published cell read safe' sequence := by
  obtain ⟨n, hn, hsafe⟩ := h.safeAt
  exact ⟨UInt64.le_trans hle h.safe_le, h.sequence_le, n, hn, hsafe.mono hle⟩

theorem Covered.publish (h : Covered P published cell read safe sequence)
    (hcell : cell.receiveMonotonicNs ≤ cell'.receiveMonotonicNs ∧
      cell.completedShardSequence ≤ cell'.completedShardSequence)
    (hread : read ≤ read') (hbefore : published <+: published')
    (hlater : ∀ r ∈ published'.drop published.length,
      cell.receiveMonotonicNs ≤ r.receiveMonotonicNs) :
    Covered P published' cell' read' safe sequence := by
  obtain ⟨n, hn, hsafe⟩ := h.safeAt
  exact ⟨UInt64.le_trans h.safe_le hcell.1, UInt64.le_trans h.sequence_le hcell.2, n,
    hn.trans hread, hsafe.publish hbefore fun r hr => UInt64.le_trans h.safe_le (hlater r hr)⟩

end Cells

/-! ## Sampling -/

variable {s t : ClientState π σ} {last : CorpusProducerProgress}

/-- The writer's progress is not beyond the cells and the revisions. -/
structure Behind (A : ArenaShape) (arena : CaptureArena π σ) (last : CorpusProducerProgress) :
    Prop where
  loss : last.lossEpoch ≤ arena.lossRevision
  directory : last.directoryRevision ≤ arena.directoryGeneration
  cells : ∀ k < A.shardCount.toNat, last.safeMonotonicNs ≤ (arena.progress k).receiveMonotonicNs ∧
    last.shardSequences k ≤ (arena.progress k).completedShardSequence

/-- What the client has sampled of the first shards: it covers them, and is not below the writer's
progress. -/
structure Sampled (P : ParserProtocol π σ) (s : ClientState π σ) (last : CorpusProducerProgress)
    (work : ProgressWork) (count : ℕ) : Prop where
  loss : last.lossEpoch ≤ work.lossRevision ∧ work.lossRevision ≤ s.arena.lossRevision
  directory : last.directoryRevision ≤ work.directory ∧
    work.directory ≤ s.arena.directoryGeneration
  safe : last.safeMonotonicNs ≤ work.safeMonotonicNs
  shards : ∀ k < count, last.shardSequences k ≤ work.shardSequences k ∧
    Covered P (s.published k) (s.arena.progress k) (s.arena.rings k).read work.safeMonotonicNs
      (work.shardSequences k)

variable {work : ProgressWork}

theorem Sampled.congr {work' : ProgressWork} {count : ℕ} (h : Sampled P s last work count)
    (hloss : work'.lossRevision = work.lossRevision) (hdirectory : work'.directory = work.directory)
    (hsafe : work'.safeMonotonicNs = work.safeMonotonicNs)
    (hsequences : work'.shardSequences = work.shardSequences) : Sampled P s last work' count := by
  refine ⟨by rw [hloss]; exact h.loss, by rw [hdirectory]; exact h.directory,
    by rw [hsafe]; exact h.safe, ?_⟩
  rw [hsafe, hsequences]
  exact h.shards

/-- A cell that can be used covers its shard, and the shards before it stay covered. -/
theorem Sampled.readCell {work' : ProgressWork} {shard : ℕ} {cellRead : Bool}
    (h : Sampled P s last work shard) (hbehind : Behind A s.arena last)
    (hcell : cellHolds P (s.published shard) (s.arena.progress shard) = true)
    (hshard : shard < A.shardCount.toNat) (hread : s.readCell work shard cellRead = some work') :
    Sampled P s last work' (shard + 1) := by
  unfold ClientState.readCell at hread
  dsimp only at hread
  split at hread
  · cases hread
  rename_i htests
  simp only [not_or, not_lt] at htests
  cases hread
  have hleast : last.safeMonotonicNs ≤
      min work.safeMonotonicNs (s.arena.progress shard).receiveMonotonicNs :=
    Std.le_min_iff.mpr ⟨h.safe, (hbehind.cells shard hshard).1⟩
  refine ⟨h.loss, h.directory, hleast, fun k hk => ?_⟩
  dsimp only
  rcases eq_or_ne k shard with rfl | hne
  · rw [Function.update_self]
    exact ⟨(hbehind.cells k hshard).2, Std.min_le_right, UInt64.le_refl _, _, htests.2.1,
      (safeAt_of_cellHolds hcell).mono Std.min_le_right⟩
  · rw [Function.update_of_ne hne]
    obtain ⟨hle, hcovered⟩ := h.shards k (by omega)
    exact ⟨hle, hcovered.mono Std.min_le_left⟩

/-- What the client knows while it publishes a progress. -/
def SampledPc (P : ParserProtocol π σ) (A : ArenaShape) (s : ClientState π σ)
    (last : CorpusProducerProgress) : ClientPc π σ → Prop
  | .publishing _ (.generation lossRevision) =>
    last.lossEpoch ≤ lossRevision ∧ lossRevision ≤ s.arena.lossRevision
  | .publishing _ (.count lossRevision directory) =>
    (last.lossEpoch ≤ lossRevision ∧ lossRevision ≤ s.arena.lossRevision) ∧
      last.directoryRevision ≤ directory ∧ directory ≤ s.arena.directoryGeneration
  | .publishing _ (.cells work shard) =>
    shard ≤ A.shardCount.toNat ∧ Sampled P s last work shard
  | .publishing _ (.clock work) | .publishing _ (.losses work _) | .publishing _ (.validate work)
  | .publishing _ (.validateGeneration work) | .publishing _ (.validateCount work)
  | .publishing _ (.validateEpoch work) | .publishing _ (.gaps work _) =>
    work.progressAvailable = true → Sampled P s last work A.shardCount.toNat
  | .publishing _ (.forward progress) =>
    ∃ work, progress = progressOf A work ∧ Sampled P s last work A.shardCount.toNat
  | _ => True

variable {call : ClientCall}

variable {input : ClientInput}

/-- The cells and the revisions have not gone back, no record is taken back, and those published since
arrived after the cells' times. -/
structure Grown (A : ArenaShape) (s t : ClientState π σ) : Prop where
  loss : s.arena.lossRevision ≤ t.arena.lossRevision
  directory : s.arena.directoryGeneration ≤ t.arena.directoryGeneration
  cells : ∀ k < A.shardCount.toNat,
    (s.arena.progress k).receiveMonotonicNs ≤ (t.arena.progress k).receiveMonotonicNs ∧
      (s.arena.progress k).completedShardSequence ≤ (t.arena.progress k).completedShardSequence
  reads : ∀ k, (s.arena.rings k).read ≤ (t.arena.rings k).read
  published : ∀ k, s.published k <+: t.published k
  later : ∀ k < A.shardCount.toNat, ∀ r ∈ (t.published k).drop (s.published k).length,
    (s.arena.progress k).receiveMonotonicNs ≤ r.receiveMonotonicNs

theorem Behind.grown (h : Behind A s.arena last) (hst : Grown A s t) : Behind A t.arena last :=
  ⟨UInt64.le_trans h.loss hst.loss, UInt64.le_trans h.directory hst.directory, fun k hk =>
    ⟨UInt64.le_trans (h.cells k hk).1 (hst.cells k hk).1,
      UInt64.le_trans (h.cells k hk).2 (hst.cells k hk).2⟩⟩

theorem Covered.grown {k read read' : ℕ} {safe sequence : UInt64} (hk : k < A.shardCount.toNat)
    (h : Covered P (s.published k) (s.arena.progress k) read safe sequence) (hst : Grown A s t)
    (hread : read ≤ read') : Covered P (t.published k) (t.arena.progress k) read' safe sequence :=
  h.publish (hst.cells k hk) hread (hst.published k) (hst.later k hk)

theorem Sampled.grown {count : ℕ} (hcount : count ≤ A.shardCount.toNat)
    (h : Sampled P s last work count) (hst : Grown A s t) : Sampled P t last work count :=
  ⟨⟨h.loss.1, UInt64.le_trans h.loss.2 hst.loss⟩,
    ⟨h.directory.1, UInt64.le_trans h.directory.2 hst.directory⟩, h.safe, fun k hk =>
    ⟨(h.shards k hk).1, (h.shards k hk).2.grown (hk.trans_le hcount) hst (hst.reads k)⟩⟩

theorem SampledPc.grown {pc : ClientPc π σ} (h : SampledPc P A s last pc) (hst : Grown A s t) :
    SampledPc P A t last pc := by
  cases pc with
  | publishing call pc =>
    cases pc with
    | lossFlags | lossBegin => trivial
    | generation lossRevision => exact ⟨h.1, UInt64.le_trans h.2 hst.loss⟩
    | count lossRevision directory =>
      exact ⟨⟨h.1.1, UInt64.le_trans h.1.2 hst.loss⟩, h.2.1, UInt64.le_trans h.2.2 hst.directory⟩
    | cells work shard => exact ⟨h.1, h.2.grown h.1 hst⟩
    | forward progress =>
      obtain ⟨work, heq, hsampled⟩ := h
      exact ⟨work, heq, hsampled.grown le_rfl hst⟩
    | _ => exact fun havailable => (h havailable).grown le_rfl hst
  | _ => trivial

variable {a : ClientAction π σ}

variable {status : Status}

theorem RingDrain.nextCall_record (h : RingDrain P X A s) {result : Status} {handed : Handed π σ}
    (hcall : s.nextCall P status = some (.record handed result)) :
    handed.shard < A.shardCount.toNat ∧ handed.output.shardIndex = handed.shard := by
  have hknown := h.head
  unfold nextCall at hcall
  split at hcall
  · split at hcall
    · cases hcall
    · split at hcall <;> cases hcall
  · rename_i hpc
    cases hcall
    rw [hpc] at hknown
    exact ⟨hknown.1, (converted_of_convertRecord hknown.2.2.2).shardIndex_eq⟩
  all_goals cases hcall

variable {progress : CorpusProducerProgress}

theorem taken_writerCall {c : SinkCall π σ} (hshard : ∀ handed result, c = .record handed result →
      handed.output.shardIndex = handed.shard) (k : ℕ) :
    c.writerCall.taken status k =
      ((c.withResult status).delivery k).toList.map Handed.output := by
  cases c with
  | record handed result =>
    cases status with
    | ok =>
      dsimp only [SinkCall.writerCall, SinkCall.withResult, SinkCall.delivery, WriterCall.taken]
      rw [hshard handed result rfl]
      split <;> rfl
    | _ => rfl
  | _ => cases status <;> rfl

/-! ## The writer's progress -/

/-- What the writer knows of the records that it has taken. -/
structure WriterKnown (X : Platform) (A : ArenaShape) (writer : WriterState)
    (records : ℕ → List BinaryMarketRecord) : Prop where
  active : writer.active = true
  epoch : writer.config.producerEpoch = A.producerEpoch
  count : writer.config.shardCount = A.shardCount
  prepaid : Prepaid X writer
  records : ShardRecords X writer records

theorem WriterKnown.execWith {writer : WriterState} {records : ℕ → List BinaryMarketRecord}
    (h : WriterKnown X A writer records) (call : WriterCall)
    (hcall : ∀ reason finalizedReceiveNs now, call ≠ .finalize reason finalizedReceiveNs now)
    (faults : List (Option ℕ)) :
    WriterKnown X A (execWith X writer call faults).2
        (fun k => records k ++ call.taken (execWith X writer call faults).1 k) ∧
      (execWith X writer call faults).2.progress =
        call.progressAfter (execWith X writer call faults).1 writer := by
  have hprepaid := h.prepaid.withFaults faults
  have hexecuted := executed_exec (X := X) hprepaid.sized.sources_le call
  have hrecords : ShardRecords X (writer.withFaults faults) records :=
    h.records.steady ⟨rfl, rfl, rfl, fun _ => rfl⟩
  have hnoted := hrecords.executed hexecuted
  refine ⟨⟨?_, ?_, ?_, hexecuted.prepaid hprepaid, hnoted.records⟩, ?_⟩
  · exact (hexecuted.active hcall).trans h.active
  · exact (congrArg BinaryMarketWriterConfig.producerEpoch hnoted.config).trans h.epoch
  · exact (congrArg BinaryMarketWriterConfig.shardCount hnoted.config).trans h.count
  · exact hnoted.progress

theorem RingDrain.converted (h : RingDrain P X A s) {k : ℕ} {d : Handed π σ}
    (hd : d ∈ deliveries s.log k) : Converted P X d.record k d.output := by
  obtain ⟨rfl, before, after, hlog⟩ := mem_deliveries hd
  exact converted_of_convertRecord (h.inTurn before d .ok after hlog).converted

theorem Converted.leavesOpen_eq {r : MarketCaptureRecord π} {shard : ℕ} {output : BinaryMarketRecord}
    (h : Converted P X r shard output) : output.leavesOpen = P.leavesOpen r := by
  unfold BinaryMarketRecord.leavesOpen ParserProtocol.leavesOpen BinaryMarketRecord.hasFlag
  rw [h.channel_eq, h.flags_eq]
  simp

/-- A progress that is safe for records already delivered is right about them as the writer has
them. -/
theorem RingDrain.coverable (h : RingDrain P X A s) {k n : ℕ} (hn : n ≤ (deliveries s.log k).length)
    (hsafe : SafeAt P (s.published k) n progress.safeMonotonicNs (progress.shardSequences k)) :
    Coverable progress k (((deliveries s.log k).take n).map Handed.output)
      (((deliveries s.log k).drop n).map Handed.output) := by
  obtain ⟨rest, hrest⟩ := (h.inTurn.deliveries_eq k).2
  have hn' : n ≤ ((deliveries s.log k).map Handed.record).length := by
    rw [List.length_map]
    exact hn
  have hlast : ((s.published k).take n).getLast? =
      ((deliveries s.log k).take n).getLast?.map Handed.record := by
    rw [← List.getLast?_map, List.map_take, ← hrest, List.take_append_of_le_length hn']
  refine ⟨?_, fun r hr => ?_, fun r hr => ?_⟩
  · rw [hsafe.sequence_eq, hlast, List.getLast?_map]
    cases hd : ((deliveries s.log k).take n).getLast? with
    | none => rfl
    | some d =>
      have hmem := List.mem_of_mem_take (List.mem_of_getLast? hd)
      exact (h.converted hmem).shardSequence_eq.symm
  · rw [List.getLast?_map] at hr
    obtain ⟨d, hd, rfl⟩ := Option.map_eq_some_iff.mp hr
    have hmem := List.mem_of_mem_take (List.mem_of_getLast? hd)
    rw [(h.converted hmem).leavesOpen_eq]
    refine hsafe.closed d.record ?_
    rw [hlast, hd]
    rfl
  · obtain ⟨d, hd, rfl⟩ := List.mem_map.mp hr
    rw [(h.converted (List.mem_of_mem_drop hd)).receiveMonotonicNs_eq]
    refine UInt64.le_iff_toNat_le.mp (hsafe.later d.record ?_)
    rw [← hrest, List.drop_append_of_le_length hn', ← List.map_drop]
    exact List.mem_append_left _ (List.mem_map_of_mem hd)

/-- Every progress that was forwarded was taken, and covers records that were delivered before. -/
def Forwarded (P : ParserProtocol π σ) (A : ArenaShape) (s : ClientState π σ) : Prop :=
  ∀ before progress result after, s.log = before ++ .progress progress result :: after →
    result = .ok ∧ ∀ k < A.shardCount.toNat, Covered P (s.published k) (s.arena.progress k)
      (deliveries before k).length progress.safeMonotonicNs (progress.shardSequences k)

/-- A step adds at most one progress, which is covered. -/
theorem Forwarded.step (h : Forwarded P A s) (hst : Grown A s t) {c : Option (SinkCall π σ)}
    (hlog : t.log = s.log ++ c.toList)
    (hc : ∀ progress result, c = some (.progress progress result) →
      result = .ok ∧ ∀ k < A.shardCount.toNat, Covered P (s.published k) (s.arena.progress k)
        (deliveries s.log k).length progress.safeMonotonicNs (progress.shardSequences k)) :
    Forwarded P A t := by
  intro before progress result after heq
  have hold : result = .ok ∧ ∀ k < A.shardCount.toNat, Covered P (s.published k)
      (s.arena.progress k) (deliveries before k).length progress.safeMonotonicNs
      (progress.shardSequences k) := by
    rw [hlog] at heq
    cases c with
    | none =>
      rw [Option.toList_none, List.append_nil] at heq
      exact h before progress result after heq
    | some c =>
      rcases split_log heq with ⟨rfl, hc'⟩ | ⟨rest, heq⟩
      · exact hc progress result (by rw [hc'])
      · exact h before progress result rest heq
  exact ⟨hold.1, fun k hk => (hold.2 k hk).grown hk hst le_rfl⟩

/-- Every record that was handed to the sink is of one of the shards. -/
def ShardsKnown (A : ArenaShape) (s : ClientState π σ) : Prop :=
  ∀ handed result, SinkCall.record handed result ∈ s.log → handed.shard < A.shardCount.toNat

/-! ## The recorder -/

/-- The invariant of the recorder. -/
structure Watched (P : ParserProtocol π σ) (X : Platform) (A : ArenaShape)
    (s : RecorderState π σ) : Prop where
  drain : RingDrain P X A s.client
  shards : ShardsKnown A s.client
  writer : WriterKnown X A s.writer fun k => (deliveries s.client.log k).map Handed.output
  behind : Behind A s.client.arena s.writer.progress
  sampled : SampledPc P A s.client s.writer.progress s.client.pc
  forwarded : Forwarded P A s.client

variable {s : RecorderState π σ}

/-- The progress that the client is about to forward is taken. -/
theorem Watched.updateProgress (h : Watched P X A s)
    (hpc : s.client.pc = .publishing call (.forward progress)) (faults : List (Option ℕ)) :
    (Corpus.execWith X s.writer (.updateProgress progress) faults).1 = .ok ∧
      Behind A s.client.arena progress ∧
      ∀ k < A.shardCount.toNat, Covered P (s.client.published k) (s.client.arena.progress k)
        (deliveries s.client.log k).length progress.safeMonotonicNs (progress.shardSequences k) := by
  have hsampled := h.sampled
  rw [hpc] at hsampled
  obtain ⟨work, rfl, hsampled⟩ := hsampled
  have hcursor : ∀ k, (s.client.arena.rings k).read = (deliveries s.client.log k).length := by
    intro k
    have hk := h.drain.cursor k
    rw [hpc] at hk
    exact hk
  have hcovered : ∀ k < A.shardCount.toNat, Covered P (s.client.published k)
      (s.client.arena.progress k) (deliveries s.client.log k).length work.safeMonotonicNs
      (work.shardSequences k) := fun k hk => hcursor k ▸ (hsampled.shards k hk).2
  refine ⟨?_, ⟨hsampled.loss.2, hsampled.directory.2, fun k hk =>
    ⟨(hcovered k hk).safe_le, (hcovered k hk).sequence_le⟩⟩, hcovered⟩
  have hallowed : ∀ k < (s.writer.withFaults faults).shardCount,
      shardProgressAllowed (s.writer.withFaults faults) (progressOf A work) k = true := by
    intro k hk
    have hk : k < A.shardCount.toNat := by
      rw [← h.writer.count]
      exact hk
    obtain ⟨n, hn, hsafe⟩ := (hcovered k hk).safeAt
    have hhistory := h.writer.records k
    rw [← List.take_append_drop n (deliveries s.client.log k), List.map_append] at hhistory
    exact ShardHistory.progressAllowed (X := X) hhistory (h.drain.coverable hn hsafe)
      (hsampled.shards k hk).1
  have hupdate : Corpus.updateProgress (s.writer.withFaults faults) (progressOf A work) =
      (.ok, { s.writer.withFaults faults with progress := progressOf A work }) :=
    updateProgress_ok h.writer.active h.writer.epoch.symm h.writer.count.symm hsampled.safe
      hsampled.loss.1 hsampled.directory.1 hallowed
  exact congrArg Prod.fst hupdate

theorem writerCall_ne (c : SinkCall π σ) (reason : BinaryMarketStopReason)
    (finalizedReceiveNs : Int64) (now : UInt64) :
    c.writerCall ≠ .finalize reason finalizedReceiveNs now := by
  cases c <;> exact fun h => by cases h

/-- A step of the client or of the producer that calls no sink. -/
theorem Watched.quiet {client : ClientState π σ} (h : Watched P X A s)
    (hdrain : RingDrain P X A client) (hlog : client.log = s.client.log)
    (hst : Grown A s.client client) (hsampled : SampledPc P A client s.writer.progress client.pc) :
    Watched P X A { s with client } := by
  refine ⟨hdrain, ?_, ?_, h.behind.grown hst, hsampled,
    h.forwarded.step hst (c := none) (by rw [hlog]; simp) nofun⟩
  · unfold ShardsKnown
    rw [hlog]
    exact h.shards
  · rw [hlog]
    exact h.writer

theorem ShardsKnown.called {s t : ClientState π σ} (h : ShardsKnown A s) {c : SinkCall π σ}
    (hlog : t.log = s.log ++ [c.withResult status])
    (hc : ∀ handed result, c = .record handed result → handed.shard < A.shardCount.toNat) :
    ShardsKnown A t := by
  intro handed result hmem
  rw [hlog, List.mem_append, List.mem_singleton] at hmem
  refine hmem.elim (h handed result) fun heq => ?_
  cases c with
  | record handed' result' =>
    cases heq
    exact hc _ result' rfl
  | _ => cases heq

/-- The writer has of a record what the client's log has of it. -/
theorem Watched.known {client : ClientState π σ} (h : Watched P X A s) {c : SinkCall π σ}
    (hcall : s.client.nextCall P .ok = some c) {faults : List (Option ℕ)}
    {result : Status × WriterState}
    (hresult : Corpus.execWith X s.writer c.writerCall faults = result)
    (hlog : client.log = s.client.log ++ [c.withResult result.1]) :
    WriterKnown X A result.2 fun k => (deliveries client.log k).map Handed.output := by
  have hrecords : (fun k => (deliveries client.log k).map Handed.output) = fun k =>
      (deliveries s.client.log k).map Handed.output ++ c.writerCall.taken result.1 k := by
    funext k
    rw [hlog, deliveries_append, List.map_append, taken_writerCall]
    rintro handed status rfl
    exact (h.drain.nextCall_record hcall).2
  rw [hrecords, ← hresult]
  exact (h.writer.execWith c.writerCall (writerCall_ne c) faults).1

end HftRecorder.Capture
