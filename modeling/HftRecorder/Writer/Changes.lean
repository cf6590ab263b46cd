import HftRecorder.Writer.Calls
import Mathlib.Logic.Relation

/-!
# What the operations on segments can do, whatever the directory does

Every directory operation of the writer can fail, and a call that fails half way keeps what it did
before. `Change` lists the single changes that the operations on segments make, `Changes` is a
sequence of them, and every operation, however it ends, is such a sequence. What is to hold of the
writer whatever fails is proved for the single changes.
-/

namespace HftRecorder.Corpus

open ByteLayout Codec WriterState

variable {X : Platform} {s t u : WriterState} {shard : ℕ}

/-- The state after a flush of the records `first :: rest`, the directory aside. -/
def recordFlush (X : Platform) (s : WriterState) (shard : ℕ) (first : BinaryMarketRecord)
    (rest : List BinaryMarketRecord) (encoded : Bytes) : WriterState :=
  let range := flushedRange (s.segments shard) first rest encoded
  { s with
    blocks := s.blocks ++ [range]
    publication := s.publication.retain range encoded
    projectedBytes := subWrap s.projectedBytes (releasedBytes X (rest.length + 1) encoded)
    segments := Function.update s.segments shard
      ((s.segments shard).flushed X (rest.length + 1) encoded) }

/-- The state after a segment is sealed, the directory aside. -/
def closeSegment (s : WriterState) (shard : ℕ) : WriterState :=
  { s with
    manifest := { s.manifest with segmentCount := s.manifest.segmentCount + 1 }
    segments := Function.update s.segments shard
      { s.segments shard with isOpen := false, indexPositions := fun _ => none } }

/-- The segment of a shard has its number and its header, and nothing in it. -/
structure Numbered (s : WriterState) (shard : ℕ) : Prop where
  isOpen_eq : (s.segments shard).isOpen = false
  pending_eq : (s.segments shard).pending = []
  indexPositions_eq : (s.segments shard).indexPositions = fun _ => none
  header_eq : (s.segments shard).header =
    { freshSegmentHeader s shard with segmentNumber := s.nextSegmentNumber - 1 }

/-- A single change of an operation on segments. -/
inductive Change (X : Platform) : WriterState → WriterState → Prop
  /-- The directory changes, or the outcomes that it has in store. -/
  | disk (s : WriterState) (disk : Disk CorpusFile) : Change X s (s.setDisk disk)
  /-- A segment's stream is opened or closed, or stops being good. -/
  | stream (s : WriterState) (shard : ℕ) (streamOpen streamGood : Bool) :
      Change X s (s.setSegment shard { s.segments shard with streamOpen, streamGood })
  /-- A block is stored. -/
  | flush {s : WriterState} {shard : ℕ} {first : BinaryMarketRecord}
      {rest : List BinaryMarketRecord} {encoded : Bytes} (hshard : shard < s.shardCount)
      (hopen : (s.segments shard).isOpen = true)
      (hguard : FlushGuard X s shard first rest encoded) :
      Change X s (recordFlush X s shard first rest encoded)
  /-- A segment's header gets its checksum. -/
  | checksum (s : WriterState) (shard : ℕ) :
      Change X s (s.setSegment shard
        { s.segments shard with header := sealedHeader (s.segments shard).header })
  /-- A segment is closed. -/
  | close {s : WriterState} {shard : ℕ} (hshard : shard < s.shardCount)
      (hpending : (s.segments shard).pending = []) : Change X s (closeSegment s shard)
  /-- The place of a closed segment is cleared for the next one. -/
  | reset {s : WriterState} {shard : ℕ} (hclosed : (s.segments shard).isOpen = false) :
      Change X s (s.setSegment shard (resetSegment (s.segments shard)))
  /-- The next segment gets its number. -/
  | number {s : WriterState} {shard : ℕ} (hshard : shard < s.shardCount)
      (hclosed : (s.segments shard).isOpen = false)
      (hnumber : s.nextSegmentNumber ≠ maximumUInt32) : Change X s (numberSegment s shard)
  /-- The quota is noted as reached. -/
  | quota (s : WriterState) : Change X s (afterQuota s)

def Changes (X : Platform) : WriterState → WriterState → Prop := Relation.ReflTransGen (Change X)

theorem Change.changes (h : Change X s t) : Changes X s t := .single h

theorem Changes.refl (s : WriterState) : Changes X s s := Relation.ReflTransGen.refl

theorem Changes.trans (h : Changes X s t) (g : Changes X t u) : Changes X s u :=
  Relation.ReflTransGen.trans h g

theorem Changes.invariant {P : WriterState → Prop} (hstep : ∀ {s t}, Change X s t → P s → P t)
    (h : Changes X s t) (hs : P s) : P t := by
  induction h with
  | refl => exact hs
  | tail _ h ih => exact hstep h ih

/-- Those of the changes that a flush of pending blocks makes. -/
inductive FlushChange (X : Platform) : WriterState → WriterState → Prop
  /-- The directory changes, or the outcomes that it has in store. -/
  | disk (s : WriterState) (disk : Disk CorpusFile) : FlushChange X s (s.setDisk disk)
  /-- A segment's stream stops being good. -/
  | stream (s : WriterState) (shard : ℕ) : FlushChange X s
      (s.setSegment shard { s.segments shard with streamGood := false })
  /-- A block is stored. -/
  | flush {s : WriterState} {shard : ℕ} {first : BinaryMarketRecord}
      {rest : List BinaryMarketRecord} {encoded : Bytes} (hshard : shard < s.shardCount)
      (hopen : (s.segments shard).isOpen = true)
      (hguard : FlushGuard X s shard first rest encoded) :
      FlushChange X s (recordFlush X s shard first rest encoded)
  /-- The quota is noted as reached. -/
  | quota (s : WriterState) : FlushChange X s (afterQuota s)

/-- A sequence of flushes: pending records go to blocks, and nothing else is taken in or given up. -/
def Flushes (X : Platform) : WriterState → WriterState → Prop :=
  Relation.ReflTransGen (FlushChange X)

theorem FlushChange.change (h : FlushChange X s t) : Change X s t := by
  cases h with
  | disk disk => exact .disk s disk
  | stream shard => exact .stream s shard (s.segments shard).streamOpen false
  | flush hshard hopen hguard => exact .flush hshard hopen hguard
  | quota => exact .quota s

theorem FlushChange.flushes (h : FlushChange X s t) : Flushes X s t := .single h

theorem Flushes.refl (s : WriterState) : Flushes X s s := Relation.ReflTransGen.refl

theorem Flushes.trans (h : Flushes X s t) (g : Flushes X t u) : Flushes X s u :=
  Relation.ReflTransGen.trans h g

theorem Flushes.changes (h : Flushes X s t) : Changes X s t :=
  Relation.ReflTransGen.mono (fun _ _ hst => FlushChange.change hst) s t h

variable {result : Bool × WriterState} {f : WriterState → Bool × WriterState}

theorem Flushes.andThen (h : Flushes X s result.2)
    (hf : result.1 = true → Flushes X result.2 (f result.2).2) :
    Flushes X s (andThen result f).2 := by
  obtain ⟨_ | _, t⟩ := result
  · exact h
  · exact h.trans (hf rfl)

theorem Changes.andThen (h : Changes X s result.2)
    (hf : result.1 = true → Changes X result.2 (f result.2).2) :
    Changes X s (andThen result f).2 := by
  obtain ⟨_ | _, t⟩ := result
  · exact h
  · exact h.trans (hf rfl)

theorem both_of_andThen (h : (andThen result f).1 = true) :
    result.1 = true ∧ andThen result f = f result.2 := by
  obtain ⟨_ | _, t⟩ := result
  · cases h
  · exact ⟨rfl, rfl⟩

/-! ## What the changes keep -/

/-- The part of a state that the changes keep: everything but the directory, the blocks, the numbers
of segments and bytes, and the segments themselves beyond the order of their shard's records. -/
def WriterState.kept (s : WriterState) : WriterState :=
  { s with
    manifest := { s.manifest with segmentCount := 0 }
    segments := fun k => resetSegment (s.segments k)
    projectedBytes := 0
    nextSegmentNumber := 0
    quotaReached := false
    blocks := []
    publication := { latest := s.publication.latest, capacity := 0 }
    disk := ⟨∅, []⟩ }

theorem resetSegment_congr {a b : SegmentState}
    (hsequence : a.previousShardSequence = b.previousShardSequence)
    (hmonotonic : a.previousMonotonicNs = b.previousMonotonicNs) :
    resetSegment a = resetSegment b := by
  unfold resetSegment
  rw [hsequence, hmonotonic]

theorem kept_segments_update {segments : ℕ → SegmentState} {segment : SegmentState}
    (h : resetSegment segment = resetSegment (segments shard)) :
    (fun k => resetSegment (Function.update segments shard segment k)) =
      fun k => resetSegment (segments k) := by
  funext k
  rcases eq_or_ne k shard with rfl | hne
  · rw [Function.update_self, h]
  · rw [Function.update_of_ne hne]

theorem kept_setSegment (s : WriterState) {segment : SegmentState}
    (h : resetSegment segment = resetSegment (s.segments shard)) :
    (s.setSegment shard segment).kept = s.kept := by
  unfold WriterState.kept setSegment
  dsimp only
  rw [kept_segments_update h]

theorem Change.kept_eq (h : Change X s t) : t.kept = s.kept := by
  cases h with
  | disk | quota => rfl
  | stream | checksum | reset => exact kept_setSegment s (resetSegment_congr rfl rfl)
  | @flush shard first rest encoded =>
    have hsegment : resetSegment ((s.segments shard).flushed X (rest.length + 1) encoded) =
        resetSegment (s.segments shard) :=
      resetSegment_congr (flushed_previousShardSequence ..) (flushed_previousMonotonicNs ..)
    unfold WriterState.kept recordFlush
    dsimp only
    rw [kept_segments_update hsegment, retain_latest]
  | @close shard =>
    have hsegment : resetSegment
        { s.segments shard with isOpen := false, indexPositions := fun _ => none } =
        resetSegment (s.segments shard) := resetSegment_congr rfl rfl
    unfold WriterState.kept closeSegment
    dsimp only
    rw [kept_segments_update hsegment]
  | @number shard =>
    have hsegment : resetSegment { s.segments shard with header := freshSegmentHeader s shard } =
        resetSegment (s.segments shard) := resetSegment_congr rfl rfl
    unfold WriterState.kept numberSegment
    dsimp only
    rw [kept_segments_update hsegment]

theorem Changes.kept_eq (h : Changes X s t) : t.kept = s.kept :=
  h.invariant (P := fun u => u.kept = s.kept) (fun h hs => h.kept_eq.trans hs) rfl

section Kept

variable (h : t.kept = s.kept)

include h

theorem config_of_kept : t.config = s.config :=
  show t.kept.config = s.kept.config from congrArg config h

theorem shardCount_of_kept : t.shardCount = s.shardCount :=
  show t.kept.shardCount = s.kept.shardCount from congrArg shardCount h

theorem active_of_kept : t.active = s.active :=
  show t.kept.active = s.kept.active from congrArg active h

theorem progress_of_kept : t.progress = s.progress :=
  show t.kept.progress = s.kept.progress from congrArg progress h

theorem cutReservedBytes_of_kept : t.cutReservedBytes = s.cutReservedBytes :=
  show t.kept.cutReservedBytes = s.kept.cutReservedBytes from
    congrArg cutReservedBytes h

theorem writeLimitBytes_of_kept : t.writeLimitBytes = s.writeLimitBytes :=
  show t.kept.writeLimitBytes = s.kept.writeLimitBytes from congrArg writeLimitBytes h

theorem referenceReservedBytes_of_kept : t.referenceReservedBytes = s.referenceReservedBytes :=
  show t.kept.referenceReservedBytes = s.kept.referenceReservedBytes from
    congrArg referenceReservedBytes h

theorem depthTransactions_of_kept : t.depthTransactions = s.depthTransactions :=
  show t.kept.depthTransactions = s.kept.depthTransactions from
    congrArg depthTransactions h

theorem sources_of_kept : t.sources = s.sources :=
  show t.kept.sources = s.kept.sources from congrArg sources h

theorem index_of_kept : t.index = s.index :=
  show t.kept.index = s.kept.index from congrArg index h

theorem gaps_of_kept : t.gaps = s.gaps :=
  show t.kept.gaps = s.kept.gaps from congrArg gaps h

theorem latest_of_kept : t.publication.latest = s.publication.latest :=
  show t.kept.publication.latest = s.kept.publication.latest from
    congrArg (fun u => u.publication.latest) h

theorem cutGeneration_of_kept : t.cutGeneration = s.cutGeneration :=
  show t.kept.cutGeneration = s.kept.cutGeneration from congrArg cutGeneration h

theorem manifest_of_kept :
    t.manifest = { s.manifest with segmentCount := t.manifest.segmentCount } :=
  show { t.kept.manifest with segmentCount := t.manifest.segmentCount } =
      { s.kept.manifest with segmentCount := t.manifest.segmentCount } from
    congrArg (fun u => { u.manifest with segmentCount := t.manifest.segmentCount }) h

theorem previousShardSequence_of_kept (k : ℕ) :
    (t.segments k).previousShardSequence = (s.segments k).previousShardSequence :=
  show (t.kept.segments k).previousShardSequence = (s.kept.segments k).previousShardSequence from
    congrArg (fun u => (u.segments k).previousShardSequence) h

end Kept

theorem Change.pending (h : Change X s t) (k : ℕ) :
    (t.segments k).pending = (s.segments k).pending ∨ (t.segments k).pending = [] := by
  -- All but the changes of one segment leave the segments alone.
  have hone : ∀ {shard : ℕ} {segment : SegmentState},
      segment.pending = (s.segments shard).pending ∨ segment.pending = [] →
      (Function.update s.segments shard segment k).pending = (s.segments k).pending ∨
        (Function.update s.segments shard segment k).pending = [] := by
    intro shard segment hsegment
    rcases eq_or_ne k shard with rfl | hne
    · rw [Function.update_self]
      exact hsegment
    · rw [Function.update_of_ne hne]
      exact .inl rfl
  cases h with
  | disk | quota => exact .inl rfl
  | stream | checksum | close | number => exact hone (.inl rfl)
  | flush | reset => exact hone (.inr rfl)

theorem Changes.pending (h : Changes X s t) (k : ℕ) :
    (t.segments k).pending = (s.segments k).pending ∨ (t.segments k).pending = [] := by
  induction h with
  | refl => exact .inl rfl
  | tail _ h ih =>
    rcases h.pending k with hk | hk
    · rw [hk]
      exact ih
    · exact .inr hk

theorem Changes.pending_nil (h : Changes X s t) {k : ℕ} (hs : (s.segments k).pending = []) :
    (t.segments k).pending = [] := by
  rcases h.pending k with hk | hk
  · rw [hk, hs]
  · exact hk

/-! ## Directory and streams -/

theorem changes_onDisk (s : WriterState) (operation : Disk CorpusFile → Bool × Disk CorpusFile) :
    Changes X s (onDisk s operation).2 := (Change.disk s _).changes

theorem streamWrite_ok {operation : Disk CorpusFile → Bool × Disk CorpusFile}
    (h : (streamWrite s shard operation).1 = true) :
    ∃ disk, (streamWrite s shard operation).2 = s.setDisk disk := by
  unfold streamWrite at h ⊢
  dsimp only at h ⊢
  split at h
  · rename_i hgood
    rw [if_pos hgood]
    split at h
    · rename_i disk _
      exact ⟨disk, rfl⟩
    · cases h
  · cases h

theorem flushes_streamWrite (s : WriterState) (shard : ℕ)
    (operation : Disk CorpusFile → Bool × Disk CorpusFile) :
    Flushes X s (streamWrite s shard operation).2 := by
  unfold streamWrite
  dsimp only
  split
  · split
    · exact (FlushChange.disk s _).flushes
    · exact (FlushChange.disk s _).flushes.trans (FlushChange.stream _ shard).flushes
  · exact (FlushChange.stream s shard).flushes

theorem changes_streamWrite (s : WriterState) (shard : ℕ)
    (operation : Disk CorpusFile → Bool × Disk CorpusFile) :
    Changes X s (streamWrite s shard operation).2 :=
  (flushes_streamWrite s shard operation).changes

theorem changes_streamFlush (s : WriterState) (shard : ℕ) :
    Changes X s (streamFlush s shard).2 := by
  unfold streamFlush
  dsimp only
  split
  · exact changes_streamWrite ..
  · exact .refl s

theorem changes_streamClose (s : WriterState) (shard : ℕ) : Changes X s (streamClose s shard).2 :=
  (Change.stream s shard false _).changes

theorem changes_startDirectory (s : WriterState) (root : RootEntry) :
    Changes X s (startDirectory s root).2 := by
  refine .andThen ?_ fun _ => .andThen (changes_onDisk ..) fun _ =>
    .andThen (changes_onDisk ..) fun _ => .andThen (changes_onDisk ..) fun _ => changes_onDisk ..
  split
  · exact changes_onDisk ..
  · exact .refl s

/-! ## Segments -/

/-- `flushBlock` on an open segment. -/
theorem flushes_flushBlock (hshard : shard < s.shardCount)
    (hopen : (s.segments shard).isOpen = true) : Flushes X s (flushBlock X s shard).2 := by
  unfold flushBlock
  dsimp only
  split
  · exact .refl s
  rename_i first rest hpending
  split
  · exact .refl s
  rename_i encoded hencode
  split
  · exact .refl s
  rename_i hbad
  split
  · exact .refl s
  rename_i hfits
  simp only [not_or, not_lt] at hbad hfits
  refine .andThen (flushes_streamWrite ..) fun hok => ?_
  obtain ⟨disk, hdisk⟩ := streamWrite_ok hok
  rw [hdisk]
  refine .andThen (flushes_streamWrite ..) fun hok => ?_
  obtain ⟨disk', hdisk'⟩ := streamWrite_ok hok
  rw [hdisk']
  have hflush : FlushChange X (s.setDisk disk')
      (recordFlush X (s.setDisk disk') shard first rest encoded) :=
    .flush hshard hopen ⟨hpending, hencode, hbad.1, hbad.2.1, hbad.2.2, hfits⟩
  exact hflush.flushes

theorem changes_flushBlock (hshard : shard < s.shardCount)
    (hopen : (s.segments shard).isOpen = true) : Changes X s (flushBlock X s shard).2 :=
  (flushes_flushBlock hshard hopen).changes

theorem flushBlock_pending (h : (flushBlock X s shard).1 = true) :
    ((flushBlock X s shard).2.segments shard).pending = [] := by
  unfold flushBlock at h ⊢
  dsimp only at h ⊢
  split at h
  · rename_i hpending
    exact hpending
  split at h
  · cases h
  split at h
  · cases h
  rename_i hbad
  rw [if_neg hbad]
  split at h
  · cases h
  rename_i hfits
  rw [if_neg hfits]
  obtain ⟨-, hheader⟩ := both_of_andThen h
  rw [hheader] at h ⊢
  obtain ⟨-, hbody⟩ := both_of_andThen h
  rw [hbody, setSegment_segments, Function.update_self]

theorem changes_sealFile (s : WriterState) (shard : ℕ) (header : BinaryMarketSegmentHeader)
    (partialFile finalFile : CorpusFile) :
    Changes X s (sealFile s shard header partialFile finalFile).2 :=
  .andThen (changes_streamWrite ..) fun _ =>
  .andThen (changes_streamWrite ..) fun _ =>
  .andThen (changes_streamFlush ..) fun _ =>
  .andThen (changes_streamClose ..) fun _ =>
  .andThen (changes_onDisk ..) fun _ => changes_onDisk ..

theorem changes_sealSegment (X : Platform) (s : WriterState) (shard : ℕ) :
    Changes X s (sealSegment X s shard).2 := by
  unfold sealSegment
  split
  · exact .refl s
  rename_i hshard
  split
  · exact .refl s
  rename_i hopen
  rw [Bool.not_eq_true, Bool.not_eq_false'] at hopen
  rw [not_le] at hshard
  have hflush := changes_flushBlock (X := X) hshard hopen
  refine .andThen hflush fun hok => ?_
  have hpending := flushBlock_pending hok
  have hcount := shardCount_of_kept hflush.kept_eq
  generalize (flushBlock X s shard).2 = t at hpending hcount
  have hheader := (Change.checksum (X := X) t shard).changes
  have hfile := changes_sealFile (X := X) (t.setSegment shard
    { t.segments shard with header := sealedHeader (t.segments shard).header }) shard
    (sealedHeader (t.segments shard).header) (partialPath t shard) (finalPath t shard)
  refine hheader.trans (.andThen hfile fun _ => ?_)
  have hclosed := (hheader.trans hfile).pending_nil hpending
  have hcount' := shardCount_of_kept (hheader.trans hfile).kept_eq
  exact (Change.close (by rw [hcount', hcount]; exact hshard) hclosed).changes

/-- The state with the numbered segment of a shard open. -/
def openedSegment (s : WriterState) (shard : ℕ) : WriterState :=
  s.setSegment shard { s.segments shard with projectedBytes := 128 + 64, isOpen := true }

/-- What an operation leaves that can open the segment of a shard. It opens it last, and only if all
that comes before succeeds. -/
inductive Prepared (X : Platform) (s : WriterState) (shard : ℕ) : Bool × WriterState → Prop
  | kept {ok : Bool} {v : WriterState} (h : Changes X s v) : Prepared X s shard (ok, v)
  | opened {v : WriterState} (h : Changes X s v) (hshard : shard < v.shardCount)
      (hnumbered : Numbered v shard) : Prepared X s shard (true, openedSegment v shard)

theorem Prepared.kept_eq (h : Prepared X s shard result) : result.2.kept = s.kept := by
  cases h with
  | kept h => exact h.kept_eq
  | @opened v h =>
    have hopened : (openedSegment v shard).kept = v.kept :=
      kept_setSegment v (resetSegment_congr rfl rfl)
    exact hopened.trans h.kept_eq

theorem Prepared.changes (h : Prepared X s shard (false, t)) : Changes X s t := by
  cases h with
  | kept h => exact h

theorem openedSegment_pending (s : WriterState) (shard k : ℕ) :
    ((openedSegment s shard).segments k).pending = (s.segments k).pending := by
  rcases eq_or_ne k shard with rfl | hne
  · rw [openedSegment, setSegment_segments, Function.update_self]
  · rw [openedSegment, setSegment_segments, Function.update_of_ne hne]

theorem Prepared.pending {ok : Bool} (h : Prepared X s shard (ok, t)) (k : ℕ) :
    (t.segments k).pending = (s.segments k).pending ∨ (t.segments k).pending = [] := by
  cases h with
  | kept h => exact h.pending k
  | opened h =>
    rw [openedSegment_pending]
    exact h.pending k

theorem Changes.prepared (h : Changes X s t) (g : Prepared X t shard result) :
    Prepared X s shard result := by
  cases g with
  | kept g => exact .kept (h.trans g)
  | opened g hshard hnumbered => exact .opened (h.trans g) hshard hnumbered

theorem Changes.andThenPrepared (h : Changes X s result.2)
    (hf : result.1 = true → Prepared X result.2 shard (f result.2)) :
    Prepared X s shard (Corpus.andThen result f) := by
  obtain ⟨_ | _, t⟩ := result
  · exact .kept h
  · exact h.prepared (hf rfl)

theorem prepared_openFile (hshard : shard < s.shardCount) (h : Numbered s shard) (file : CorpusFile)
    (header : BinaryMarketSegmentHeader) : Prepared X s shard (openFile s shard file header) := by
  refine Changes.andThenPrepared (changes_onDisk ..) fun _ => ?_
  have hcreated : Numbered (onDisk s fun d => d.create file).2 shard :=
    ⟨h.isOpen_eq, h.pending_eq, h.indexPositions_eq, h.header_eq⟩
  have hcount : shard < (onDisk s fun d => d.create file).2.shardCount := hshard
  generalize (onDisk s fun d => d.create file).2 = t at hcreated hcount
  refine (Change.stream t shard true (t.segments shard).streamGood).changes.prepared ?_
  have hstream : Numbered (t.setSegment shard { t.segments shard with streamOpen := true }) shard := by
    refine ⟨?_, ?_, ?_, ?_⟩ <;> rw [setSegment_segments, Function.update_self]
    · exact hcreated.isOpen_eq
    · exact hcreated.pending_eq
    · exact hcreated.indexPositions_eq
    · exact hcreated.header_eq
  have hcount' :
      shard < (t.setSegment shard { t.segments shard with streamOpen := true }).shardCount := hcount
  dsimp only
  generalize t.setSegment shard { t.segments shard with streamOpen := true } = u at hstream hcount'
  refine Changes.andThenPrepared (changes_streamWrite ..) fun hok => ?_
  obtain ⟨disk, hdisk⟩ := streamWrite_ok hok
  rw [hdisk]
  exact .opened (.refl _) hcount'
    ⟨hstream.isOpen_eq, hstream.pending_eq, hstream.indexPositions_eq, hstream.header_eq⟩

theorem prepared_openSegment (X : Platform) (s : WriterState) (shard : ℕ) :
    Prepared X s shard (openSegment s shard) := by
  unfold openSegment
  split
  · exact .kept (.refl s)
  rename_i hshard
  split
  · exact .kept (.refl s)
  rename_i hopen
  split
  · exact .kept (.refl s)
  rename_i hnumber
  rw [Bool.not_eq_true] at hopen
  rw [not_le] at hshard
  refine (Change.reset hopen).changes.prepared (Changes.andThenPrepared (changes_onDisk ..) fun _ => ?_)
  have hcount : shard < (onDisk (s.setSegment shard (resetSegment (s.segments shard)))
      Disk.sync).2.shardCount := hshard
  have hfree : (onDisk (s.setSegment shard (resetSegment (s.segments shard)))
      Disk.sync).2.nextSegmentNumber ≠ maximumUInt32 := hnumber
  have hsegment : (onDisk (s.setSegment shard (resetSegment (s.segments shard)))
      Disk.sync).2.segments shard = resetSegment (s.segments shard) := Function.update_self ..
  generalize (onDisk (s.setSegment shard (resetSegment (s.segments shard))) Disk.sync).2 = t
    at hcount hfree hsegment
  have hclosed : (t.segments shard).isOpen = false := by rw [hsegment]; rfl
  have hnumbered : shard < (numberSegment t shard).shardCount := hcount
  refine (Change.number hcount hclosed hfree).changes.prepared (prepared_openFile hnumbered ?_ ..)
  have hself : (numberSegment t shard).segments shard =
      { t.segments shard with header := freshSegmentHeader t shard } := Function.update_self ..
  refine ⟨?_, ?_, ?_, ?_⟩ <;> rw [hself]
  · exact hclosed
  · change (t.segments shard).pending = []
    rw [hsegment]
    rfl
  · change (t.segments shard).indexPositions = _
    rw [hsegment]
    rfl
  · rfl

theorem flushes_flushShards (shards : List ℕ) (hshards : ∀ shard ∈ shards, shard < s.shardCount) :
    Flushes X s (flushShards X shards s).2 := by
  induction shards generalizing s with
  | nil => exact .refl s
  | cons shard shards ih =>
    have hrest : ∀ {t}, Flushes X s t → Flushes X t (flushShards X shards t).2 := fun h =>
      ih fun k hk => shardCount_of_kept h.changes.kept_eq ▸ hshards k (by simp [hk])
    rw [flushShards]
    split
    · rename_i hopen
      have hflush := flushes_flushBlock (X := X) (hshards shard (by simp)) hopen
      exact .andThen hflush fun _ => hrest hflush
    · exact hrest (.refl s)

theorem changes_sealShards (X : Platform) (shards : List ℕ) (s : WriterState) :
    Changes X s (sealShards X shards s).2 := by
  induction shards generalizing s with
  | nil => exact .refl s
  | cons shard shards ih => exact .andThen (changes_sealSegment ..) fun _ => ih _

theorem changes_flushAndSyncShards (shards : List ℕ)
    (hshards : ∀ shard ∈ shards, shard < s.shardCount) :
    Changes X s (flushAndSyncShards X shards s).2 := by
  induction shards generalizing s with
  | nil => exact .refl s
  | cons shard shards ih =>
    have hrest : ∀ {t}, Changes X s t → Changes X t (flushAndSyncShards X shards t).2 := fun h =>
      ih fun k hk => shardCount_of_kept h.kept_eq ▸ hshards k (by simp [hk])
    rw [flushAndSyncShards]
    split
    · rename_i hopen
      have hflush := changes_flushBlock (X := X) (hshards shard (by simp)) hopen
      have hstream := hflush.trans (changes_streamFlush _ shard)
      have hsync := hstream.trans (changes_onDisk _ Disk.sync)
      exact .andThen hflush fun _ => .andThen (changes_streamFlush ..) fun _ =>
        .andThen (changes_onDisk ..) fun _ => hrest hsync
    · exact hrest (.refl s)

/-! ## Which segments are open -/

theorem streamWrite_isOpen (s : WriterState) (shard : ℕ)
    (operation : Disk CorpusFile → Bool × Disk CorpusFile) (k : ℕ) :
    ((streamWrite s shard operation).2.segments k).isOpen = (s.segments k).isOpen := by
  unfold streamWrite
  by_cases hk : k = shard
  · subst hk
    dsimp only
    split
    · split <;> simp [setDisk, setSegment]
    · simp [setSegment]
  · dsimp only
    split
    · split <;> simp [setDisk, setSegment, Function.update_of_ne hk]
    · simp [setSegment, Function.update_of_ne hk]

/-- A flush keeps which segments are open, wherever it fails. -/
theorem flushBlock_isOpen (X : Platform) (s : WriterState) (shard k : ℕ) :
    ((flushBlock X s shard).2.segments k).isOpen = (s.segments k).isOpen := by
  unfold flushBlock
  dsimp only
  split
  · rfl
  rename_i first rest hpending
  split
  · rfl
  rename_i encoded _
  split
  · rfl
  split
  · rfl
  generalize blockHeader _ first rest encoded = block
  have hheader := streamWrite_isOpen s shard (fun d =>
    d.append (partialPath s shard) (Layout.toBytes block)) k
  revert hheader
  rcases streamWrite s shard fun d => d.append (partialPath s shard) (Layout.toBytes block)
    with ⟨_ | _, t⟩ <;> intro hheader
  · exact hheader
  have hbody := streamWrite_isOpen t shard (fun d => d.append (partialPath s shard) encoded)
  revert hbody
  rw [andThen]
  rcases streamWrite t shard fun d => d.append (partialPath s shard) encoded
    with ⟨_ | _, u⟩ <;> intro hbody
  · exact (hbody k).trans hheader
  · rw [← hheader, ← hbody k]
    by_cases hk : k = shard
    · subst hk
      simp [andThen, setSegment]
    · simp [andThen, setSegment, Function.update_of_ne hk]

theorem flushShards_isOpen (X : Platform) (shards : List ℕ) (s : WriterState) (k : ℕ) :
    ((flushShards X shards s).2.segments k).isOpen = (s.segments k).isOpen := by
  induction shards generalizing s with
  | nil => rfl
  | cons shard shards ih =>
    rw [flushShards]
    split
    · have hflush := flushBlock_isOpen X s shard k
      rcases hresult : flushBlock X s shard with ⟨_ | _, t⟩ <;> rw [hresult] at hflush
      · exact hflush
      · exact (ih t).trans hflush
    · exact ih s

/-- Changes open no segment, and those that stay open keep their number and their index positions. -/
structure StaysOpen (s t : WriterState) (k : ℕ) : Prop where
  isOpen : (s.segments k).isOpen = true
  indexPositions : (t.segments k).indexPositions = (s.segments k).indexPositions
  segmentNumber : (t.segments k).header.segmentNumber = (s.segments k).header.segmentNumber

/-- A segment that is open after a change was open before it. -/
theorem Change.staysOpen (h : Change X s t) {k : ℕ} (ht : (t.segments k).isOpen = true) :
    StaysOpen s t k := by
  -- The segments other than the changed one are the same.
  have hone : ∀ {shard : ℕ} {segment : SegmentState},
      t.segments = Function.update s.segments shard segment →
      (segment.isOpen = true → (s.segments shard).isOpen = true ∧
        segment.indexPositions = (s.segments shard).indexPositions ∧
        segment.header.segmentNumber = (s.segments shard).header.segmentNumber) →
      StaysOpen s t k := by
    intro shard segment hsegments hsegment
    rcases eq_or_ne k shard with rfl | hne
    · have hself : t.segments k = segment := by rw [hsegments, Function.update_self]
      rw [hself] at ht
      obtain ⟨h1, h2, h3⟩ := hsegment ht
      exact ⟨h1, by rw [hself]; exact h2, by rw [hself]; exact h3⟩
    · have hother : t.segments k = s.segments k := by rw [hsegments, Function.update_of_ne hne]
      exact ⟨hother ▸ ht, by rw [hother], by rw [hother]⟩
  cases h with
  | disk | quota => exact ⟨ht, rfl, rfl⟩
  | stream => exact hone rfl fun ho => ⟨ho, rfl, rfl⟩
  | @flush shard first rest encoded _ hopen =>
    refine hone rfl fun _ => ⟨hopen, rfl, ?_⟩
    rw [flushed_header]
  | checksum shard =>
    refine hone rfl fun ho => ⟨ho, rfl, ?_⟩
    exact sealedHeader_segmentNumber (s.segments shard).header
  | close => exact hone rfl nofun
  | reset => exact hone rfl nofun
  | @number shard _ hclosed =>
    refine hone rfl fun ho => ?_
    change (s.segments shard).isOpen = true at ho
    rw [hclosed] at ho
    cases ho

theorem Changes.staysOpen (h : Changes X s t) {k : ℕ} (ht : (t.segments k).isOpen = true) :
    StaysOpen s t k := by
  induction h with
  | refl => exact ⟨ht, rfl, rfl⟩
  | tail _ h ih =>
    have hlast := h.staysOpen ht
    have hbefore := ih hlast.isOpen
    exact ⟨hbefore.isOpen, hlast.indexPositions.trans hbefore.indexPositions,
      hlast.segmentNumber.trans hbefore.segmentNumber⟩

/-- A segment that opens is open. -/
theorem openSegment_isOpen (h : (openSegment s shard).1 = true) :
    ((openSegment s shard).2.segments shard).isOpen = true := by
  unfold openSegment at h ⊢
  split at h
  · cases h
  rename_i hshard
  rw [if_neg hshard]
  split at h
  · rename_i hopen
    rw [if_pos hopen]
    exact hopen
  rename_i hopen
  rw [if_neg hopen]
  split at h
  · cases h
  rename_i hnumber
  rw [if_neg hnumber]
  obtain ⟨-, heq₁⟩ := both_of_andThen h
  rw [heq₁] at h ⊢
  unfold openFile at h ⊢
  obtain ⟨-, heq₂⟩ := both_of_andThen h
  rw [heq₂] at h ⊢
  obtain ⟨-, heq₃⟩ := both_of_andThen h
  rw [heq₃]
  simp [setSegment]

/-! ## The quota

The operations on segments themselves never note the quota as reached. -/

section Quota

variable {q : Bool}

theorem quotaReached_andThen {result : Bool × WriterState} {f : WriterState → Bool × WriterState}
    (h : result.2.quotaReached = q)
    (hf : ∀ t : WriterState, t.quotaReached = q → (f t).2.quotaReached = q) :
    (andThen result f).2.quotaReached = q := by
  obtain ⟨_ | _, t⟩ := result
  · exact h
  · exact hf t h

theorem quotaReached_streamWrite (h : s.quotaReached = q) (shard : ℕ)
    (operation : Disk CorpusFile → Bool × Disk CorpusFile) :
    (streamWrite s shard operation).2.quotaReached = q := by
  unfold streamWrite
  dsimp only
  split
  · split <;> exact h
  · exact h

theorem quotaReached_flushBlock (h : s.quotaReached = q) (shard : ℕ) :
    (flushBlock X s shard).2.quotaReached = q := by
  unfold flushBlock
  dsimp only
  split
  · exact h
  split
  · exact h
  split
  · exact h
  split
  · exact h
  exact quotaReached_andThen (quotaReached_streamWrite h _ _) fun t ht =>
    quotaReached_andThen (quotaReached_streamWrite ht _ _) fun u hu => hu

theorem quotaReached_flushShards (h : s.quotaReached = q) (shards : List ℕ) :
    (flushShards X shards s).2.quotaReached = q := by
  induction shards generalizing s with
  | nil => exact h
  | cons shard shards ih =>
    rw [flushShards]
    split
    · exact quotaReached_andThen (quotaReached_flushBlock h shard) fun t ht => ih ht
    · exact ih h

theorem quotaReached_sealSegment (h : s.quotaReached = q) (shard : ℕ) :
    (sealSegment X s shard).2.quotaReached = q := by
  have hsync : ∀ t : WriterState, t.quotaReached = q → (streamFlush t shard).2.quotaReached = q := by
    intro t ht
    unfold streamFlush
    dsimp only
    split
    · exact quotaReached_streamWrite ht _ _
    · exact ht
  unfold sealSegment
  split
  · exact h
  split
  · exact h
  refine quotaReached_andThen (quotaReached_flushBlock h shard) fun t ht =>
    quotaReached_andThen ?_ fun u hu => hu
  unfold sealFile
  refine quotaReached_andThen (quotaReached_streamWrite (by exact ht) _ _) fun _ h₁ =>
    quotaReached_andThen (quotaReached_streamWrite h₁ _ _) fun u h₂ =>
    quotaReached_andThen (hsync u h₂) fun v h₃ => ?_
  exact quotaReached_andThen h₃ fun _ h₄ => quotaReached_andThen h₄ fun _ h₅ => h₅

theorem quotaReached_openSegment (h : s.quotaReached = q) (shard : ℕ) :
    (openSegment s shard).2.quotaReached = q := by
  unfold openSegment
  split
  · exact h
  split
  · exact h
  split
  · exact h
  unfold openFile
  exact quotaReached_andThen h fun _ h₁ => quotaReached_andThen h₁ fun _ h₂ =>
    quotaReached_andThen (quotaReached_streamWrite (by exact h₂) _ _) fun _ h₃ => h₃

end Quota

end HftRecorder.Corpus
