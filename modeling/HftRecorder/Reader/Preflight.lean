import HftRecorder.Lib.Lists
import HftRecorder.Reader.Open
import HftRecorder.Writer.Run
import Mathlib.Data.Prod.Lex

/-!
# The preflight of `open` covers what `next` does

`open` and `next` merge the same shards from the same primed state with the same tests, on whatever
bytes the files hold. So a corpus that `open` accepts is read to its end without a failure, and the
rows are those that passed the filter of `open`. `Merges` is the second pass of `open`, round by
round, and `Emits` is the sequence of calls of `next` up to exhaustion.
-/

namespace HftRecorder.Corpus

open ByteLayout Codec BinaryMarketChannel Loop SegmentDecoder

variable {X : Platform} {disk : Disk CorpusFile} {epoch sourceCount : ℕ}

/-! ## Reading gets to an end -/

variable {d : SegmentDecoder}

theorem SegmentDecoder.recordCount_le_of_validBlock {b : BinaryMarketBlockHeader}
    (h : validBlock X d b = true) : b.recordCount ≤ kBinaryMarketBlockRecords := by
  unfold validBlock at h
  simp only [Bool.and_eq_true, decide_eq_true_eq] at h
  tauto

theorem SegmentDecoder.length_decodeRows {b : BinaryMarketBlockHeader} {encoded raw : Bytes}
    {rows : List BinaryMarketRecord} (h : decodeRows X b encoded = .ok (raw, rows)) :
    rows.length = b.recordCount := by
  unfold decodeRows at h
  dsimp only at h
  split at h
  · cases h
  · split at h
    · cases h
    · cases h
      exact length_tableOf ..

/-- A block has fewer rows than its header has bytes, so that reading it leaves less. -/
theorem SegmentDecoder.readBlock_rowBound {t : SegmentDecoder}
    (h : d.readBlock X sourceCount = .ok t) : t.rowBound < 256 * d.stream.length := by
  unfold readBlock at h
  dsimp only at h
  split at h
  · cases h
  rename_i hvalid
  split at h
  · cases h
  rename_i raw rows hrows
  split at h
  · cases h
  rename_i counted _
  cases h
  rw [not_or, not_or, not_lt] at hvalid
  have hcount := recordCount_le_of_validBlock (X := X) (d := d) (by simpa using hvalid.2.1)
  have hlength := length_decodeRows hrows
  simp only [rowBound, List.length_drop, hlength]
  rw [kBinaryMarketBlockRecords] at hcount
  omega

variable {row : BinaryMarketRecord}

/-- Handing out a row leaves fewer. -/
theorem SegmentDecoder.next_rowBound {t : SegmentDecoder}
    (h : d.next X sourceCount = .ok (some row, t)) : t.rowBound < d.rowBound := by
  unfold next at h
  split at h
  · cases h
  split at h
  · rename_i rows hdecoded
    cases h
    simp [rowBound, hdecoded]
  · rename_i hdecoded
    split at h
    · split at h <;> cases h
    · split at h
      · cases h
      rename_i u hu
      have hless := readBlock_rowBound hu
      split at h
      · rename_i rows hrows
        cases h
        simp only [rowBound, hrows, List.length_cons] at hless
        simp only [rowBound, hdecoded, List.length_nil]
        omega
      · cases h

variable {key : SegmentKey}

theorem SegmentDecoder.open_rowBound (h : SegmentDecoder.open disk key epoch = .ok d) :
    d.rowBound ≤ 256 * disk.fileBytes (segmentPath key) := by
  unfold SegmentDecoder.open at h
  split at h
  · cases h
  rename_i file hfile
  dsimp only at h
  split at h
  · cases h
  cases h
  have hbytes : disk.fileBytes (segmentPath key) = file.length := by
    rw [Disk.fileBytes, Disk.contents, hfile, Option.getD_some]
  simp only [rowBound, List.length_nil, List.length_drop, hbytes]
  omega

variable {rest : List SegmentKey}

theorem openRow_rowBound {keys : List SegmentKey}
    (h : openRow X disk epoch sourceCount keys = .ok (some (row, d), rest)) :
    d.rowBound + (rest.map fun key => 256 * disk.fileBytes (segmentPath key)).sum <
      (keys.map fun key => 256 * disk.fileBytes (segmentPath key)).sum := by
  induction keys with
  | nil => cases h
  | cons key keys ih =>
    rw [openRow] at h
    rw [List.map_cons, List.sum_cons]
    split at h
    · cases h
    rename_i decoder hopen
    have hbound := open_rowBound hopen
    split at h
    · cases h
    · rename_i hnext
      cases h
      have hless := next_rowBound hnext
      omega
    · have hless := ih h
      omega

theorem openRow_none {keys : List SegmentKey}
    (h : openRow X disk epoch sourceCount keys = .ok (none, rest)) : rest = [] := by
  induction keys with
  | nil =>
    cases h
    rfl
  | cons key keys ih =>
    rw [openRow] at h
    split at h
    · cases h
    · split at h
      · cases h
      · cases h
      · exact ih h

variable {shard : CursorShard}

theorem pullRow_none (h : pullRow X disk epoch sourceCount shard = .ok (none, rest)) :
    rest = [] := by
  unfold pullRow at h
  split at h
  · exact openRow_none h
  · split at h
    · cases h
    · cases h
    · exact openRow_none h

theorem pullRow_rowBound (h : pullRow X disk epoch sourceCount shard = .ok (some (row, d), rest)) :
    d.rowBound + (rest.map fun key => 256 * disk.fileBytes (segmentPath key)).sum <
      (shard.decoder.map SegmentDecoder.rowBound).getD 0 +
        (shard.remaining.map fun key => 256 * disk.fileBytes (segmentPath key)).sum := by
  unfold pullRow at h
  split at h
  · rename_i hdecoder
    have hless := openRow_rowBound h
    rw [hdecoder, Option.map_none, Option.getD_none]
    omega
  · rename_i decoder hdecoder
    rw [hdecoder, Option.map_some, Option.getD_some]
    split at h
    · cases h
    · rename_i hnext
      cases h
      have hless := next_rowBound hnext
      omega
    · have hless := openRow_rowBound h
      omega

theorem fillHead_rowBound {refilled : CursorShard}
    (h : fillHead X disk epoch sourceCount shard = .ok refilled)
    (hhead : shard.head.isSome = true) : refilled.rowBound disk < shard.rowBound disk := by
  unfold fillHead at h
  split at h
  · cases h
  · rename_i hpull
    cases h
    have hrest := pullRow_none hpull
    simp only [CursorShard.rowBound, hhead, hrest, Option.isSome_none, Option.map_none,
      Option.getD_none, List.map_nil, List.sum_nil, Bool.false_eq_true, if_false, if_true]
    omega
  · rename_i hpull
    split at h
    · cases h
      have hless := pullRow_rowBound hpull
      simp only [CursorShard.rowBound, hhead, Option.isSome_some, Option.map_some, Option.getD_some,
        if_true]
      omega
    · cases h

/-! ## The row that goes first -/

/-- What `recordBefore` compares, in its order. -/
def arrivalKey (r : BinaryMarketRecord) : ℕ ×ₗ ℕ ×ₗ ℕ ×ₗ ℤ ×ₗ ℕ ×ₗ ℕ ×ₗ ℕ :=
  toLex (r.receiveMonotonicNs, toLex (r.shardIndex, toLex (r.shardSequence,
    toLex (r.receiveRealtimeNs, toLex (r.frameSequence, toLex (r.eventOrdinal, r.eventSequence))))))

theorem recordBefore_byKey : Merge.ByKey recordBefore arrivalKey := by
  intro l r
  unfold recordBefore arrivalKey
  simp only [Prod.Lex.toLex_lt_toLex]
  split_ifs with h₁ h₂ h₃ h₄ h₅ h₆ <;> simp_all

/-! ## One step of the merge -/

/-- One step of the merge, which `open` and `next` share: the row that goes first is admitted, and its
shard is refilled. -/
structure MergeStep (X : Platform) (disk : Disk CorpusFile) (s : CursorState) (position : ℕ)
    (row : BinaryMarketRecord) (t : CursorState) : Prop where
  selected : selectHead s.shards = some (position, row)
  admitted : ∃ u, admitRow X s position row = .ok u ∧ refill X disk u position = .ok t

/-- What no step of the merge changes. -/
structure CursorFrame (s t : CursorState) : Prop where
  request : t.request = s.request
  manifest : t.manifest = s.manifest
  sources : t.sources = s.sources
  includedSources : t.includedSources = s.includedSources
  failed : t.failed = s.failed
  shardCount : t.shards.length = s.shards.length

variable {s t u : CursorState} {position : ℕ} {row : BinaryMarketRecord}

/-- What admitting a row does. -/
theorem admitRow_ok (h : admitRow X s position row = .ok t) :
    ∃ depthTransaction state next,
      advanceBinaryMarketDepthTransaction X row (s.shards.getD position {}).depthTransaction =
        some depthTransaction ∧
      s.sourceStates[row.sourceId - 1]? = some state ∧
      advanceBinaryMarketSourceState row state
        (binaryMarketDepthRecordIsNativeRebaseSnapshot X row) = some next ∧
      t = { s with
        shards := s.shards.set position { s.shards.getD position {} with depthTransaction }
        sourceStates := s.sourceStates.set (row.sourceId - 1) next } := by
  unfold admitRow at h
  dsimp only at h
  split at h
  · cases h
  rename_i depthTransaction hdepth
  split at h
  · cases h
  rename_i state hstate
  split at h
  · cases h
  rename_i next hnext
  cases h
  exact ⟨depthTransaction, state, next, hdepth, hstate, hnext, rfl⟩

theorem refill_ok (h : refill X disk s position = .ok t) :
    ∃ shard, fillHead X disk s.manifest.producerEpoch s.sources.length (s.shards.getD position {}) =
      .ok shard ∧ t = { s with shards := s.shards.set position shard } := by
  unfold refill at h
  split at h
  · cases h
  · rename_i shard hshard
    cases h
    exact ⟨shard, hshard, rfl⟩

/-- The shard at a position has the row as its head. -/
def HeadAt (shards : List CursorShard) (k : ℕ) (row : BinaryMarketRecord) : Prop :=
  ∃ shard : CursorShard, shards[k]? = some shard ∧ shard.head = some row

variable {shards : List CursorShard}

theorem selectHead_mem (h : selectHead shards = some (position, row)) :
    HeadAt shards position row := by
  have hmem := Merge.leastHead_mem recordBefore_byKey h
  rw [List.getElem?_map, Option.map_eq_some_iff] at hmem
  exact hmem

/-- Everything a step does. -/
theorem MergeStep.spec (h : MergeStep X disk s position row t) :
    ∃ shard depthTransaction state next refilled,
      s.shards[position]? = some shard ∧ shard.head = some row ∧
      advanceBinaryMarketDepthTransaction X row shard.depthTransaction = some depthTransaction ∧
      s.sourceStates[row.sourceId - 1]? = some state ∧
      advanceBinaryMarketSourceState row state
        (binaryMarketDepthRecordIsNativeRebaseSnapshot X row) = some next ∧
      fillHead X disk s.manifest.producerEpoch s.sources.length { shard with depthTransaction } =
        .ok refilled ∧
      t = { s with
        shards := s.shards.set position refilled
        sourceStates := s.sourceStates.set (row.sourceId - 1) next } := by
  obtain ⟨u, hu, ht⟩ := h.admitted
  obtain ⟨shard, hshard, hhead⟩ := selectHead_mem h.selected
  obtain ⟨depthTransaction, state, next, hdepth, hstate, hnext, rfl⟩ := admitRow_ok hu
  obtain ⟨refilled, hfill, rfl⟩ := refill_ok ht
  have hget : s.shards.getD position {} = shard := by
    rw [List.getD_eq_getElem?_getD, hshard, Option.getD_some]
  rw [hget] at hdepth hfill
  have hset : (s.shards.set position { shard with depthTransaction }).getD position {} =
      { shard with depthTransaction } := by
    rw [List.getD_eq_getElem?_getD, List.getElem?_set_self (List.getElem?_eq_some_iff.mp hshard).1,
      Option.getD_some]
  rw [hset] at hfill
  exact ⟨shard, depthTransaction, state, next, refilled, hshard, hhead, hdepth, hstate, hnext, hfill,
    by rw [hget, List.set_set]⟩

theorem MergeStep.frame (h : MergeStep X disk s position row t) : CursorFrame s t := by
  obtain ⟨_, _, _, _, _, -, -, -, -, -, -, rfl⟩ := h.spec
  exact ⟨rfl, rfl, rfl, rfl, rfl, by simp⟩

theorem MergeStep.rowBound (h : MergeStep X disk s position row t) :
    t.rowBound disk < s.rowBound disk := by
  obtain ⟨shard, _, _, _, refilled, hshard, hhead, -, -, -, hfill, rfl⟩ := h.spec
  have hless := fillHead_rowBound hfill (by rw [hhead]; rfl)
  exact Lists.sum_map_set_lt _ hshard hless

/-! ## The two loops take the same steps -/

/-- The second pass of `open` would stop at the row. -/
def rowRefused (s : CursorState) (row : BinaryMarketRecord) : Bool :=
  row.hasFlag recordGapBoundary || (s.request.requireTraderReplayCompatibility &&
    !binaryMarketRecordIsSourceHealth row && !row.hasFlag recordTraderReplayCompatible)

/-- The three masks of an output that selected rows change. -/
def BinaryMarketSelection.masks (output : BinaryMarketSelection) :
    UInt16 × List UInt16 × List UInt16 :=
  (output.presentChannelMask, output.sourcePresentChannelMasks, output.sourceObservedChannelMasks)

/-- The entries of an output for a source at the begin of the interval. -/
def BinaryMarketSelection.atBegin (output : BinaryMarketSelection) (n : ℕ) :
    Option BinaryMarketSource × Option ℕ × Option UInt16 × Option UInt16 × Option UInt16 :=
  (output.sourcesAtBegin[n]?, output.sourceLifecycleRevisionsAtBegin[n]?,
    output.sourceUnhealthyChannelMasksAtBegin[n]?,
    output.sourceAdministrativeUnhealthyChannelMasksAtBegin[n]?,
    output.sourceRecoveryPendingChannelMasksAtBegin[n]?)

variable {output : BinaryMarketSelection}

theorem noteSelected_masks (X : Platform) {other : BinaryMarketSelection}
    (h : output.masks = other.masks) (row : BinaryMarketRecord) (state : BinaryMarketSourceState) :
    (noteSelected X output row state).masks = (noteSelected X other row state).masks := by
  simp only [BinaryMarketSelection.masks, Prod.mk.injEq] at h
  simp only [BinaryMarketSelection.masks, noteSelected, h.1, h.2.1, h.2.2]

/-- What a round of the second pass does: it takes a step, a row before the interval is noted, and a
selected row is kept. -/
structure MergeTurn (X : Platform) (disk : Disk CorpusFile) (p q : MergePass) (position : ℕ)
    (row : BinaryMarketRecord) : Prop where
  step : MergeStep X disk p.cursor position row q.cursor
  noted : q.output.atBegin = (if row.receiveRealtimeNs < q.cursor.request.beginReceiveNs.toInt then
    noteBeforeBegin p.output row (q.cursor.sourceState row) else p.output).atBegin
  kept : (rowSelected q.cursor.request q.cursor.includedSources row = false ∧ q.rows = p.rows ∧
      q.output.masks = p.output.masks) ∨
    (rowSelected q.cursor.request q.cursor.includedSources row = true ∧
      rowRefused q.cursor row = false ∧ q.rows = p.rows ++ [(row, q.cursor.sourceState row)] ∧
      q.output.masks = (noteSelected X p.output row (q.cursor.sourceState row)).masks)

variable {named : Bool} {p q : MergePass}

/-- A round of the second pass that goes on has taken one row. -/
theorem mergeRound_again (h : mergeRound X disk named p = .ok (.again q)) :
    ∃ position row, MergeTurn X disk p q position row := by
  unfold mergeRound at h
  split at h
  · cases h
  rename_i position row hselected
  split at h
  · cases h
  · cases h
  rename_i u hu
  dsimp only at h
  -- What is noted of a row before the interval is not in the masks.
  have hmasks : (if row.receiveRealtimeNs < u.request.beginReceiveNs.toInt then
      noteBeforeBegin p.output row (u.sourceState row) else p.output).masks = p.output.masks := by
    split <;> rfl
  split at h
  · cases h
  rename_i t ht
  have hnoted : (if row.receiveRealtimeNs < u.request.beginReceiveNs.toInt then
      noteBeforeBegin p.output row (u.sourceState row) else p.output) =
      if row.receiveRealtimeNs < t.request.beginReceiveNs.toInt then
        noteBeforeBegin p.output row (t.sourceState row) else p.output := by
    obtain ⟨_, -, rfl⟩ := refill_ok ht
    rfl
  rw [hnoted] at h hmasks
  have hstep : MergeStep X disk p.cursor position row t := ⟨hselected, u, hu, ht⟩
  split at h
  · rename_i hrow
    unfold passSelected at h
    dsimp only at h
    split at h
    · cases h
    · rename_i q' hpass
      split at hpass
      · cases hpass
      rename_i hgap
      split at hpass
      · cases hpass
      rename_i hcompatible
      cases hpass
      cases h
      refine ⟨position, row, hstep, rfl, .inr ⟨hrow, ?_, rfl, noteSelected_masks X hmasks row _⟩⟩
      simp only [rowRefused, Bool.or_eq_false_iff]
      exact ⟨by simpa using hgap, by simpa using hcompatible⟩
  · rename_i hrow
    cases h
    exact ⟨position, row, hstep, rfl, .inl ⟨by simpa using hrow, rfl, hmasks⟩⟩

theorem mergeRound_leave (h : mergeRound X disk named p = .ok (.leave q)) :
    selectHead p.cursor.shards = none ∧ q = p := by
  unfold mergeRound at h
  split at h
  · rename_i hselected
    cases h
    exact ⟨hselected, rfl⟩
  · split at h
    · cases h
    · cases h
    · dsimp only at h
      split at h
      · cases h
      · split at h
        · split at h <;> cases h
        · cases h

/-- The second pass gets from a state to its end, in a number of rounds. -/
inductive Merges (X : Platform) (disk : Disk CorpusFile) (q : MergePass) : ℕ → MergePass → Prop
  | leave (fuel : ℕ) (hnone : selectHead q.cursor.shards = none) : Merges X disk q (fuel + 1) q
  | turn {fuel : ℕ} {p next : MergePass} {position : ℕ} {row : BinaryMarketRecord}
      (hturn : MergeTurn X disk p next position row) (rest : Merges X disk q fuel next) :
      Merges X disk q (fuel + 1) p

variable {fuel : ℕ}

theorem merges_of_loop (h : loop (mergeRound X disk named) fuel p = some (.ok q)) :
    Merges X disk q fuel p := by
  induction fuel generalizing p with
  | zero => cases h
  | succ fuel ih =>
    rw [loop] at h
    split at h
    · cases h
    · rename_i hround
      cases h
      obtain ⟨hnone, rfl⟩ := mergeRound_leave hround
      exact .leave fuel hnone
    · rename_i hround
      obtain ⟨position, row, hturn⟩ := mergeRound_again hround
      exact .turn hturn (ih h)

theorem nextRound_of_step (h : MergeStep X disk s position row t) :
    nextRound X disk s =
      if rowSelected t.request t.includedSources row then
        if rowRefused t row then .error "selected corpus changed to missing or incompatible records"
        else .ok (.leave (some row, t))
      else .ok (.again t) := by
  obtain ⟨u, hu, ht⟩ := h.admitted
  simp only [nextRound, h.selected, hu, ht, rowRefused]
  rfl

theorem nextRound_again (h : nextRound X disk s = .ok (.again t)) :
    t.rowBound disk < s.rowBound disk := by
  unfold nextRound at h
  split at h
  · cases h
  rename_i position row hselected
  split at h
  · cases h
  · cases h
  rename_i u hu
  split at h
  · cases h
  rename_i v hv
  have hstep : MergeStep X disk s position row v := ⟨hselected, u, hu, hv⟩
  split at h
  · split at h <;> cases h
  · cases h
    exact hstep.rowBound

/-! ## The rows that `next` emits -/

/-- The rows that calls of `next` emit until one reports that there is none, each with the state of
its source right after it. Every call returns `Ok`. -/
inductive Emits (X : Platform) (disk : Disk CorpusFile) :
    CursorState → List (BinaryMarketRecord × BinaryMarketSourceState) → Prop
  | done {s t : CursorState} (h : nextRow X disk (some s) = ⟨.ok, none, "", some t⟩) :
      Emits X disk s []
  | row {s t : CursorState} {row : BinaryMarketRecord}
      {rows : List (BinaryMarketRecord × BinaryMarketSourceState)}
      (h : nextRow X disk (some s) = ⟨.ok, some row, "", some t⟩) (rest : Emits X disk t rows) :
      Emits X disk s ((row, t.sourceState row) :: rows)

theorem nextRow_leave (hfailed : s.failed = false) {result : Option BinaryMarketRecord}
    (h : nextRound X disk s = .ok (.leave (result, t))) :
    nextRow X disk (some s) = ⟨.ok, result, "", some t⟩ := by
  simp [nextRow, hfailed, loop, h]

theorem nextRow_again (hs : s.failed = false) (ht : t.failed = false)
    (h : nextRound X disk s = .ok (.again t)) {result : Option BinaryMarketRecord} {u : CursorState}
    (hresult : nextRow X disk (some t) = ⟨.ok, result, "", some u⟩) :
    nextRow X disk (some s) = ⟨.ok, result, "", some u⟩ := by
  obtain ⟨outcome, houtcome⟩ := exists_loop (nextRound X disk) (CursorState.rowBound disk)
    (fun _ _ hround => nextRound_again hround) (Nat.lt_succ_self (t.rowBound disk))
  have hloop : loop (nextRound X disk) (s.rowBound disk + 1) s = some outcome := by
    rw [loop, h]
    exact loop_of_le houtcome (nextRound_again h)
  simp only [nextRow, ht, houtcome, Bool.false_eq_true, if_false] at hresult
  simp only [nextRow, hs, hloop, Bool.false_eq_true, if_false]
  cases outcome with
  | error e => cases hresult
  | ok result => exact hresult

theorem Emits.again (hs : s.failed = false) (ht : t.failed = false)
    (h : nextRound X disk s = .ok (.again t))
    {rows : List (BinaryMarketRecord × BinaryMarketSourceState)} (hrows : Emits X disk t rows) :
    Emits X disk s rows := by
  cases hrows with
  | done hdone => exact .done (nextRow_again hs ht h hdone)
  | row hrow rest => exact .row (nextRow_again hs ht h hrow) rest

/-- What `open` keeps of a list of selected rows. -/
def noteRows (X : Platform) (output : BinaryMarketSelection)
    (rows : List (BinaryMarketRecord × BinaryMarketSourceState)) : BinaryMarketSelection :=
  rows.foldl (fun output row => noteSelected X output row.1 row.2) output

theorem noteRows_masks (X : Platform) {other : BinaryMarketSelection}
    (h : output.masks = other.masks) (rows : List (BinaryMarketRecord × BinaryMarketSourceState)) :
    (noteRows X output rows).masks = (noteRows X other rows).masks := by
  induction rows generalizing output other with
  | nil => exact h
  | cons row rows ih => exact ih (noteSelected_masks X h row.1 row.2)

/-- The rows that the second pass keeps from a state on are those that `next` emits from it. -/
theorem Merges.emits (h : Merges X disk q fuel p) (hp : p.cursor.failed = false) :
    ∃ rows, q.rows = p.rows ++ rows ∧ Emits X disk p.cursor rows ∧
      q.output.masks = (noteRows X p.output rows).masks := by
  induction h with
  | leave fuel hnone =>
    refine ⟨[], by simp, .done (t := q.cursor) (nextRow_leave hp ?_), rfl⟩
    simp only [nextRound, hnone]
  | @turn fuel p next position row hturn rest ih =>
    have hfailed : next.cursor.failed = false := hturn.step.frame.failed.trans hp
    obtain ⟨rows, hrows, hemits, hmasks⟩ := ih hfailed
    have hbody := nextRound_of_step hturn.step
    rcases hturn.kept with ⟨hselected, hkept, hsame⟩ | ⟨hselected, hrefused, hkept, hnoted⟩
    · rw [hselected, if_neg (by simp)] at hbody
      exact ⟨rows, by rw [hrows, hkept], hemits.again hp hfailed hbody,
        hmasks.trans (noteRows_masks X hsame rows)⟩
    · rw [hselected, hrefused, if_pos rfl, if_neg (by simp)] at hbody
      refine ⟨(row, next.cursor.sourceState row) :: rows, ?_, .row (nextRow_leave hp hbody) hemits,
        hmasks.trans (noteRows_masks X hnoted rows)⟩
      rw [hrows, hkept, List.append_assoc, List.singleton_append]

/-! ## The order of the rows -/

/-- The position of a row in the arrival order. -/
def arrivalPosition (r : BinaryMarketRecord) : ℕ ×ₗ ℕ ×ₗ ℕ :=
  toLex (r.receiveMonotonicNs, toLex (r.shardIndex, r.shardSequence))

/-- A row of a shard as the decoder lets it pass. -/
structure RowOf (X : Platform) (k : ℕ) (row : BinaryMarketRecord) : Prop where
  valid : validBinaryMarketRecord X row = true
  shardIndex : row.shardIndex = k

/-- A shard at its position: its segments and rows are of that shard, and it remembers the order of
its head. -/
structure ShardAt (X : Platform) (k : ℕ) (shard : CursorShard) : Prop where
  remaining : ∀ key ∈ shard.remaining, key.shard = k
  decoder : ∀ d, shard.decoder = some d →
    d.header.shardIndex = k ∧ ∀ row ∈ d.decoded, RowOf X k row
  head : ∀ row, shard.head = some row → RowOf X k row ∧
    shard.previousSequence = row.shardSequence ∧ shard.previousMonotonic = row.receiveMonotonicNs

theorem SegmentDecoder.countRows_some {channel : BinaryMarketChannel} {counted : SegmentDecoder}
    {rows : List BinaryMarketRecord} (h : countRows X sourceCount channel d rows = some counted) :
    counted.header = d.header ∧ ∀ row ∈ rows, RowOf X d.header.shardIndex row := by
  induction rows generalizing d with
  | nil =>
    cases h
    exact ⟨rfl, by simp⟩
  | cons row rows ih =>
    rw [countRows] at h
    split at h
    · rename_i hrow
      obtain ⟨hheader, hrest⟩ := ih h
      refine ⟨hheader, fun r hr => ?_⟩
      rcases List.mem_cons.mp hr with rfl | hr
      · unfold validRow at hrow
        simp only [Bool.and_eq_true, decide_eq_true_eq] at hrow
        exact ⟨by tauto, by tauto⟩
      · exact hrest r hr
    · cases h

theorem SegmentDecoder.readBlock_rows {d t : SegmentDecoder} (h : d.readBlock X sourceCount = .ok t) :
    t.header = d.header ∧ ∀ row ∈ t.decoded, RowOf X d.header.shardIndex row := by
  unfold readBlock at h
  dsimp only at h
  split at h
  · cases h
  split at h
  · cases h
  split at h
  · cases h
  rename_i hcounted
  cases h
  obtain ⟨hheader, hrows⟩ := countRows_some hcounted
  exact ⟨hheader, hrows⟩

/-- A decoder of a shard hands out rows of the shard and stays one. -/
theorem SegmentDecoder.next_rowOf {d t : SegmentDecoder} {k : ℕ} {row : BinaryMarketRecord}
    (hk : d.header.shardIndex = k) (hrows : ∀ row ∈ d.decoded, RowOf X k row)
    (h : d.next X sourceCount = .ok (some row, t)) :
    RowOf X k row ∧ t.header.shardIndex = k ∧ ∀ row ∈ t.decoded, RowOf X k row := by
  unfold next at h
  split at h
  · cases h
  split at h
  · rename_i rows hdecoded
    cases h
    rw [hdecoded] at hrows
    exact ⟨hrows row (by simp), hk, fun r hr => hrows r (by simp [hr])⟩
  · split at h
    · split at h <;> cases h
    · split at h
      · cases h
      rename_i u hu
      obtain ⟨hheader, hblock⟩ := readBlock_rows hu
      rw [hk] at hblock
      split at h
      · rename_i rows hdecoded
        cases h
        rw [hdecoded] at hblock
        exact ⟨hblock row (by simp), by rw [← hk, ← hheader], fun r hr => hblock r (by simp [hr])⟩
      · cases h

theorem SegmentDecoder.shardIndex_of_validHeader {header : BinaryMarketSegmentHeader}
    {fileBytes : ℕ} (h : validHeader header key epoch fileBytes = true) :
    header.shardIndex = key.shard := by
  unfold validHeader at h
  simp only [Bool.and_eq_true, decide_eq_true_eq] at h
  exact h.1.1.1.1.1.1.2

theorem SegmentDecoder.open_shardIndex (h : SegmentDecoder.open disk key epoch = .ok d) :
    d.header.shardIndex = key.shard ∧ d.decoded = [] := by
  unfold SegmentDecoder.open at h
  split at h
  · cases h
  dsimp only at h
  split at h
  · cases h
  rename_i hvalid
  cases h
  rw [not_or] at hvalid
  exact ⟨shardIndex_of_validHeader (by simpa using hvalid.2), rfl⟩

/-- The first row of the segments of a shard is one of the shard. -/
theorem openRow_rowOf {k : ℕ} {keys rest : List SegmentKey} {row : BinaryMarketRecord}
    {d : SegmentDecoder} (hkeys : ∀ key ∈ keys, key.shard = k)
    (h : openRow X disk epoch sourceCount keys = .ok (some (row, d), rest)) :
    RowOf X k row ∧ d.header.shardIndex = k ∧ (∀ row ∈ d.decoded, RowOf X k row) ∧
      ∀ key ∈ rest, key.shard = k := by
  induction keys with
  | nil => cases h
  | cons key keys ih =>
    rw [openRow] at h
    split at h
    · cases h
    rename_i decoder hopen
    obtain ⟨hshard, hdecoded⟩ := open_shardIndex hopen
    split at h
    · cases h
    · rename_i hnext
      cases h
      obtain ⟨hrow, hd, hrows⟩ := next_rowOf (hshard.trans (hkeys key (by simp)))
        (by simp [hdecoded]) hnext
      exact ⟨hrow, hd, hrows, fun key hkey => hkeys key (by simp [hkey])⟩
    · exact ih (fun key hkey => hkeys key (by simp [hkey])) h

theorem ShardAt.pullRow {k : ℕ} {shard : CursorShard} (hshard : ShardAt X k shard)
    {rest : List SegmentKey} {row : BinaryMarketRecord} {d : SegmentDecoder}
    (h : pullRow X disk epoch sourceCount shard = .ok (some (row, d), rest)) :
    RowOf X k row ∧ d.header.shardIndex = k ∧ (∀ row ∈ d.decoded, RowOf X k row) ∧
      ∀ key ∈ rest, key.shard = k := by
  unfold Corpus.pullRow at h
  split at h
  · exact openRow_rowOf hshard.remaining h
  · rename_i decoder hdecoder
    obtain ⟨hk, hrows⟩ := hshard.decoder decoder hdecoder
    split at h
    · cases h
    · rename_i hnext
      cases h
      obtain ⟨hrow, hd, hdecoded⟩ := next_rowOf hk hrows hnext
      exact ⟨hrow, hd, hdecoded, hshard.remaining⟩
    · exact openRow_rowOf hshard.remaining h

/-- Refilling a shard keeps it at its position, and its head moves forward. -/
theorem ShardAt.fillHead {k : ℕ} {refilled : CursorShard} (hshard : ShardAt X k shard)
    (h : fillHead X disk epoch sourceCount shard = .ok refilled) :
    ShardAt X k refilled ∧ ∀ row new, shard.head = some row → refilled.head = some new →
      arrivalPosition row < arrivalPosition new := by
  unfold Corpus.fillHead at h
  split at h
  · cases h
  · rename_i hpull
    cases h
    have hrest := pullRow_none hpull
    refine ⟨⟨by simp [hrest], fun d hd => (by cases hd), fun row hrow => (by cases hrow)⟩, ?_⟩
    intro row new _ hnew
    cases hnew
  · rename_i row d rest hpull
    split at h
    · rename_i horder
      cases h
      obtain ⟨hrow, hd, hdecoded, hkeys⟩ := hshard.pullRow hpull
      refine ⟨⟨hkeys, ?_, ?_⟩, ?_⟩
      · intro _ hdecoder
        cases hdecoder
        exact ⟨hd, hdecoded⟩
      · intro _ hhead
        cases hhead
        exact ⟨hrow, rfl, rfl⟩
      · intro old _ hold hnew
        cases hnew
        obtain ⟨hold', hsequence, htime⟩ := hshard.head old hold
        -- A valid row has a sequence and a time, so the order was tested.
        have hheader := validHeader_of_valid hold'.valid
        rw [hsequence, htime] at horder
        simp only [rowInOrder, hheader.shardSequence_ne, hheader.receiveMonotonicNs_ne, ne_eq,
          not_false_eq_true, decide_true, Bool.true_and, Bool.not_eq_true', Bool.or_eq_false_iff,
          decide_eq_false_iff_not, not_le, not_lt] at horder
        simp only [arrivalPosition, Prod.Lex.toLex_lt_toLex, hold'.shardIndex, hrow.shardIndex,
          lt_self_iff_false, false_or, true_and]
        omega
    · cases h

/-- Every shard of the cursor is at its position. -/
def ShardsAt (X : Platform) (shards : List CursorShard) : Prop :=
  ∀ k shard, shards[k]? = some shard → ShardAt X k shard

theorem ShardsAt.set (h : ShardsAt X shards) (hshard : ShardAt X position shard) :
    ShardsAt X (shards.set position shard) := by
  intro k other hk
  rw [List.getElem?_set] at hk
  split at hk
  · rename_i heq
    split at hk
    · cases hk
      exact heq ▸ hshard
    · cases hk
  · exact h k other hk

theorem selectHead_le (h : selectHead shards = some (position, row)) {k : ℕ}
    {head : BinaryMarketRecord} (hhead : HeadAt shards k head) :
    arrivalPosition row ≤ arrivalPosition head := by
  obtain ⟨shard, hshard, hhead⟩ := hhead
  have hle := Merge.leastHead_le recordBefore_byKey h (m := k) (b := head)
    (by rw [List.getElem?_map, hshard, Option.map_some, hhead])
  simp only [arrivalKey, Prod.Lex.toLex_le_toLex] at hle
  simp only [arrivalPosition, Prod.Lex.toLex_le_toLex]
  omega

/-- A step keeps the shards at their positions, its row comes before every head after it, and no head
moves back. -/
theorem MergeStep.before_heads (h : MergeStep X disk s position row t) (hs : ShardsAt X s.shards) :
    ShardsAt X t.shards ∧ ∀ k head, HeadAt t.shards k head →
      arrivalPosition row < arrivalPosition head ∧
        ∃ old, HeadAt s.shards k old ∧ arrivalPosition old ≤ arrivalPosition head := by
  obtain ⟨shard, depthTransaction, _, _, refilled, hshard, hhead, -, -, -, hfill, rfl⟩ := h.spec
  have hat : ShardAt X position shard := hs position shard hshard
  have hadmitted : ShardAt X position { shard with depthTransaction } :=
    ⟨hat.remaining, hat.decoder, hat.head⟩
  obtain ⟨hrefilled, hforward⟩ := hadmitted.fillHead hfill
  refine ⟨hs.set hrefilled, fun k head hk => ?_⟩
  obtain ⟨other, hother, hotherHead⟩ := hk
  rw [List.getElem?_set] at hother
  split at hother
  · -- The shard of the row: its new head comes after the old one.
    rename_i heq
    subst heq
    split at hother
    · cases hother
      have hlt := hforward row head hhead hotherHead
      exact ⟨hlt, row, ⟨shard, hshard, hhead⟩, hlt.le⟩
    · cases hother
  · -- Another shard: its head was not before the row, and it is of another shard.
    rename_i hne
    refine ⟨lt_of_le_of_ne (selectHead_le h.selected ⟨other, hother, hotherHead⟩) fun heq => hne ?_,
      head, ⟨other, hother, hotherHead⟩, le_rfl⟩
    have hrow := (hat.head row hhead).1.shardIndex
    have hheadIndex := ((hs k other hother).head head hotherHead).1.shardIndex
    simp only [arrivalPosition, EmbeddingLike.apply_eq_iff_eq, Prod.mk.injEq] at heq
    rw [← hrow, ← hheadIndex]
    exact heq.2.1

/-- The rows that the second pass keeps are in arrival order, and none comes before the heads. -/
theorem Merges.sorted (h : Merges X disk q fuel p) (hp : ShardsAt X p.cursor.shards) :
    ∃ rows, q.rows = p.rows ++ rows ∧
      (rows.map Prod.fst).Pairwise (fun l r => arrivalPosition l < arrivalPosition r) ∧
      ∀ row ∈ rows, ∃ k head, HeadAt p.cursor.shards k head ∧
        arrivalPosition head ≤ arrivalPosition row.1 := by
  induction h with
  | leave => exact ⟨[], by simp, .nil, by simp⟩
  | @turn fuel p next position row hturn rest ih =>
    obtain ⟨hat, hheads⟩ := hturn.step.before_heads hp
    obtain ⟨rows, hrows, hsorted, hlower⟩ := ih hat
    -- The rows after this one come after heads that come after this one.
    have hlater : ∀ later ∈ rows, arrivalPosition row < arrivalPosition later.1 := by
      intro later hlater
      obtain ⟨k, head, hhead, hle⟩ := hlower later hlater
      exact (hheads k head hhead).1.trans_le hle
    have hold : ∀ later ∈ rows, ∃ k head, HeadAt p.cursor.shards k head ∧
        arrivalPosition head ≤ arrivalPosition later.1 := by
      intro later hlater
      obtain ⟨k, head, hhead, hle⟩ := hlower later hlater
      obtain ⟨-, old, holdHead, hle'⟩ := hheads k head hhead
      exact ⟨k, old, holdHead, hle'.trans hle⟩
    rcases hturn.kept with ⟨-, hkept, -⟩ | ⟨-, -, hkept, -⟩
    · exact ⟨rows, by rw [hrows, hkept], hsorted, hold⟩
    · refine ⟨(row, next.cursor.sourceState row) :: rows, ?_, ?_, ?_⟩
      · rw [hrows, hkept, List.append_assoc, List.singleton_append]
      · rw [List.map_cons, List.pairwise_cons]
        refine ⟨fun r hr => ?_, hsorted⟩
        obtain ⟨later, hmem, rfl⟩ := List.mem_map.mp hr
        exact hlater later hmem
      · intro r hr
        rcases List.mem_cons.mp hr with rfl | hr
        · exact ⟨position, row, selectHead_mem hturn.step.selected, le_rfl⟩
        · exact hold r hr

/-! ## The shards that `open` primes -/

/-- Every segment of the cursor is of its shard. -/
def SegmentsAt (shards : List CursorShard) : Prop :=
  ∀ (k : ℕ) (shard : CursorShard), shards[k]? = some shard → ∀ key ∈ shard.segments, key.shard = k

variable {m : BinaryMarketManifest} {index : List BinaryMarketIndexEntry} {segmentShards : ℕ → ℕ}

/-- A segment that passes joins its own shard. -/
theorem checkSegment_segmentsAt {p q : CorpusPass} {number : ℕ} (hp : SegmentsAt p.shards)
    (h : checkSegment X disk m sourceCount index segmentShards p number = .ok q) :
    SegmentsAt q.shards := by
  unfold checkSegment at h
  dsimp only at h
  split at h
  · cases h
  split at h
  · cases h
  split at h
  · cases h
  · cases h
  split at h
  · cases h
  cases h
  intro k shard hshard key hkey
  rw [List.getElem?_set] at hshard
  split at hshard
  · rename_i hk
    split at hshard
    · rename_i hlt
      cases hshard
      rcases List.mem_append.mp hkey with hkey | hkey
      · refine hp k _ ?_ key hkey
        rw [← hk, List.getD_eq_getElem?_getD, List.getElem?_eq_getElem hlt, Option.getD_some]
      · rw [List.mem_singleton.mp hkey]
        exact hk
    · cases hshard
  · exact hp k shard hshard key hkey

theorem checkSegments_segmentsAt {numbers : List ℕ} {p q : CorpusPass} (hp : SegmentsAt p.shards)
    (h : checkSegments X disk m sourceCount index segmentShards p numbers = .ok q) :
    SegmentsAt q.shards := by
  induction numbers generalizing p with
  | nil =>
    cases h
    exact hp
  | cons number numbers ih =>
    rw [checkSegments] at h
    split at h
    · cases h
    · rename_i next hnext
      exact ih (checkSegment_segmentsAt hp hnext) h

variable {sources : List BinaryMarketSource}

theorem checkCorpus_segmentsAt {gaps : List BinaryMarketGap} {p : CorpusPass}
    (h : checkCorpus X disk m sources index gaps segmentShards = .ok p) : SegmentsAt p.shards := by
  unfold checkCorpus at h
  split at h
  · cases h
  rename_i q hq
  split at h
  · cases h
  split at h
  · cases h
  cases h
  refine checkSegments_segmentsAt (fun k shard hshard key hkey => ?_) hq
  rw [List.getElem?_replicate] at hshard
  split at hshard
  · cases hshard
    cases hkey
  · cases hshard

/-- Priming the shards leaves each at its position. -/
theorem fillHeads_at {primed : List CursorShard} {first : ℕ}
    (hshards : ∀ k shard, shards[k]? = some shard → ShardAt X (first + k) shard)
    (h : fillHeads X disk epoch sourceCount shards = .ok primed) :
    ∀ k shard, primed[k]? = some shard → ShardAt X (first + k) shard := by
  induction shards generalizing primed first with
  | nil =>
    cases h
    intro k shard hshard
    cases hshard
  | cons shard shards ih =>
    rw [fillHeads] at h
    split at h
    · cases h
    rename_i filled hfilled
    split at h
    · cases h
    rename_i rest hrest
    cases h
    intro k other hother
    cases k with
    | zero =>
      cases hother
      exact ((hshards 0 shard rfl).fillHead hfilled).1
    | succ k =>
      have hstep : ∀ k shard, shards[k]? = some shard → ShardAt X (first + 1 + k) shard := by
        intro k shard hshard
        rw [Nat.add_assoc, Nat.add_comm 1 k]
        exact hshards (k + 1) shard hshard
      have hat := ih hstep hrest k other hother
      rwa [Nat.add_assoc, Nat.add_comm 1 k] at hat

variable {r : BinaryMarketSelectionRequest}

theorem primed_at {includedSources : ℕ → Bool} (hshards : SegmentsAt shards)
    (h : primed X disk (initialCursor r m sources includedSources shards) = .ok s) :
    ShardsAt X s.shards ∧ s.failed = false := by
  unfold primed at h
  split at h
  · cases h
  rename_i filled hfilled
  cases h
  refine ⟨fun k shard hshard => ?_, rfl⟩
  have hrewound : ∀ k shard, (shards.map rewound)[k]? = some shard → ShardAt X (0 + k) shard := by
    intro k shard hshard
    rw [List.getElem?_map, Option.map_eq_some_iff] at hshard
    obtain ⟨old, hold, rfl⟩ := hshard
    rw [Nat.zero_add]
    exact ⟨hshards k old hold, fun d hd => (by cases hd), fun row hrow => (by cases hrow)⟩
  have hat := fillHeads_at hrewound hfilled k shard hshard
  rwa [Nat.zero_add] at hat

/-! ## The masks -/

def orMasks (masks : List UInt16) : UInt16 := masks.foldr (· ||| ·) 0

/-- The union of what each row shows, for the rows of one source. -/
def sourceMask (rows : List (BinaryMarketRecord × BinaryMarketSourceState))
    (shows : BinaryMarketRecord × BinaryMarketSourceState → UInt16) (n : ℕ) : UInt16 :=
  orMasks ((rows.filter fun row => row.1.sourceId - 1 = n).map shows)

/-- What the masks of a selection should be for the rows that a cursor emits, each with the state of
its source right after it. -/
structure MasksOf (X : Platform) (rows : List (BinaryMarketRecord × BinaryMarketSourceState))
    (sourceCount : ℕ) (output : BinaryMarketSelection) : Prop where
  presentChannelMask :
    output.presentChannelMask = orMasks (rows.map fun row => presentChannels X row.1 row.2)
  sourcePresentChannelMasks : output.sourcePresentChannelMasks =
    (List.range sourceCount).map (sourceMask rows fun row => presentChannels X row.1 row.2)
  sourceObservedChannelMasks : output.sourceObservedChannelMasks =
    (List.range sourceCount).map (sourceMask rows fun row => observedChannels row.1)

/-- Or-ing what each row shows into the mask of its source gives the union for every source. -/
theorem foldl_modify_or (shows : BinaryMarketRecord × BinaryMarketSourceState → UInt16)
    (rows : List (BinaryMarketRecord × BinaryMarketSourceState)) (masks : List UInt16) :
    rows.foldl (fun masks row => masks.modify (row.1.sourceId - 1) (· ||| shows row)) masks =
      masks.mapIdx fun n mask => mask ||| sourceMask rows shows n := by
  induction rows generalizing masks with
  | nil =>
    apply List.ext_getElem?
    intro n
    simp [sourceMask, orMasks, List.getElem?_mapIdx]
  | cons row rows ih =>
    rw [List.foldl_cons, ih]
    apply List.ext_getElem?
    intro n
    simp only [List.getElem?_mapIdx, List.getElem?_modify]
    cases masks[n]? with
    | none => rfl
    | some mask =>
      simp only [Option.map_some, Option.map_eq_map, sourceMask, List.filter_cons]
      by_cases hn : row.1.sourceId - 1 = n
      · simp [hn, orMasks, UInt16.or_assoc]
      · simp [hn]

theorem noteRows_sourcePresent (X : Platform) (output : BinaryMarketSelection)
    (rows : List (BinaryMarketRecord × BinaryMarketSourceState)) :
    (noteRows X output rows).sourcePresentChannelMasks =
      output.sourcePresentChannelMasks.mapIdx fun n mask =>
        mask ||| sourceMask rows (fun row => presentChannels X row.1 row.2) n := by
  rw [← foldl_modify_or]
  induction rows generalizing output with
  | nil => rfl
  | cons row rows ih => exact ih _

theorem noteRows_sourceObserved (X : Platform) (output : BinaryMarketSelection)
    (rows : List (BinaryMarketRecord × BinaryMarketSourceState)) :
    (noteRows X output rows).sourceObservedChannelMasks =
      output.sourceObservedChannelMasks.mapIdx fun n mask =>
        mask ||| sourceMask rows (fun row => observedChannels row.1) n := by
  rw [← foldl_modify_or]
  induction rows generalizing output with
  | nil => rfl
  | cons row rows ih => exact ih _

theorem noteRows_present (X : Platform) (output : BinaryMarketSelection)
    (rows : List (BinaryMarketRecord × BinaryMarketSourceState)) :
    (noteRows X output rows).presentChannelMask =
      output.presentChannelMask ||| orMasks (rows.map fun row => presentChannels X row.1 row.2) := by
  induction rows generalizing output with
  | nil => simp [noteRows, orMasks]
  | cons row rows ih =>
    have hrest := ih (noteSelected X output row.1 row.2)
    simp only [noteRows, List.foldl_cons, List.map_cons, orMasks, List.foldr_cons] at hrest ⊢
    rw [hrest, noteSelected, UInt16.or_assoc]

theorem masksOf_noteRows {rows : List (BinaryMarketRecord × BinaryMarketSourceState)}
    {metadata : BinaryMarketSelection} (hmetadata : metadata.presentChannelMask = 0)
    (h : output.masks = (noteRows X (initialOutput metadata sources) rows).masks) :
    MasksOf X rows sources.length output := by
  simp only [BinaryMarketSelection.masks, Prod.mk.injEq, noteRows_present, noteRows_sourcePresent,
    noteRows_sourceObserved] at h
  obtain ⟨hpresent, hsource, hobserved⟩ := h
  have hzero : ∀ f : ℕ → UInt16, (List.replicate sources.length 0).mapIdx (fun n mask => mask ||| f n)
      = (List.range sources.length).map f := by
    intro f
    apply List.ext_getElem?
    intro n
    simp only [List.getElem?_mapIdx, List.getElem?_replicate, List.getElem?_map]
    split
    · rename_i hn
      simp [List.getElem?_range hn]
    · rename_i hn
      simp [List.getElem?_eq_none (l := List.range sources.length) (by simpa using hn)]
  refine ⟨?_, by rw [hsource]; exact hzero _, by rw [hobserved]; exact hzero _⟩
  rw [hpresent]
  simp [initialOutput, hmetadata]

/-! ## What `open` promises -/

theorem openPass_ok (h : openPass X disk r = .ok (s, p)) :
    ∃ metadata m sources includedSources shards cursor,
      metadata.presentChannelMask = 0 ∧ s = initialCursor r m sources includedSources shards ∧
      primed X disk s = .ok cursor ∧ ShardsAt X cursor.shards ∧ cursor.failed = false ∧
      Merges X disk p (cursor.rowBound disk + 1)
        { cursor, output := initialOutput metadata sources } := by
  obtain ⟨d, pass, hd, hpass, rfl, hq⟩ := openPass_eq_ok.mp h
  obtain ⟨-, -, hmask, -⟩ := openMetadata_ok hd
  unfold mergeCorpus at hq
  split at hq
  · cases hq
  rename_i cursor hcursor
  split at hq
  · cases hq
  rename_i outcome houtcome
  cases hq
  obtain ⟨hat, hfailed⟩ := primed_at (checkCorpus_segmentsAt hpass) hcursor
  exact ⟨d.output, _, d.sources, _, _, cursor, hmask, rfl, hcursor, hat, hfailed,
    merges_of_loop houtcome⟩

theorem primed_ok (h : primed X disk s = .ok t) : ∃ shards, t = { s with shards } := by
  unfold primed at h
  split at h
  · cases h
  · cases h
    exact ⟨_, rfl⟩

/-- What `open` returns if it succeeds: what the second pass noted, and the primed cursor. -/
theorem openCursor_ok {selection : BinaryMarketSelection} {cursor : CursorState}
    (h : openCursor X disk r = .ok (selection, cursor)) :
    ∃ s p, openPass X disk r = .ok (s, p) ∧ primed X disk s = .ok cursor ∧
      selection.masks = p.output.masks ∧ selection.atBegin = p.output.atBegin := by
  unfold openCursor at h
  split at h
  · cases h
  rename_i s p hpass
  unfold finishOpen at h
  split at h
  · cases h
  split at h
  · cases h
  dsimp only at h
  split at h
  · cases h
  rename_i primed hprimed
  cases h
  exact ⟨s, p, hpass, hprimed, rfl, rfl⟩

/-- Whatever the files hold, a cursor that opens emits the rows that passed the filter of `open`, in
strict arrival order, with every call of `next` returning `Ok`, and the masks of the selection are
those of the rows. A cursor that does not open yields no row. -/
theorem open_preflights_next (X : Platform) (disk : Disk CorpusFile)
    (r : BinaryMarketSelectionRequest) :
    (∀ selection cursor, openCursor X disk r = .ok (selection, cursor) →
      ∃ s p, openPass X disk r = .ok (s, p) ∧ Emits X disk cursor p.rows ∧
        (p.rows.map Prod.fst).Pairwise (fun l r => arrivalPosition l < arrivalPosition r) ∧
        MasksOf X p.rows cursor.sources.length selection) ∧
    (∀ failure, openCursor X disk r = .error failure →
      (nextRow X disk (cursorAfterOpen X disk r)).row = none ∧
        (nextRow X disk (cursorAfterOpen X disk r)).cursor = none) := by
  refine ⟨fun selection cursor h => ?_, fun failure h => ?_⟩
  · obtain ⟨s, p, hpass, hprimed, hmasks, -⟩ := openCursor_ok h
    obtain ⟨metadata, m, sources, includedSources, shards, first, hmetadata, rfl, hfirst, hat,
      hfailed, hmerges⟩ := openPass_ok hpass
    obtain rfl : first = cursor := Except.ok.inj (hfirst.symm.trans hprimed)
    obtain ⟨rows, hrows, hemits, hnoted⟩ := hmerges.emits hfailed
    obtain ⟨rows', hrows', hsorted, -⟩ := hmerges.sorted hat
    rw [List.nil_append] at hrows hrows'
    rw [← hrows'] at hsorted
    subst hrows
    refine ⟨_, p, hpass, hemits, hsorted, ?_⟩
    obtain ⟨_, rfl⟩ := primed_ok hprimed
    exact masksOf_noteRows hmetadata (hmasks.trans hnoted)
  · have hnone : cursorAfterOpen X disk r = none := by
      delta cursorAfterOpen
      rw [h]
    rw [hnone]
    exact ⟨rfl, rfl⟩

/-! ## A corpus whose clocks disagree -/

/-- The rows that the merge takes from a cursor on, in its order, with a bound on their number. -/
def mergedRows (X : Platform) (disk : Disk CorpusFile) : ℕ → CursorState → List BinaryMarketRecord
  | 0, _ => []
  | fuel + 1, s =>
    match selectHead s.shards with
    | none => []
    | some (position, row) =>
      match admitRow X s position row with
      | .error _ => []
      | .ok t =>
        match refill X disk t position with
        | .error _ => []
        | .ok t => row :: mergedRows X disk fuel t

/-- A stale book ticker, received at time 15. -/
def staleRow : BinaryMarketRecord := ⟨(smallRecord 1 15 1 0).toRaw.set 92 2 1 (by norm_num)⟩

/-- A corpus with the stale book ticker and then, on the monotonic clock, one received at time 5. -/
def disagreeingClocks : Disk CorpusFile :=
  (runState .stored smallStart
    [.append staleRow, .append (smallRecord 2 5 2 0), .finalize .requested 20 1]).disk

def lateRequest : BinaryMarketSelectionRequest where
  root := "corpus"
  beginReceiveNs := 10
  endReceiveNs := 20
  channelMask := 255
  allSources := true

set_option maxRecDepth 100000 in
theorem disagreeingClocks_opens :
    (openCursor .stored disagreeingClocks lateRequest).toOption.map (fun result => decide
      (result.1.sourceObservedChannelMasks = [1] ∧
        result.1.sourceUnhealthyChannelMasksAtBegin = [1] ∧ result.2.sources = [smallSource] ∧
        mergedRows .stored disagreeingClocks (result.2.rowBound disagreeingClocks + 1) result.2 =
          [staleRow, smallRecord 2 5 2 0])) = some true := by
  decide +kernel

/-- The corpus opens for the request, with one channel observed and unhealthy at the begin. -/
theorem exists_disagreeingClocks_open :
    ∃ selection cursor, openCursor .stored disagreeingClocks lateRequest = .ok (selection, cursor) ∧
      selection.sourceObservedChannelMasks = [1] ∧
      selection.sourceUnhealthyChannelMasksAtBegin = [1] ∧ cursor.sources = [smallSource] ∧
      mergedRows .stored disagreeingClocks (cursor.rowBound disagreeingClocks + 1) cursor =
        [staleRow, smallRecord 2 5 2 0] := by
  have heval := disagreeingClocks_opens
  rcases hopen : openCursor .stored disagreeingClocks lateRequest with failure | ⟨selection, cursor⟩
  · rw [hopen] at heval
    cases heval
  · rw [hopen] at heval
    exact ⟨selection, cursor, rfl, of_decide_eq_true (Option.some.inj heval)⟩

/-- The stale row is in the interval, and `next` emits it. -/
theorem open_preflights_next_stale :
    ∃ selection cursor rows,
      openCursor .stored disagreeingClocks lateRequest = .ok (selection, cursor) ∧ rows ≠ [] ∧
        Emits .stored disagreeingClocks cursor rows := by
  obtain ⟨selection, cursor, hopen, hobserved, -, hsources, -⟩ := exists_disagreeingClocks_open
  obtain ⟨s, p, -, hemits, -, hmasks⟩ := (open_preflights_next .stored _ _).1 selection cursor hopen
  refine ⟨selection, cursor, p.rows, hopen, fun hnone => ?_, hemits⟩
  -- Without a row no channel would have been observed.
  rw [hmasks.sourceObservedChannelMasks, hnone, hsources] at hobserved
  cases hobserved

end HftRecorder.Corpus
