import HftRecorder.Lib.Merge
import HftRecorder.Reader.Cursor

/-!
# Opening a cursor and reading rows

`BinaryMarketCorpusCursor::open` and `BinaryMarketCorpusCursor::next`. Both merge the shards: the row
with the smallest arrival position goes first, it moves the depth transaction of its shard and the
state of its source, and its shard gets its next row. `open` does so for the whole corpus and keeps
the metadata of the selected rows, and `next` does so up to the next selected row. `MergePass.rows`
is not in the code: it lists the rows that pass the filter of `open`, each with the state of its
source right after it.
-/

namespace HftRecorder.Corpus

open ByteLayout Codec BinaryMarketChannel Loop

/-! ## Merging -/

/-- `recordBefore`. -/
def recordBefore (l r : BinaryMarketRecord) : Bool :=
  if l.receiveMonotonicNs ≠ r.receiveMonotonicNs then l.receiveMonotonicNs < r.receiveMonotonicNs
  else if l.shardIndex ≠ r.shardIndex then l.shardIndex < r.shardIndex
  else if l.shardSequence ≠ r.shardSequence then l.shardSequence < r.shardSequence
  else if l.receiveRealtimeNs ≠ r.receiveRealtimeNs then l.receiveRealtimeNs < r.receiveRealtimeNs
  else if l.frameSequence ≠ r.frameSequence then l.frameSequence < r.frameSequence
  else if l.eventOrdinal ≠ r.eventOrdinal then l.eventOrdinal < r.eventOrdinal
  else l.eventSequence < r.eventSequence

/-- The loop over the shards that finds the head to go first: its shard's position and the row. -/
def selectHead (shards : List CursorShard) : Option (ℕ × BinaryMarketRecord) :=
  Merge.leastHead recordBefore (shards.map CursorShard.head)

/-- Why a merged row is refused. -/
inductive MergeRefusal
  | depthTransaction
  | sourceState
  deriving DecidableEq, Repr

/-- Move the depth transaction of the row's shard and the state of its source. -/
def admitRow (X : Platform) (s : CursorState) (position : ℕ) (row : BinaryMarketRecord) :
    Except MergeRefusal CursorState :=
  let shard := s.shards.getD position {}
  match advanceBinaryMarketDepthTransaction X row shard.depthTransaction with
  | none => .error .depthTransaction
  | some depthTransaction =>
    -- A decoded row is of a catalogued source, which has a state.
    match s.sourceStates[row.sourceId - 1]? with
    | none => .error .sourceState
    | some state =>
      match advanceBinaryMarketSourceState row state
          (binaryMarketDepthRecordIsNativeRebaseSnapshot X row) with
      | none => .error .sourceState
      | some state =>
        .ok { s with
          shards := s.shards.set position { shard with depthTransaction }
          sourceStates := s.sourceStates.set (row.sourceId - 1) state }

/-- Get the next row of the shard at a position. -/
def refill (X : Platform) (disk : Disk CorpusFile) (s : CursorState) (position : ℕ) :
    Except String CursorState :=
  match fillHead X disk s.manifest.producerEpoch s.sources.length (s.shards.getD position {}) with
  | .error e => .error e
  | .ok shard => .ok { s with shards := s.shards.set position shard }

/-- The filter of `open` and `next`. -/
def rowSelected (r : BinaryMarketSelectionRequest) (includedSources : ℕ → Bool)
    (row : BinaryMarketRecord) : Bool :=
  includedSources row.sourceId &&
    (row.channel = sourceLifecycle || r.channelMask &&& binaryMarketChannelBit row.channel ≠ 0) &&
    r.beginReceiveNs.toInt ≤ row.receiveRealtimeNs && row.receiveRealtimeNs < r.endReceiveNs.toInt

/-- A bound on the rows that the cursor has left. -/
def CursorState.rowBound (disk : Disk CorpusFile) (s : CursorState) : ℕ :=
  (s.shards.map (CursorShard.rowBound disk)).sum

/-! ## The second pass of `open` -/

def CursorState.sourceState (s : CursorState) (row : BinaryMarketRecord) : BinaryMarketSourceState :=
  s.sourceStates.getD (row.sourceId - 1) (initialBinaryMarketSourceState ⟨Raw.ofBytes 272 []⟩)

/-- What `open` keeps of a source's state after a row before the selected interval. -/
def noteBeforeBegin (output : BinaryMarketSelection) (row : BinaryMarketRecord)
    (state : BinaryMarketSourceState) : BinaryMarketSelection :=
  let n := row.sourceId - 1
  { output with
    sourcesAtBegin := output.sourcesAtBegin.set n (effectiveBinaryMarketSource state)
    sourceLifecycleRevisionsAtBegin :=
      output.sourceLifecycleRevisionsAtBegin.set n state.directoryRevision
    sourceUnhealthyChannelMasksAtBegin :=
      output.sourceUnhealthyChannelMasksAtBegin.set n state.unhealthyMask
    sourceAdministrativeUnhealthyChannelMasksAtBegin :=
      output.sourceAdministrativeUnhealthyChannelMasksAtBegin.set n
        state.administrativeUnhealthyMask
    sourceRecoveryPendingChannelMasksAtBegin :=
      output.sourceRecoveryPendingChannelMasksAtBegin.set n state.recoveryPendingMask }

/-- The channels that a row shows as observed for its source. -/
def observedChannels (row : BinaryMarketRecord) : UInt16 :=
  (if row.channel = sourceLifecycle ∧ row.lifecyclePayload.cause ≠ .subscription then
      binaryMarketChannelBit (.ofCode row.lifecyclePayload.affectedChannel)
    else 0) |||
  (if binaryMarketRecordIsSourceHealth row || row.hasFlag recordTraderReplayCompatible then
      binaryMarketChannelBit row.channel
    else 0)

/-- `readyDepth`: a row of the depth channel shows a usable book. -/
def readyDepth (X : Platform) (row : BinaryMarketRecord) (state : BinaryMarketSourceState) : Bool :=
  if row.channel = depth then
    !row.hasFlag recordDepthCoverage &&
      state.unhealthyMask &&& binaryMarketChannelBit row.channel = 0 &&
      (row.depthChunkPayload.state = .healthy || row.depthChunkPayload.state = .partialDepth ||
        binaryMarketDepthRecordIsNativeRebaseSnapshot X row)
  else true

/-- The channel that a row shows as present. -/
def presentChannels (X : Platform) (row : BinaryMarketRecord) (state : BinaryMarketSourceState) :
    UInt16 :=
  if !binaryMarketRecordIsSourceHealth row && row.hasFlag recordTraderReplayCompatible &&
      readyDepth X row state then binaryMarketChannelBit row.channel
  else 0

/-- What `open` keeps of a selected row, given the state of its source after it. -/
def noteSelected (X : Platform) (output : BinaryMarketSelection) (row : BinaryMarketRecord)
    (state : BinaryMarketSourceState) : BinaryMarketSelection :=
  let n := row.sourceId - 1
  { output with
    sourceObservedChannelMasks :=
      output.sourceObservedChannelMasks.modify n (· ||| observedChannels row)
    presentChannelMask := output.presentChannelMask ||| presentChannels X row state
    sourcePresentChannelMasks :=
      output.sourcePresentChannelMasks.modify n (· ||| presentChannels X row state) }

/-- The variables of the second pass. -/
structure MergePass where
  cursor : CursorState
  output : BinaryMarketSelection
  generation : ℕ := 0
  rows : List (BinaryMarketRecord × BinaryMarketSourceState) := []

/-- The part of the second pass's body for a row that passes the filter. -/
def passSelected (X : Platform) (named : Bool) (p : MergePass) (row : BinaryMarketRecord) :
    Except OpenFailure MergePass :=
  let state := p.cursor.sourceState row
  let output := noteSelected X p.output row state
  if row.hasFlag recordGapBoundary then
    .error ⟨.corruptData, "selected binary corpus interval contains capture loss", p.output⟩
  else if p.cursor.request.requireTraderReplayCompatibility && !binaryMarketRecordIsSourceHealth row
      && !row.hasFlag recordTraderReplayCompatible then
    .error ⟨.unimplemented, "selected binary corpus record is not trader-replay compatible", output⟩
  else
    .ok { p with
      output
      generation := if named && p.generation = 0 then row.sourceGeneration else p.generation
      rows := p.rows ++ [(row, state)] }

/-- The body of the loop of the second pass. -/
def mergeRound (X : Platform) (disk : Disk CorpusFile) (named : Bool) (p : MergePass) :
    Except OpenFailure (Round MergePass MergePass) :=
  match selectHead p.cursor.shards with
  | none => .ok (.leave p)
  | some (position, row) =>
    match admitRow X p.cursor position row with
    | .error .depthTransaction =>
      .error ⟨.corruptData, "binary corpus incomplete depth transaction", p.output⟩
    | .error .sourceState =>
      .error ⟨.corruptData, "binary corpus membership/generation boundary mismatch", p.output⟩
    | .ok cursor =>
      let output :=
        if row.receiveRealtimeNs < cursor.request.beginReceiveNs.toInt then
          noteBeforeBegin p.output row (cursor.sourceState row)
        else p.output
      match refill X disk cursor position with
      | .error e => .error ⟨.corruptData, e, output⟩
      | .ok cursor =>
        if rowSelected cursor.request cursor.includedSources row then
          match passSelected X named { p with cursor, output } row with
          | .error failure => .error failure
          | .ok p => .ok (.again p)
        else .ok (.again { p with cursor, output })

/-! ## `open` -/

def rewound (shard : CursorShard) : CursorShard :=
  { segments := shard.segments, remaining := shard.segments }

/-- The cursor before its shards are primed. -/
def initialCursor (r : BinaryMarketSelectionRequest) (m : BinaryMarketManifest)
    (sources : List BinaryMarketSource) (includedSources : ℕ → Bool) (shards : List CursorShard) :
    CursorState where
  request := r
  manifest := m
  sources := sources
  sourceStates := sources.map initialBinaryMarketSourceState
  shards := shards.map rewound
  includedSources := includedSources

def initialOutput (output : BinaryMarketSelection) (sources : List BinaryMarketSource) :
    BinaryMarketSelection :=
  { output with
    sourcePresentChannelMasks := List.replicate sources.length 0
    sourceObservedChannelMasks := List.replicate sources.length 0
    sourcesAtBegin := sources.map fun source =>
      effectiveBinaryMarketSource (initialBinaryMarketSourceState source)
    sourceLifecycleRevisionsAtBegin := List.replicate sources.length 0
    sourceUnhealthyChannelMasksAtBegin := List.replicate sources.length 0
    sourceAdministrativeUnhealthyChannelMasksAtBegin := List.replicate sources.length 0
    sourceRecoveryPendingChannelMasksAtBegin := List.replicate sources.length 0 }

def primed (X : Platform) (disk : Disk CorpusFile) (s : CursorState) : Except String CursorState :=
  match fillHeads X disk s.manifest.producerEpoch s.sources.length s.shards with
  | .error e => .error e
  | .ok shards => .ok { s with shards }

/-- The second pass: merge the whole corpus. -/
def mergeCorpus (X : Platform) (disk : Disk CorpusFile) (named : Bool) (s : CursorState)
    (output : BinaryMarketSelection) : Except OpenFailure MergePass :=
  match primed X disk s with
  | .error e => .error ⟨.corruptData, e, output⟩
  | .ok cursor =>
    match loop (mergeRound X disk named) (cursor.rowBound disk + 1) { cursor, output } with
    | none => .error ⟨.corruptData, "", output⟩
    | some outcome => outcome

/-- The end of `open`: the tests after the second pass, and the cursor primed anew. -/
def finishOpen (X : Platform) (disk : Disk CorpusFile) (s : CursorState) (p : MergePass) :
    Except OpenFailure (BinaryMarketSelection × CursorState) :=
  if p.cursor.shards.any fun shard => shard.depthTransaction.active then
    .error ⟨.corruptData, "sealed corpus ends inside depth transaction", p.output⟩
  else if s.request.requiredChannelMask &&& ~~~p.output.presentChannelMask ≠ 0 then
    .error ⟨.outOfRange, "selected binary corpus interval lacks required channel data", p.output⟩
  else
    let output := { p.output with sourceGeneration := p.generation }
    match primed X disk s with
    | .error e => .error ⟨.corruptData, e, output⟩
    | .ok cursor => .ok (output, cursor)

/-- What `open` knows once the metadata has passed. -/
structure OpenedMetadata where
  output : BinaryMarketSelection
  sources : List BinaryMarketSource
  selection : SelectedSources
  index : List BinaryMarketIndexEntry
  gaps : List BinaryMarketGap
  totals : IndexTotals

/-- The part of `open` that reads and checks the index and the gaps. -/
def openTables (disk : Disk CorpusFile) (r : BinaryMarketSelectionRequest)
    (output : BinaryMarketSelection) (sources : List BinaryMarketSource)
    (selection : SelectedSources) : Except OpenFailure OpenedMetadata :=
  let m := output.manifest
  -- The header of a table has the count of the manifest, which the code tests once more.
  match readTable disk r.root .index kBinaryMarketIndexMagic m.indexCrc32c m.maximumBytes
      m.indexCount with
  | .error e => .error ⟨.corruptData, e, output⟩
  | .ok (index : List BinaryMarketIndexEntry) =>
    match readTable disk r.root .gaps kBinaryMarketGapsMagic m.gapsCrc32c m.maximumBytes
        m.gapCount with
    | .error e => .error ⟨.corruptData, e, output⟩
    | .ok (gaps : List BinaryMarketGap) =>
      match checkIndex m sources index with
      | .error e => .error ⟨.corruptData, e, output⟩
      | .ok totals =>
        match selectGaps m sources r selection.includedSources [] gaps with
        | .error (e, found) => .error ⟨.corruptData, e, { output with gaps := found }⟩
        | .ok [] => .ok { output, sources, selection, index, gaps, totals }
        | .ok found =>
          .error ⟨.corruptData, "selected binary corpus interval contains capture gaps",
            { output with gaps := found }⟩

/-- The part of `open` that reads and checks the metadata. -/
def openMetadata (disk : Disk CorpusFile) (r : BinaryMarketSelectionRequest) :
    Except OpenFailure OpenedMetadata :=
  if !validSelectionRequest r then .error ⟨.invalidArgument, "invalid binary corpus selection", {}⟩
  else
    match catalog disk r.root with
    | .error (e, manifest) => .error ⟨.corruptData, e, { manifest }⟩
    | .ok (manifest, sources) =>
      if r.beginReceiveNs.toInt < manifest.startedReceiveNs ∨
          r.endReceiveNs.toInt > manifest.finalizedReceiveNs then
        .error ⟨.outOfRange, "selected receive interval is outside sealed capture coverage",
          { manifest }⟩
      else
        match selectSources r sources with
        | .error (status, e) => .error ⟨status, e, { manifest }⟩
        | .ok selection =>
          let output : BinaryMarketSelection := match selection.selected with
            | some source => { manifest, source }
            | none => { manifest }
          openTables disk r output sources selection

/-- `open` up to the end of the second pass: the cursor before its shards are primed, and what the
pass found. -/
def openPass (X : Platform) (disk : Disk CorpusFile) (r : BinaryMarketSelectionRequest) :
    Except OpenFailure (CursorState × MergePass) :=
  match openMetadata disk r with
  | .error failure => .error failure
  | .ok d =>
    let output := initialOutput d.output d.sources
    match checkCorpus X disk d.output.manifest d.sources d.index d.gaps d.totals.segmentShards with
    | .error e => .error ⟨.corruptData, e, output⟩
    | .ok pass =>
      let s := initialCursor r d.output.manifest d.sources d.selection.includedSources pass.shards
      match mergeCorpus X disk d.selection.selected.isSome s output with
      | .error failure => .error failure
      | .ok p => .ok (s, p)

/-- `BinaryMarketCorpusCursor::open`: the selection's metadata and the cursor before its first
row. -/
def openCursor (X : Platform) (disk : Disk CorpusFile) (r : BinaryMarketSelectionRequest) :
    Except OpenFailure (BinaryMarketSelection × CursorState) :=
  match openPass X disk r with
  | .error failure => .error failure
  | .ok (s, p) => finishOpen X disk s p

section Opened

variable {X : Platform} {disk : Disk CorpusFile} {r : BinaryMarketSelectionRequest}
  {d : OpenedMetadata}

/-- When the index and the gaps are read and pass. -/
theorem openTables_eq_ok {output : BinaryMarketSelection} {sources : List BinaryMarketSource}
    {selection : SelectedSources} :
    openTables disk r output sources selection = .ok d ↔
      readTable disk r.root .index kBinaryMarketIndexMagic output.manifest.indexCrc32c
        output.manifest.maximumBytes output.manifest.indexCount = .ok d.index ∧
      readTable disk r.root .gaps kBinaryMarketGapsMagic output.manifest.gapsCrc32c
        output.manifest.maximumBytes output.manifest.gapCount = .ok d.gaps ∧
      checkIndex output.manifest sources d.index = .ok d.totals ∧
      selectGaps output.manifest sources r selection.includedSources [] d.gaps = .ok [] ∧
      d.output = output ∧ d.sources = sources ∧ d.selection = selection := by
  constructor
  · intro h
    unfold openTables at h
    dsimp only at h
    repeat' split at h
    all_goals cases h
    exact ⟨‹_›, ‹_›, ‹_›, ‹_›, rfl, rfl, rfl⟩
  · rintro ⟨hindex, hgaps, htotals, hselected, rfl, rfl, rfl⟩
    simp only [openTables, hindex, hgaps, htotals, hselected]

/-- What `open` has read once the metadata passes. The selection depends on the catalogue alone. -/
theorem openMetadata_ok (h : openMetadata disk r = .ok d) :
    catalog disk r.root = .ok (d.output.manifest, d.sources) ∧
      selectSources r d.sources = .ok d.selection ∧ d.output.presentChannelMask = 0 ∧
      openTables disk r d.output d.sources d.selection = .ok d ∧
      ∀ disk', catalog disk' r.root = catalog disk r.root →
        openMetadata disk' r = openTables disk' r d.output d.sources d.selection := by
  unfold openMetadata at h
  split at h
  · cases h
  rename_i hrequest
  split at h
  · cases h
  rename_i m sources hcatalog
  split at h
  · cases h
  rename_i hinterval
  split at h
  · cases h
  rename_i selection hselection
  obtain ⟨-, -, -, -, houtput, rfl, rfl⟩ := openTables_eq_ok.mp h
  rw [← houtput] at h
  have hm : d.output.manifest = m ∧ d.output.presentChannelMask = 0 := by
    rw [houtput]
    split <;> exact ⟨rfl, rfl⟩
  obtain ⟨rfl, hmask⟩ := hm
  refine ⟨hcatalog, hselection, hmask, h, fun disk' hsame => ?_⟩
  rw [openMetadata, if_neg hrequest, hsame, hcatalog]
  dsimp only
  rw [if_neg hinterval, hselection]
  dsimp only
  rw [← houtput]

/-- When the two passes of `open` succeed. -/
theorem openPass_eq_ok {s : CursorState} {p : MergePass} :
    openPass X disk r = .ok (s, p) ↔ ∃ d pass, openMetadata disk r = .ok d ∧
      checkCorpus X disk d.output.manifest d.sources d.index d.gaps d.totals.segmentShards =
        .ok pass ∧
      s = initialCursor r d.output.manifest d.sources d.selection.includedSources pass.shards ∧
      mergeCorpus X disk d.selection.selected.isSome s (initialOutput d.output d.sources) =
        .ok p := by
  unfold openPass
  grind

end Opened

/-- What the cursor holds after `open`: nothing if it failed. -/
def cursorAfterOpen (X : Platform) (disk : Disk CorpusFile) (r : BinaryMarketSelectionRequest) :
    Option CursorState :=
  match openCursor X disk r with
  | .error _ => none
  | .ok (_, cursor) => some cursor

/-! ## `next` -/

/-- The body of the loop of `next`. It leaves with the next selected row, or with none once the
shards are exhausted. -/
def nextRound (X : Platform) (disk : Disk CorpusFile) (s : CursorState) :
    Except String (Round CursorState (Option BinaryMarketRecord × CursorState)) :=
  match selectHead s.shards with
  | none => .ok (.leave (none, s))
  | some (position, row) =>
    match admitRow X s position row with
    | .error .depthTransaction => .error "binary corpus changed depth transaction"
    | .error .sourceState => .error "binary corpus changed membership/generation boundary"
    | .ok s =>
      match refill X disk s position with
      | .error e => .error e
      | .ok s =>
        if rowSelected s.request s.includedSources row then
          if row.hasFlag recordGapBoundary || (s.request.requireTraderReplayCompatibility &&
              !binaryMarketRecordIsSourceHealth row && !row.hasFlag recordTraderReplayCompatible) then
            .error "selected corpus changed to missing or incompatible records"
          else .ok (.leave (some row, s))
        else .ok (.again s)

/-- What a call of `next` returns: the status, the row if one is available, the message, and the
cursor after it. -/
structure NextResult where
  status : Status
  row : Option BinaryMarketRecord
  error : String
  cursor : Option CursorState

/-- `BinaryMarketCorpusCursor::next`. A cursor that was never opened, or whose `open` failed, has no
state. -/
def nextRow (X : Platform) (disk : Disk CorpusFile) : Option CursorState → NextResult
  | none => ⟨.invalidArgument, none, "", none⟩
  | some s =>
    if s.failed then ⟨.invalidArgument, none, "", some s⟩
    else
      match loop (nextRound X disk) (s.rowBound disk + 1) s with
      | none => ⟨.corruptData, none, "", some { s with failed := true }⟩
      | some (.error e) => ⟨.corruptData, none, e, some { s with failed := true }⟩
      | some (.ok (row, s)) => ⟨.ok, row, "", some s⟩

end HftRecorder.Corpus
