import HftRecorder.Reader.Tamper

/-!
# The state of each source at the begin of the interval

`open` merges the whole corpus in arrival order, which follows the monotonic clock, and keeps the state
of a row's source whenever the row was received before `beginReceiveNs` on the realtime clock. So what
is left in the end is the state after the source's rows up to its last one before the begin, and where
the clocks disagree there are rows from after the begin among them. `Merges.atBegin` follows a source
through the second pass.
-/

namespace HftRecorder.Corpus

variable {X : Platform} {disk : Disk CorpusFile} {s t : CursorState} {position : ℕ}
  {row : BinaryMarketRecord}

/-! ## The rows of a source -/

/-- The rows of one source, counted from 0, that a cursor has left. -/
def sourceRows (X : Platform) (disk : Disk CorpusFile) (s : CursorState) (n : ℕ) :
    List BinaryMarketRecord :=
  (mergedRows X disk (s.rowBound disk + 1) s).filter fun row => row.sourceId - 1 = n

/-- A row was received before the interval. -/
def beforeBegin (r : BinaryMarketSelectionRequest) (row : BinaryMarketRecord) : Bool :=
  row.receiveRealtimeNs < r.beginReceiveNs.toInt

/-- The part of a list up to the last entry with a property, which is empty if there is none. -/
def upToLast {α : Type} (p : α → Bool) : List α → List α
  | [] => []
  | a :: l => if p a || l.any p then a :: upToLast p l else []

/-- The state of a source after rows of it, as the reader advances it. -/
def readState (X : Platform) (state : BinaryMarketSourceState) (rows : List BinaryMarketRecord) :
    Option BinaryMarketSourceState :=
  runSourceState (binaryMarketDepthRecordIsNativeRebaseSnapshot X) state rows

/-- The entries that a selection has for a source in a state. -/
def entriesOf (state : Option BinaryMarketSourceState) :
    Option BinaryMarketSource × Option ℕ × Option UInt16 × Option UInt16 × Option UInt16 :=
  (state.map effectiveBinaryMarketSource, state.map (·.directoryRevision),
    state.map (·.unhealthyMask), state.map (·.administrativeUnhealthyMask),
    state.map (·.recoveryPendingMask))

/-- The cursor before the first row of a corpus whose metadata and segments pass. It does not depend on
the second pass. -/
def corpusStart (X : Platform) (disk : Disk CorpusFile) (r : BinaryMarketSelectionRequest) :
    Option CursorState :=
  match openMetadata disk r with
  | .error _ => none
  | .ok d =>
    match checkCorpus X disk d.output.manifest d.sources d.index d.gaps d.totals.segmentShards with
    | .error _ => none
    | .ok pass =>
      (primed X disk (initialCursor r d.output.manifest d.sources d.selection.includedSources
        pass.shards)).toOption

/-- The sources of a corpus. -/
def corpusSources (X : Platform) (disk : Disk CorpusFile) (r : BinaryMarketSelectionRequest) :
    List BinaryMarketSource :=
  ((corpusStart X disk r).map (·.sources)).getD []

/-- The rows of one source of a corpus, in merge order. -/
def corpusRows (X : Platform) (disk : Disk CorpusFile) (r : BinaryMarketSelectionRequest) (n : ℕ) :
    List BinaryMarketRecord :=
  ((corpusStart X disk r).map fun s => sourceRows X disk s n).getD []

/-- Where `open` succeeds, the entries of every source at the begin are those of its initial state
advanced over its rows from before the begin, in merge order. -/
def hydratedAtBegin (X : Platform) (disk : Disk CorpusFile) (r : BinaryMarketSelectionRequest) :
    Bool :=
  match openCursor X disk r with
  | .error _ => true
  | .ok (selection, _) => (corpusSources X disk r).zipIdx.all fun (source, n) =>
    selection.atBegin n = entriesOf (readState X (initialBinaryMarketSourceState source)
      ((corpusRows X disk r n).filter (beforeBegin r)))

/-- Among the rows of every source up to its last one from before the begin, those from after the
begin leave no trace in its state. -/
def lateRowsLeaveNoTrace (X : Platform) (disk : Disk CorpusFile)
    (r : BinaryMarketSelectionRequest) : Prop :=
  ∀ n source, (corpusSources X disk r)[n]? = some source →
    entriesOf (readState X (initialBinaryMarketSourceState source)
        (upToLast (beforeBegin r) (corpusRows X disk r n))) =
      entriesOf (readState X (initialBinaryMarketSourceState source)
        ((upToLast (beforeBegin r) (corpusRows X disk r n)).filter (beforeBegin r)))

/-- The clocks agree on which rows of a source are from before the begin: none from after it comes
before one of them. -/
def clocksAgreeAtBegin (X : Platform) (disk : Disk CorpusFile)
    (r : BinaryMarketSelectionRequest) : Prop :=
  ∀ n, (corpusRows X disk r n).Pairwise fun earlier later =>
    beforeBegin r later = true → beforeBegin r earlier = true

/-! ## A source through the second pass -/

theorem MergeStep.mergedRows (h : MergeStep X disk s position row t) (fuel : ℕ) :
    mergedRows X disk (fuel + 1) s = row :: mergedRows X disk fuel t := by
  obtain ⟨u, hu, ht⟩ := h.admitted
  simp only [Corpus.mergedRows, h.selected, hu, ht]

theorem readState_cons {state next : BinaryMarketSourceState}
    (h : advanceBinaryMarketSourceState row state
      (binaryMarketDepthRecordIsNativeRebaseSnapshot X row) = some next)
    (rows : List BinaryMarketRecord) : readState X state (row :: rows) = readState X next rows := by
  simp only [readState, runSourceState, h]

variable {α : Type}

theorem upToLast_of_none {p : α → Bool} {l : List α} (h : l.any p = false) : upToLast p l = [] := by
  cases l with
  | nil => rfl
  | cons a l => rw [upToLast, ← List.any_cons, h, if_neg Bool.false_ne_true]

theorem filter_upToLast (p : α → Bool) (l : List α) : (upToLast p l).filter p = l.filter p := by
  induction l with
  | nil => rfl
  | cons a l ih =>
    rw [upToLast]
    split
    · rw [List.filter_cons, List.filter_cons, ih]
    · rename_i hnone
      have hany : (a :: l).any p = false := by simpa using hnone
      rw [List.filter_nil, List.filter_eq_nil_iff.mpr (by simpa using hany)]

/-- Where the entries with the property come first, they are the part up to the last of them. -/
theorem upToLast_eq_filter {p : α → Bool} {l : List α}
    (h : l.Pairwise fun a b => p b = true → p a = true) : upToLast p l = l.filter p := by
  induction h with
  | nil => rfl
  | @cons a l hfirst hrest ih =>
    by_cases ha : p a = true
    · rw [upToLast, if_pos (by simp [ha]), ih, List.filter_cons_of_pos ha]
    · have hnone : l.any p = false :=
        List.any_eq_false.mpr fun b hb hpb => ha (hfirst b hb hpb)
      rw [upToLast, if_neg (by simp [ha, hnone]), List.filter_cons_of_neg ha,
        ← filter_upToLast p l, upToLast_of_none hnone, List.filter_nil]

variable {kept : BinaryMarketSourceState}

theorem atBegin_noteBeforeBegin {output : BinaryMarketSelection}
    (h : output.atBegin (row.sourceId - 1) = entriesOf (some kept))
    (state : BinaryMarketSourceState) :
    (noteBeforeBegin output row state).atBegin (row.sourceId - 1) = entriesOf (some state) := by
  simp only [BinaryMarketSelection.atBegin, entriesOf, Prod.mk.injEq, Option.map_some,
    List.getElem?_eq_some_iff] at h
  obtain ⟨⟨h₁, -⟩, ⟨h₂, -⟩, ⟨h₃, -⟩, ⟨h₄, -⟩, h₅, -⟩ := h
  simp only [BinaryMarketSelection.atBegin, noteBeforeBegin, entriesOf, Option.map_some,
    List.getElem?_set_self, h₁, h₂, h₃, h₄, h₅]

theorem atBegin_noteBeforeBegin_ne (output : BinaryMarketSelection) {n : ℕ}
    (h : row.sourceId - 1 ≠ n) (state : BinaryMarketSourceState) :
    (noteBeforeBegin output row state).atBegin n = output.atBegin n := by
  simp only [BinaryMarketSelection.atBegin, noteBeforeBegin, List.getElem?_set_ne h]

theorem noted_cons (p : BinaryMarketRecord → Bool) {state next : BinaryMarketSourceState}
    (h : advanceBinaryMarketSourceState row state
      (binaryMarketDepthRecordIsNativeRebaseSnapshot X row) = some next)
    (rows : List BinaryMarketRecord) :
    (if (row :: rows).any p then readState X state (upToLast p (row :: rows)) else some kept) =
      if rows.any p then readState X next (upToLast p rows)
      else some (if p row then next else kept) := by
  by_cases hrows : rows.any p = true
  · simp only [List.any_cons, upToLast, hrows, Bool.or_true, if_true, readState_cons h]
  · rw [Bool.not_eq_true] at hrows
    simp only [List.any_cons, upToLast, hrows, Bool.or_false, Bool.false_eq_true, if_false]
    split
    · rw [readState_cons h, upToLast_of_none hrows]
      rfl
    · rfl

variable {r : BinaryMarketSelectionRequest}

/-- What the second pass leaves for a source with a state and with entries kept before: the state after
its rows up to the last one from before the begin, or else what was kept. -/
theorem Merges.atBegin {fuel n : ℕ} {p q : MergePass} (h : Merges X disk q fuel p)
    {state : BinaryMarketSourceState} (hrequest : p.cursor.request = r)
    (hstate : p.cursor.sourceStates[n]? = some state)
    (hkept : p.output.atBegin n = entriesOf (some kept)) :
    let rows := (mergedRows X disk fuel p.cursor).filter fun row => row.sourceId - 1 = n
    q.output.atBegin n = entriesOf (if rows.any (beforeBegin r) then
      readState X state (upToLast (beforeBegin r) rows) else some kept) := by
  dsimp only
  induction h generalizing state kept with
  | leave fuel hnone =>
    simp only [mergedRows, hnone, List.filter_nil, List.any_nil, Bool.false_eq_true, if_false]
    exact hkept
  | @turn fuel p next position row hturn rest ih =>
    have hrequest' : next.cursor.request = r := hturn.step.frame.request.trans hrequest
    have hnoted := hturn.noted
    obtain ⟨_, _, old, new, _, -, -, -, hold, hnew, -, hcursor⟩ := hturn.step.spec
    have hstates : next.cursor.sourceStates = p.cursor.sourceStates.set (row.sourceId - 1) new := by
      rw [hcursor]
    rw [hrequest'] at hnoted
    rw [hturn.step.mergedRows]
    by_cases hn : row.sourceId - 1 = n
    · subst hn
      obtain rfl : old = state := Option.some.inj (hold.symm.trans hstate)
      have hstate' : next.cursor.sourceStates[row.sourceId - 1]? = some new := by
        rw [hstates, List.getElem?_set_self (List.getElem?_eq_some_iff.mp hold).1]
      have hsource : next.cursor.sourceState row = new := by
        rw [CursorState.sourceState, List.getD_eq_getElem?_getD, hstate', Option.getD_some]
      have hkept' : next.output.atBegin (row.sourceId - 1) =
          entriesOf (some (if beforeBegin r row then new else kept)) := by
        rw [hnoted, hsource]
        simp only [beforeBegin, decide_eq_true_eq]
        split
        · exact atBegin_noteBeforeBegin hkept new
        · exact hkept
      rw [ih hrequest' hstate' hkept', List.filter_cons_of_pos (by simp), noted_cons _ hnew]
    · -- The row is of another source, whose state and entries are the ones that change.
      have hstate' : next.cursor.sourceStates[n]? = some state := by
        rw [hstates, List.getElem?_set_ne hn, hstate]
      have hkept' : next.output.atBegin n = entriesOf (some kept) := by
        rw [hnoted, ← hkept]
        split
        · exact atBegin_noteBeforeBegin_ne p.output hn _
        · rfl
      rw [ih hrequest' hstate' hkept', List.filter_cons_of_neg (by simpa using hn)]

variable {selection : BinaryMarketSelection} {cursor : CursorState}

/-- What `open` leaves for a source: the state after its rows up to the last one from before the
begin. -/
theorem atBegin_of_open (h : openCursor X disk r = .ok (selection, cursor)) {n : ℕ}
    {source : BinaryMarketSource} (hsource : cursor.sources[n]? = some source) :
    selection.atBegin n = entriesOf (readState X (initialBinaryMarketSourceState source)
      (upToLast (beforeBegin r) (sourceRows X disk cursor n))) := by
  obtain ⟨s, p, hpass, hprimed, -, hbegin⟩ := openCursor_ok h
  obtain ⟨metadata, m, sources, includedSources, shards, first, -, rfl, hfirst, -, -, hmerges⟩ :=
    openPass_ok hpass
  obtain rfl : first = cursor := Except.ok.inj (hfirst.symm.trans hprimed)
  obtain ⟨_, hcursor⟩ := primed_ok hprimed
  have hsources : sources[n]? = some source := by rwa [hcursor] at hsource
  have hlength : n < sources.length := (List.getElem?_eq_some_iff.mp hsources).1
  have hstate : first.sourceStates[n]? = some (initialBinaryMarketSourceState source) := by
    simp only [hcursor, initialCursor, List.getElem?_map, hsources, Option.map_some]
  have hkept : (initialOutput metadata sources).atBegin n =
      entriesOf (some (initialBinaryMarketSourceState source)) := by
    simp only [BinaryMarketSelection.atBegin, initialOutput, entriesOf, List.getElem?_map, hsources,
      List.getElem?_replicate, if_pos hlength, Option.map_some, initialBinaryMarketSourceState]
  rw [hbegin, hmerges.atBegin (r := r) (by rw [hcursor]; rfl) hstate hkept]
  dsimp only
  rw [← sourceRows]
  split
  · rfl
  · rename_i hnone
    rw [upToLast_of_none (by simpa using hnone)]
    rfl

theorem corpusStart_of_open (h : openCursor X disk r = .ok (selection, cursor)) :
    corpusStart X disk r = some cursor := by
  obtain ⟨s, p, hpass, hprimed, -⟩ := openCursor_ok h
  obtain ⟨d, pass, hd, hchecked, rfl, -⟩ := openPass_eq_ok.mp hpass
  rw [corpusStart, hd]
  dsimp only
  rw [hchecked]
  dsimp only
  rw [hprimed]
  rfl

/-- Whether a corpus that opens is hydrated depends on the rows of its sources alone. -/
theorem hydratedAtBegin_of_open (h : openCursor X disk r = .ok (selection, cursor)) :
    hydratedAtBegin X disk r = true ↔ lateRowsLeaveNoTrace X disk r := by
  have hstart := corpusStart_of_open h
  have hsources : corpusSources X disk r = cursor.sources := by rw [corpusSources, hstart]; rfl
  have hrows (n : ℕ) : corpusRows X disk r n = sourceRows X disk cursor n := by
    rw [corpusRows, hstart]; rfl
  simp only [hydratedAtBegin, h, lateRowsLeaveNoTrace, hsources, hrows, List.all_eq_true,
    decide_eq_true_eq, Prod.forall, List.mk_mem_zipIdx_iff_getElem?]
  rw [forall_comm]
  refine forall₂_congr fun n source => imp_congr_right fun hsource => ?_
  rw [atBegin_of_open h hsource, filter_upToLast]

theorem lateRowsLeaveNoTrace_of_clocks (h : clocksAgreeAtBegin X disk r) :
    lateRowsLeaveNoTrace X disk r := by
  intro n source _
  rw [filter_upToLast, upToLast_eq_filter (h n)]

/-- Where the corpus opens, the entries at the begin are those of the rows from before it iff the rows
from after it leave no trace, and so they are where the clocks agree. -/
theorem hydratedAtBegin_iff (X : Platform) (disk : Disk CorpusFile)
    (r : BinaryMarketSelectionRequest) :
    (hydratedAtBegin X disk r = true ↔
      ((openCursor X disk r).isOk = true → lateRowsLeaveNoTrace X disk r)) ∧
    (clocksAgreeAtBegin X disk r → hydratedAtBegin X disk r = true) := by
  have hiff : hydratedAtBegin X disk r = true ↔
      ((openCursor X disk r).isOk = true → lateRowsLeaveNoTrace X disk r) := by
    rcases hopen : openCursor X disk r with failure | ⟨selection, cursor⟩
    · simp [hydratedAtBegin, hopen, Except.isOk, Except.toBool]
    · rw [hydratedAtBegin_of_open hopen]
      simp [Except.isOk, Except.toBool]
  exact ⟨hiff, fun hclocks => hiff.mpr fun _ => lateRowsLeaveNoTrace_of_clocks hclocks⟩

/-! ## Clocks that disagree -/

/-- The selection opens, and the channel that went stale at time 15 is unhealthy at time 10. -/
theorem stale_before_it_was_received :
    (∃ selection cursor,
      openCursor .stored disagreeingClocks lateRequest = .ok (selection, cursor) ∧
        selection.sourceUnhealthyChannelMasksAtBegin = [1]) ∧
      hydratedAtBegin .stored disagreeingClocks lateRequest = false := by
  obtain ⟨selection, cursor, hopen, -, hmask, hsources, hrows⟩ := exists_disagreeingClocks_open
  refine ⟨⟨selection, cursor, hopen, hmask⟩, ?_⟩
  have hstart := corpusStart_of_open hopen
  rw [← Bool.not_eq_true, hydratedAtBegin_of_open hopen]
  intro htrace
  have hrows' : corpusRows .stored disagreeingClocks lateRequest 0 =
      [staleRow, smallRecord 2 5 2 0] := by
    rw [corpusRows, hstart]
    dsimp only [Option.map_some, Option.getD_some]
    rw [sourceRows, hrows]
    decide +kernel
  have hentries := htrace 0 smallSource (by rw [corpusSources, hstart, Option.map_some, hsources]; rfl)
  rw [hrows'] at hentries
  revert hentries
  decide +kernel

end HftRecorder.Corpus
