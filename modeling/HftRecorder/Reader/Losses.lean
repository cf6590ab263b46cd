import HftRecorder.Reader.Preflight
import HftRecorder.Writer.SealedFiles
import HftRecorder.Writer.Solvency

/-!
# Losses that a reader sees

The writer has one gap entry for each source and channel. A report replaces the entry, and the reader
sees the last one only. So a loss is seen if the last report of its source and channel covers it, as
the reports of a capture do: they come from ledger cells whose range only grows, and whose range once
unavailable stays so. `open_refuses_losses` says that no such loss is hidden, whatever the reports of
other cells and the ones between are, and `narrower_report_hides_loss` that the condition is needed:
the writer tests that the epoch of a report does not go down, but not that its range covers the one it
replaces.
-/

namespace HftRecorder.Corpus

open ByteLayout Codec BinaryMarketChannel

/-! ## Reading a table back -/

theorem inRange_tableHeader {α : Type} [Layout α] {magic : ℕ} {records : List α}
    (hmagic : magic < 2 ^ 32) (hsize : Layout.size α < 2 ^ 32)
    (hlength : records.length ≤ maximumUInt32) : Layout.InRange (tableHeader magic records) := by
  have hmaximum : maximumUInt32 = 2 ^ 32 - 1 := rfl
  constructor
  · have hcrc : ∀ n : UInt32, n.toNat < 256 ^ 4 := fun n => n.toNat_lt
    refine .cons (by simpa [tableHeader] using hmagic) (.cons (by norm_num [tableHeader])
      (.cons (by norm_num [tableHeader]) (.cons (by simpa [tableHeader] using hsize)
      (.cons ?_ (.cons (hcrc _) (.cons (hcrc _) (.cons (by norm_num [tableHeader]) .nil)))))))
    change records.length < 256 ^ 4
    omega
  · simp [BinaryMarketTableHeader.fields, BinaryMarketTableHeader.ofFields]

variable {disk : Disk CorpusFile}

theorem readTable_tableFile {α : Type} [Layout α] {root : String} {file : CorpusFile} {magic : ℕ}
    {expectedCrc : UInt32} {maximumBytes expectedRecords : ℕ} {records l : List α}
    (hfile : disk.read file = some (tableFile magic records)) (hmagic : magic < 2 ^ 32)
    (hsize : Layout.size α < 2 ^ 32) (hlength : records.length ≤ maximumUInt32)
    (hrange : ∀ a ∈ records, Layout.InRange a)
    (h : readTable disk root file magic expectedCrc maximumBytes expectedRecords = .ok l) :
    l = records := by
  have hheader : (tableFile magic records).take 64 = Layout.toBytes (tableHeader magic records) :=
    List.take_left' (Layout.length_toBytes (tableHeader magic records))
  have hrecords : (tableFile magic records).drop 64 = tableBytes records :=
    List.drop_left' (Layout.length_toBytes (tableHeader magic records))
  obtain ⟨bytes, header, hread, rfl, -, -, -, rfl⟩ := readTable_ok h
  obtain rfl : tableFile magic records = bytes := Option.some.inj (hfile.symm.trans hread)
  have hcount : (tableHeader magic records).recordCount = records.length := rfl
  rw [hheader, hrecords, Layout.ofBytes_toBytes _ (inRange_tableHeader hmagic hsize hlength), hcount,
    tableOf_tableBytes hrange]

/-! ## The gaps that `open` finds -/

variable {r : BinaryMarketSelectionRequest} {sources : List BinaryMarketSource}

/-- The loop over the gaps finds the ones that touch what is selected, and passes valid ones only. -/
theorem selectGaps_ok {m : BinaryMarketManifest} {includedSources : ℕ → Bool}
    {found gaps l : List BinaryMarketGap}
    (h : selectGaps m sources r includedSources found gaps = .ok l) :
    l = found ++ gaps.filter (gapSelected r includedSources) ∧
      ∀ gap ∈ gaps, validGapFields gap sources.length m.shardCount = true := by
  induction gaps generalizing found with
  | nil =>
    cases h
    simp
  | cons gap gaps ih =>
    unfold selectGaps at h
    split at h
    · cases h
    rename_i hvalid
    split at h
    · cases h
    obtain ⟨hl, hrest⟩ := ih h
    refine ⟨?_, ?_⟩
    · rw [hl, List.filter_cons]
      split <;> simp
    · intro other hother
      rcases List.mem_cons.mp hother with rfl | hmem
      · simpa using hvalid
      · exact hrest other hmem

/-- What a selection that opens has read: the catalogue and the gaps, none of which it touches. -/
theorem openCursor_gaps {X : Platform} {result : BinaryMarketSelection × CursorState}
    (h : openCursor X disk r = .ok result) :
    ∃ (m : BinaryMarketManifest) (sources : List BinaryMarketSource) (gaps : List BinaryMarketGap)
      (selection : SelectedSources),
      readTable disk r.root .sources kBinaryMarketSourcesMagic m.sourcesCrc32c m.maximumBytes
        m.sourceCount = .ok sources ∧
      readTable disk r.root .gaps kBinaryMarketGapsMagic m.gapsCrc32c m.maximumBytes m.gapCount =
        .ok gaps ∧
      selectSources r sources = .ok selection ∧
      ∀ gap ∈ gaps, validGapFields gap sources.length m.shardCount = true ∧
        gapSelected r selection.includedSources gap = false := by
  obtain ⟨_, _, hpass, -⟩ := openCursor_ok h
  obtain ⟨d, -, hmetadata, -⟩ := openPass_eq_ok.mp hpass
  obtain ⟨hcatalog, hselection, -, htables, -⟩ := openMetadata_ok hmetadata
  obtain ⟨-, -, hsources, -⟩ := catalog_eq_ok.mp hcatalog
  obtain ⟨-, hgaps, -, hselected, -⟩ := openTables_eq_ok.mp htables
  obtain ⟨hfound, hvalid⟩ := selectGaps_ok hselected
  rw [List.nil_append, eq_comm, List.filter_eq_nil_iff] at hfound
  exact ⟨_, _, d.gaps, _, hsources, hgaps, hselection, fun gap hgap =>
    ⟨hvalid gap hgap, by simpa using hfound gap hgap⟩⟩

/-! ## Reports -/

def arrivalRangeUnavailable (gap : BinaryMarketGap) : Bool :=
  gap.minimumDroppedReceiveNs = 0 && gap.maximumDroppedReceiveNs = 0

/-- The range of a report covers that of an earlier one. -/
def coversLoss (later earlier : BinaryMarketGap) : Bool :=
  arrivalRangeUnavailable later ||
    (!arrivalRangeUnavailable earlier &&
      later.minimumDroppedReceiveNs ≤ earlier.minimumDroppedReceiveNs &&
      earlier.maximumDroppedReceiveNs ≤ later.maximumDroppedReceiveNs)

/-- The reports that a run accepts, in order. -/
def acceptedGaps (X : Platform) (s : WriterState) :
    List (WriterCall × List (Option ℕ)) → List BinaryMarketGap
  | [] => []
  | (call, faults) :: calls =>
    let result := execWith X s call faults
    (match call, result.1 with
      | .appendGap gap, .ok => [gap]
      | _, _ => []) ++ acceptedGaps X result.2 calls

/-- The last of the reports for the source and the channel of a report. -/
def lastReport (reports : List BinaryMarketGap) (report : BinaryMarketGap) :
    Option BinaryMarketGap :=
  reports.reverse.find? (sameGapCell · report)

theorem lastReport_concat (reports : List BinaryMarketGap) (gap report : BinaryMarketGap) :
    lastReport (reports ++ [gap]) report =
      if sameGapCell gap report then some gap else lastReport reports report := by
  rw [lastReport, List.reverse_concat, List.find?_cons]
  split <;> simp_all [lastReport]

variable {reports : List BinaryMarketGap}

theorem sameGapCell_of_lastReport {report last : BinaryMarketGap}
    (h : lastReport reports report = some last) : sameGapCell last report = true :=
  List.find?_some (p := (sameGapCell · report)) h

/-- The writer's entries are the last reports so far. -/
def Reported (s : WriterState) (reports : List BinaryMarketGap) : Prop :=
  ∀ report last, lastReport reports report = some last → last ∈ s.gaps

variable {X : Platform} {s t : WriterState}

variable {result : Status × WriterState}

theorem Appended.gaps {r : BinaryMarketRecord} (h : Appended X s r result) :
    result.2.gaps = s.gaps :=
  h.frame gaps_of_kept (fun _ _ _ => rfl) (fun _ _ _ => rfl) (fun _ _ _ => rfl) (fun _ _ _ => rfl)

theorem Published.gaps {now : ℕ} (h : Published X s now result) : result.2.gaps = s.gaps := by
  obtain ⟨status, t⟩ := result
  by_cases hok : status = .ok
  · subst hok
    exact h.kept.2.2
  · cases h with
    | failed _ hchanges => exact gaps_of_kept hchanges.kept_eq
    | published => exact absurd rfl hok

theorem Finalized.gaps {reason : BinaryMarketStopReason} {finalizedReceiveNs : Int64} {now : ℕ}
    (h : Finalized X s reason finalizedReceiveNs now result) : result.2.gaps = s.gaps := by
  cases h with
  | failed _ hchanges => exact gaps_of_kept hchanges.kept_eq
  | @unpublished _ u t _ hsealed _ hchanges =>
    have hu : u.gaps = s.gaps := gaps_of_kept (changes_seal hsealed).kept_eq
    have ht : t.gaps = (completed u reason finalizedReceiveNs.toInt).gaps :=
      gaps_of_kept hchanges.kept_eq
    exact ht.trans hu
  | @published u t _ _ hsealed hpublished =>
    have hu : u.gaps = s.gaps := gaps_of_kept (changes_seal hsealed).kept_eq
    have ht : t.gaps = (completed u reason finalizedReceiveNs.toInt).gaps := hpublished.gaps
    obtain ⟨disk, he | he⟩ := sealManifest_cases t <;> rw [he] <;> exact ht.trans hu

theorem Executed.gaps {call : WriterCall} (h : Executed X s call result) :
    (∃ gap, call = .appendGap gap ∧ result.1 = .ok ∧ GapTaken s gap result.2) ∨
      (result.2.gaps = s.gaps ∧ ∀ gap, call = .appendGap gap → result.1 ≠ .ok) := by
  cases h with
  | failed hne hchanges => exact .inr ⟨gaps_of_kept hchanges.kept_eq, fun _ _ => hne⟩
  | registered | progressed | referenced | draining => exact .inr ⟨rfl, fun _ h => by cases h⟩
  | appended h | published h | finalized h => exact .inr ⟨h.gaps, fun _ h => by cases h⟩
  | gapTaken h => exact .inl ⟨_, rfl, rfl, h⟩

theorem sameGapCell_iff {a b : BinaryMarketGap} :
    sameGapCell a b = true ↔ a.sourceId = b.sourceId ∧ a.channel = b.channel := by
  simp [sameGapCell]

/-- A report takes the place of the entry of its cell and of no other one. -/
theorem GapTaken.reported {gap : BinaryMarketGap} (h : GapTaken s gap t) (hs : Reported s reports) :
    Reported t (reports ++ [gap]) := by
  have hself : gap ∈ t.gaps := by
    cases h with
    | @replaced position _ hposition =>
      obtain ⟨hlt, -, -⟩ := List.findIdx?_eq_some_iff_getElem.mp hposition
      exact List.mem_set hlt gap
    | added => exact List.mem_append_right _ (List.mem_singleton_self gap)
  -- The entries of other cells stay.
  have hother : ∀ entry ∈ s.gaps, sameGapCell entry gap = false → entry ∈ t.gaps := by
    intro entry hentry hcell
    cases h with
    | @replaced position _ hposition =>
      obtain ⟨hlt, hsame, -⟩ := List.findIdx?_eq_some_iff_getElem.mp hposition
      obtain ⟨i, hi, hget⟩ := List.mem_iff_getElem.mp hentry
      have hne : position ≠ i := by
        rintro rfl
        rw [hget, hcell] at hsame
        cases hsame
      refine List.mem_iff_getElem.mpr ⟨i, by simpa using hi, ?_⟩
      rw [List.getElem_set_of_ne hne, hget]
    | added => exact List.mem_append_left _ hentry
  intro report last hlast
  rw [lastReport_concat] at hlast
  split at hlast
  · cases hlast
    exact hself
  · rename_i hcell
    refine hother last (hs report last hlast) ?_
    have hsame := sameGapCell_of_lastReport hlast
    rw [sameGapCell_iff] at hcell hsame
    rw [Bool.eq_false_iff, ne_eq, sameGapCell_iff, hsame.1, hsame.2]
    exact fun h => hcell ⟨h.1.symm, h.2.symm⟩

/-- At the end of a run the writer's entries are the last reports that it accepted. -/
theorem reported_runWith (hs : Prepaid X s) (hreported : Reported s reports)
    (calls : List (WriterCall × List (Option ℕ))) :
    Reported (runWith X s calls) (reports ++ acceptedGaps X s calls) := by
  induction calls generalizing s reports with
  | nil => simpa [acceptedGaps, runWith] using hreported
  | cons first calls ih =>
    obtain ⟨call, faults⟩ := first
    have hexecuted : Executed X (s.withFaults faults) call (execWith X s call faults) :=
      executed_exec (hs.withFaults faults).sized.sources_le call
    simp only [acceptedGaps, runWith]
    rcases hexecuted.gaps with ⟨gap, rfl, hok, htaken⟩ | ⟨hsame, hrefused⟩
    · rw [hok, ← List.append_assoc]
      exact ih (hs.execWith _ faults) (htaken.reported hreported)
    · have hnone : (match call, (execWith X s call faults).1 with
          | .appendGap gap, .ok => [gap]
          | _, _ => ([] : List BinaryMarketGap)) = [] := by
        split
        · rename_i gap hstatus
          exact absurd hstatus (hrefused gap rfl)
        · rfl
      rw [hnone, List.nil_append]
      refine ih (hs.execWith call faults) fun report last hlast => ?_
      rw [hsame]
      exact hreported report last hlast

/-! ## No loss is hidden -/

/-- The selection includes the source and the channel of a report, and its interval overlaps the
report's range, or that is unavailable. -/
structure LossSelected (r : BinaryMarketSelectionRequest) (sources : List BinaryMarketSource)
    (report : BinaryMarketGap) : Prop where
  source : ∃ selection, selectSources r sources = .ok selection ∧
    selection.includedSources report.sourceId = true
  channel : report.channel = sourceLifecycle ∨
    r.channelMask &&& binaryMarketChannelBit report.channel ≠ 0
  interval : arrivalRangeUnavailable report = true ∨
    (report.minimumDroppedReceiveNs < r.endReceiveNs.toInt ∧
      r.beginReceiveNs.toInt ≤ report.maximumDroppedReceiveNs)

/-- An entry that covers a selected report is selected. -/
theorem gapSelected_of_covers {selection : SelectedSources} {entry report : BinaryMarketGap}
    {shardCount : ℕ} (hselection : selectSources r sources = .ok selection)
    (hselected : LossSelected r sources report) (hcell : sameGapCell entry report = true)
    (hcovers : coversLoss entry report = true)
    (hvalid : validGapFields entry sources.length shardCount = true) :
    gapSelected r selection.includedSources entry = true := by
  obtain ⟨hid, hchannel⟩ := sameGapCell_iff.mp hcell
  obtain ⟨selection', hselection', hincluded⟩ := hselected.source
  rw [hselection] at hselection'
  obtain rfl := Except.ok.inj hselection'
  unfold gapSelected
  rw [hid, hincluded, hchannel]
  rcases hselected.channel with hlifecycle | hmask
  · simp [hlifecycle]
  have hrange : arrivalRangeUnavailable entry = true ∨
      rangesOverlap entry.minimumDroppedReceiveNs entry.maximumDroppedReceiveNs
        r.beginReceiveNs.toInt r.endReceiveNs.toInt = true := by
    unfold coversLoss at hcovers
    cases hunavailable : arrivalRangeUnavailable entry with
    | true => exact .inl rfl
    | false =>
      right
      rw [hunavailable] at hcovers
      simp only [Bool.false_or, Bool.and_eq_true, Bool.not_eq_true', decide_eq_true_eq] at hcovers
      obtain ⟨⟨havailable, hmin⟩, hmax⟩ := hcovers
      obtain hreport | ⟨hend, hbegin⟩ := hselected.interval
      · rw [havailable] at hreport
        cases hreport
      -- A valid entry has a range of positive times, or none.
      have hpositive : 0 < entry.minimumDroppedReceiveNs ∧
          entry.minimumDroppedReceiveNs ≤ entry.maximumDroppedReceiveNs := by
        unfold validGapFields at hvalid
        unfold arrivalRangeUnavailable at hunavailable
        simp only [Bool.not_eq_true', Bool.or_eq_false_iff, Bool.not_eq_false'] at hvalid
        have hrange := hvalid.1.1.1.1.2
        rw [hunavailable, Bool.or_false] at hrange
        simpa using hrange
      simp only [rangesOverlap, Bool.and_eq_true, decide_eq_true_eq]
      omega
  rcases hrange with hunavailable | hoverlap
  · unfold arrivalRangeUnavailable at hunavailable
    simp [hunavailable, hmask]
  · simp [hoverlap, hmask]

/-- No loss is hidden that the last report covers. In every run of the writer that seals with `Ok`,
whatever its directory operations meet and whatever else it accepts, no selection opens that includes
the source and the channel of a report and overlaps its range, if the last accepted report of that
source and channel covers it. -/
theorem open_refuses_losses {config : BinaryMarketWriterConfig} {root : RootEntry}
    {startFaults finalFaults : List (Option ℕ)} {s₀ t : WriterState}
    (hstart : start X config root startFaults = (.ok, some s₀))
    {calls : List (WriterCall × List (Option ℕ))}
    {reason : BinaryMarketStopReason} {finalizedReceiveNs : Int64} {now : UInt64}
    (hsealed : execWith X (runWith X s₀ calls) (.finalize reason finalizedReceiveNs now) finalFaults =
      (.ok, t))
    {report last : BinaryMarketGap}
    (hlast : lastReport (acceptedGaps X s₀ calls) report = some last)
    (hcovers : coversLoss last report = true)
    {r : BinaryMarketSelectionRequest} (hselected : LossSelected r t.sources report) :
    (openCursor X t.disk r).isOk = false := by
  have hentry : last ∈ (runWith X s₀ calls).gaps := by
    have hnone : Reported s₀ [] := fun _ _ h => by cases h
    exact reported_runWith (prepaid_start hstart) hnone calls report last hlast
  have hcell := sameGapCell_of_lastReport hlast
  obtain ⟨hfiles, -, -, hgaps⟩ := sealedFiles_finalize hsealed
  cases hopen : openCursor X t.disk r with
  | error => rfl
  | ok result =>
    obtain ⟨m, sources, gaps, selection, hsources, hread, hselection, hnone⟩ := openCursor_gaps hopen
    have hsourcesEq : sources = t.sources := readTable_tableFile hfiles.tables.sources (by decide)
      (by decide) hfiles.tables.sources_le (fun _ _ => trivial) hsources
    have hgapsEq : gaps = t.gaps := readTable_tableFile hfiles.tables.gaps (by decide) (by decide)
      hfiles.tables.gaps_le (fun _ _ => trivial) hread
    have hmem : last ∈ gaps := by
      rw [hgapsEq, hgaps]
      exact hentry
    obtain ⟨hvalid, hunselected⟩ := hnone last hmem
    rw [hsourcesEq] at hselection hvalid
    rw [gapSelected_of_covers hselection hselected hcell hcovers hvalid] at hunselected
    cases hunselected

/-- A report of losses of the small source's book ticker. -/
def smallGap (epoch minimumDroppedReceiveNs maximumDroppedReceiveNs : ℕ) : BinaryMarketGap :=
  ⟨Raw.ofBytes 80 (pack [4, 4, 8, 8, 8, 8, 8, 8, 8, 8, 2, 1, 1, 4]
    [1, 0, 1, epoch, epoch, 1, 1, minimumDroppedReceiveNs, maximumDroppedReceiveNs, 1, 0, 1, 0, 0])⟩

/-- The calls of these reports. -/
def smallReports (reports : List BinaryMarketGap) : List (WriterCall × List (Option ℕ)) :=
  reports.map fun report => (.appendGap report, [])

/-- The state of a corpus with these reports and nothing else, after it was sealed. -/
def smallSealed (reports : List BinaryMarketGap) : Status × WriterState :=
  execWith .stored (runWith .stored smallStart (smallReports reports)) (.finalize .requested 20 1) []

def earlyRequest : BinaryMarketSelectionRequest where
  root := "corpus"
  beginReceiveNs := 4
  endReceiveNs := 7
  channelMask := 255
  requireTraderReplayCompatibility := false
  allSources := true

/-- A loss at time 5, a report that does not cover it, and one that does. -/
def coveredLoss : List BinaryMarketGap := [smallGap 1 5 5, smallGap 2 15 15, smallGap 3 5 15]

/-- The last report covers the first one, and the selection does not open. -/
theorem open_refuses_losses_covered :
    (openCursor .stored (smallSealed coveredLoss).2.disk earlyRequest).isOk = false := by
  have hstatus : (smallSealed coveredLoss).1 = .ok := by decide +kernel
  have hlast : lastReport (acceptedGaps .stored smallStart (smallReports coveredLoss))
      (smallGap 1 5 5) = some (smallGap 3 5 15) := by decide +kernel
  have hsources : (smallSealed coveredLoss).2.sources = [smallSource] := by decide +kernel
  rcases hsealed : smallSealed coveredLoss with ⟨status, t⟩
  rw [hsealed] at hstatus hsources
  subst hstatus
  refine open_refuses_losses start_smallConfig hsealed hlast (by decide +kernel) ?_
  rw [hsources]
  refine ⟨?_, .inr (by decide +kernel), .inr (by decide +kernel)⟩
  exact ⟨⟨none, _⟩, rfl, by decide +kernel⟩

set_option maxRecDepth 100000 in
/-- The last report does not cover the first one, and the selection opens. -/
theorem narrower_report_hides_loss :
    acceptedGaps .stored smallStart (smallReports [smallGap 1 5 5, smallGap 2 15 15]) =
        [smallGap 1 5 5, smallGap 2 15 15] ∧
      (smallSealed [smallGap 1 5 5, smallGap 2 15 15]).1 = .ok ∧
      LossSelected earlyRequest (smallSealed [smallGap 1 5 5, smallGap 2 15 15]).2.sources
        (smallGap 1 5 5) ∧
      (openCursor .stored (smallSealed [smallGap 1 5 5, smallGap 2 15 15]).2.disk
        earlyRequest).isOk = true := by
  have hsources : (smallSealed [smallGap 1 5 5, smallGap 2 15 15]).2.sources = [smallSource] := by
    decide +kernel
  refine ⟨by decide +kernel, by decide +kernel, ?_, by decide +kernel⟩
  rw [hsources]
  refine ⟨?_, .inr (by decide +kernel), .inr (by decide +kernel)⟩
  exact ⟨⟨none, _⟩, rfl, by decide +kernel⟩

end HftRecorder.Corpus
