import HftRecorder.Replay.SessionReplay
import Mathlib.Data.List.Nodup

/-!
# When a replay claims to be exact

`finalize` says that a replay is exact if no enabled channel has an incident. So what an exact replay
guarantees is what the checks note as incidents. A channel is `Clean` in a summary as long as it has
none; every pass of `finalize` either leaves that as it is or spoils one channel, and says under which
condition on the rows it does (`clean_validateChannel`, `clean_noteDuplicates`, `clean_markStale`).
Put together, `exact_iff` states the verdict as a condition on the rows and on the hints.

The sequence numbers of trades and book tickers are part of that condition. Those of the depth rows are
not: `validateDepthStream_` accepts everything, and the depth events of the timeline carry no number.
-/

namespace HftRecorder.Replay

open ByteLayout (Bytes)
open Json
open Session (LiveChannel SessionHealth)

/-! ## Sequence numbers -/

/-- The positive numbers of a channel, in the order of its rows. -/
def positives (number : SequenceRow → Int64) (rows : List SequenceRow) : List Int64 :=
  (rows.map number).filter fun value => 0 < value

/-- One of the two numbers of a channel: it increases, and it is on all rows or on none. -/
structure NumberSequenced (number : SequenceRow → Int64) (rows : List SequenceRow) : Prop where
  increasing : (positives number rows).Pairwise (· < ·)
  all_or_none : (∀ row ∈ rows, 0 < number row) ∨ ∀ row ∈ rows, ¬ 0 < number row

/-- Both numbers of a channel are in order. -/
structure WellSequenced (rows : List SequenceRow) : Prop where
  capture : NumberSequenced (·.captureSeq) rows
  ingest : NumberSequenced (·.ingestSeq) rows

/-- No positive ingest number is in both channels. -/
def DisjointIngest (rows rows' : List SequenceRow) : Prop :=
  ∀ value ∈ positives (·.ingestSeq) rows, value ∉ positives (·.ingestSeq) rows'

theorem positives_cons (number : SequenceRow → Int64) (row : SequenceRow) (rows : List SequenceRow) :
    positives number (row :: rows)
      = if 0 < number row then number row :: positives number rows else positives number rows := by
  simp [positives, List.filter_cons]

variable {rows : List SequenceRow} {number : SequenceRow → Int64}

theorem mem_positives {value : Int64} :
    value ∈ positives number rows ↔ 0 < value ∧ ∃ row ∈ rows, number row = value := by
  simp [positives, and_comm]

/-- The capture numbers pass the loop if they increase, also from the last one before. -/
def CaptureIncreasing : Int64 → List SequenceRow → Prop
  | _, [] => True
  | previous, row :: rows =>
    ¬(row.captureSeq > 0 ∧ previous ≠ 0 ∧ row.captureSeq ≤ previous) ∧
      CaptureIncreasing (if row.captureSeq > 0 then row.captureSeq else previous) rows

/-- The ingest numbers pass the loop if each is larger than the one of the row before. -/
def IngestIncreasing : Int64 → List SequenceRow → Prop
  | _, [] => True
  | previous, row :: rows =>
    ¬(row.ingestSeq > 0 ∧ previous > 0 ∧ row.ingestSeq ≤ previous) ∧
      IngestIncreasing row.ingestSeq rows

theorem firstFault_eq_none (i : ℕ) (capture ingest : Int64) (rows : List SequenceRow) :
    firstFault i capture ingest rows = none ↔
      CaptureIncreasing capture rows ∧ IngestIncreasing ingest rows := by
  induction rows generalizing i capture ingest with
  | nil => simp [firstFault, CaptureIncreasing, IngestIncreasing]
  | cons row rows ih =>
    rw [firstFault, CaptureIncreasing, IngestIncreasing]
    split
    · rename_i hfault
      simp [hfault]
    · rename_i hcapture
      split
      · rename_i hfault
        simp [hfault]
      · rename_i hingest
        rw [ih]
        simp only [hcapture, hingest, not_false_eq_true, true_and]

variable {previous : Int64}

/-- Numbers that grow from the first one on, which is above the previous one where that counts. -/
theorem increasing_cons_iff {counts : Prop} {first : Int64} {l : List Int64} :
    (counts → previous < first) ∧ l.Pairwise (· < ·) ∧ (∀ value ∈ l, first < value) ↔
      (first :: l).Pairwise (· < ·) ∧ (counts → ∀ value ∈ first :: l, previous < value) := by
  simp only [List.pairwise_cons, List.mem_cons, forall_eq_or_imp]
  constructor
  · rintro ⟨hfirst, hpairs, hrest⟩
    refine ⟨⟨hrest, hpairs⟩, fun h => ⟨hfirst h, fun value hvalue => ?_⟩⟩
    exact Int64.lt_trans (hfirst h) (hrest value hvalue)
  · rintro ⟨⟨hrest, hpairs⟩, hprev⟩
    exact ⟨fun h => (hprev h).1, hpairs, hrest⟩

theorem captureIncreasing_iff (hprevious : previous = 0 ∨ 0 < previous) (rows : List SequenceRow) :
    CaptureIncreasing previous rows ↔
      (positives (·.captureSeq) rows).Pairwise (· < ·) ∧
        (previous ≠ 0 → ∀ value ∈ positives (·.captureSeq) rows, previous < value) := by
  induction rows generalizing previous with
  | nil => simp [CaptureIncreasing, positives]
  | cons row rows ih =>
    rw [CaptureIncreasing, positives_cons]
    by_cases hrow : 0 < row.captureSeq
    · have hne : row.captureSeq ≠ 0 := fun h => Int64.lt_irrefl (h ▸ hrow)
      rw [if_pos hrow, if_pos hrow, ih (Or.inr hrow), ← increasing_cons_iff]
      simp only [ne_eq, hne, not_false_eq_true, forall_const, hrow, true_and, not_and, Int64.not_le]
    · rw [if_neg hrow, if_neg hrow, ih hprevious]
      simp [hrow]

theorem ingestIncreasing_iff (hall : ∀ row ∈ rows, 0 < row.ingestSeq) :
    IngestIncreasing previous rows ↔
      (positives (·.ingestSeq) rows).Pairwise (· < ·) ∧
        (0 < previous → ∀ value ∈ positives (·.ingestSeq) rows, previous < value) := by
  induction rows generalizing previous with
  | nil => simp [IngestIncreasing, positives]
  | cons row rows ih =>
    have hrow := hall row List.mem_cons_self
    rw [IngestIncreasing, positives_cons, if_pos hrow,
      ih fun row hmem => hall row (List.mem_cons_of_mem _ hmem), ← increasing_cons_iff]
    simp only [hrow, forall_const, true_and, not_and, Int64.not_le]

theorem ingestIncreasing_of_none (hnone : ∀ row ∈ rows, ¬ 0 < row.ingestSeq) :
    IngestIncreasing previous rows := by
  induction rows generalizing previous with
  | nil => trivial
  | cons row rows ih =>
    exact ⟨fun h => hnone row List.mem_cons_self h.1,
      ih fun row hmem => hnone row (List.mem_cons_of_mem _ hmem)⟩

theorem positives_eq_nil (hnone : ∀ row ∈ rows, ¬ 0 < number row) : positives number rows = [] := by
  rw [List.eq_nil_iff_forall_not_mem]
  intro value hvalue
  obtain ⟨hpos, row, hrow, rfl⟩ := mem_positives.mp hvalue
  exact hnone row hrow hpos

def channelOk (rows : List SequenceRow) : Bool :=
  firstFault 0 0 0 rows = none &&
  !(anyHave (·.captureSeq) rows && !allHave (·.captureSeq) rows) &&
  !(anyHave (·.ingestSeq) rows && !allHave (·.ingestSeq) rows)

theorem all_or_none_iff (number : SequenceRow → Int64) (rows : List SequenceRow) :
    ((∀ row ∈ rows, 0 < number row) ∨ ∀ row ∈ rows, ¬ 0 < number row) ↔
      (anyHave number rows && !allHave number rows) = false := by
  unfold anyHave allHave
  cases hall : rows.all fun row => number row > 0 with
  | true => simpa using Or.inl (by simpa using hall)
  | false =>
    have hnot : ¬ ∀ row ∈ rows, 0 < number row := by
      rw [← Bool.not_eq_true] at hall
      simpa using hall
    simp only [hnot, false_or, Bool.not_false, Bool.and_true, List.any_eq_false, decide_eq_true_eq,
      gt_iff_lt]

theorem channelOk_iff (rows : List SequenceRow) : channelOk rows = true ↔ WellSequenced rows := by
  have hcapture := captureIncreasing_iff (Or.inl rfl) rows
  simp only [ne_eq, not_true_eq_false, false_imp_iff, and_true] at hcapture
  simp only [channelOk, Bool.and_eq_true, decide_eq_true_eq, Bool.not_eq_true', ← all_or_none_iff,
    firstFault_eq_none, hcapture]
  constructor
  · rintro ⟨⟨⟨hincreasing, hingest⟩, hcaptures⟩, hingests⟩
    refine ⟨⟨hincreasing, hcaptures⟩, ⟨?_, hingests⟩⟩
    rcases hingests with hall | hnone
    · exact ((ingestIncreasing_iff hall).mp hingest).1
    · rw [positives_eq_nil hnone]
      exact List.Pairwise.nil
  · rintro ⟨hcap, hing⟩
    refine ⟨⟨⟨hcap.increasing, ?_⟩, hcap.all_or_none⟩, hing.all_or_none⟩
    rcases hing.all_or_none with hall | hnone
    · exact (ingestIncreasing_iff hall).mpr ⟨hing.increasing, fun h => absurd h (by decide)⟩
    · exact ingestIncreasing_of_none hnone

def BothNumbers (rows : List SequenceRow) : Prop :=
  anyHave (·.captureSeq) rows = anyHave (·.ingestSeq) rows

/-! ## Clean channels -/

/-- A channel of a summary has no incident. -/
def Clean (summary : SessionIntegritySummary) (channel : IntegrityChannel) : Prop :=
  (summary.channel channel).state ≠ .corrupt ∧ (summary.channel channel).incidentCount = 0

namespace SessionIntegritySummary

theorem updateChannel_channel (channel other : IntegrityChannel)
    (f : ChannelIntegritySummary → ChannelIntegritySummary) (summary : SessionIntegritySummary) :
    (summary.updateChannel channel f).channel other
      = if other = channel then f (summary.channel channel) else summary.channel other := by
  simp [updateChannel, Function.update_apply]

theorem clean_noteIncident (summary : SessionIntegritySummary) (incident : IntegrityIncident)
    (channel : IntegrityChannel) :
    Clean (summary.noteIncident incident) channel ↔ Clean summary channel ∧ channel ≠ incident.channel := by
  simp only [Clean, noteIncident, updateChannel_channel]
  split
  · rename_i heq
    simp [heq, ChannelIntegritySummary.addIncident]
  · rename_i hne
    simp [hne]

theorem clean_degrade (summary : SessionIntegritySummary) (channel other : IntegrityChannel) :
    Clean (summary.degrade channel) other ↔ Clean summary other := by
  simp only [Clean, degrade, updateChannel_channel]
  split
  · rename_i heq
    rw [heq]
    by_cases hstate : (summary.channel channel).state = .corrupt <;> simp [hstate]
  · rfl

theorem clean_fail (summary : SessionIntegritySummary) {incident : IntegrityIncident}
    {channel : IntegrityChannel} (hincident : incident.channel = channel)
    (f : ChannelIntegritySummary → ChannelIntegritySummary) (other : IntegrityChannel) :
    Clean ((summary.updateChannel channel f).noteIncident incident) other ↔
      Clean summary other ∧ other ≠ channel := by
  rw [clean_noteIncident, hincident]
  refine and_congr_left fun hne => ?_
  simp only [Clean, updateChannel_channel, if_neg hne]

/-- A channel starts clean if the hints name no incident of its capture. -/
theorem clean_reset (hints : ManifestHints) (channel : LiveChannel) :
    Clean (reset hints) (integrityChannel channel) ↔ hints.capturedIncidents channel = none := by
  have hfold : ∀ (incidents : List IntegrityIncident) (summary : SessionIntegritySummary),
      Clean (incidents.foldl noteIncident summary) (integrityChannel channel) ↔
        Clean summary (integrityChannel channel) ∧
          ∀ incident ∈ incidents, integrityChannel channel ≠ incident.channel := by
    intro incidents
    induction incidents with
    | nil => simp
    | cons incident incidents ih =>
      intro summary
      rw [List.foldl_cons, ih, clean_noteIncident]
      simp [and_assoc]
  have hempty : Clean {} (integrityChannel channel) := ⟨by simp, rfl⟩
  have hinj : ∀ other : LiveChannel,
      integrityChannel channel = integrityChannel other → channel = other := by
    intro other
    cases channel <;> cases other <;> decide
  rw [reset, hfold]
  simp only [hempty, true_and, List.mem_filterMap, capturedIncident, Option.map_eq_some_iff]
  constructor
  · intro h
    by_contra hsome
    obtain ⟨message, hmessage⟩ := Option.ne_none_iff_exists'.mp hsome
    exact h _ ⟨channel, by cases channel <;> simp, message, hmessage, rfl⟩ rfl
  · rintro hnone incident ⟨other, -, message, hmessage, rfl⟩ heq
    rw [← hinj other heq, hnone] at hmessage
    cases hmessage

/-- A stream that the pass over the stale channels marks. -/
def Stale (hints : ManifestHints) (channel : LiveChannel) (arrivals : List EventArrival) : Prop :=
  0 < hints.endedAtNs ∧ hints.enabled channel = true ∧ arrivals ≠ [] ∧
    isStale hints.endedAtNs (latestReceiveRealtime arrivals) = true

theorem clean_markStale (hints : ManifestHints) (channel : LiveChannel)
    (arrivals : List EventArrival) (summary : SessionIntegritySummary)
    (hended : 0 < hints.endedAtNs) (other : IntegrityChannel) :
    Clean (summary.markStale hints channel arrivals) other ↔
      Clean summary other ∧ (other = integrityChannel channel → ¬ Stale hints channel arrivals) := by
  have hiff : (hints.enabled channel && !arrivals.isEmpty &&
      isStale hints.endedAtNs (latestReceiveRealtime arrivals)) = true ↔
        Stale hints channel arrivals := by
    simp [Stale, hended, and_assoc]
  rw [markStale]
  split
  · rename_i hstale
    rw [clean_noteIncident]
    simp [hiff.mp hstale, staleIncident]
  · rename_i hstale
    rw [hiff] at hstale
    simp [hstale]

theorem clean_markStaleLiveChannels (hints : ManifestHints) (bookTickers depths : List EventArrival)
    (summary : SessionIntegritySummary) (channel : IntegrityChannel) :
    Clean (summary.markStaleLiveChannels hints bookTickers depths) channel ↔
      Clean summary channel ∧
        (channel = .bookTicker → ¬ Stale hints .bookTicker bookTickers) ∧
        (channel = .depth → ¬ Stale hints .depth depths) := by
  rw [markStaleLiveChannels]
  split
  · rename_i hended
    have hnot : ∀ live arrivals, ¬ Stale hints live arrivals := fun live arrivals h =>
      absurd h.1 (Int64.not_lt.mpr hended)
    simp [hnot]
  · rename_i hended
    rw [Int64.not_le] at hended
    rw [clean_markStale hints _ _ _ hended, clean_markStale hints _ _ _ hended, and_assoc]
    rfl

/-! ## The verdict on a summary -/

/-- The condition for a channel to be exact. -/
def Passes (hints : ManifestHints) (count : LiveChannel → ℕ) (summary : SessionIntegritySummary)
    (channel : LiveChannel) : Prop :=
  Clean summary (integrityChannel channel) ∧ (count channel ≠ 0 ∨ hints.required channel = false)

variable {other : IntegrityChannel}

theorem markSimpleChannel_other (channel : IntegrityChannel) (enabled required : Bool) (count : ℕ)
    (summary : SessionIntegritySummary) (hother : other ≠ channel) :
    (summary.markSimpleChannel channel enabled required count).channel other
      = summary.channel other := by
  unfold markSimpleChannel
  dsimp only
  repeat' split
  all_goals simp [updateChannel_channel, noteIncident, missingIncident, hother]

theorem markSimpleChannel_exact (channel : IntegrityChannel) (required : Bool) (count : ℕ)
    (summary : SessionIntegritySummary) :
    ((summary.markSimpleChannel channel true required count).channel channel).exactReplayEligible
        = true ↔ Clean summary channel ∧ (count ≠ 0 ∨ required = false) := by
  unfold markSimpleChannel
  rw [Clean]
  by_cases hstate : (summary.channel channel).state = .corrupt
  · simp [hstate, updateChannel_channel]
  by_cases hincidents : (summary.channel channel).incidentCount = 0
  · by_cases hcount : count = 0 <;> cases required <;>
      simp [hstate, hincidents, hcount, updateChannel_channel, noteIncident, missingIncident,
        ChannelIntegritySummary.decided, ChannelIntegritySummary.addIncident]
  · simp [hstate, hincidents, updateChannel_channel]

theorem markSnapshot_other (enabled loaded : Bool) (summary : SessionIntegritySummary)
    (hother : other ≠ .snapshot) :
    (summary.markSnapshot enabled loaded).channel other = summary.channel other := by
  unfold markSnapshot
  repeat' split
  all_goals simp [updateChannel_channel, hother]

theorem markDepth_other (enabled required : Bool) (count : ℕ) (summary : SessionIntegritySummary)
    (hother : other ≠ .depth) :
    (summary.markDepth enabled required count).channel other = summary.channel other := by
  unfold markDepth
  dsimp only
  repeat' split
  all_goals simp [updateChannel_channel, hother]

theorem markDepth_exact (required : Bool) (count : ℕ) (summary : SessionIntegritySummary) :
    ((summary.markDepth true required count).channel .depth).exactReplayEligible = true ↔
      Clean summary .depth ∧ (count ≠ 0 ∨ required = false) := by
  unfold markDepth
  rw [Clean]
  by_cases hstate : (summary.channel .depth).state = .corrupt
  · simp [hstate, updateChannel_channel]
  by_cases hincidents : (summary.channel .depth).incidentCount = 0
  · by_cases hcount : count = 0 <;> cases required <;>
      simp [hstate, hincidents, hcount, updateChannel_channel, ChannelIntegritySummary.decided]
  · by_cases hcount : count = 0 <;> cases required <;>
      simp [hstate, hincidents, hcount, updateChannel_channel, ChannelIntegritySummary.decided]

/-- Each enabled channel is judged on its own. -/
theorem finalizeChannelStates_exact (hints : ManifestHints) (count : LiveChannel → ℕ)
    (snapshotLoaded : Bool) (summary : SessionIntegritySummary) (channel : LiveChannel)
    (henabled : hints.enabled channel = true) :
    ((summary.finalizeChannelStates hints count snapshotLoaded).channel
        (integrityChannel channel)).exactReplayEligible = true ↔
      Passes hints count summary channel := by
  have hclean : ∀ {s s' : SessionIntegritySummary} {c : IntegrityChannel},
      s.channel c = s'.channel c → (Clean s c ↔ Clean s' c) := by
    intro s s' c h
    rw [Clean, Clean, h]
  rw [finalizeChannelStates, Passes]
  cases channel with
  | trades =>
    rw [integrityChannel, markDepth_other _ _ _ _ (by decide), markSnapshot_other _ _ _ (by decide),
      markSimpleChannel_other _ _ _ _ _ (by decide), henabled, markSimpleChannel_exact]
  | bookTicker =>
    rw [integrityChannel, markDepth_other _ _ _ _ (by decide), markSnapshot_other _ _ _ (by decide),
      henabled, markSimpleChannel_exact,
      hclean (markSimpleChannel_other _ _ _ _ summary (by decide))]
  | depth =>
    rw [integrityChannel, henabled, markDepth_exact, hclean (markSnapshot_other _ _ _ (by decide)),
      hclean (markSimpleChannel_other _ _ _ _ _ (by decide)),
      hclean (markSimpleChannel_other _ _ _ _ summary (by decide))]

/-- When the summary calls the replay exact. -/
theorem refreshHealth_exact (hints : ManifestHints) (count : LiveChannel → ℕ) (snapshotLoaded : Bool)
    (summary : SessionIntegritySummary) :
    (summary.refreshHealth hints count snapshotLoaded).exactReplayEligible = true ↔
      hints.capturedExactReplayEligible = true ∧ (∃ channel, hints.enabled channel = true) ∧
        ∀ channel, hints.enabled channel = true → Passes hints count summary channel := by
  have hmem : ∀ channel : LiveChannel, channel ∈ [LiveChannel.trades, .bookTicker, .depth] := by
    intro channel
    cases channel <;> simp
  simp only [refreshHealth, Bool.and_eq_true, Bool.not_eq_true', List.all_eq_true, List.mem_filter,
    hmem, true_and]
  have hany : ([LiveChannel.trades, .bookTicker, .depth].filter hints.enabled).isEmpty = false ↔
      ∃ channel, hints.enabled channel = true := by
    rw [← Bool.not_eq_true, List.isEmpty_iff, List.filter_eq_nil_iff]
    simp only [not_forall, not_not, exists_prop]
    exact ⟨fun ⟨channel, _, h⟩ => ⟨channel, h⟩, fun ⟨channel, h⟩ => ⟨channel, hmem channel, h⟩⟩
  rw [hany]
  have hall : (∀ channel, hints.enabled channel = true →
      ((summary.finalizeChannelStates hints count snapshotLoaded).channel
        (integrityChannel channel)).exactReplayEligible = true) ↔
      ∀ channel, hints.enabled channel = true → Passes hints count summary channel :=
    forall_congr' fun channel => forall_congr' fun henabled =>
      finalizeChannelStates_exact hints count snapshotLoaded summary channel henabled
  rw [hall]
  tauto

end SessionIntegritySummary

/-! ## The checks -/

namespace SessionReplay

/-- The check of a channel returns its verdict on the rows. -/
theorem validateChannel_fst (channel : IntegrityChannel) (name : Bytes) (rows : List SequenceRow)
    (s : SessionReplay) : (s.validateChannel channel name rows).1 = channelOk rows := by
  unfold validateChannel channelOk
  cases rows with
  | nil => rfl
  | cons front rows =>
    dsimp only
    cases firstFault 0 0 0 (front :: rows) with
    | some fault => rfl
    | none =>
      dsimp only
      split
      · rename_i hcapture
        simp [hcapture]
      · rename_i hcapture
        split
        · rename_i hingest
          simp [hingest]
        · rename_i hingest
          rw [Bool.not_eq_true] at hcapture hingest
          split <;> simp [hcapture, hingest]

/-- The checks of a channel spoil it unless the numbers are in order and on both or on neither. -/
theorem clean_validateChannel (channel : IntegrityChannel) (name : Bytes) (rows : List SequenceRow)
    (s : SessionReplay) (other : IntegrityChannel) :
    Clean (s.validateChannel channel name rows).2.integritySummary other ↔
      Clean s.integritySummary other ∧
        (other = channel → channelOk rows = true ∧ BothNumbers rows) := by
  have hfail : ∀ incident : IntegrityIncident, incident.channel = channel →
      (Clean (s.failChannel channel incident).integritySummary other ↔
        Clean s.integritySummary other ∧ other ≠ channel) := fun incident hincident =>
    SessionIntegritySummary.clean_fail _ hincident _ _
  have hfault : ∀ fault i row, (faultIncident channel name fault i row).channel = channel := by
    intro fault i row
    cases fault <;> rfl
  have hinconsistent : ∀ fault front,
      (inconsistentIncident channel name fault front).channel = channel := by
    intro fault front
    cases fault <;> rfl
  unfold validateChannel channelOk BothNumbers
  cases rows with
  | nil => simp [firstFault, anyHave, allHave]
  | cons front rows =>
    dsimp only
    cases firstFault 0 0 0 (front :: rows) with
    | some fault => simpa using hfail _ (hfault _ _ _)
    | none =>
      dsimp only
      split
      · rename_i hcapture
        simpa [hcapture] using hfail _ (hinconsistent _ _)
      · rename_i hcapture
        split
        · rename_i hingest
          simpa [hingest] using hfail _ (hinconsistent _ _)
        · rename_i hingest
          rw [Bool.not_eq_true] at hcapture hingest
          split
          · rename_i hboth
            dsimp only
            rw [SessionIntegritySummary.clean_noteIncident, SessionIntegritySummary.clean_degrade]
            rw [bne_iff_ne] at hboth
            simp [hboth, absentIncident]
          · rename_i hboth
            rw [bne_iff_ne, ne_eq, not_not] at hboth
            rw [hcapture, hingest]
            simp [hboth]

end SessionReplay

/-! ### The check across the channels -/

theorem firstDuplicate_eq_none (i : ℕ) (values : List Int64) :
    firstDuplicate i values = none ↔ values.Pairwise (· < ·) := by
  rw [← List.isChain_iff_pairwise]
  induction values generalizing i with
  | nil => simp [firstDuplicate]
  | cons a values ih =>
    cases values with
    | nil => simp [firstDuplicate]
    | cons b values =>
      rw [firstDuplicate, List.isChain_cons_cons, ← ih (i + 1)]
      by_cases hle : b ≤ a
      · simp [hle]
      · simp [hle, Int64.not_le.mp hle]

theorem pairwise_lt_iff_nodup {values : List Int64} (h : values.Pairwise (· ≤ ·)) :
    values.Pairwise (· < ·) ↔ values.Nodup := by
  constructor
  · intro hlt
    refine List.Pairwise.imp (fun {a b} hab heq => ?_) hlt
    rw [heq] at hab
    exact Int64.lt_irrefl hab
  · intro hnodup
    refine (h.and hnodup).imp fun {a b} hab => ?_
    rw [← Int64.not_le]
    exact fun hba => hab.2 (Int64.le_antisymm hab.1 hba)

/-- The numbers of the timeline are those of the trades and of the book tickers. -/
theorem mergedIngestSeqs_perm (trades : List TradeRow) (bookTickers : List BookTickerRow)
    (depths : List DepthRow) :
    (SessionReplay.mergedIngestSeqs (sortedEvents trades bookTickers depths)).Perm
      (positives (·.ingestSeq) (trades.map (·.sequence)) ++
        positives (·.ingestSeq) (bookTickers.map (·.sequence))) := by
  refine (List.mergeSort_perm _ _).trans ?_
  have hsorted := List.mergeSort_perm (depthEvents depths ++ tradeEvents trades ++
    bookTickerEvents bookTickers) fun a b => !eventLess b a
  refine ((hsorted.filter _).map _).trans (List.Perm.of_eq ?_)
  rw [List.filter_append, List.filter_append, List.map_append, List.map_append]
  have hdepth : (depthEvents depths).filter (fun event => 0 < event.ingestSeq) = [] := by
    rw [List.filter_eq_nil_iff]
    intro event hevent
    obtain ⟨i, hi, rfl⟩ := List.mem_mapIdx.mp hevent
    exact (by decide : ¬ decide ((0 : Int64) < 0) = true)
  have hfilter : ∀ events : List Event, (events.filter fun event => 0 < event.ingestSeq).map (·.ingestSeq)
      = (events.map (·.ingestSeq)).filter fun value => 0 < value := by
    intro events
    rw [List.filter_map]
    rfl
  rw [hdepth, List.map_nil, List.nil_append, hfilter, hfilter]
  congr 1 <;>
  · rw [positives]
    congr 1
    refine List.ext_getElem? fun i => ?_
    simp [tradeEvents, bookTickerEvents, Function.comp_def, TradeRow.sequence, BookTickerRow.sequence]

theorem firstDuplicate_mergedIngestSeqs (trades : List TradeRow) (bookTickers : List BookTickerRow)
    (depths : List DepthRow) :
    firstDuplicate 0 (SessionReplay.mergedIngestSeqs (sortedEvents trades bookTickers depths)) = none ↔
      (positives (·.ingestSeq) (trades.map (·.sequence)) ++
        positives (·.ingestSeq) (bookTickers.map (·.sequence))).Nodup := by
  have hsorted : (SessionReplay.mergedIngestSeqs
      (sortedEvents trades bookTickers depths)).Pairwise (· ≤ ·) := by
    refine (List.pairwise_mergeSort (fun a b c hab hbc => ?_) (fun a b => ?_) _).imp
      fun hab => of_decide_eq_true hab
    · rw [decide_eq_true_eq] at hab hbc ⊢
      exact Int64.le_trans hab hbc
    · simpa using Int64.le_total a b
  rw [firstDuplicate_eq_none, pairwise_lt_iff_nodup hsorted,
    (mergedIngestSeqs_perm trades bookTickers depths).nodup_iff]

theorem NumberSequenced.nodup (h : NumberSequenced number rows) :
    (positives number rows).Nodup := by
  refine List.Pairwise.imp (fun {a b} hab heq => ?_) h.increasing
  rw [heq] at hab
  exact Int64.lt_irrefl hab

theorem nodup_append_iff_disjoint {rows' : List SequenceRow} (h : WellSequenced rows)
    (h' : WellSequenced rows') :
    (positives (·.ingestSeq) rows ++ positives (·.ingestSeq) rows').Nodup ↔
      DisjointIngest rows rows' := by
  rw [List.nodup_append]
  simp only [h.ingest.nodup, h'.ingest.nodup, true_and, DisjointIngest]
  exact forall_congr' fun value => forall_congr' fun _ =>
    ⟨fun hne hmem => hne value hmem rfl, fun hnot other hother heq => hnot (heq ▸ hother)⟩

namespace SessionReplay

/-! ## The whole of `finalize` -/

/-- A pass that changes no more than the summary and the text of an error. -/
def SameReplay (s s' : SessionReplay) : Prop :=
  ∃ detail summary, s' = { s with errorDetail := detail, integritySummary := summary }

theorem validateChannel_same (channel : IntegrityChannel) (name : Bytes) (rows : List SequenceRow)
    (s : SessionReplay) : SameReplay s (s.validateChannel channel name rows).2 := by
  unfold validateChannel failChannel
  cases rows with
  | nil => exact ⟨_, _, rfl⟩
  | cons front rows =>
    dsimp only
    cases firstFault 0 0 0 (front :: rows) with
    | some fault => exact ⟨_, _, rfl⟩
    | none =>
      dsimp only
      repeat' split
      all_goals exact ⟨_, _, rfl⟩

theorem noteDuplicates_same (s : SessionReplay) : SameReplay s s.noteDuplicates := by
  unfold noteDuplicates
  split <;> exact ⟨_, _, rfl⟩

theorem restorePartialDepthIncident_same (s : SessionReplay) :
    SameReplay s s.restorePartialDepthIncident := by
  unfold restorePartialDepthIncident
  split <;> exact ⟨_, _, rfl⟩

variable {s : SessionReplay}

theorem SameReplay.trans {s' s'' : SessionReplay} (h : SameReplay s s') (h' : SameReplay s' s'') :
    SameReplay s s'' := by
  obtain ⟨detail, summary, rfl⟩ := h
  obtain ⟨detail', summary', rfl⟩ := h'
  exact ⟨detail', summary', rfl⟩

theorem validateSequenceMetadata_same (s : SessionReplay) :
    SameReplay s s.validateSequenceMetadata.2 := by
  unfold validateSequenceMetadata
  dsimp only
  have hchannels := (validateChannel_same .trades (text "trades") (s.trades.map (·.sequence)) s).trans
    (validateChannel_same .bookTicker (text "bookticker")
      ((s.validateChannel .trades (text "trades") (s.trades.map (·.sequence))).2.bookTickers.map
        (·.sequence)) _)
  split
  · exact hchannels
  · exact hchannels.trans (noteDuplicates_same _)

/-- The rows of a channel as the checks see them. -/
def sequenceRows (s : SessionReplay) : LiveChannel → List SequenceRow
  | .trades => s.trades.map (·.sequence)
  | .bookTicker => s.bookTickers.map (·.sequence)
  | .depth => s.depths.map (·.sequence)

theorem clean_noteDuplicates (s : SessionReplay) (channel : IntegrityChannel) :
    Clean s.noteDuplicates.integritySummary channel ↔
      Clean s.integritySummary channel ∧
        (channel = .trades → firstDuplicate 0 (mergedIngestSeqs s.events) = none) := by
  unfold noteDuplicates
  cases hdup : firstDuplicate 0 (mergedIngestSeqs s.events) with
  | none => simp
  | some duplicate =>
    dsimp only
    simp only [SessionIntegritySummary.clean_noteIncident, SessionIntegritySummary.clean_degrade]
    simp [duplicateIncident]

/-- What the checks of the sequence numbers leave clean. -/
theorem clean_validateSequenceMetadata
    (hevents : s.events = sortedEvents s.trades s.bookTickers s.depths)
    (channel : IntegrityChannel) :
    Clean s.validateSequenceMetadata.2.integritySummary channel ↔
      Clean s.integritySummary channel ∧
        (channel = .trades → WellSequenced (s.sequenceRows .trades) ∧
          BothNumbers (s.sequenceRows .trades) ∧
          (WellSequenced (s.sequenceRows .bookTicker) →
            DisjointIngest (s.sequenceRows .trades) (s.sequenceRows .bookTicker))) ∧
        (channel = .bookTicker → WellSequenced (s.sequenceRows .bookTicker) ∧
          BothNumbers (s.sequenceRows .bookTicker)) := by
  obtain ⟨detail, summary, hs₁⟩ :=
    validateChannel_same .trades (text "trades") (s.trades.map (·.sequence)) s
  have htrades := clean_validateChannel .trades (text "trades") (s.trades.map (·.sequence)) s channel
  have hok₁ := validateChannel_fst .trades (text "trades") (s.trades.map (·.sequence)) s
  unfold validateSequenceMetadata
  generalize s.validateChannel .trades (text "trades") (s.trades.map (·.sequence)) = first
    at hs₁ htrades hok₁
  obtain ⟨tradesOk, s₁⟩ := first
  dsimp only at hs₁ htrades hok₁ ⊢
  have hrows : s₁.bookTickers = s.bookTickers := by rw [hs₁]
  have hevents₁ : s₁.events = s.events := by rw [hs₁]
  rw [hrows]
  obtain ⟨detail', summary', hs₂⟩ :=
    validateChannel_same .bookTicker (text "bookticker") (s.bookTickers.map (·.sequence)) s₁
  have hbook := clean_validateChannel .bookTicker (text "bookticker")
    (s.bookTickers.map (·.sequence)) s₁ channel
  have hok₂ := validateChannel_fst .bookTicker (text "bookticker") (s.bookTickers.map (·.sequence)) s₁
  generalize s₁.validateChannel .bookTicker (text "bookticker") (s.bookTickers.map (·.sequence))
    = second at hs₂ hbook hok₂
  obtain ⟨bookTickerOk, s₂⟩ := second
  dsimp only at hs₂ hbook hok₂ ⊢
  have hevents₂ : s₂.events = sortedEvents s.trades s.bookTickers s.depths := by
    rw [hs₂]
    exact hevents₁.trans hevents
  rw [channelOk_iff] at htrades hbook
  simp only [sequenceRows]
  -- The check across the channels is made only if both channels have passed.
  cases hok : !tradesOk || !bookTickerOk with
  | true =>
    simp only [if_true]
    rw [hbook, htrades]
    have hnot : ¬(WellSequenced (s.trades.map (·.sequence)) ∧
        WellSequenced (s.bookTickers.map (·.sequence))) := by
      rw [← channelOk_iff, ← channelOk_iff, ← hok₁, ← hok₂]
      cases tradesOk <;> simp_all
    constructor
    · rintro ⟨⟨hclean, hfirst⟩, hsecond⟩
      exact ⟨hclean, fun h => ⟨(hfirst h).1, (hfirst h).2, fun hw => absurd ⟨(hfirst h).1, hw⟩ hnot⟩,
        hsecond⟩
    · rintro ⟨hclean, hfirst, hsecond⟩
      exact ⟨⟨hclean, fun h => ⟨(hfirst h).1, (hfirst h).2.1⟩⟩, hsecond⟩
  | false =>
    simp only [Bool.false_eq_true, if_false]
    rw [clean_noteDuplicates, hevents₂, firstDuplicate_mergedIngestSeqs, hbook, htrades]
    have hboth : WellSequenced (s.trades.map (·.sequence)) ∧
        WellSequenced (s.bookTickers.map (·.sequence)) := by
      rw [← channelOk_iff, ← channelOk_iff, ← hok₁, ← hok₂]
      cases tradesOk <;> simp_all
    rw [nodup_append_iff_disjoint hboth.1 hboth.2]
    constructor
    · rintro ⟨⟨⟨hclean, hfirst⟩, hsecond⟩, hdisjoint⟩
      exact ⟨hclean, fun h => ⟨(hfirst h).1, (hfirst h).2, fun _ => hdisjoint h⟩, hsecond⟩
    · rintro ⟨hclean, hfirst, hsecond⟩
      exact ⟨⟨⟨hclean, fun h => ⟨(hfirst h).1, (hfirst h).2.1⟩⟩, hsecond⟩,
        fun h => (hfirst h).2.2 hboth.2⟩

/-- Everything that a replay is judged by: the hints, the checks of the trades and book tickers, and
the presence and age of the rows. -/
structure Judged (s : SessionReplay) : Prop where
  captured : s.manifestHints.capturedExactReplayEligible = true
  enabled : ∃ channel, s.manifestHints.enabled channel = true
  incidents : ∀ channel, s.manifestHints.enabled channel = true →
    s.manifestHints.capturedIncidents channel = none
  rows : ∀ channel, s.manifestHints.enabled channel = true →
    s.rowCount channel ≠ 0 ∨ s.manifestHints.required channel = false
  sequenced : ∀ channel, s.manifestHints.enabled channel = true → channel ≠ .depth →
    WellSequenced (s.sequenceRows channel) ∧ BothNumbers (s.sequenceRows channel)
  disjoint : s.manifestHints.enabled .trades = true → WellSequenced (s.sequenceRows .bookTicker) →
    DisjointIngest (s.sequenceRows .trades) (s.sequenceRows .bookTicker)
  bookTickers : ¬ SessionIntegritySummary.Stale s.manifestHints .bookTicker
    (s.bookTickers.map (·.arrival))
  depths : ¬ SessionIntegritySummary.Stale s.manifestHints .depth (s.depths.map (·.arrival))
  complete : s.manifestHints.enabled .depth = true → s.partialDepthCorrupt = false

theorem clean_restorePartialDepthIncident (s : SessionReplay) (channel : IntegrityChannel) :
    Clean s.restorePartialDepthIncident.integritySummary channel ↔
      Clean s.integritySummary channel ∧ (channel = .depth → s.partialDepthCorrupt = false) := by
  unfold restorePartialDepthIncident
  cases s.partialDepthCorrupt with
  | false => simp
  | true =>
    simp only [Bool.not_true, Bool.false_eq_true, if_false]
    exact (SessionIntegritySummary.clean_fail _ (rfl : _ = IntegrityChannel.depth) _ _).trans (by simp)

/-- The state that `finalize` checks: a new timeline, and the book before it. -/
def opened (s : SessionReplay) : SessionReplay :=
  s.restart.rebuildEvents.rebuildBuckets.rewindToSnapshot

/-- The state after all checks of `finalize`. -/
def checked (s : SessionReplay) : SessionReplay :=
  s.opened.restorePartialDepthIncident.validateSequenceMetadata.2.markStaleLiveChannels

theorem finalize_summary (s : SessionReplay) :
    s.finalize.integritySummary = s.checked.refreshHealthSummary.integritySummary := by
  unfold finalize
  dsimp only
  split <;> rfl

theorem checked_same (s : SessionReplay) : SameReplay s.opened s.checked :=
  ((restorePartialDepthIncident_same _).trans (validateSequenceMetadata_same _)).trans ⟨_, _, rfl⟩

theorem SameReplay.sequenceRows {s' : SessionReplay} (h : SameReplay s s') :
    s'.sequenceRows = s.sequenceRows := by
  obtain ⟨detail, summary, rfl⟩ := h
  funext channel
  cases channel <;> rfl

/-- What all checks of `finalize` leave clean. -/
theorem clean_checked (s : SessionReplay) (channel : IntegrityChannel) :
    Clean s.checked.integritySummary channel ↔
      ((Clean (.reset s.manifestHints) channel ∧ (channel = .depth → s.partialDepthCorrupt = false)) ∧
        (channel = .trades → WellSequenced (s.sequenceRows .trades) ∧
          BothNumbers (s.sequenceRows .trades) ∧
          (WellSequenced (s.sequenceRows .bookTicker) →
            DisjointIngest (s.sequenceRows .trades) (s.sequenceRows .bookTicker))) ∧
        (channel = .bookTicker → WellSequenced (s.sequenceRows .bookTicker) ∧
          BothNumbers (s.sequenceRows .bookTicker))) ∧
      (channel = .bookTicker → ¬ SessionIntegritySummary.Stale s.manifestHints .bookTicker
        (s.bookTickers.map (·.arrival))) ∧
      (channel = .depth → ¬ SessionIntegritySummary.Stale s.manifestHints .depth
        (s.depths.map (·.arrival))) := by
  have hrestored := restorePartialDepthIncident_same s.opened
  have hpartial := clean_restorePartialDepthIncident s.opened channel
  have hrows : s.opened.restorePartialDepthIncident.sequenceRows = s.sequenceRows := by
    rw [hrestored.sequenceRows]
    funext other
    cases other <;> rfl
  have hvalidated := validateSequenceMetadata_same s.opened.restorePartialDepthIncident
  have hevents : s.opened.restorePartialDepthIncident.events
      = sortedEvents s.opened.restorePartialDepthIncident.trades
        s.opened.restorePartialDepthIncident.bookTickers
        s.opened.restorePartialDepthIncident.depths := by
    obtain ⟨detail, summary, hstart⟩ := hrestored
    rw [hstart]
    rfl
  have hchecked := clean_validateSequenceMetadata hevents channel
  have hstale := SessionIntegritySummary.clean_markStaleLiveChannels s.manifestHints
    (s.bookTickers.map (·.arrival)) (s.depths.map (·.arrival))
    s.opened.restorePartialDepthIncident.validateSequenceMetadata.2.integritySummary channel
  rw [hrows, hpartial] at hchecked
  have hsummary : s.checked.integritySummary
      = s.opened.restorePartialDepthIncident.validateSequenceMetadata.2.integritySummary.markStaleLiveChannels
        s.manifestHints (s.bookTickers.map (·.arrival)) (s.depths.map (·.arrival)) := by
    obtain ⟨detail, summary, hsame⟩ := hrestored.trans hvalidated
    rw [checked, markStaleLiveChannels, hsame]
    rfl
  rw [hsummary, hstale, hchecked]
  rfl

/-- The verdict of `finalize`. -/
theorem exact_iff (s : SessionReplay) :
    s.finalize.integritySummary.exactReplayEligible = true ↔ s.Judged := by
  obtain ⟨detail, summary, hsame⟩ := checked_same s
  have hcount : s.checked.rowCount = s.rowCount := by
    rw [hsame]
    funext channel
    cases channel <;> rfl
  have hhints : s.checked.manifestHints = s.manifestHints := by rw [hsame]; rfl
  rw [finalize_summary, refreshHealthSummary, hcount, hhints,
    SessionIntegritySummary.refreshHealth_exact]
  simp only [SessionIntegritySummary.Passes, clean_checked, SessionIntegritySummary.clean_reset]
  -- Each condition is read off the channel that it is about.
  constructor
  · rintro ⟨hcaptured, henabled, hpasses⟩
    refine ⟨hcaptured, henabled, fun channel h => (hpasses channel h).1.1.1.1,
      fun channel h => (hpasses channel h).2, ?_, ?_, ?_, ?_, ?_⟩
    · rintro channel h hdepth
      cases channel with
      | trades => exact ⟨((hpasses _ h).1.1.2.1 rfl).1, ((hpasses _ h).1.1.2.1 rfl).2.1⟩
      | bookTicker => exact (hpasses _ h).1.1.2.2 rfl
      | depth => exact absurd rfl hdepth
    · exact fun h => ((hpasses _ h).1.1.2.1 rfl).2.2
    · exact fun hstale => (hpasses _ hstale.2.1).1.2.1 rfl hstale
    · exact fun hstale => (hpasses _ hstale.2.1).1.2.2 rfl hstale
    · exact fun h => (hpasses _ h).1.1.1.2 rfl
  · intro h
    refine ⟨h.captured, h.enabled, fun channel hchannel => ⟨⟨⟨⟨h.incidents channel hchannel, ?_⟩,
      ?_, ?_⟩, fun _ => h.bookTickers, fun _ => h.depths⟩, h.rows channel hchannel⟩⟩
    · intro hdepth
      cases channel with
      | depth => exact h.complete hchannel
      | trades => cases hdepth
      | bookTicker => cases hdepth
    · intro htrades
      cases channel with
      | trades =>
        obtain ⟨hwell, hboth⟩ := h.sequenced _ hchannel (by decide)
        exact ⟨hwell, hboth, h.disjoint hchannel⟩
      | bookTicker => cases htrades
      | depth => cases htrades
    · intro hbook
      cases channel with
      | bookTicker => exact h.sequenced _ hchannel (by decide)
      | trades => cases hbook
      | depth => cases hbook

/-- The sequence numbers of the enabled channels are in order, and no positive ingest number is in two
of them. -/
structure Sequenced (s : SessionReplay) : Prop where
  channels : ∀ channel, s.manifestHints.enabled channel = true → WellSequenced (s.sequenceRows channel)
  disjoint : ∀ channel other, channel ≠ other → s.manifestHints.enabled channel = true →
    s.manifestHints.enabled other = true →
    DisjointIngest (s.sequenceRows channel) (s.sequenceRows other)

/-- The part of `Sequenced` that is about the depth rows. -/
structure DepthSequenced (s : SessionReplay) : Prop where
  rows : s.manifestHints.enabled .depth = true → WellSequenced (s.sequenceRows .depth)
  disjoint : ∀ channel, channel ≠ .depth → s.manifestHints.enabled channel = true →
    s.manifestHints.enabled .depth = true →
    DisjointIngest (s.sequenceRows channel) (s.sequenceRows .depth)

theorem disjointIngest_symm {rows rows' : List SequenceRow} (h : DisjointIngest rows rows') :
    DisjointIngest rows' rows := fun value hvalue hmem => h value hmem hvalue

theorem Judged.sequenced_of_depth (h : s.Judged) (hdepth : s.DepthSequenced) :
    s.Sequenced where
  channels channel henabled := by
    by_cases heq : channel = .depth
    · subst heq
      exact hdepth.rows henabled
    · exact (h.sequenced channel henabled heq).1
  disjoint channel other hne henabled hother := by
    have htrades : s.manifestHints.enabled .trades = true → s.manifestHints.enabled .bookTicker = true →
        DisjointIngest (s.sequenceRows .trades) (s.sequenceRows .bookTicker) := fun ht hb =>
      h.disjoint ht (h.sequenced .bookTicker hb (by decide)).1
    cases channel <;> cases other
    case trades.trades | bookTicker.bookTicker | depth.depth => exact absurd rfl hne
    case trades.bookTicker => exact htrades henabled hother
    case bookTicker.trades => exact disjointIngest_symm (htrades hother henabled)
    case trades.depth | bookTicker.depth => exact hdepth.disjoint _ hne henabled hother
    case depth.trades | depth.bookTicker =>
      exact disjointIngest_symm (hdepth.disjoint _ hne.symm hother henabled)

/-- A replay that is said to be exact has its sequence numbers in order if and only if those of its
depth rows are, which no check of `finalize` looks at. -/
theorem exact_sequenced_iff (s : SessionReplay) :
    (s.finalize.integritySummary.exactReplayEligible = true → s.Sequenced) ↔
      (s.Judged → s.DepthSequenced) := by
  rw [exact_iff]
  constructor
  · intro h hjudged
    have hsequenced := h hjudged
    exact ⟨hsequenced.channels .depth, fun channel hne => hsequenced.disjoint channel .depth hne⟩
  · exact fun h hjudged => hjudged.sequenced_of_depth (h hjudged)

/-- A depth row with the given capture number. -/
def numberedDepth (captureSeq : Int64) : DepthRow where
  eventId := 1
  tsNs := 7
  captureSeq
  ingestSeq := captureSeq
  arrival := {
    receiveRealtimeNs := 8, receiveMonotonicNs := 1, producerEpoch := 1, sourceGeneration := 1
    sessionEpoch := 1, frameSequence := 1, shardSequence := 1, sourceId := 1, flags := 1 }

/-- A session of depth rows only, whose numbers go down. -/
def fallingDepths : SessionReplay where
  depths := [numberedDepth 2, numberedDepth 1]
  manifestHints := { present := true, enabled := fun channel => channel = .depth }

theorem fallingDepths_exact : fallingDepths.finalize.integritySummary.exactReplayEligible = true ∧
    ¬ fallingDepths.Sequenced := by
  refine ⟨(exact_iff _).mpr ?_, fun h => ?_⟩
  · have hended : ¬ (0 : Int64) < 0 := by decide
    refine ⟨rfl, ⟨.depth, rfl⟩, fun _ _ => rfl, ?_, ?_, fun h => ?_, fun h => hended h.1,
      fun h => hended h.1, fun _ => rfl⟩
    · rintro (_ | _ | _) henabled
      · cases henabled
      · cases henabled
      · exact Or.inl (by decide)
    · rintro (_ | _ | _) henabled hdepth
      · cases henabled
      · cases henabled
      · exact absurd rfl hdepth
    · cases h
  have hincreasing := (h.channels .depth rfl).capture.increasing
  revert hincreasing
  decide

end SessionReplay

end HftRecorder.Replay
