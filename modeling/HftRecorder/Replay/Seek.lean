import HftRecorder.Replay.Timeline

/-!
# Seeking gives the book at a time

The cursor, the buckets and the book of a replay are reset by different calls: a new timeline sets the
cursor back but leaves the book as it is, and a snapshot sets the book back but leaves the cursor. So
the book is the one of the cursor only while no such call comes between two seeks. Since applying the
depth rows again over a book that has some of them gives the same book, a seek right after a new
timeline is still right if it does not go back before the last row of the book
(`ReplayOp.Conforms`).

`Positioned` says where the book stands; `Tracked.step` is one call and `Tracked.run` any sequence of
calls.
-/

namespace HftRecorder.Replay

open ByteLayout (Bytes)
open Json
open SessionReplay

/-- The depth rows up to a time, in the order of the timeline. -/
def rowsUpTo (depths : List DepthRow) (t : Int64) : List DepthRow :=
  (depths.mergeSort earlierDepth).filter fun row => row.tsNs ≤ t

/-! ## The timeline of some rows -/

/-- The timeline of a replay was built from `depths`, the first of its depth rows. -/
structure BuiltFrom (s : SessionReplay) (depths : List DepthRow) : Prop where
  rows : depths <+: s.depths
  size : depths.length ≤ 2 ^ 32
  buckets : s.buckets = s.events.foldl addToBuckets []
  events : ∃ (trades : List TradeRow) (bookTickers : List BookTickerRow),
    WellSequenced (trades.map (·.sequence)) ∧ WellSequenced (bookTickers.map (·.sequence)) ∧
      s.events = sortedEvents trades bookTickers depths

namespace BuiltFrom

variable {s : SessionReplay} {depths : List DepthRow}

theorem sorted (h : BuiltFrom s depths) : s.events.Pairwise fun a b => a.tsNs ≤ b.tsNs := by
  obtain ⟨trades, bookTickers, htrades, hbook, hevents⟩ := h.events
  rw [hevents]
  refine (pairwise_sortedEvents htrades hbook).imp fun {a b} hkey => ?_
  rw [Int64.le_iff_toInt_le]
  simp only [Event.key] at hkey
  split at hkey <;>
  · rw [Prod.Lex.toLex_le_toLex] at hkey
    rcases hkey with hlt | ⟨heq, -⟩
    · exact hlt.le
    · exact heq.le

theorem increasing (h : BuiltFrom s depths) : s.buckets.Pairwise fun a b => a.tsNs < b.tsNs := by
  rw [h.buckets]
  exact pairwise_buckets h.sorted

theorem item_mem (h : BuiltFrom s depths) {bucket : ReplayBucket} (hbucket : bucket ∈ s.buckets)
    {item : BucketItem} (hitem : item ∈ bucket.items) : ∃ event ∈ s.events, event.item = item := by
  have hmem : (bucket.tsNs, item) ∈ bucketEvents s.buckets :=
    List.mem_flatMap.mpr ⟨bucket, hbucket, List.mem_map.mpr ⟨item, hitem, rfl⟩⟩
  rw [h.buckets, bucketEvents_foldl] at hmem
  obtain ⟨event, hevent, heq⟩ := List.mem_map.mp hmem
  exact ⟨event, hevent, (Prod.mk.inj heq).2⟩

theorem bucketRows_eq (h : BuiltFrom s depths) {bucket : ReplayBucket} (hbucket : bucket ∈ s.buckets) :
    bucketRows s.depths bucket = bucketRows depths bucket := by
  obtain ⟨trades, bookTickers, -, -, hevents⟩ := h.events
  refine List.filterMap_congr fun item hitem => ?_
  obtain ⟨event, hevent, rfl⟩ := h.item_mem hbucket hitem
  have hmem : event ∈ loadedEvents trades bookTickers depths := by
    rw [hevents] at hevent
    exact (List.mergeSort_perm _ _).mem_iff.mp hevent
  simp only [loadedEvents, List.mem_append, depthEvents, tradeEvents, bookTickerEvents,
    List.mem_mapIdx] at hmem
  rcases hmem with (⟨i, hi, rfl⟩ | ⟨i, hi, rfl⟩) | ⟨i, hi, rfl⟩
  · have hindex : (UInt32.ofNat i).toNat = i :=
      UInt32.toNat_ofNat_of_lt' (show i < 2 ^ 32 from lt_of_lt_of_le hi h.size)
    simp only [depthRow?, Event.item, hindex, if_true]
    obtain ⟨later, hlater⟩ := h.rows
    rw [← hlater, List.getElem?_append_left hi]
  · rfl
  · rfl

theorem rows_filter (h : BuiltFrom s depths) (t : Int64) :
    (s.buckets.filter fun bucket => bucket.tsNs ≤ t).flatMap (bucketRows depths)
      = rowsUpTo depths t := by
  obtain ⟨trades, bookTickers, htrades, hbook, hevents⟩ := h.events
  have hperm : (sortedEvents trades bookTickers depths).Perm (loadedEvents trades bookTickers depths) :=
    List.mergeSort_perm _ _
  rw [h.buckets, flatMap_bucketRows, hevents, rowsUpTo, ← timelineRows_eq h.size htrades hbook,
    List.filter_filterMap, List.filterMap_filter]
  refine List.filterMap_congr fun event hevent => ?_
  cases hrow : depthRow? depths event.item with
  | none => simp
  | some row =>
    -- A depth event has the time of its row.
    have hts := (depthIndex?_eq_some h.size (hperm.mem_iff.mp hevent)
      (show depthIndex? depths event = some (row, event.rowIndex.toNat) by rw [depthIndex?, hrow]; rfl)).1
    by_cases hle : event.tsNs ≤ t <;> simp [Option.filter, hts, hle]

theorem rows_all (h : BuiltFrom s depths) :
    s.buckets.flatMap (bucketRows depths) = depths.mergeSort earlierDepth := by
  have hle : ∀ t : Int64, t ≤ Int64.maxValue := Int64.le_maxValue
  simpa [rowsUpTo, hle] using h.rows_filter Int64.maxValue

theorem rows_take (h : BuiltFrom s depths) (n : ℕ) :
    ((s.buckets.take n).flatMap (bucketRows depths)).Pairwise (fun a b => a.tsNs ≤ b.tsNs) ∧
      (s.buckets.take n).flatMap (bucketRows depths) ⊆ depths := by
  have hsub : List.Sublist ((s.buckets.take n).flatMap (bucketRows depths))
      (depths.mergeSort earlierDepth) := by
    rw [← h.rows_all]
    exact (List.take_sublist n s.buckets).flatMap _
  have hsorted := (List.pairwise_mergeSort earlierDepth_trans earlierDepth_total depths).sublist hsub
  refine ⟨hsorted.imp fun hle => of_decide_eq_true hle, fun row hrow => ?_⟩
  exact (List.mergeSort_perm _ _).mem_iff.mp (hsub.subset hrow)

end BuiltFrom

/-! ## The book and the cursor -/

/-- Where the book stands. With buckets behind the cursor it is the book of these. Before the first
bucket it may have rows already, but none that is later than its time. -/
structure Positioned (s : SessionReplay) (depths : List DepthRow) : Prop where
  built : BuiltFrom s depths
  bounded : s.cursor ≤ s.buckets.length
  advanced : 0 < s.cursor →
    s.book = s.baseBook.applyRows ((s.buckets.take s.cursor).flatMap (bucketRows depths))
  waiting : s.cursor = 0 → ∃ applied ⊆ depths, s.book = s.baseBook.applyRows applied ∧
    ∀ row ∈ applied, row.tsNs ≤ s.book.lastTsNs

namespace Positioned

variable {s : SessionReplay} {depths : List DepthRow}

theorem applied (h : Positioned s depths) : ∃ applied ⊆ depths,
    s.book = s.baseBook.applyRows applied ∧ ∀ row ∈ applied, row.tsNs ≤ s.book.lastTsNs := by
  rcases Nat.eq_zero_or_pos s.cursor with hzero | hpos
  · exact h.waiting hzero
  · obtain ⟨hsorted, hsub⟩ := h.built.rows_take s.cursor
    refine ⟨_, hsub, h.advanced hpos, fun row hrow => ?_⟩
    rw [h.advanced hpos, applyRows_eq]
    generalize (s.buckets.take s.cursor).flatMap (bucketRows depths) = rows at hsorted hrow
    -- The time of the book is the one of the last row.
    obtain ⟨front, last, rfl⟩ := List.eq_nil_or_concat rows |>.resolve_left (List.ne_nil_of_mem hrow)
    simp only [List.concat_eq_append, List.getLast?_append, List.getLast?_singleton, Option.some_or,
      Option.map_some, Option.getD_some]
    rw [List.concat_eq_append, List.mem_append, List.mem_singleton] at hrow
    rw [List.concat_eq_append, List.pairwise_append] at hsorted
    rcases hrow with hfront | rfl
    · exact hsorted.2.2 row hfront last (by simp)
    · exact Int64.le_refl _

variable {t : Int64}

/-- The book after the loop of `seek`, if the buckets behind the cursor are not later than the target
and the book has no later rows. -/
theorem advance_book (h : Positioned s depths)
    (hpast : ∀ bucket ∈ s.buckets.take s.cursor, bucket.tsNs ≤ t)
    (hbook : s.cursor = 0 → s.book = s.baseBook ∨ s.book.lastTsNs ≤ t) :
    (s.advance t).book = s.baseBook.applyRows (rowsUpTo depths t) ∧
      (s.buckets.take (s.advance t).cursor).flatMap (bucketRows depths) = rowsUpTo depths t := by
  have hwhole : (s.buckets.filter fun bucket => bucket.tsNs ≤ t) = s.buckets.take s.cursor ++
      (s.buckets.drop s.cursor).takeWhile fun bucket => bucket.tsNs ≤ t := by
    rw [← takeWhile_buckets h.built.increasing, ← List.takeWhile_append_of_pos, List.take_append_drop]
    simpa using hpast
  have hrows := h.built.rows_filter t
  rw [hwhole, List.flatMap_append] at hrows
  have hpassed : s.buckets.take (s.advance t).cursor = s.buckets.take s.cursor ++
      (s.buckets.drop s.cursor).takeWhile fun bucket => bucket.tsNs ≤ t := by
    rw [advance, List.take_add, ← List.prefix_iff_eq_take.mp (List.takeWhile_prefix _)]
  rw [hpassed, List.flatMap_append]
  refine ⟨?_, hrows⟩
  have hfold : (s.advance t).book = s.book.applyRows
      (((s.buckets.drop s.cursor).takeWhile fun bucket => bucket.tsNs ≤ t).flatMap
        (bucketRows depths)) := by
    rw [advance]
    dsimp only
    rw [foldl_applyBucket]
    congr 1
    refine List.flatMap_congr fun bucket hbucket => h.built.bucketRows_eq ?_
    exact List.mem_of_mem_drop ((List.takeWhile_sublist _).subset hbucket)
  rw [hfold]
  rcases Nat.eq_zero_or_pos s.cursor with hzero | hpos
  · rw [hzero, List.take_zero, List.flatMap_nil, List.nil_append] at hrows
    rw [hzero, hrows]
    rcases hbook hzero with hbase | hlast
    · rw [hbase]
    · -- The rows that the book has are applied again.
      obtain ⟨applied, hsub, heq, hlate⟩ := h.waiting hzero
      rw [heq, applyRows_applyRows]
      intro row hrow
      rw [rowsUpTo, List.mem_filter, (List.mergeSort_perm _ _).mem_iff, decide_eq_true_eq]
      exact ⟨hsub hrow, Int64.le_trans (hlate row hrow) hlast⟩
  · rw [h.advanced hpos, ← applyRows_append, hrows]

theorem advance (h : Positioned s depths)
    (hpast : ∀ bucket ∈ s.buckets.take s.cursor, bucket.tsNs ≤ t)
    (hbook : s.cursor = 0 → s.book = s.baseBook ∨ s.book.lastTsNs ≤ t) :
    Positioned (s.advance t) depths := by
  obtain ⟨heq, hrows⟩ := h.advance_book hpast hbook
  refine ⟨⟨h.built.rows, h.built.size, h.built.buckets, h.built.events⟩, ?_, fun hpos => ?_,
    fun hzero => ?_⟩
  · have hlength := (List.takeWhile_sublist (l := s.buckets.drop s.cursor)
      fun bucket => bucket.tsNs ≤ t).length_le
    have hbounded := h.bounded
    rw [List.length_drop] at hlength
    simp only [SessionReplay.advance]
    omega
  · rw [heq, ← hrows]
    rfl
  · rw [hzero, List.take_zero, List.flatMap_nil] at hrows
    refine ⟨[], by simp, ?_, by simp⟩
    rw [heq, ← hrows]
    rfl

theorem rewindToSnapshot (h : Positioned s depths) : Positioned s.rewindToSnapshot depths :=
  ⟨⟨h.built.rows, h.built.size, h.built.buckets, h.built.events⟩, Nat.zero_le _,
    fun hpos => absurd hpos (lt_irrefl 0), fun _ => ⟨[], by simp, rfl, by simp⟩⟩

/-- The buckets behind the cursor are not later than a time that it has reached. -/
theorem past_le (h : Positioned s depths) (hcurrent : ¬ t < s.currentTsNs) {bucket : ReplayBucket}
    (hbucket : bucket ∈ s.buckets.take s.cursor) : bucket.tsNs ≤ t := by
  obtain ⟨i, hi, rfl⟩ := List.mem_iff_getElem.mp hbucket
  rw [List.length_take] at hi
  have hbounded := h.bounded
  have hlast : s.cursor - 1 < s.buckets.length := by omega
  rw [currentTsNs, if_neg (by omega), List.getElem?_eq_getElem hlast, Option.map_some,
    Option.getD_some, Int64.not_lt] at hcurrent
  rw [List.getElem_take]
  rcases Nat.lt_or_ge i (s.cursor - 1) with hlt | hge
  · have hbefore := List.pairwise_iff_getElem.mp h.built.increasing i (s.cursor - 1) (by omega) hlast hlt
    exact Int64.le_of_lt (Int64.lt_of_lt_of_le hbefore hcurrent)
  · have heq : i = s.cursor - 1 := by omega
    subst heq
    exact hcurrent

theorem seek (h : Positioned s depths) (hok : s.status = .ok)
    (hconforms : s.cursor = 0 → t < s.snapshot.tsNs ∨ s.book.lastTsNs ≤ t) :
    (s.seek t).book = s.baseBook.applyRows (rowsUpTo depths t) ∧ Positioned (s.seek t) depths := by
  unfold SessionReplay.seek
  rw [if_neg (not_not.mpr hok)]
  split
  · have hrewound := h.rewindToSnapshot
    have hpast : ∀ bucket ∈ s.rewindToSnapshot.buckets.take s.rewindToSnapshot.cursor,
        bucket.tsNs ≤ t := by simp [SessionReplay.rewindToSnapshot]
    have hbase : s.rewindToSnapshot.cursor = 0 →
        s.rewindToSnapshot.book = s.rewindToSnapshot.baseBook ∨ s.rewindToSnapshot.book.lastTsNs ≤ t :=
      fun _ => Or.inl rfl
    exact ⟨(hrewound.advance_book hpast hbase).1, hrewound.advance hpast hbase⟩
  · rename_i hcurrent
    have hpast : ∀ bucket ∈ s.buckets.take s.cursor, bucket.tsNs ≤ t :=
      fun bucket hbucket => h.past_le hcurrent hbucket
    have hbook : s.cursor = 0 → s.book = s.baseBook ∨ s.book.lastTsNs ≤ t := by
      intro hzero
      rw [currentTsNs, if_pos hzero] at hcurrent
      exact Or.inr ((hconforms hzero).resolve_left hcurrent)
    exact ⟨(h.advance_book hpast hbook).1, h.advance hpast hbook⟩

theorem restarted (h : Positioned s depths) {s' : SessionReplay} {depths' : List DepthRow}
    (hbuilt : BuiltFrom s' depths') (hsub : depths ⊆ depths') (hcursor : s'.cursor = 0)
    (hbook : s'.book = s.book) (hbase : s'.baseBook = s.baseBook) : Positioned s' depths' := by
  refine ⟨hbuilt, by omega, fun hpos => by omega, fun _ => ?_⟩
  obtain ⟨applied, hdepths, heq, hlate⟩ := h.applied
  exact ⟨applied, fun row hrow => hsub (hdepths hrow), by rw [hbook, hbase, heq], by rwa [hbook]⟩

end Positioned

/-! ## Calls -/

namespace SessionReplay

variable {s : SessionReplay}

theorem wellSequenced_of_validate (h : s.validateSequenceMetadata.1 = true) :
    WellSequenced (s.trades.map (·.sequence)) ∧ WellSequenced (s.bookTickers.map (·.sequence)) := by
  unfold validateSequenceMetadata at h
  dsimp only at h
  have hbookTickers : (s.validateChannel .trades (text "trades")
      (s.trades.map (·.sequence))).2.bookTickers = s.bookTickers := by
    obtain ⟨detail, summary, heq⟩ := validateChannel_same .trades (text "trades")
      (s.trades.map (·.sequence)) s
    rw [heq]
  rw [validateChannel_fst, validateChannel_fst, hbookTickers] at h
  split at h
  · cases h
  · rename_i hfails
    simpa [channelOk_iff] using hfails

theorem builtFrom_rebuilt (hsize : s.depths.length ≤ 2 ^ 32)
    (hrows : WellSequenced (s.trades.map (·.sequence)) ∧ WellSequenced (s.bookTickers.map (·.sequence)))
    {s' : SessionReplay} (hsame : SameReplay s.restart.rebuildEvents.rebuildBuckets s') :
    BuiltFrom s' s.depths := by
  obtain ⟨detail, summary, rfl⟩ := hsame
  exact ⟨List.prefix_rfl, hsize, rfl, s.trades, s.bookTickers, hrows.1, hrows.2, rfl⟩

theorem refreshLiveTimeline_ok (hok : s.refreshLiveTimeline.status = .ok) :
    (WellSequenced (s.trades.map (·.sequence)) ∧ WellSequenced (s.bookTickers.map (·.sequence))) ∧
      SameReplay s.restart.rebuildEvents.rebuildBuckets s.refreshLiveTimeline := by
  unfold refreshLiveTimeline at hok ⊢
  dsimp only at hok ⊢
  split at hok
  · cases hok
  · rename_i hfails
    simp only [Bool.or_eq_true, not_or, Bool.not_eq_true', Bool.not_eq_false] at hfails
    rw [if_neg (by simpa using hfails)]
    have hrows := wellSequenced_of_validate hfails.1.2
    exact ⟨hrows, (validateSequenceMetadata_same _).trans ⟨_, _, rfl⟩⟩

theorem finalize_ok (hok : s.finalize.status = .ok) :
    (WellSequenced (s.trades.map (·.sequence)) ∧ WellSequenced (s.bookTickers.map (·.sequence))) ∧
      SameReplay s.opened s.finalize := by
  unfold finalize at hok ⊢
  dsimp only at hok ⊢
  split at hok
  · cases hok
  · rename_i hfails
    simp only [Bool.or_eq_true, not_or, Bool.not_eq_true', Bool.not_eq_false] at hfails
    rw [if_neg (by simpa using hfails)]
    have hsame := restorePartialDepthIncident_same
      s.restart.rebuildEvents.rebuildBuckets.rewindToSnapshot
    have hrows := wellSequenced_of_validate hfails.1.2
    refine ⟨?_, (hsame.trans (validateSequenceMetadata_same _)).trans ⟨_, _, rfl⟩⟩
    obtain ⟨detail, summary, heq⟩ := hsame
    rwa [heq] at hrows

/-- A call that leaves rows, events and book; the buckets may be built again from the same events. -/
structure SameEvents (s s' : SessionReplay) : Prop where
  depths : s'.depths = s.depths
  events : s'.events = s.events
  book : s'.book = s.book
  baseBook : s'.baseBook = s.baseBook
  buckets : (s'.buckets = s.buckets ∧ s'.cursor = s.cursor) ∨
    (s'.buckets = s'.events.foldl addToBuckets [] ∧ s'.cursor = 0)

theorem addCandlesFile_sameEvents (path : Bytes) (file : Option Bytes) (rebuildTimeline : Bool)
    (s : SessionReplay) : SameEvents s (s.addCandlesFile path file rebuildTimeline).2 := by
  unfold addCandlesFile
  dsimp only
  split_ifs
  · exact ⟨rfl, rfl, rfl, rfl, Or.inl ⟨rfl, rfl⟩⟩
  · exact ⟨rfl, rfl, rfl, rfl, Or.inl ⟨rfl, rfl⟩⟩
  · exact ⟨rfl, rfl, rfl, rfl, Or.inr ⟨rfl, rfl⟩⟩
  · exact ⟨rfl, rfl, rfl, rfl, Or.inl ⟨rfl, rfl⟩⟩

theorem addCandles2File_sameEvents (path : Bytes) (file : Option Bytes) (rebuildTimeline : Bool)
    (s : SessionReplay) : SameEvents s (s.addCandles2File path file rebuildTimeline).2 := by
  unfold addCandles2File
  dsimp only
  split_ifs
  · exact ⟨rfl, rfl, rfl, rfl, Or.inl ⟨rfl, rfl⟩⟩
  · exact ⟨rfl, rfl, rfl, rfl, Or.inl ⟨rfl, rfl⟩⟩
  · exact ⟨rfl, rfl, rfl, rfl, Or.inr ⟨rfl, rfl⟩⟩
  · exact ⟨rfl, rfl, rfl, rfl, Or.inl ⟨rfl, rfl⟩⟩

end SessionReplay

/-- A call on a replay. The contents of a file are those at the time of the call. -/
inductive ReplayOp
  | appendTradeRow (row : TradeRow)
  | appendBookTickerRow (row : BookTickerRow)
  | appendDepthRow (row : DepthRow)
  | appendSnapshotDocument (snapshot : SnapshotDocument)
  | refreshLiveTimeline
  | finalize
  | addCandlesFile (path : Bytes) (file : Option Bytes) (rebuildTimeline : Bool)
  | addCandles2File (path : Bytes) (file : Option Bytes) (rebuildTimeline : Bool)
  | seek (targetTsNs : Int64)

namespace ReplayOp

def apply : ReplayOp → SessionReplay → SessionReplay
  | appendTradeRow row => SessionReplay.appendTradeRow row
  | appendBookTickerRow row => SessionReplay.appendBookTickerRow row
  | appendDepthRow row => SessionReplay.appendDepthRow row
  | appendSnapshotDocument snapshot => SessionReplay.appendSnapshotDocument snapshot
  | refreshLiveTimeline => SessionReplay.refreshLiveTimeline
  | finalize => SessionReplay.finalize
  | addCandlesFile path file rebuildTimeline =>
    fun s => (s.addCandlesFile path file rebuildTimeline).2
  | addCandles2File path file rebuildTimeline =>
    fun s => (s.addCandles2File path file rebuildTimeline).2
  | seek targetTsNs => SessionReplay.seek targetTsNs

/-- Whether the timeline has all rows after a call, if it had them before or not. -/
def fresh : ReplayOp → Bool → Bool
  | appendTradeRow _, _ | appendBookTickerRow _, _ | appendDepthRow _, _ => false
  | refreshLiveTimeline, _ | finalize, _ => true
  | _, before => before

/-- The calls that keep the book at the cursor: the rows have indices of 32 bits, a snapshot comes
before the first bucket, and the first seek in a timeline does not go back before the time of the
book unless it goes back before the snapshot. -/
def Conforms : ReplayOp → SessionReplay → Prop
  | appendSnapshotDocument _, s => s.cursor = 0
  | refreshLiveTimeline, s | finalize, s => s.depths.length ≤ 2 ^ 32
  | seek targetTsNs, s =>
    s.cursor = 0 → targetTsNs < s.snapshot.tsNs ∨ s.book.lastTsNs ≤ targetTsNs
  | _, _ => True

end ReplayOp

/-! ## Runs -/

namespace Positioned

variable {s : SessionReplay} {depths : List DepthRow}

theorem appended (h : Positioned s depths) {s' : SessionReplay} (hdepths : s.depths <+: s'.depths)
    (hevents : s'.events = s.events) (hbuckets : s'.buckets = s.buckets) (hcursor : s'.cursor = s.cursor)
    (hbook : s'.book = s.book) (hbase : s'.baseBook = s.baseBook) : Positioned s' depths := by
  refine ⟨⟨h.built.rows.trans hdepths, h.built.size, ?_, ?_⟩, ?_, ?_, ?_⟩
  · rw [hbuckets, hevents, h.built.buckets]
  · rw [hevents]
    exact h.built.events
  · rw [hcursor, hbuckets]
    exact h.bounded
  · rw [hcursor, hbuckets, hbook, hbase]
    exact h.advanced
  · rw [hcursor, hbook, hbase]
    exact h.waiting

theorem sameEvents (h : Positioned s depths) {s' : SessionReplay} (hsame : SameEvents s s') :
    Positioned s' depths := by
  have hrows : s.depths <+: s'.depths := by rw [hsame.depths]
  rcases hsame.buckets with ⟨hbuckets, hcursor⟩ | ⟨hbuckets, hcursor⟩
  · exact h.appended hrows hsame.events hbuckets hcursor hsame.book hsame.baseBook
  · refine h.restarted ⟨h.built.rows.trans hrows, h.built.size, hbuckets, ?_⟩ (List.Subset.refl _)
      hcursor hsame.book hsame.baseBook
    rw [hsame.events]
    exact h.built.events

theorem appendSnapshotDocument (h : Positioned s depths) (hcursor : s.cursor = 0)
    (snapshot : SnapshotDocument) : Positioned (s.appendSnapshotDocument snapshot) depths :=
  ⟨⟨h.built.rows, h.built.size, h.built.buckets, h.built.events⟩, h.bounded,
    fun hpos => absurd hcursor (Nat.pos_iff_ne_zero.mp hpos), fun _ => ⟨[], by simp, rfl, by simp⟩⟩

theorem refreshLiveTimeline (h : Positioned s depths) (hsize : s.depths.length ≤ 2 ^ 32)
    (hok : s.refreshLiveTimeline.status = .ok) : Positioned s.refreshLiveTimeline s.depths := by
  obtain ⟨hrows, hsame⟩ := refreshLiveTimeline_ok hok
  have hbuilt := builtFrom_rebuilt hsize hrows hsame
  obtain ⟨detail, summary, heq⟩ := hsame
  rw [heq] at hbuilt ⊢
  exact h.restarted hbuilt h.built.rows.subset rfl rfl rfl

theorem finalize (hsize : s.depths.length ≤ 2 ^ 32) (hok : s.finalize.status = .ok) :
    Positioned s.finalize s.depths := by
  obtain ⟨hrows, detail, summary, heq⟩ := finalize_ok hok
  have hbuilt := builtFrom_rebuilt hsize hrows ⟨detail, summary, rfl⟩
  rw [heq]
  exact ⟨⟨hbuilt.rows, hbuilt.size, hbuilt.buckets, hbuilt.events⟩, Nat.zero_le _,
    fun hpos => absurd hpos (lt_irrefl 0), fun _ => ⟨[], by simp, rfl, by simp⟩⟩

end Positioned

/-- The invariant of a run: the book stands at the cursor in a timeline of the first depth rows, which
are all of them if the timeline is fresh. -/
def Tracked (s : SessionReplay) (fresh : Bool) : Prop :=
  ∃ depths, Positioned s depths ∧ (fresh = true → depths = s.depths)

variable {s : SessionReplay}

/-- One call keeps the invariant. -/
theorem Tracked.step {fresh : Bool} (h : Tracked s fresh) {op : ReplayOp}
    (hconforms : op.Conforms s) (hok : s.status = .ok) (hok' : (op.apply s).status = .ok) :
    Tracked (op.apply s) (op.fresh fresh) := by
  obtain ⟨depths, hpos, hfresh⟩ := h
  cases op with
  | appendTradeRow row | appendBookTickerRow row =>
    exact ⟨depths, hpos.appended List.prefix_rfl rfl rfl rfl rfl rfl, nofun⟩
  | appendDepthRow row =>
    exact ⟨depths, hpos.appended (List.prefix_append _ _) rfl rfl rfl rfl rfl, nofun⟩
  | appendSnapshotDocument snapshot =>
    exact ⟨depths, hpos.appendSnapshotDocument hconforms snapshot, hfresh⟩
  | refreshLiveTimeline =>
    obtain ⟨-, detail, summary, heq⟩ := refreshLiveTimeline_ok hok'
    refine ⟨s.depths, hpos.refreshLiveTimeline hconforms hok', fun _ => ?_⟩
    rw [ReplayOp.apply, heq]
    rfl
  | finalize =>
    obtain ⟨-, detail, summary, heq⟩ := finalize_ok hok'
    refine ⟨s.depths, Positioned.finalize hconforms hok', fun _ => ?_⟩
    rw [ReplayOp.apply, heq]
    rfl
  | addCandlesFile path file rebuildTimeline =>
    have hsame := addCandlesFile_sameEvents path file rebuildTimeline s
    exact ⟨depths, hpos.sameEvents hsame, fun hf => (hfresh hf).trans hsame.depths.symm⟩
  | addCandles2File path file rebuildTimeline =>
    have hsame := addCandles2File_sameEvents path file rebuildTimeline s
    exact ⟨depths, hpos.sameEvents hsame, fun hf => (hfresh hf).trans hsame.depths.symm⟩
  | seek t =>
    refine ⟨depths, (hpos.seek hok hconforms).2, fun hf => (hfresh hf).trans ?_⟩
    change s.depths = (s.seek t).depths
    unfold SessionReplay.seek
    split_ifs <;> rfl

def runOps (ops : List ReplayOp) (s : SessionReplay) : SessionReplay :=
  ops.foldl (fun s op => op.apply s) s

/-- The timeline has all rows after some calls. -/
def freshAfter (ops : List ReplayOp) (fresh : Bool) : Bool :=
  ops.foldl (fun before op => op.fresh before) fresh

/-- The status stays `Ok`. -/
def StaysOk : List ReplayOp → SessionReplay → Prop
  | [], s => s.status = .ok
  | op :: ops, s => s.status = .ok ∧ StaysOk ops (op.apply s)

def AllConform : List ReplayOp → SessionReplay → Prop
  | [], _ => True
  | op :: ops, s => op.Conforms s ∧ AllConform ops (op.apply s)

variable {ops : List ReplayOp}

theorem StaysOk.head (h : StaysOk ops s) : s.status = .ok := by
  cases ops with
  | nil => exact h
  | cons op ops => exact h.1

theorem StaysOk.last (h : StaysOk ops s) : (runOps ops s).status = .ok := by
  induction ops generalizing s with
  | nil => exact h
  | cons op ops ih => exact ih h.2

theorem Tracked.run {fresh : Bool} (h : Tracked s fresh) (hok : StaysOk ops s)
    (hconform : AllConform ops s) : Tracked (runOps ops s) (freshAfter ops fresh) := by
  induction ops generalizing s fresh with
  | nil => exact h
  | cons op ops ih => exact ih (h.step hconform.1 hok.1 hok.2.head) hok.2 hconform.2

theorem tracked_empty : Tracked {} true := by
  refine ⟨[], ⟨⟨List.prefix_rfl, by decide, rfl, [], [], ?_, ?_, ?_⟩, Nat.zero_le _,
    fun hpos => absurd hpos (lt_irrefl 0), fun _ => ⟨[], by simp, rfl, by simp⟩⟩, fun _ => rfl⟩
  · exact (channelOk_iff []).mp rfl
  · exact (channelOk_iff []).mp rfl
  · simp [sortedEvents, depthEvents, tradeEvents, bookTickerEvents]

/-- In a run from a tracked state whose calls conform and whose status stays `Ok`, a seek in a timeline
of all rows gives the snapshot with the depth rows up to the target. -/
theorem seek_book_at {s : SessionReplay} {fresh : Bool} (h : Tracked s fresh) (ops : List ReplayOp)
    (t : Int64) (hok : StaysOk ops s) (hfresh : freshAfter ops fresh = true)
    (hconform : AllConform ops s) (hseek : (ReplayOp.seek t).Conforms (runOps ops s)) :
    ((runOps ops s).seek t).book =
      (runOps ops s).baseBook.applyRows (rowsUpTo (runOps ops s).depths t) := by
  obtain ⟨depths, hpos, hdepths⟩ := h.run hok hconform
  rw [(hpos.seek hok.last hseek).1, hdepths hfresh]

def bidRow : DepthRow where
  tsNs := 20
  levels := [{ priceE8 := 1, qtyE8 := 1, side := 0 }]

theorem sortedEvents_bidRow : sortedEvents [] [] [bidRow]
    = [{ tsNs := 20, ingestSeq := 0, rowIndex := 0, kind := .depth }] := by
  simp [sortedEvents, depthEvents, tradeEvents, bookTickerEvents, bidRow]

/-- The only row of a replay is `bidRow`. -/
structure OnlyBidRow (s : SessionReplay) : Prop where
  trades : s.trades = []
  bookTickers : s.bookTickers = []
  depths : s.depths = [bidRow]
  hints : s.manifestHints = {}

/-- A replay of this row passes all checks. -/
theorem OnlyBidRow.refreshLiveTimeline_status (h : OnlyBidRow s) :
    s.refreshLiveTimeline.status = .ok := by
  have hsequence : s.restart.rebuildEvents.rebuildBuckets.validateSequenceMetadata
      = (true, s.restart.rebuildEvents.rebuildBuckets) := by
    simp [validateSequenceMetadata, validateChannel, noteDuplicates, restart, rebuildEvents,
      rebuildBuckets, h.trades, h.bookTickers, h.depths, sortedEvents_bidRow, mergedIngestSeqs,
      firstDuplicate]
  have hcount : s.restart.rebuildEvents.rebuildBuckets.markStaleLiveChannels.rowCount
      = fun channel => if channel = .depth then 1 else 0 := by
    funext channel
    cases channel <;>
      simp [rowCount, restart, rebuildEvents, rebuildBuckets, markStaleLiveChannels, h.trades,
        h.bookTickers, h.depths]
  have hhealth : (((SessionIntegritySummary.reset {}).markStaleLiveChannels {} []
      [bidRow.arrival]).refreshHealth {} (fun channel => if channel = .depth then 1 else 0)
        s.snapshotLoaded).sessionHealth ≠ .corrupt := by
    cases s.snapshotLoaded <;> decide +kernel
  unfold refreshLiveTimeline
  dsimp only
  rw [hsequence]
  dsimp only
  rw [if_neg]
  · rfl
  · simp only [validateDepthStream, Bool.not_true, Bool.or_self, Bool.false_or, decide_eq_true_eq]
    rw [refreshHealthSummary, hcount]
    simp only [markStaleLiveChannels, restart, rebuildEvents, rebuildBuckets, h.bookTickers, h.depths,
      h.hints]
    exact hhealth

theorem OnlyBidRow.refreshLiveTimeline_eq (h : OnlyBidRow s) :
    ∃ detail summary, s.refreshLiveTimeline = { s with
      events := [{ tsNs := 20, ingestSeq := 0, rowIndex := 0, kind := .depth }]
      buckets := [{ tsNs := 20, items := [{ ingestSeq := 0, rowIndex := 0, kind := .depth }] }]
      cursor := 0
      firstTsNs := 20
      lastTsNs := 20
      status := .ok
      errorDetail := detail
      integritySummary := summary } := by
  obtain ⟨-, detail, summary, heq⟩ := refreshLiveTimeline_ok h.refreshLiveTimeline_status
  refine ⟨detail, summary, heq.trans ?_⟩
  simp [restart, rebuildEvents, rebuildBuckets, h.trades, h.bookTickers, h.depths,
    sortedEvents_bidRow, addToBuckets, timeBounds, Event.item]

/-- The row is loaded and passed, and then the timeline is built again. -/
def rebuiltOps : List ReplayOp :=
  [.appendDepthRow bidRow, .refreshLiveTimeline, .seek 20, .refreshLiveTimeline]

/-- The bid is in the book, with the cursor at the first bucket. -/
theorem rebuiltOps_state : StaysOk rebuiltOps {} ∧ AllConform rebuiltOps {} ∧
    ∃ detail summary, runOps rebuiltOps {} =
      { depths := [bidRow]
        events := [{ tsNs := 20, ingestSeq := 0, rowIndex := 0, kind := .depth }]
        buckets := [{ tsNs := 20, items := [{ ingestSeq := 0, rowIndex := 0, kind := .depth }] }]
        book := BookState.applyRows {} [bidRow]
        firstTsNs := 20
        lastTsNs := 20
        errorDetail := detail
        integritySummary := summary } := by
  have hloaded : OnlyBidRow (SessionReplay.appendDepthRow bidRow {}) := ⟨rfl, rfl, rfl, rfl⟩
  obtain ⟨detail, summary, heq⟩ := hloaded.refreshLiveTimeline_eq
  have hsought : OnlyBidRow ((SessionReplay.appendDepthRow bidRow {}).refreshLiveTimeline.seek 20) := by
    rw [heq]
    exact ⟨rfl, rfl, rfl, rfl⟩
  obtain ⟨detail', summary', heq'⟩ := hsought.refreshLiveTimeline_eq
  have hsize : ∀ {s : SessionReplay}, OnlyBidRow s → s.depths.length ≤ 2 ^ 32 := by
    intro s h
    rw [h.depths]
    decide
  refine ⟨⟨rfl, rfl, ?_, ?_, hsought.refreshLiveTimeline_status⟩,
    ⟨trivial, hsize hloaded, fun _ => Or.inr ?_, hsize hsought, trivial⟩,
    detail', summary', heq'.trans ?_⟩
  · exact hloaded.refreshLiveTimeline_status
  · change ((SessionReplay.appendDepthRow bidRow {}).refreshLiveTimeline.seek 20).status = .ok
    rw [heq]
    rfl
  · change (SessionReplay.appendDepthRow bidRow {}).refreshLiveTimeline.book.lastTsNs ≤ 20
    rw [heq]
    exact (by decide : (0 : Int64) ≤ 20)
  · rw [heq]
    rfl

/-- Going on to the same time applies the row once more and gives the right book. -/
theorem seek_book_at_again :
    ((runOps rebuiltOps {}).seek 20).book =
      (runOps rebuiltOps {}).baseBook.applyRows (rowsUpTo (runOps rebuiltOps {}).depths 20) := by
  obtain ⟨hok, hconform, detail, summary, heq⟩ := rebuiltOps_state
  refine seek_book_at tracked_empty rebuiltOps 20 hok rfl hconform fun _ => Or.inr ?_
  rw [heq]
  exact (by decide : (20 : Int64) ≤ 20)

/-- Going back does not rewind: the bid of time 20 is still in the book of time 10. -/
theorem seek_back_keeps_bid : StaysOk rebuiltOps {} ∧ freshAfter rebuiltOps true = true ∧
    ((runOps rebuiltOps {}).seek 10).book.bids 1 = some 1 ∧
    ((runOps rebuiltOps {}).baseBook.applyRows (rowsUpTo (runOps rebuiltOps {}).depths 10)).bids 1
      = none := by
  obtain ⟨hok, -, detail, summary, heq⟩ := rebuiltOps_state
  refine ⟨hok, rfl, ?_, ?_⟩
  · rw [heq]
    rfl
  · rw [heq]
    have hnone : rowsUpTo [bidRow] 10 = [] := by simp [rowsUpTo, bidRow]
    rw [hnone]
    rfl

end HftRecorder.Replay
