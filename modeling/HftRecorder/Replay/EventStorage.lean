import HftRecorder.Lib.PartitionPoint
import HftRecorder.Replay.Rows

/-!
# The live event store

`LiveEventStore` of `Corpus/Storage/EventStorage.cpp` keeps the rows of a running session in the order
in which they are appended. `readRange` selects the rows in a range of times and sorts them;
`readDepthRange` and `readSnapshotAtOrBefore` look for the ends of the range by bisection, as if the rows
had been appended in order. They agree with the selection exactly if the rows were (`InOrder`).
-/

namespace HftRecorder.Storage

open PartitionPoint
open Replay (TradeRow BookTickerRow DepthRow SnapshotDocument)

structure EventBatch where
  trades : List TradeRow := []
  bookTickers : List BookTickerRow := []
  depths : List DepthRow := []
  snapshots : List SnapshotDocument := []

structure LiveEventStore where
  events : EventBatch := {}
  version : UInt64 := 0

/-- The members of a row that it is sorted by. -/
structure RowKey where
  tsNs : Int64
  captureSeq : Int64 := 0
  ingestSeq : Int64 := 0

/-- `eventLess`; a row without sequence numbers is compared by its time alone. -/
def eventLess (lhs rhs : RowKey) : Bool :=
  if lhs.tsNs ≠ rhs.tsNs then lhs.tsNs < rhs.tsNs
  else if lhs.captureSeq ≠ rhs.captureSeq then lhs.captureSeq < rhs.captureSeq
  else lhs.ingestSeq < rhs.ingestSeq

def tradeKey (row : TradeRow) : RowKey :=
  { tsNs := row.tsNs, captureSeq := row.captureSeq, ingestSeq := row.ingestSeq }

def bookTickerKey (row : BookTickerRow) : RowKey :=
  { tsNs := row.tsNs, captureSeq := row.captureSeq, ingestSeq := row.ingestSeq }

def depthKey (row : DepthRow) : RowKey :=
  { tsNs := row.tsNs, captureSeq := row.captureSeq, ingestSeq := row.ingestSeq }

def snapshotKey (row : SnapshotDocument) : RowKey := { tsNs := row.tsNs }

variable {Row : Type}

def inRange (key : Row → RowKey) (fromTsNs toTsNs : Int64) (row : Row) : Bool :=
  (key row).tsNs ≥ fromTsNs && (key row).tsNs ≤ toTsNs

/-- `appendRowsInSortedRange` to an empty list. -/
def rowsInSortedRange (search : PartitionSearch) (key : Row → RowKey) (src : List Row)
    (fromTsNs toTsNs : Int64) : List Row :=
  if src.isEmpty || toTsNs < fromTsNs then []
  else
    let fromBegin := src.drop (search.point (fun row => (key row).tsNs < fromTsNs) src)
    fromBegin.take (search.point (fun row => !(toTsNs < (key row).tsNs)) fromBegin)

/-- `appendRowsInAnyOrderRange` to an empty list. -/
def rowsInAnyOrderRange (key : Row → RowKey) (src : List Row) (fromTsNs toTsNs : Int64) : List Row :=
  if src.isEmpty || toTsNs < fromTsNs then []
  else
    (src.filter (inRange key fromTsNs toTsNs)).mergeSort
      fun lhs rhs => !eventLess (key rhs) (key lhs)

namespace LiveEventStore

def appendTrade (store : LiveEventStore) (row : TradeRow) : LiveEventStore :=
  { events := { store.events with trades := store.events.trades ++ [row] }
    version := store.version + 1 }

def appendBookTicker (store : LiveEventStore) (row : BookTickerRow) : LiveEventStore :=
  { events := { store.events with bookTickers := store.events.bookTickers ++ [row] }
    version := store.version + 1 }

def appendDepth (store : LiveEventStore) (row : DepthRow) : LiveEventStore :=
  { events := { store.events with depths := store.events.depths ++ [row] }
    version := store.version + 1 }

def appendSnapshot (store : LiveEventStore) (snapshot : SnapshotDocument) : LiveEventStore :=
  { events := { store.events with snapshots := store.events.snapshots ++ [snapshot] }
    version := store.version + 1 }

def readRange (store : LiveEventStore) (fromTsNs toTsNs : Int64) : EventBatch where
  trades := rowsInAnyOrderRange tradeKey store.events.trades fromTsNs toTsNs
  bookTickers := rowsInAnyOrderRange bookTickerKey store.events.bookTickers fromTsNs toTsNs
  depths := rowsInAnyOrderRange depthKey store.events.depths fromTsNs toTsNs
  snapshots := rowsInAnyOrderRange snapshotKey store.events.snapshots fromTsNs toTsNs

/-- The snapshot before the first later one. -/
def readSnapshotAtOrBefore (search : PartitionSearch) (store : LiveEventStore) (tsNs : Int64) :
    Option SnapshotDocument :=
  let it := search.point (fun row => !(tsNs < row.tsNs)) store.events.snapshots
  if it = 0 then none else store.events.snapshots[it - 1]?

def readDepthRange (search : PartitionSearch) (store : LiveEventStore) (fromTsNs toTsNs : Int64) :
    List DepthRow :=
  rowsInSortedRange search depthKey store.events.depths fromTsNs toTsNs

end LiveEventStore

/-- A row that is appended. -/
inductive Append
  | trade (row : TradeRow)
  | bookTicker (row : BookTickerRow)
  | depth (row : DepthRow)
  | snapshot (row : SnapshotDocument)

def LiveEventStore.append (store : LiveEventStore) : Append → LiveEventStore
  | .trade row => store.appendTrade row
  | .bookTicker row => store.appendBookTicker row
  | .depth row => store.appendDepth row
  | .snapshot row => store.appendSnapshot row

def LiveEventStore.run (appends : List Append) : LiveEventStore :=
  appends.foldl LiveEventStore.append {}

def Append.depth? : Append → Option DepthRow
  | .depth row => some row
  | _ => none

def Append.snapshot? : Append → Option SnapshotDocument
  | .snapshot row => some row
  | _ => none

theorem run_events (appends : List Append) :
    (LiveEventStore.run appends).events.depths = appends.filterMap Append.depth? ∧
      (LiveEventStore.run appends).events.snapshots = appends.filterMap Append.snapshot? := by
  induction appends using List.reverseRecOn with
  | nil => exact ⟨rfl, rfl⟩
  | append_singleton appends last ih =>
    rw [LiveEventStore.run, List.foldl_append, ← LiveEventStore.run, List.filterMap_append,
      List.filterMap_append, ← ih.1, ← ih.2]
    cases last <;> simp [LiveEventStore.append, LiveEventStore.appendTrade,
      LiveEventStore.appendBookTicker, LiveEventStore.appendDepth, LiveEventStore.appendSnapshot,
      Append.depth?, Append.snapshot?]

/-! ## The order of the rows -/

theorem eventLess_iff_lex {a b : RowKey} : eventLess a b = true ↔
    a.tsNs.toInt < b.tsNs.toInt ∨ a.tsNs.toInt = b.tsNs.toInt ∧
      (a.captureSeq.toInt < b.captureSeq.toInt ∨ a.captureSeq.toInt = b.captureSeq.toInt ∧
        a.ingestSeq.toInt < b.ingestSeq.toInt) := by
  simp only [eventLess, ne_eq, ← Int64.toInt_inj, Int64.lt_iff_toInt_lt]
  split_ifs <;> simp only [decide_eq_true_eq] <;> omega

theorem not_eventLess_trans (a b c : RowKey) (hab : (!eventLess b a) = true)
    (hbc : (!eventLess c b) = true) : (!eventLess c a) = true := by
  rw [Bool.not_eq_true', ← Bool.not_eq_true, eventLess_iff_lex] at *
  omega

theorem not_eventLess_total (a b : RowKey) : ((!eventLess b a) || !eventLess a b) = true := by
  rw [Bool.or_eq_true, Bool.not_eq_true', Bool.not_eq_true', ← Bool.not_eq_true, ← Bool.not_eq_true,
    eventLess_iff_lex, eventLess_iff_lex]
  omega

def Sorted (key : Row → RowKey) (rows : List Row) : Prop :=
  rows.Pairwise fun a b => (!eventLess (key b) (key a)) = true

theorem sorted_mergeSort (key : Row → RowKey) (rows : List Row) :
    Sorted key (rows.mergeSort fun lhs rhs => !eventLess (key rhs) (key lhs)) :=
  List.pairwise_mergeSort (fun a b c => not_eventLess_trans (key a) (key b) (key c))
    (fun a b => not_eventLess_total (key a) (key b)) rows

theorem Sorted.tsNs_le {key : Row → RowKey} {rows : List Row} (h : Sorted key rows) :
    rows.Pairwise fun a b => (key a).tsNs ≤ (key b).tsNs := by
  refine h.imp fun {a b} hab => ?_
  rw [Bool.not_eq_true', ← Bool.not_eq_true, eventLess_iff_lex] at hab
  rw [Int64.le_iff_toInt_le]
  omega

/-- On sorted rows bisection selects the same rows as the sorted selection. -/
theorem rowsInSortedRange_eq (search : PartitionSearch) {key : Row → RowKey} {src : List Row}
    (h : Sorted key src) (fromTsNs toTsNs : Int64) :
    rowsInSortedRange search key src fromTsNs toTsNs = rowsInAnyOrderRange key src fromTsNs toTsNs := by
  have hfrom : Partitioned (fun row => decide ((key row).tsNs < fromTsNs)) src :=
    partitioned_of_pairwise (h.tsNs_le.imp fun hle hlt =>
      decide_eq_true (Int64.lt_of_le_of_lt hle (of_decide_eq_true hlt)))
  have hto : Partitioned (fun row => !decide (toTsNs < (key row).tsNs))
      (src.filter fun row => !decide ((key row).tsNs < fromTsNs)) := by
    refine partitioned_of_pairwise ((h.tsNs_le.filter _).imp fun hle hnot => ?_)
    simp only [Bool.not_eq_true', decide_eq_false_iff_not, Int64.not_lt] at hnot ⊢
    exact Int64.le_trans hle hnot
  have hsorted : ((src.filter (inRange key fromTsNs toTsNs)).mergeSort
      fun lhs rhs => !eventLess (key rhs) (key lhs)) = src.filter (inRange key fromTsNs toTsNs) :=
    List.mergeSort_of_pairwise (List.Pairwise.filter _ h)
  unfold rowsInSortedRange rowsInAnyOrderRange
  split
  · rfl
  · dsimp only
    rw [search.drop_point hfrom, search.take_point hto, hsorted, List.filter_filter]
    refine List.filter_congr fun row _ => ?_
    rw [Bool.eq_iff_iff]
    simp only [inRange, Bool.and_eq_true, Bool.not_eq_true', decide_eq_false_iff_not, Int64.not_lt,
      decide_eq_true_eq]
    exact and_comm

theorem rowsInSortedRange_all (search : PartitionSearch) (key : Row → RowKey) (src : List Row) :
    rowsInSortedRange search key src Int64.minValue Int64.maxValue = src := by
  have hfrom : Partitioned (fun row => decide ((key row).tsNs < Int64.minValue)) src :=
    fun row _ => decide_eq_false (Int64.not_lt.mpr (Int64.minValue_le _))
  have hto : ∀ row ∈ src, (!decide (Int64.maxValue < (key row).tsNs)) = true := fun row _ => by
    simp
  have hempty : src.isEmpty = true → src = [] := List.isEmpty_iff.mp
  unfold rowsInSortedRange
  split
  · rename_i hnone
    simp only [Bool.or_eq_true, decide_eq_true_eq] at hnone
    rcases hnone with hnil | hbounds
    · exact (hempty hnil).symm
    · exact absurd hbounds (by decide)
  · dsimp only
    have hall : src.filter (fun row => !decide ((key row).tsNs < Int64.minValue)) = src :=
      List.filter_eq_self.mpr fun row _ => by simp
    rw [search.drop_point hfrom, hall, search.take_point ?_, List.filter_eq_self.mpr hto]
    exact partitioned_of_pairwise (List.pairwise_of_forall_mem_list fun a ha b _ _ => hto a ha)

theorem rowsInAnyOrderRange_all (key : Row → RowKey) (src : List Row) :
    rowsInAnyOrderRange key src Int64.minValue Int64.maxValue
      = src.mergeSort fun lhs rhs => !eventLess (key rhs) (key lhs) := by
  have hall : src.filter (inRange key Int64.minValue Int64.maxValue) = src :=
    List.filter_eq_self.mpr fun row _ => by
      simp [inRange, Int64.minValue_le, Int64.le_maxValue]
  unfold rowsInAnyOrderRange
  rw [hall]
  cases src with
  | nil => simp
  | cons row rows => rfl

/-! ## The fast reads -/

/-- The depth rows of every range are those of `readRange`, and the snapshot at a time is the latest one
up to that time. -/
structure FastReadsAgree (search : PartitionSearch) (appends : List Append) : Prop where
  depths : ∀ fromTsNs toTsNs, (LiveEventStore.run appends).readDepthRange search fromTsNs toTsNs
    = ((LiveEventStore.run appends).readRange fromTsNs toTsNs).depths
  snapshot : ∀ tsNs, (∃ row, Append.snapshot row ∈ appends ∧ row.tsNs ≤ tsNs) →
    ∃ row, (LiveEventStore.run appends).readSnapshotAtOrBefore search tsNs = some row ∧
      Append.snapshot row ∈ appends ∧ row.tsNs ≤ tsNs ∧
      ∀ other, Append.snapshot other ∈ appends → other.tsNs ≤ tsNs → other.tsNs ≤ row.tsNs

/-- The depth rows are appended in the order in which they are sorted, the snapshots in the order of
their times. -/
structure InOrder (appends : List Append) : Prop where
  depths : Sorted depthKey (appends.filterMap Append.depth?)
  snapshots : (appends.filterMap Append.snapshot?).Pairwise fun a b => a.tsNs ≤ b.tsNs

theorem mem_snapshots {appends : List Append} {row : SnapshotDocument} :
    row ∈ (LiveEventStore.run appends).events.snapshots ↔ Append.snapshot row ∈ appends := by
  rw [(run_events appends).2, List.mem_filterMap]
  constructor
  · rintro ⟨append, hmem, hsome⟩
    cases append <;> simp only [Append.snapshot?, reduceCtorEq, Option.some.injEq] at hsome
    subst hsome
    exact hmem
  · exact fun hmem => ⟨_, hmem, rfl⟩

theorem readSnapshotAtOrBefore_eq (search : PartitionSearch) {store : LiveEventStore} {tsNs : Int64}
    (h : Partitioned (fun row : SnapshotDocument => !decide (tsNs < row.tsNs)) store.events.snapshots) :
    store.readSnapshotAtOrBefore search tsNs
      = (store.events.snapshots.filter fun row => !decide (tsNs < row.tsNs)).getLast? := by
  unfold LiveEventStore.readSnapshotAtOrBefore
  rw [← h.takeWhile_eq, search.point_eq h, List.getLast?_eq_getElem?]
  dsimp only
  generalize hfront : store.events.snapshots.takeWhile (fun row => !decide (tsNs < row.tsNs)) = front
  have hprefix : front <+: store.events.snapshots := hfront ▸ List.takeWhile_prefix _
  obtain ⟨rest, hrest⟩ := hprefix
  split
  · rename_i hzero
    rw [List.length_eq_zero_iff.mp hzero]
    rfl
  · rw [← hrest, List.getElem?_append_left (by omega)]

/-- Rows that were appended in order are read alike by both ways. -/
theorem fastReadsAgree_of_inOrder (search : PartitionSearch) {appends : List Append}
    (h : InOrder appends) : FastReadsAgree search appends := by
  obtain ⟨hdepths, hsnapshots⟩ := run_events appends
  constructor
  · intro fromTsNs toTsNs
    refine rowsInSortedRange_eq search ?_ fromTsNs toTsNs
    rw [hdepths]
    exact h.depths
  · rintro tsNs ⟨row, hrow, hle⟩
    have hsorted := h.snapshots
    rw [← hsnapshots] at hsorted
    have hpartitioned : Partitioned (fun row : SnapshotDocument => !decide (tsNs < row.tsNs))
        (LiveEventStore.run appends).events.snapshots := by
      refine partitioned_of_pairwise (hsorted.imp fun hab hb => ?_)
      simp only [Bool.not_eq_true', decide_eq_false_iff_not, Int64.not_lt] at hb ⊢
      exact Int64.le_trans hab hb
    rw [readSnapshotAtOrBefore_eq search hpartitioned]
    have hmem : ∀ {other}, other ∈ ((LiveEventStore.run appends).events.snapshots.filter
        fun row => !decide (tsNs < row.tsNs)) ↔ Append.snapshot other ∈ appends ∧ other.tsNs ≤ tsNs := by
      intro other
      simp [List.mem_filter, mem_snapshots, Int64.not_lt]
    have hpairs := hsorted.filter fun row => !decide (tsNs < row.tsNs)
    generalize ((LiveEventStore.run appends).events.snapshots.filter
      fun row => !decide (tsNs < row.tsNs)) = front at hmem hpairs
    -- The last of the snapshots up to the time is the latest.
    have hne : front ≠ [] := List.ne_nil_of_mem (hmem.mpr ⟨hrow, hle⟩)
    have hlast := List.getLast_mem hne
    refine ⟨front.getLast hne, List.getLast?_eq_some_getLast hne, (hmem.mp hlast).1,
      (hmem.mp hlast).2, fun other hother hle' => ?_⟩
    have hin := hmem.mpr ⟨hother, hle'⟩
    rw [← List.dropLast_append_getLast hne, List.mem_append, List.mem_singleton] at hin
    rcases hin with hbefore | heq
    · rw [← List.dropLast_append_getLast hne, List.pairwise_append] at hpairs
      exact hpairs.2.2 other hbefore _ (by simp)
    · rw [heq]
      exact Int64.le_refl _

theorem sorted_of_fastReadsAgree {search : PartitionSearch} {appends : List Append}
    (h : FastReadsAgree search appends) : Sorted depthKey (appends.filterMap Append.depth?) := by
  have hall : (LiveEventStore.run appends).events.depths
      = (LiveEventStore.run appends).events.depths.mergeSort
        fun lhs rhs => !eventLess (depthKey rhs) (depthKey lhs) := by
    rw [← rowsInAnyOrderRange_all]
    exact (rowsInSortedRange_all search depthKey _).symm.trans (h.depths _ _)
  rw [← (run_events appends).1, hall]
  exact sorted_mergeSort depthKey _

theorem inOrder_of_fastReadsAgree {appends : List Append} (h : FastReadsAgree cautious appends) :
    InOrder appends := by
  refine ⟨sorted_of_fastReadsAgree h, ?_⟩
  rw [← (run_events appends).2, List.pairwise_iff_forall_sublist]
  intro a b hab
  by_contra hnot
  rw [Int64.not_le] at hnot
  -- At the time of the second snapshot the first one is a later one in front of it.
  have hbroken : ¬ Partitioned (fun row : SnapshotDocument => !decide (b.tsNs < row.tsNs))
      (LiveEventStore.run appends).events.snapshots :=
    not_partitioned hab (by simpa using hnot) (by simp)
  obtain ⟨row, hread, -⟩ := h.snapshot b.tsNs
    ⟨b, mem_snapshots.mp (hab.subset (by simp)), Int64.le_refl _⟩
  simp [LiveEventStore.readSnapshotAtOrBefore, cautious, hbroken] at hread

/-- The fast reads agree with the selection for every search that finds the end of a partition, exactly
if the rows are appended in order. -/
theorem fastReadsAgree_iff (appends : List Append) :
    (∀ search, FastReadsAgree search appends) ↔ InOrder appends :=
  ⟨fun h => inOrder_of_fastReadsAgree (h cautious), fun h search => fastReadsAgree_of_inOrder search h⟩

/-- Two depth rows, the later one first, are read in that order by every search; of two snapshots, the
later one first, the earlier one is read at the time of the later one. -/
theorem later_rows_first :
    (¬ ∃ search, FastReadsAgree search [.depth { tsNs := 2 }, .depth { tsNs := 1 }]) ∧
      ¬ ∃ search, FastReadsAgree search [.snapshot { tsNs := 2 }, .snapshot { tsNs := 1 }] := by
  refine ⟨fun ⟨search, h⟩ => ?_, fun ⟨search, h⟩ => ?_⟩
  · have hsorted := sorted_of_fastReadsAgree h
    revert hsorted
    simp [Append.depth?, Sorted, depthKey, eventLess]
  · obtain ⟨row, hread, -, -, hlatest⟩ := h.snapshot 2 ⟨{ tsNs := 2 }, by simp, by decide⟩
    rw [readSnapshotAtOrBefore_eq search (by decide)] at hread
    have hrow : row = { tsNs := 1 } := by
      rw [← Option.some.injEq, ← hread]
      decide
    have hle := hlatest { tsNs := 2 } (by simp) (by decide)
    rw [hrow] at hle
    exact absurd hle (by decide)

end HftRecorder.Storage
