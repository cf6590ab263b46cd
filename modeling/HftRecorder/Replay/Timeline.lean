import HftRecorder.Replay.Exactness
import Mathlib.Order.Lex
import Mathlib.Data.Prod.Lex

/-!
# The timeline of a replay

`rebuildEvents_` compares two events by their ingest numbers only if both have one, so the comparison
is an order only on rows whose channels have the numbers on all rows or on none. On those rows it is the
lexicographic order of a key (`eventLess_eq`), and the sorted timeline goes through the depth rows in
the order of their times, rows of one time in the order in which they were loaded (`timelineRows_eq`).

The buckets of a timeline hold its events in order (`bucketEvents_foldl`) and have increasing times
(`pairwise_buckets`), so the buckets up to a time hold the events up to that time.
-/

namespace HftRecorder.Replay

open Session (LiveChannel)

/-! ## The order of the events -/

def Event.number (event : Event) : ℤ := if 0 < event.ingestSeq then event.ingestSeq.toInt else 0

/-- The key of an event: with numbers in both channels they come before the kind. -/
def Event.key (numbered : Bool) (event : Event) : ℤ ×ₗ ℤ ×ₗ ℤ ×ₗ ℕ :=
  if numbered then
    toLex (event.tsNs.toInt, toLex (event.number, toLex ((event.kind.value : ℤ), event.rowIndex.toNat)))
  else
    toLex (event.tsNs.toInt, toLex ((event.kind.value : ℤ), toLex (event.number, event.rowIndex.toNat)))

theorem EventKind.value_inj {a b : EventKind} : a.value = b.value ↔ a = b := by
  cases a <;> cases b <;> simp [EventKind.value]

/-- The events of a timeline that can be sorted: rows of one kind have a number together, and if rows
of two kinds have one then all rows but the depth rows have. -/
structure Comparable (numbered : Bool) (a b : Event) : Prop where
  same : a.kind = b.kind → (0 < a.ingestSeq ↔ 0 < b.ingestSeq)
  other : a.kind ≠ b.kind → 0 < a.ingestSeq → 0 < b.ingestSeq → numbered = true
  left : numbered = true → (0 < a.ingestSeq ↔ a.kind ≠ .depth)
  right : numbered = true → (0 < b.ingestSeq ↔ b.kind ≠ .depth)

theorem eventLess_eq {numbered : Bool} {a b : Event} (h : Comparable numbered a b) :
    (!eventLess b a) = decide (a.key numbered ≤ b.key numbered) := by
  obtain ⟨hsame, hother, hleft, hright⟩ := h
  have hzero : (0 : Int64).toInt = 0 := rfl
  have hdepth : EventKind.depth.value = 0 := rfl
  -- All comparisons are between integers.
  simp only [ne_eq, ← EventKind.value_inj, Int64.lt_iff_toInt_lt, hzero, hdepth]
    at hsame hother hleft hright
  rw [Bool.eq_iff_iff]
  simp only [eventLess, Event.key, Event.number, Bool.not_eq_true', ne_eq, ← Int64.toInt_inj,
    ← EventKind.value_inj, gt_iff_lt, Int64.lt_iff_toInt_lt, UInt32.lt_iff_toNat_lt, hzero,
    decide_eq_true_eq]
  cases numbered <;>
  · simp only [Bool.false_eq_true, if_false, if_true, Prod.Lex.toLex_le_toLex, false_imp_iff,
      imp_false, forall_const] at *
    split_ifs <;> simp only [decide_eq_false_iff_not, true_and] <;> omega

section Sorted

variable {trades : List TradeRow} {bookTickers : List BookTickerRow} {depths : List DepthRow}

def loadedEvents (trades : List TradeRow) (bookTickers : List BookTickerRow)
    (depths : List DepthRow) : List Event :=
  depthEvents depths ++ tradeEvents trades ++ bookTickerEvents bookTickers

/-- Both channels with numbers have them on all rows. -/
def allNumbered (trades : List TradeRow) (bookTickers : List BookTickerRow) : Bool :=
  (trades.all fun row => 0 < row.ingestSeq) && bookTickers.all fun row => 0 < row.ingestSeq

theorem mem_loadedEvents {event : Event} (h : event ∈ loadedEvents trades bookTickers depths) :
    (event.kind = .depth ∧ event.ingestSeq = 0) ∨
    (event.kind = .trade ∧ ∃ row ∈ trades, row.ingestSeq = event.ingestSeq) ∨
    (event.kind = .bookTicker ∧ ∃ row ∈ bookTickers, row.ingestSeq = event.ingestSeq) := by
  simp only [loadedEvents, List.mem_append, depthEvents, tradeEvents, bookTickerEvents,
    List.mem_mapIdx] at h
  rcases h with (⟨i, hi, rfl⟩ | ⟨i, hi, rfl⟩) | ⟨i, hi, rfl⟩
  · exact Or.inl ⟨rfl, rfl⟩
  · exact Or.inr (Or.inl ⟨rfl, _, List.getElem_mem hi, rfl⟩)
  · exact Or.inr (Or.inr ⟨rfl, _, List.getElem_mem hi, rfl⟩)

/-- The events of well-sequenced rows can be sorted. -/
theorem comparable_of_mem (htrades : WellSequenced (trades.map (·.sequence)))
    (hbook : WellSequenced (bookTickers.map (·.sequence))) {a b : Event}
    (ha : a ∈ loadedEvents trades bookTickers depths)
    (hb : b ∈ loadedEvents trades bookTickers depths) :
    Comparable (allNumbered trades bookTickers) a b := by
  -- A channel with one number has them all.
  have htrade : ∀ row ∈ trades, ∀ row' ∈ trades, 0 < row.ingestSeq → 0 < row'.ingestSeq := by
    intro row hrow row' hrow' hpos
    rcases htrades.ingest.all_or_none with hall | hnone
    · exact hall _ (List.mem_map_of_mem hrow')
    · exact absurd hpos (hnone _ (List.mem_map_of_mem hrow))
  have hticker : ∀ row ∈ bookTickers, ∀ row' ∈ bookTickers, 0 < row.ingestSeq → 0 < row'.ingestSeq := by
    intro row hrow row' hrow' hpos
    rcases hbook.ingest.all_or_none with hall | hnone
    · exact hall _ (List.mem_map_of_mem hrow')
    · exact absurd hpos (hnone _ (List.mem_map_of_mem hrow))
  have hnumbered : ∀ row ∈ trades, ∀ row' ∈ bookTickers, 0 < row.ingestSeq → 0 < row'.ingestSeq →
      allNumbered trades bookTickers = true := by
    intro row hrow row' hrow' hpos hpos'
    simp only [allNumbered, Bool.and_eq_true, List.all_eq_true, decide_eq_true_eq]
    exact ⟨fun other hother => htrade row hrow other hother hpos,
      fun other hother => hticker row' hrow' other hother hpos'⟩
  have hsided : ∀ {event : Event}, event ∈ loadedEvents trades bookTickers depths →
      allNumbered trades bookTickers = true → (0 < event.ingestSeq ↔ event.kind ≠ .depth) := by
    intro event hevent hall
    simp only [allNumbered, Bool.and_eq_true, List.all_eq_true, decide_eq_true_eq] at hall
    rcases mem_loadedEvents hevent with ⟨hk, hseq⟩ | ⟨hk, row, hrow, hseq⟩ | ⟨hk, row, hrow, hseq⟩
    · simp [hk, hseq]
    · simp [hk, ← hseq, hall.1 row hrow]
    · simp [hk, ← hseq, hall.2 row hrow]
  have hzero : ¬ (0 : Int64) < 0 := by decide
  refine ⟨fun hkind => ?_, fun hkind hpos hpos' => ?_, hsided ha, hsided hb⟩ <;>
  rcases mem_loadedEvents ha with ⟨hk, hseq⟩ | ⟨hk, row, hrow, hseq⟩ | ⟨hk, row, hrow, hseq⟩ <;>
  rcases mem_loadedEvents hb with ⟨hk', hseq'⟩ | ⟨hk', row', hrow', hseq'⟩ | ⟨hk', row', hrow', hseq'⟩ <;>
  simp_all only [reduceCtorEq, ne_eq, not_true_eq_false]
  · rw [← hseq, ← hseq']
    exact ⟨htrade row hrow row' hrow', htrade row' hrow' row hrow⟩
  · rw [← hseq, ← hseq']
    exact ⟨hticker row hrow row' hrow', hticker row' hrow' row hrow⟩
  · rw [← hseq] at hpos
    rw [← hseq'] at hpos'
    exact hnumbered row hrow row' hrow' hpos hpos'
  · rw [← hseq] at hpos
    rw [← hseq'] at hpos'
    exact hnumbered row' hrow' row hrow hpos' hpos

/-- The timeline is sorted by the keys of its events. -/
theorem pairwise_sortedEvents (htrades : WellSequenced (trades.map (·.sequence)))
    (hbook : WellSequenced (bookTickers.map (·.sequence))) :
    (sortedEvents trades bookTickers depths).Pairwise fun a b =>
      a.key (allNumbered trades bookTickers) ≤ b.key (allNumbered trades bookTickers) := by
  have hsame := List.map_mergeSort (l := loadedEvents trades bookTickers depths) (f := id)
    (s := fun a b : Event => decide (a.key (allNumbered trades bookTickers)
      ≤ b.key (allNumbered trades bookTickers)))
    fun a ha b hb => eventLess_eq (comparable_of_mem htrades hbook ha hb)
  rw [List.map_id, List.map_id] at hsame
  have hpairs := @List.pairwise_mergeSort Event (fun a b =>
    decide (a.key (allNumbered trades bookTickers) ≤ b.key (allNumbered trades bookTickers)))
    (fun a b c hab hbc => by
      rw [decide_eq_true_eq] at hab hbc ⊢
      exact le_trans hab hbc)
    (fun a b => by simpa using le_total _ _) (loadedEvents trades bookTickers depths)
  rw [← hsame] at hpairs
  exact hpairs.imp fun hab => of_decide_eq_true hab

/-- Depth rows in the order of their times. -/
def earlierDepth (a b : DepthRow) : Bool := a.tsNs ≤ b.tsNs

theorem earlierDepth_trans (a b c : DepthRow) (hab : earlierDepth a b = true)
    (hbc : earlierDepth b c = true) : earlierDepth a c = true := by
  simp only [earlierDepth, decide_eq_true_eq] at hab hbc ⊢
  exact Int64.le_trans hab hbc

theorem earlierDepth_total (a b : DepthRow) : (earlierDepth a b || earlierDepth b a) = true := by
  simpa [earlierDepth] using Int64.le_total a.tsNs b.tsNs

/-- The depth row of an event, with its index. -/
def depthIndex? (depths : List DepthRow) (event : Event) : Option (DepthRow × ℕ) :=
  (SessionReplay.depthRow? depths event.item).map fun row => (row, event.rowIndex.toNat)

/-- The events before they are sorted give each depth row once, in order. -/
theorem filterMap_loadedEvents (trades : List TradeRow) (bookTickers : List BookTickerRow)
    (hsize : depths.length ≤ 2 ^ 32) :
    (loadedEvents trades bookTickers depths).filterMap (depthIndex? depths) = depths.zipIdx := by
  have hindex : ∀ i < depths.length, (UInt32.ofNat i).toNat = i := fun i hi =>
    UInt32.toNat_ofNat_of_lt' (show i < 2 ^ 32 by omega)
  have hdepth : (depthEvents depths).filterMap (depthIndex? depths) = depths.zipIdx := by
    have hmap : ∀ i row, depths[i]? = some row → depthIndex? depths
        { tsNs := row.tsNs, ingestSeq := 0, rowIndex := UInt32.ofNat i, kind := .depth }
          = some (row, i) := by
      intro i row hrow
      have hi := (List.getElem?_eq_some_iff.mp hrow).1
      simp [depthIndex?, SessionReplay.depthRow?, Event.item, hindex i hi, hrow]
    have hevents : (depthEvents depths).map (depthIndex? depths) = depths.zipIdx.map some := by
      refine List.ext_getElem? fun i => ?_
      simp only [depthEvents, List.getElem?_map, List.getElem?_mapIdx, List.getElem?_zipIdx]
      cases hrow : depths[i]? with
      | none => rfl
      | some row => simpa using hmap i row hrow
    have hid := congrArg (List.filterMap id) hevents
    simpa [List.filterMap_map, Function.comp_def] using hid
  have hnone : ∀ {events : List Event}, (∀ event ∈ events, event.kind ≠ .depth) →
      events.filterMap (depthIndex? depths) = [] := by
    intro events h
    rw [List.filterMap_eq_nil_iff]
    intro event hevent
    simp [depthIndex?, SessionReplay.depthRow?, Event.item, h event hevent]
  rw [loadedEvents, List.filterMap_append, List.filterMap_append, hdepth, hnone, hnone,
    List.append_nil, List.append_nil]
  · intro event hevent
    obtain ⟨i, hi, rfl⟩ := List.mem_mapIdx.mp hevent
    simp
  · intro event hevent
    obtain ⟨i, hi, rfl⟩ := List.mem_mapIdx.mp hevent
    simp

theorem depthIndex?_eq_some (hsize : depths.length ≤ 2 ^ 32) {event : Event} {row : DepthRow} {i : ℕ}
    (hmem : event ∈ loadedEvents trades bookTickers depths)
    (hrow : depthIndex? depths event = some (row, i)) :
    row.tsNs = event.tsNs ∧ event.kind = .depth ∧ event.ingestSeq = 0 ∧ event.rowIndex.toNat = i ∧
      depths[i]? = some row := by
  simp only [depthIndex?, Option.map_eq_some_iff, Prod.mk.injEq] at hrow
  obtain ⟨row', hlookup, rfl, rfl⟩ := hrow
  unfold SessionReplay.depthRow? at hlookup
  split at hlookup
  case isFalse => cases hlookup
  rename_i hkind
  simp only [loadedEvents, List.mem_append, depthEvents, tradeEvents, bookTickerEvents,
    List.mem_mapIdx] at hmem
  rcases hmem with (⟨i, hi, rfl⟩ | ⟨i, hi, rfl⟩) | ⟨i, hi, rfl⟩
  · have hindex : (UInt32.ofNat i).toNat = i := UInt32.toNat_ofNat_of_lt' (show i < 2 ^ 32 by omega)
    simp only [Event.item, hindex] at hlookup
    rw [List.getElem?_eq_getElem hi, Option.some.injEq] at hlookup
    refine ⟨by rw [hlookup], rfl, rfl, rfl, ?_⟩
    dsimp only
    rw [hindex, List.getElem?_eq_getElem hi, hlookup]
  · cases hkind
  · cases hkind

/-- The timeline goes through the depth rows by their times, and by their places where these agree. -/
theorem filterMap_sortedEvents (hsize : depths.length ≤ 2 ^ 32)
    (htrades : WellSequenced (trades.map (·.sequence)))
    (hbook : WellSequenced (bookTickers.map (·.sequence))) :
    (sortedEvents trades bookTickers depths).filterMap (depthIndex? depths)
      = depths.zipIdx.mergeSort (List.zipIdxLE earlierDepth) := by
  have hperm : (sortedEvents trades bookTickers depths).Perm (loadedEvents trades bookTickers depths) :=
    List.mergeSort_perm _ _
  refine @List.Perm.eq_of_pairwise _ (fun a b => List.zipIdxLE earlierDepth a b = true) _ _
    ?_ ?_ (List.pairwise_mergeSort (List.zipIdxLE_trans earlierDepth_trans)
      (List.zipIdxLE_total earlierDepth_total) _) ?_
  · -- Rows that go before each other have the same place.
    rintro ⟨a, i⟩ ⟨b, j⟩ ha hb hab hba
    have hrow : ∀ {row : DepthRow} {k : ℕ}, (row, k) ∈ depths.zipIdx → depths[k]? = some row := by
      intro row k hmem
      obtain ⟨-, hk, hrow⟩ := List.mem_zipIdx hmem
      rw [List.getElem?_eq_getElem (by omega), hrow]
      simp
    have hai : depths[i]? = some a := by
      refine hrow ?_
      rw [← filterMap_loadedEvents trades bookTickers hsize]
      exact (hperm.filterMap _).mem_iff.mp ha
    have hbj : depths[j]? = some b := hrow ((List.mergeSort_perm _ _).mem_iff.mp hb)
    have hij : i = j := by
      simp only [List.zipIdxLE] at hab hba
      split at hab <;> split at hba <;> simp_all
      omega
    subst hij
    rw [hai, Option.some.injEq] at hbj
    rw [hbj]
  · rw [List.pairwise_filterMap]
    refine List.Pairwise.imp_of_mem (fun {a b} ha hb hkey => ?_) (pairwise_sortedEvents htrades hbook)
    rintro ⟨row, i⟩ hrow ⟨row', j⟩ hrow'
    obtain ⟨hts, hk, hseq, rfl, -⟩ := depthIndex?_eq_some hsize (hperm.mem_iff.mp ha) hrow
    obtain ⟨hts', hk', hseq', rfl, -⟩ := depthIndex?_eq_some hsize (hperm.mem_iff.mp hb) hrow'
    have hzero : ¬ (0 : Int64) < 0 := by decide
    have hlex : a.tsNs.toInt < b.tsNs.toInt ∨
        a.tsNs.toInt = b.tsNs.toInt ∧ a.rowIndex.toNat ≤ b.rowIndex.toNat := by
      simp only [Event.key, Event.number, hk, hk', hseq, hseq', hzero, if_false] at hkey
      revert hkey
      cases allNumbered trades bookTickers <;>
        simp [Prod.Lex.toLex_le_toLex]
    simp only [List.zipIdxLE, earlierDepth, hts, hts', decide_eq_true_eq, Int64.le_iff_toInt_le]
    split
    · split
      · simp only [decide_eq_true_eq]
        omega
      · rfl
    · omega
  · exact ((hperm.filterMap _).trans (List.Perm.of_eq (filterMap_loadedEvents _ _ hsize))).trans
      (List.mergeSort_perm _ _).symm

theorem timelineRows_eq (hsize : depths.length ≤ 2 ^ 32)
    (htrades : WellSequenced (trades.map (·.sequence)))
    (hbook : WellSequenced (bookTickers.map (·.sequence))) :
    (sortedEvents trades bookTickers depths).filterMap
        (fun event => SessionReplay.depthRow? depths event.item) = depths.mergeSort earlierDepth := by
  rw [← List.mergeSort_zipIdx, ← filterMap_sortedEvents hsize htrades hbook, List.map_filterMap]
  congr 1
  funext event
  cases h : SessionReplay.depthRow? depths event.item <;> simp [depthIndex?, h]

end Sorted

/-! ## The buckets -/

def bucketEvents (buckets : List ReplayBucket) : List (Int64 × BucketItem) :=
  buckets.flatMap fun bucket => bucket.items.map fun item => (bucket.tsNs, item)

theorem addToBuckets_cases (buckets : List ReplayBucket) (event : Event) :
    (addToBuckets buckets event = buckets ++ [{ tsNs := event.tsNs, items := [event.item] }] ∧
      ∀ last, buckets.getLast? = some last → last.tsNs ≠ event.tsNs) ∨
    ∃ front items, buckets = front ++ [{ tsNs := event.tsNs, items }] ∧
      addToBuckets buckets event = front ++ [{ tsNs := event.tsNs, items := items ++ [event.item] }] := by
  unfold addToBuckets
  cases hlast : buckets.getLast? with
  | none => exact Or.inl ⟨by simp [List.getLast?_eq_none_iff.mp hlast], by simp⟩
  | some last =>
    obtain ⟨front, rfl⟩ := List.getLast?_eq_some_iff.mp hlast
    dsimp only
    split
    · rename_i hts
      exact Or.inl ⟨rfl, by simpa using hts⟩
    · rename_i hts
      rw [ne_eq, not_not] at hts
      obtain ⟨tsNs, items⟩ := last
      subst hts
      exact Or.inr ⟨front, items, rfl, by simp⟩

theorem bucketEvents_addToBuckets (buckets : List ReplayBucket) (event : Event) :
    bucketEvents (addToBuckets buckets event) = bucketEvents buckets ++ [(event.tsNs, event.item)] := by
  rcases addToBuckets_cases buckets event with ⟨heq, -⟩ | ⟨front, items, rfl, heq⟩ <;>
    simp [heq, bucketEvents]

theorem bucketEvents_foldl (events : List Event) :
    bucketEvents (events.foldl addToBuckets []) = events.map fun event => (event.tsNs, event.item) := by
  have hfold : ∀ buckets, bucketEvents (events.foldl addToBuckets buckets)
      = bucketEvents buckets ++ events.map fun event => (event.tsNs, event.item) := by
    induction events with
    | nil => simp
    | cons event events ih =>
      intro buckets
      rw [List.foldl_cons, ih, bucketEvents_addToBuckets, List.append_assoc, List.map_cons]
      rfl
  exact hfold []

/-- The times of the buckets go up if no event is earlier than the last bucket. -/
theorem pairwise_addToBuckets {buckets : List ReplayBucket} {event : Event}
    (hbuckets : buckets.Pairwise fun a b => a.tsNs < b.tsNs)
    (hevent : ∀ bucket ∈ buckets, bucket.tsNs ≤ event.tsNs) :
    (addToBuckets buckets event).Pairwise (fun a b => a.tsNs < b.tsNs) ∧
      ∀ bucket ∈ addToBuckets buckets event, bucket.tsNs ≤ event.tsNs := by
  rcases addToBuckets_cases buckets event with ⟨heq, hlast⟩ | ⟨front, items, rfl, heq⟩
  · rw [heq]
    refine ⟨List.pairwise_append.mpr ⟨hbuckets, List.pairwise_singleton _ _, ?_⟩, ?_⟩
    · intro bucket hbucket new hnew
      rw [List.mem_singleton] at hnew
      subst hnew
      -- The last bucket has another time, so it is earlier, and so are those before it.
      have hsome := List.getLast?_eq_some_getLast (List.ne_nil_of_mem hbucket)
      generalize buckets.getLast (List.ne_nil_of_mem hbucket) = last at hsome
      obtain ⟨front, rfl⟩ := List.getLast?_eq_some_iff.mp hsome
      have hle := hevent last (by simp)
      have hne := hlast last hsome
      have hlt : last.tsNs < event.tsNs := by grind
      rw [List.mem_append, List.mem_singleton] at hbucket
      rcases hbucket with hfront | rfl
      · have hbefore := (List.pairwise_append.mp hbuckets).2.2 bucket hfront last (by simp)
        exact Int64.lt_trans hbefore hlt
      · exact hlt
    · intro bucket hbucket
      rw [List.mem_append, List.mem_singleton] at hbucket
      rcases hbucket with hold | rfl
      · exact hevent bucket hold
      · exact Int64.le_refl _
  · rw [heq]
    rw [List.pairwise_append] at hbuckets ⊢
    refine ⟨⟨hbuckets.1, List.pairwise_singleton _ _, ?_⟩, ?_⟩
    · intro bucket hbucket new hnew
      rw [List.mem_singleton] at hnew
      subst hnew
      exact hbuckets.2.2 bucket hbucket { tsNs := event.tsNs, items } (by simp)
    · intro bucket hbucket
      rw [List.mem_append, List.mem_singleton] at hbucket
      rcases hbucket with hfront | rfl
      · exact hevent bucket (by simp [hfront])
      · exact Int64.le_refl _

theorem pairwise_buckets {events : List Event} (h : events.Pairwise fun a b => a.tsNs ≤ b.tsNs) :
    (events.foldl addToBuckets []).Pairwise fun a b => a.tsNs < b.tsNs := by
  have hfold : ∀ buckets : List ReplayBucket, (buckets.Pairwise fun a b => a.tsNs < b.tsNs) →
      (∀ bucket ∈ buckets, ∀ event ∈ events, bucket.tsNs ≤ event.tsNs) →
      (events.foldl addToBuckets buckets).Pairwise fun a b => a.tsNs < b.tsNs := by
    induction events with
    | nil => exact fun buckets hbuckets _ => hbuckets
    | cons event events ih =>
      intro buckets hbuckets hle
      rw [List.pairwise_cons] at h
      obtain ⟨hpairs, hadded⟩ := pairwise_addToBuckets hbuckets fun bucket hbucket =>
        hle bucket hbucket event List.mem_cons_self
      refine ih h.2 _ hpairs fun bucket hbucket later hlater => ?_
      exact Int64.le_trans (hadded bucket hbucket) (h.1 later hlater)
  exact hfold [] List.Pairwise.nil (by simp)

def bucketRows (depths : List DepthRow) (bucket : ReplayBucket) : List DepthRow :=
  bucket.items.filterMap (SessionReplay.depthRow? depths)

theorem applyBucket_eq (depths : List DepthRow) (book : BookState) (bucket : ReplayBucket) :
    SessionReplay.applyBucket depths book bucket = book.applyRows (bucketRows depths bucket) := by
  unfold SessionReplay.applyBucket bucketRows BookState.applyRows
  induction bucket.items generalizing book with
  | nil => rfl
  | cons item items ih =>
    rw [List.foldl_cons, ih, List.filterMap_cons]
    cases SessionReplay.depthRow? depths item <;> rfl

theorem foldl_applyBucket (depths : List DepthRow) (buckets : List ReplayBucket) (book : BookState) :
    buckets.foldl (SessionReplay.applyBucket depths) book
      = book.applyRows (buckets.flatMap (bucketRows depths)) := by
  induction buckets generalizing book with
  | nil => rfl
  | cons bucket buckets ih =>
    rw [List.foldl_cons, ih, applyBucket_eq, List.flatMap_cons, applyRows_append]

theorem takeWhile_buckets {buckets : List ReplayBucket}
    (h : buckets.Pairwise fun a b => a.tsNs < b.tsNs) (t : Int64) :
    (buckets.takeWhile fun bucket => bucket.tsNs ≤ t) = buckets.filter fun bucket => bucket.tsNs ≤ t := by
  induction buckets with
  | nil => rfl
  | cons bucket buckets ih =>
    rw [List.pairwise_cons] at h
    rw [List.takeWhile_cons, List.filter_cons]
    split
    · rw [ih h.2]
    · rename_i hlater
      rw [decide_eq_true_eq, Int64.not_le] at hlater
      symm
      rw [List.filter_eq_nil_iff]
      intro other hother
      rw [decide_eq_true_eq, Int64.not_le]
      exact Int64.lt_trans hlater (h.1 other hother)

/-- The rows of the buckets up to a time are the rows of the events up to that time. -/
theorem flatMap_bucketRows (depths : List DepthRow) (events : List Event) (t : Int64) :
    ((events.foldl addToBuckets []).filter fun bucket => bucket.tsNs ≤ t).flatMap (bucketRows depths)
      = (events.filter fun event => event.tsNs ≤ t).filterMap
        fun event => SessionReplay.depthRow? depths event.item := by
  have hrows : ∀ buckets : List ReplayBucket,
      (buckets.filter fun bucket => bucket.tsNs ≤ t).flatMap (bucketRows depths)
        = ((bucketEvents buckets).filter fun event => event.1 ≤ t).filterMap
          fun event => SessionReplay.depthRow? depths event.2 := by
    intro buckets
    induction buckets with
    | nil => rfl
    | cons bucket buckets ih =>
      -- The items of a bucket all have its time.
      have hown : (bucket.items.map fun item => (bucket.tsNs, item)).filter (fun event => event.1 ≤ t)
          = if bucket.tsNs ≤ t then bucket.items.map fun item => (bucket.tsNs, item) else [] := by
        split <;> simp [List.filter_map, Function.comp_def, *]
      rw [bucketEvents, List.flatMap_cons, ← bucketEvents, List.filter_append, List.filterMap_append,
        ← ih, List.filter_cons, hown]
      by_cases hle : bucket.tsNs ≤ t
      · simp [hle, bucketRows, List.filterMap_map]
      · simp [hle]
  rw [hrows, bucketEvents_foldl, List.filter_map, List.filterMap_map]
  rfl

end HftRecorder.Replay
