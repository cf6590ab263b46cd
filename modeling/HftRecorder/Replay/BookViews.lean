import HftRecorder.Replay.Book
import Mathlib.Data.List.AList

/-!
# The views and queries of a book

`BookState` of `Replay/BookState.cpp` as it is stored: two hash tables, two sorted views and a flag for
each view that says whether it must be made anew. A hash table is walked in an order of its own, which is
the order of the entries here, and it may lay its entries out anew at any time (`BookCall.relayout`).

The stored book holds the levels of the book of `Book.lean` (`Stores`), whatever calls are made. The
queries walk the tables, not the views; they give the level that the views give first
(`bestLevel_eq`) and the levels that are selected from the views (`filteredLevels_eq`).
-/

namespace HftRecorder.Replay

/-- `absl::flat_hash_map`, in the order in which it is walked. -/
abbrev LevelTable := AList fun _ : Int64 => Int64

/-- The entries as pairs of a price and a quantity. -/
def LevelTable.walk (table : LevelTable) : List (Int64 × Int64) :=
  table.entries.map fun entry => (entry.1, entry.2)

/-- The comparison of prices from best to worst: bids go down, asks go up. -/
def priceLess (descending : Bool) (a b : Int64 × Int64) : Bool :=
  if descending then a.1 > b.1 else a.1 < b.1

/-- `std::sort`; the prices of a table are distinct, so the order is the only one. -/
def sortLevels (descending : Bool) (levels : List (Int64 × Int64)) : List (Int64 × Int64) :=
  levels.mergeSort fun a b => !priceLess descending b a

structure LazyBook where
  bidTable : LevelTable := ∅
  askTable : LevelTable := ∅
  bidView : List (Int64 × Int64) := []
  askView : List (Int64 × Int64) := []
  bidsDirty : Bool := true
  asksDirty : Bool := true
  lastTsNs : Int64 := 0

/-- `applyLevel` without its flag. -/
def applyLevelTo (side : LevelTable) (level : PricePair) : LevelTable :=
  if level.qtyE8 = 0 then side.erase level.priceE8 else side.insert level.priceE8 level.qtyE8

namespace LazyBook

/-- The level goes to the side it names, whose view is then out of date. -/
def applyPair (book : LazyBook) (level : PricePair) : LazyBook :=
  if level.side = 0 then
    { book with bidTable := applyLevelTo book.bidTable level, bidsDirty := true }
  else { book with askTable := applyLevelTo book.askTable level, asksDirty := true }

def reset (_ : LazyBook) : LazyBook := { bidsDirty := false, asksDirty := false }

def applySnapshot (book : LazyBook) (snap : SnapshotDocument) : LazyBook :=
  let cleared := { book with bidTable := ∅, askTable := ∅, bidsDirty := true, asksDirty := true }
  { (snap.levels.filter fun level => 0 < level.qtyE8).foldl applyPair cleared with
    lastTsNs := snap.tsNs }

def applyDelta (book : LazyBook) (delta : DepthRow) : LazyBook :=
  { delta.levels.foldl applyPair book with lastTsNs := delta.tsNs }

def ensureBidsView (book : LazyBook) : LazyBook :=
  if book.bidsDirty then
    { book with bidView := sortLevels true book.bidTable.walk, bidsDirty := false }
  else book

def ensureAsksView (book : LazyBook) : LazyBook :=
  if book.asksDirty then
    { book with askView := sortLevels false book.askTable.walk, asksDirty := false }
  else book

/-- The view that `bids` gives. -/
def bids (book : LazyBook) : List (Int64 × Int64) := book.ensureBidsView.bidView

/-- The view that `asks` gives. -/
def asks (book : LazyBook) : List (Int64 × Int64) := book.ensureAsksView.askView

end LazyBook

/-- What the loop of `filteredLevels` keeps. -/
def keptLevel (minPriceE8 maxPriceE8 : Int64) (level : Int64 × Int64) : Bool :=
  !(level.2 ≤ 0) && !(minPriceE8 > 0 && level.1 < minPriceE8) &&
    !(maxPriceE8 > 0 && level.1 > maxPriceE8)

/-- `std::partial_sort` and `resize` leave the first candidates of the sorted levels. -/
def filteredLevels (side : LevelTable) (minPriceE8 maxPriceE8 : Int64) (maxCandidates : ℕ)
    (descending : Bool) : List (Int64 × Int64) :=
  let out := side.walk.filter (keptLevel minPriceE8 maxPriceE8)
  if maxCandidates > 0 ∧ out.length > maxCandidates then
    (sortLevels descending out).take maxCandidates
  else sortLevels descending out

namespace LazyBook

def filteredBids (book : LazyBook) (minPriceE8 maxPriceE8 : Int64) (maxCandidates : ℕ) :
    List (Int64 × Int64) :=
  filteredLevels book.bidTable minPriceE8 maxPriceE8 maxCandidates true

def filteredAsks (book : LazyBook) (minPriceE8 maxPriceE8 : Int64) (maxCandidates : ℕ) :
    List (Int64 × Int64) :=
  filteredLevels book.askTable minPriceE8 maxPriceE8 maxCandidates false

def bestBidPrice (book : LazyBook) : Int64 :=
  book.bidTable.walk.foldl (fun best level => if level.2 > 0 ∧ level.1 > best then level.1 else best) 0

def bestAskPrice (book : LazyBook) : Int64 :=
  book.askTable.walk.foldl
    (fun best level =>
      if level.2 ≤ 0 then best else if best = 0 ∨ level.1 < best then level.1 else best) 0

/-- The loop of `bestBidQty` keeps the best price and its quantity. -/
def bestBid (book : LazyBook) : Int64 × Int64 :=
  book.bidTable.walk.foldl
    (fun best level => if level.2 > 0 ∧ level.1 > best.1 then level else best) (0, 0)

def bestBidQty (book : LazyBook) : Int64 := book.bestBid.2

/-- The loop of `bestAskQty` keeps the best price and its quantity. -/
def bestAsk (book : LazyBook) : Int64 × Int64 :=
  book.askTable.walk.foldl
    (fun best level =>
      if level.2 ≤ 0 then best else if best.1 = 0 ∨ level.1 < best.1 then level else best) (0, 0)

def bestAskQty (book : LazyBook) : Int64 := book.bestAsk.2

end LazyBook

/-! ## Calls -/

/-- A call of a book; queries that change nothing are not among them. -/
inductive BookCall
  | reset
  | applySnapshot (snap : SnapshotDocument)
  | applyDelta (delta : DepthRow)
  | bids
  | asks
  /-- The tables lay their entries out anew. -/
  | relayout (bidTable askTable : LevelTable)

def LazyBook.step (book : LazyBook) : BookCall → LazyBook
  | .reset => book.reset
  | .applySnapshot snap => book.applySnapshot snap
  | .applyDelta delta => book.applyDelta delta
  | .bids => book.ensureBidsView
  | .asks => book.ensureAsksView
  | .relayout bidTable askTable =>
    if bidTable.entries.Perm book.bidTable.entries ∧ askTable.entries.Perm book.askTable.entries then
      { book with bidTable := bidTable, askTable := askTable }
    else book

def BookState.step (book : BookState) : BookCall → BookState
  | .reset => {}
  | .applySnapshot snap => BookState.applySnapshot snap
  | .applyDelta delta => book.applyDelta delta
  | _ => book

def BookCall.PositivePrices : BookCall → Prop
  | .applySnapshot snap => ∀ level ∈ snap.levels, 0 < level.priceE8
  | .applyDelta delta => ∀ level ∈ delta.levels, 0 < level.priceE8
  | _ => True

/-! ## Sorted levels -/

variable {d : Bool}

theorem priceLess_or {a b : Int64 × Int64} (h : a.1 ≠ b.1) :
    priceLess d a b = true ∨ priceLess d b a = true := by
  cases d <;> simp only [priceLess] <;> grind

theorem walk_keys_nodup (table : LevelTable) : (table.walk.map Prod.fst).Nodup := by
  have hkeys := table.nodupKeys
  rw [LevelTable.walk, List.map_map]
  exact hkeys

variable {table : LevelTable}

theorem mem_walk {price qty : Int64} :
    (price, qty) ∈ table.walk ↔ table.lookup price = some qty := by
  rw [← Option.mem_def, AList.mem_lookup_iff, LevelTable.walk, List.mem_map]
  constructor
  · rintro ⟨⟨p, q⟩, hmem, heq⟩
    cases heq
    exact hmem
  · exact fun hmem => ⟨⟨price, qty⟩, hmem, rfl⟩

variable {level : Int64 × Int64} {levels : List (Int64 × Int64)}

theorem mem_sortLevels :
    level ∈ sortLevels d levels ↔ level ∈ levels := (List.mergeSort_perm _ _).mem_iff

theorem pairwise_sortLevels (h : (levels.map Prod.fst).Nodup) :
    (sortLevels d levels).Pairwise fun a b => priceLess d a b = true := by
  have hsorted : (sortLevels d levels).Pairwise fun a b => (!priceLess d b a) = true :=
    List.pairwise_mergeSort (fun a b c hab hbc => by cases d <;> simp only [priceLess] at * <;> grind)
      (fun a b => by cases d <;> simp only [priceLess] <;> grind) levels
  have hdistinct : (sortLevels d levels).Pairwise fun a b => a.1 ≠ b.1 := by
    rw [← List.pairwise_map]
    exact ((List.mergeSort_perm _ _).map _).nodup_iff.mpr h
  refine (hsorted.and hdistinct).imp ?_
  rintro a b ⟨hle, hne⟩
  rcases priceLess_or hne with hless | hless
  · exact hless
  · simp [hless] at hle

theorem eq_of_sorted {levels' : List (Int64 × Int64)} (hperm : levels.Perm levels')
    (h : levels.Pairwise fun a b => priceLess d a b = true)
    (h' : levels'.Pairwise fun a b => priceLess d a b = true) : levels = levels' := by
  refine List.Perm.eq_of_pairwise (fun a b _ _ hab hba => ?_) h h' hperm
  cases d <;> simp only [priceLess] at hab hba <;> grind

theorem sortLevels_perm {levels' : List (Int64 × Int64)} (hperm : levels.Perm levels')
    (h : (levels.map Prod.fst).Nodup) : sortLevels d levels = sortLevels d levels' := by
  refine eq_of_sorted ?_ (pairwise_sortLevels h)
    (pairwise_sortLevels ((hperm.map _).nodup_iff.mp h))
  exact (List.mergeSort_perm _ _).trans (hperm.trans (List.mergeSort_perm _ _).symm)

/-! ## The stored book -/

def Holds (table : LevelTable) (map : LevelMap) : Prop := ∀ price, table.lookup price = map price

/-- The stored book holds the levels of a book, and a view that is not out of date is sorted from its
table. -/
structure Stores (stored : LazyBook) (book : BookState) : Prop where
  bids : Holds stored.bidTable book.bids
  asks : Holds stored.askTable book.asks
  lastTsNs : stored.lastTsNs = book.lastTsNs
  bidView : stored.bidsDirty = false → stored.bidView = sortLevels true stored.bidTable.walk
  askView : stored.asksDirty = false → stored.askView = sortLevels false stored.askTable.walk

variable {map : LevelMap}

theorem Holds.applyLevel (h : Holds table map) (level : PricePair) :
    Holds (applyLevelTo table level) (applyLevel map level) := by
  intro price
  rw [applyLevelTo, Replay.applyLevel]
  by_cases hprice : price = level.priceE8
  · subst hprice
    split <;> simp
  · rw [Function.update_of_ne hprice]
    split
    · rw [AList.lookup_erase_ne hprice, h]
    · rw [AList.lookup_insert_ne hprice, h]

variable {book : BookState} {stored : LazyBook}

theorem Stores.applyPair (h : Stores stored book) (level : PricePair) :
    Stores (stored.applyPair level) (book.applyPair level) := by
  unfold LazyBook.applyPair BookState.applyPair
  split
  · exact ⟨h.bids.applyLevel level, h.asks, h.lastTsNs, fun hclean => Bool.noConfusion hclean, h.askView⟩
  · exact ⟨h.bids, h.asks.applyLevel level, h.lastTsNs, h.bidView, fun hclean => Bool.noConfusion hclean⟩

theorem Stores.foldl_applyPair (h : Stores stored book) (levels : List PricePair) :
    Stores (levels.foldl LazyBook.applyPair stored) (levels.foldl BookState.applyPair book) := by
  induction levels generalizing stored book with
  | nil => exact h
  | cons level levels ih => exact ih (h.applyPair level)

/-- Every call keeps the stored book and the levels together. -/
theorem Stores.step (h : Stores stored book) (call : BookCall) :
    Stores (stored.step call) (book.step call) := by
  cases call with
  | reset =>
    have hempty : ∀ d, sortLevels d (LevelTable.walk ∅) = [] := fun _ => List.mergeSort_nil
    exact ⟨fun _ => rfl, fun _ => rfl, rfl, fun _ => (hempty true).symm, fun _ => (hempty false).symm⟩
  | applySnapshot snap =>
    have hcleared : Stores
        { stored with bidTable := ∅, askTable := ∅, bidsDirty := true, asksDirty := true }
        { lastTsNs := stored.lastTsNs } :=
      ⟨fun _ => rfl, fun _ => rfl, rfl, fun hclean => Bool.noConfusion hclean,
        fun hclean => Bool.noConfusion hclean⟩
    have hlevels := hcleared.foldl_applyPair (snap.levels.filter fun level => 0 < level.qtyE8)
    -- The time of the book plays no part in its levels.
    rw [Replay.foldl_applyPair] at hlevels
    refine ⟨?_, ?_, rfl, hlevels.bidView, hlevels.askView⟩
    · rw [BookState.step, BookState.applySnapshot, Replay.foldl_applyPair]
      exact hlevels.bids
    · rw [BookState.step, BookState.applySnapshot, Replay.foldl_applyPair]
      exact hlevels.asks
  | applyDelta delta =>
    have hlevels := h.foldl_applyPair delta.levels
    exact ⟨hlevels.bids, hlevels.asks, rfl, hlevels.bidView, hlevels.askView⟩
  | bids =>
    unfold LazyBook.step LazyBook.ensureBidsView
    dsimp only
    split
    · exact ⟨h.bids, h.asks, h.lastTsNs, fun _ => rfl, h.askView⟩
    · exact h
  | asks =>
    unfold LazyBook.step LazyBook.ensureAsksView
    dsimp only
    split
    · exact ⟨h.bids, h.asks, h.lastTsNs, h.bidView, fun _ => rfl⟩
    · exact h
  | relayout bidTable askTable =>
    unfold LazyBook.step
    dsimp only
    split
    case isFalse => exact h
    rename_i hperm
    have hview : ∀ {d : Bool} {table table' : LevelTable}, table'.entries.Perm table.entries →
        sortLevels d table.walk = sortLevels d table'.walk := fun hperm =>
      sortLevels_perm (hperm.symm.map _) (walk_keys_nodup _)
    exact ⟨fun price => (AList.perm_lookup hperm.1).trans (h.bids price),
      fun price => (AList.perm_lookup hperm.2).trans (h.asks price), h.lastTsNs,
      fun hclean => (h.bidView hclean).trans (hview hperm.1),
      fun hclean => (h.askView hclean).trans (hview hperm.2)⟩

def LazyBook.run (calls : List BookCall) : LazyBook := calls.foldl LazyBook.step {}

def BookState.run (calls : List BookCall) : BookState := calls.foldl BookState.step {}

theorem stores_run (calls : List BookCall) : Stores (LazyBook.run calls) (BookState.run calls) := by
  have hinitial : Stores {} {} :=
    ⟨fun _ => rfl, fun _ => rfl, rfl, fun hclean => Bool.noConfusion hclean,
      fun hclean => Bool.noConfusion hclean⟩
  have hrun : ∀ {stored : LazyBook} {book : BookState}, Stores stored book →
      Stores (calls.foldl LazyBook.step stored) (calls.foldl BookState.step book) := by
    induction calls with
    | nil => exact id
    | cons call calls ih => exact fun h => ih (h.step call)
  exact hrun hinitial

/-- The levels of one side, from best to worst. -/
structure Lists (descending : Bool) (view : List (Int64 × Int64)) (map : LevelMap) : Prop where
  sorted : view.Pairwise fun a b => priceLess descending a b = true
  mem : ∀ price qty, (price, qty) ∈ view ↔ map price = some qty

theorem Holds.lists (h : Holds table map) (d : Bool) :
    Lists d (sortLevels d table.walk) map where
  sorted := pairwise_sortLevels (walk_keys_nodup table)
  mem price qty := by rw [mem_sortLevels, mem_walk, h]

theorem Stores.bids_eq (h : Stores stored book) :
    stored.bids = sortLevels true stored.bidTable.walk := by
  unfold LazyBook.bids LazyBook.ensureBidsView
  cases hdirty : stored.bidsDirty with
  | true => rfl
  | false => exact h.bidView hdirty

theorem Stores.asks_eq (h : Stores stored book) :
    stored.asks = sortLevels false stored.askTable.walk := by
  unfold LazyBook.asks LazyBook.ensureAsksView
  cases hdirty : stored.asksDirty with
  | true => rfl
  | false => exact h.askView hdirty

/-! ## The queries -/

/-- The first level of a view with a positive quantity. -/
def firstLevel (view : List (Int64 × Int64)) : Int64 × Int64 :=
  (view.find? fun level => 0 < level.2).getD (0, 0)

/-- The first levels of a view with a positive quantity and a price in the bounds; no bound is `0`. -/
def selectLevels (view : List (Int64 × Int64)) (minPriceE8 maxPriceE8 : Int64) (maxCandidates : ℕ) :
    List (Int64 × Int64) :=
  let selected := view.filter fun level => 0 < level.2 ∧
    (0 < minPriceE8 → minPriceE8 ≤ level.1) ∧ (0 < maxPriceE8 → level.1 ≤ maxPriceE8)
  if maxCandidates = 0 then selected else selected.take maxCandidates

/-- Sorting and selecting commute. -/
theorem filteredLevels_eq (table : LevelTable) (minPriceE8 maxPriceE8 : Int64) (maxCandidates : ℕ)
    (d : Bool) : filteredLevels table minPriceE8 maxPriceE8 maxCandidates d
      = selectLevels (sortLevels d table.walk) minPriceE8 maxPriceE8 maxCandidates := by
  have hkept : ∀ level, keptLevel minPriceE8 maxPriceE8 level = decide (0 < level.2 ∧
      (0 < minPriceE8 → minPriceE8 ≤ level.1) ∧ (0 < maxPriceE8 → level.1 ≤ maxPriceE8)) := by
    intro level
    rw [Bool.eq_iff_iff]
    simp only [keptLevel]
    grind
  have hsort : sortLevels d (table.walk.filter (keptLevel minPriceE8 maxPriceE8))
      = (sortLevels d table.walk).filter (keptLevel minPriceE8 maxPriceE8) := by
    refine eq_of_sorted ?_ (pairwise_sortLevels ((walk_keys_nodup table).sublist
      (List.filter_sublist.map _))) ((pairwise_sortLevels (walk_keys_nodup table)).filter _)
    exact (List.mergeSort_perm _ _).trans ((List.mergeSort_perm _ _).symm.filter _)
  have hlength : (sortLevels d (table.walk.filter (keptLevel minPriceE8 maxPriceE8))).length
      = (table.walk.filter (keptLevel minPriceE8 maxPriceE8)).length := List.length_mergeSort _
  unfold filteredLevels selectLevels
  simp only [← hkept, ← hsort]
  split
  · rename_i hmany
    rw [if_neg (by omega)]
  · rename_i hfew
    split
    · rfl
    · rw [List.take_of_length_le (by omega)]

/-- The best of the levels seen so far with a positive quantity, or nothing. -/
def IsBest (d : Bool) (seen : List (Int64 × Int64)) (best : Int64 × Int64) : Prop :=
  (best = (0, 0) ∧ ∀ level ∈ seen, ¬ 0 < level.2) ∨
    (best ∈ seen ∧ 0 < best.2 ∧ ∀ level ∈ seen, 0 < level.2 → priceLess d level best = false)

theorem isBest_firstLevel {view : List (Int64 × Int64)}
    (h : view.Pairwise fun a b => priceLess d a b = true) : IsBest d view (firstLevel view) := by
  unfold firstLevel
  cases hfound : view.find? fun level => decide (0 < level.2) with
  | none =>
    rw [List.find?_eq_none] at hfound
    exact Or.inl ⟨rfl, by simpa using hfound⟩
  | some best =>
    obtain ⟨hpositive, front, rest, rfl, hfront⟩ := List.find?_eq_some_iff_append.mp hfound
    rw [decide_eq_true_eq] at hpositive
    refine Or.inr ⟨by simp, hpositive, fun level hlevel hqty => ?_⟩
    -- The levels before it have no positive quantity, those behind it are worse.
    rcases List.mem_append.mp hlevel with hbefore | hbehind
    · have hnot := hfront level hbefore
      simp [hqty] at hnot
    · rcases List.mem_cons.mp hbehind with rfl | hbehind
      · cases d <;> simp [priceLess]
      · have hworse := (List.pairwise_cons.mp (List.pairwise_append.mp h).2.1).1 level hbehind
        cases d <;> simp only [priceLess, Option.getD_some] at hworse ⊢ <;> grind

variable {best : Int64 × Int64} {seen : List (Int64 × Int64)}

theorem IsBest.unique {best' : Int64 × Int64} (hkeys : (seen.map Prod.fst).Nodup)
    (h : IsBest d seen best) (h' : IsBest d seen best') : best = best' := by
  rcases h with ⟨rfl, hnone⟩ | ⟨hmem, hqty, hbest⟩
  · rcases h' with ⟨rfl, -⟩ | ⟨hmem', hqty', -⟩
    · rfl
    · exact absurd hqty' (hnone best' hmem')
  · rcases h' with ⟨rfl, hnone⟩ | ⟨hmem', hqty', hbest'⟩
    · exact absurd hqty (hnone best hmem)
    · refine List.inj_on_of_nodup_map hkeys hmem hmem' ?_
      have hle := hbest best' hmem' hqty'
      have hle' := hbest' best hmem hqty
      by_contra hne
      rcases priceLess_or (d := d) hne with hless | hless
      · rw [hless] at hle'
        cases hle'
      · rw [hless] at hle
        cases hle

theorem IsBest.replace (h : IsBest d seen best) (hqty : 0 < level.2)
    (hbetter : best ∈ seen → priceLess d level best = true) : IsBest d (seen ++ [level]) level := by
  refine Or.inr ⟨by simp, hqty, fun other hother hqty' => ?_⟩
  rcases List.mem_append.mp hother with hold | hnew
  · rcases h with ⟨-, hnone⟩ | ⟨hmem, -, hbest⟩
    · exact absurd hqty' (hnone other hold)
    · have hless := hbetter hmem
      have hle := hbest other hold hqty'
      cases d <;> simp only [priceLess] at hless hle ⊢ <;> grind
  · rw [List.mem_singleton.mp hnew]
    cases d <;> simp [priceLess]

theorem IsBest.keep (h : IsBest d seen best)
    (hworse : 0 < level.2 → best ≠ (0, 0) ∧ priceLess d level best = false) :
    IsBest d (seen ++ [level]) best := by
  rcases h with ⟨hzero, hnone⟩ | ⟨hmem, hqty, hbest⟩
  · refine Or.inl ⟨hzero, fun other hother hqty => ?_⟩
    rcases List.mem_append.mp hother with hold | hnew
    · exact hnone other hold hqty
    · rw [List.mem_singleton.mp hnew] at hqty
      exact (hworse hqty).1 hzero
  · refine Or.inr ⟨by simp [hmem], hqty, fun other hother hqty' => ?_⟩
    rcases List.mem_append.mp hother with hold | hnew
    · exact hbest other hold hqty'
    · rw [List.mem_singleton.mp hnew] at hqty' ⊢
      exact (hworse hqty').2

theorem IsBest.bid_step (h : IsBest true seen best) (hprice : 0 < level.1) :
    IsBest true (seen ++ [level]) (if level.2 > 0 ∧ level.1 > best.1 then level else best) := by
  split
  · rename_i hbetter
    exact h.replace hbetter.1 fun _ => decide_eq_true hbetter.2
  · rename_i hnot
    refine h.keep fun hqty => ⟨?_, decide_eq_false fun hless => hnot ⟨hqty, hless⟩⟩
    rintro rfl
    exact hnot ⟨hqty, hprice⟩

theorem IsBest.ask_step (h : IsBest false seen best) (hseen : ∀ other ∈ seen, 0 < other.1) :
    IsBest false (seen ++ [level])
      (if level.2 ≤ 0 then best else if best.1 = 0 ∨ level.1 < best.1 then level else best) := by
  split
  · rename_i hqty
    exact h.keep fun hpos => absurd hpos (Int64.not_lt.mpr hqty)
  · rename_i hqty
    rw [Int64.not_le] at hqty
    split
    · rename_i hbetter
      refine h.replace hqty fun hmem => decide_eq_true (hbetter.resolve_left fun hzero => ?_)
      have hpos := hseen best hmem
      rw [hzero] at hpos
      exact absurd hpos (by decide)
    · rename_i hnot
      refine h.keep fun _ => ⟨?_, decide_eq_false fun hless => hnot (Or.inr hless)⟩
      rintro rfl
      exact hnot (Or.inl rfl)

def Priced (levels : List (Int64 × Int64)) : Prop := ∀ level ∈ levels, 0 < level.1

theorem isBest_foldl {f : Int64 × Int64 → Int64 × Int64 → Int64 × Int64}
    (hstep : ∀ seen best level, seen ++ [level] <+: levels → IsBest d seen best →
      IsBest d (seen ++ [level]) (f best level)) :
    IsBest d levels (levels.foldl f (0, 0)) := by
  have hloop : ∀ seen rest best, seen ++ rest = levels → IsBest d seen best →
      IsBest d levels (rest.foldl f best) := by
    intro seen rest best hsplit hbest
    induction rest generalizing seen best with
    | nil =>
      rw [List.append_nil] at hsplit
      rwa [← hsplit]
    | cons level rest ih =>
      refine ih (seen ++ [level]) (f best level) (by simp [hsplit]) (hstep seen best level ?_ hbest)
      exact ⟨rest, by simp [hsplit]⟩
  exact hloop [] levels (0, 0) rfl (Or.inl ⟨rfl, by simp⟩)

theorem isBest_perm {seen' : List (Int64 × Int64)} (hperm : seen.Perm seen')
    (h : IsBest d seen best) : IsBest d seen' best := by
  simpa only [IsBest, hperm.mem_iff] using h

theorem IsBest.eq_firstLevel (h : IsBest d table.walk best) :
    best = firstLevel (sortLevels d table.walk) := by
  have hview := isBest_firstLevel (pairwise_sortLevels (d := d) (walk_keys_nodup table))
  exact h.unique (walk_keys_nodup table) (isBest_perm (List.mergeSort_perm _ _) hview)

theorem bestBid_eq {book : LazyBook} (h : Priced book.bidTable.walk) :
    book.bestBid = firstLevel (sortLevels true book.bidTable.walk) := by
  refine IsBest.eq_firstLevel (isBest_foldl fun seen best level hstart hbest => ?_)
  exact hbest.bid_step (h level (hstart.subset (by simp)))

theorem bestAsk_eq {book : LazyBook} (h : Priced book.askTable.walk) :
    book.bestAsk = firstLevel (sortLevels false book.askTable.walk) := by
  refine IsBest.eq_firstLevel (isBest_foldl fun seen best level hstart hbest => ?_)
  exact hbest.ask_step fun other hother => h other (hstart.subset (by simp [hother]))

theorem bestBidPrice_eq (book : LazyBook) : book.bestBidPrice = book.bestBid.1 := by
  have hloop : ∀ (levels : List (Int64 × Int64)) (best : Int64 × Int64),
      levels.foldl (fun best level => if level.2 > 0 ∧ level.1 > best then level.1 else best) best.1
        = (levels.foldl (fun best level => if level.2 > 0 ∧ level.1 > best.1 then level else best)
          best).1 := by
    intro levels best
    induction levels generalizing best with
    | nil => rfl
    | cons level levels ih =>
      rw [List.foldl_cons, List.foldl_cons, ← ih]
      congr 1
      split <;> rfl
  exact hloop book.bidTable.walk (0, 0)

theorem bestAskPrice_eq (book : LazyBook) : book.bestAskPrice = book.bestAsk.1 := by
  have hloop : ∀ (levels : List (Int64 × Int64)) (best : Int64 × Int64),
      levels.foldl (fun best level =>
          if level.2 ≤ 0 then best else if best = 0 ∨ level.1 < best then level.1 else best) best.1
        = (levels.foldl (fun best level =>
          if level.2 ≤ 0 then best else if best.1 = 0 ∨ level.1 < best.1 then level else best)
          best).1 := by
    intro levels best
    induction levels generalizing best with
    | nil => rfl
    | cons level levels ih =>
      rw [List.foldl_cons, List.foldl_cons, ← ih]
      congr 1
      split
      · rfl
      · split <;> rfl
  exact hloop book.askTable.walk (0, 0)

/-! ## Prices -/

def PricedBook (book : BookState) : Prop :=
  (∀ price, book.bids price ≠ none → 0 < price) ∧ ∀ price, book.asks price ≠ none → 0 < price

theorem applyLevel_priced {level : PricePair} (h : ∀ price, map price ≠ none → 0 < price)
    (hlevel : 0 < level.priceE8) (price : Int64) (hsome : applyLevel map level price ≠ none) :
    0 < price := by
  by_cases hprice : price = level.priceE8
  · rwa [hprice]
  · rw [applyLevel, Function.update_of_ne hprice] at hsome
    exact h price hsome

theorem PricedBook.foldl_applyPair {levels : List PricePair}
    (hlevels : ∀ level ∈ levels, 0 < level.priceE8) (h : PricedBook book) :
    PricedBook (levels.foldl BookState.applyPair book) := by
  induction levels generalizing book with
  | nil => exact h
  | cons level levels ih =>
    refine ih (fun other hother => hlevels other (List.mem_cons_of_mem _ hother)) ?_
    have hlevel := hlevels level List.mem_cons_self
    unfold BookState.applyPair
    split
    · exact ⟨applyLevel_priced h.1 hlevel, h.2⟩
    · exact ⟨h.1, applyLevel_priced h.2 hlevel⟩

theorem PricedBook.step (h : PricedBook book) {call : BookCall} (hcall : call.PositivePrices) :
    PricedBook (book.step call) := by
  have hempty : PricedBook {} := ⟨fun _ hsome => absurd rfl hsome, fun _ hsome => absurd rfl hsome⟩
  cases call with
  | applySnapshot snap =>
    exact hempty.foldl_applyPair fun level hlevel => hcall level (List.mem_of_mem_filter hlevel)
  | applyDelta delta => exact h.foldl_applyPair hcall
  | reset => exact hempty
  | bids => exact h
  | asks => exact h
  | relayout => exact h

theorem pricedBook_run {calls : List BookCall} (hcalls : ∀ call ∈ calls, call.PositivePrices) :
    PricedBook (BookState.run calls) := by
  have hrun : ∀ book, PricedBook book → PricedBook (calls.foldl BookState.step book) := by
    induction calls with
    | nil => exact fun _ => id
    | cons call calls ih =>
      intro book h
      exact ih (fun other hother => hcalls other (List.mem_cons_of_mem _ hother)) _
        (h.step (hcalls call List.mem_cons_self))
  exact hrun {} ⟨fun _ hsome => absurd rfl hsome, fun _ hsome => absurd rfl hsome⟩

theorem Holds.priced (h : Holds table map) (hmap : ∀ price, map price ≠ none → 0 < price) :
    Priced table.walk := by
  rintro ⟨price, qty⟩ hmem
  have hlookup := mem_walk.mp hmem
  rw [h price] at hlookup
  exact hmap price (by simp [hlookup])

/-- After any calls the views list the levels from best to worst, and the queries give what is selected
from the views: the best level is the first one with a positive quantity. -/
theorem views_and_queries {calls : List BookCall} (hcalls : ∀ call ∈ calls, call.PositivePrices) :
    let stored := LazyBook.run calls
    let book := BookState.run calls
    Lists true stored.bids book.bids ∧ Lists false stored.asks book.asks ∧
      (stored.bestBidPrice, stored.bestBidQty) = firstLevel stored.bids ∧
      (stored.bestAskPrice, stored.bestAskQty) = firstLevel stored.asks ∧
      (∀ minPriceE8 maxPriceE8 maxCandidates,
        stored.filteredBids minPriceE8 maxPriceE8 maxCandidates
          = selectLevels stored.bids minPriceE8 maxPriceE8 maxCandidates) ∧
      ∀ minPriceE8 maxPriceE8 maxCandidates,
        stored.filteredAsks minPriceE8 maxPriceE8 maxCandidates
          = selectLevels stored.asks minPriceE8 maxPriceE8 maxCandidates := by
  intro stored book
  have hstores : Stores stored book := stores_run calls
  have hpriced : PricedBook book := pricedBook_run hcalls
  rw [hstores.bids_eq, hstores.asks_eq]
  refine ⟨hstores.bids.lists true, hstores.asks.lists false, ?_, ?_, ?_, ?_⟩
  · rw [bestBidPrice_eq, LazyBook.bestBidQty, ← bestBid_eq (hstores.bids.priced hpriced.1)]
  · rw [bestAskPrice_eq, LazyBook.bestAskQty, ← bestAsk_eq (hstores.asks.priced hpriced.2)]
  · exact fun _ _ _ => filteredLevels_eq _ _ _ _ _
  · exact fun _ _ _ => filteredLevels_eq _ _ _ _ _

/-- Two bids, of which the better one has a negative quantity. -/
def negativeBid : DepthRow :=
  { levels := [{ priceE8 := 2, qtyE8 := -5 }, { priceE8 := 1, qtyE8 := 7 }] }

/-- The view lists the negative bid too, the best bid is the first one with a positive quantity. -/
theorem negativeBid_listed :
    let stored := LazyBook.run [.applyDelta negativeBid, .bids]
    (2, -5) ∈ stored.bids ∧ (1, 7) ∈ stored.bids ∧
      (stored.bestBidPrice, stored.bestBidQty) = firstLevel stored.bids ∧ stored.bestBidPrice = 1 := by
  have hcalls : ∀ call ∈ [BookCall.applyDelta negativeBid, .bids], call.PositivePrices := by
    simp [BookCall.PositivePrices, negativeBid]
  obtain ⟨hbids, -, hbest, -⟩ := views_and_queries hcalls
  exact ⟨(hbids.mem 2 (-5)).mpr (by decide), (hbids.mem 1 7).mpr (by decide), hbest, by decide⟩

end HftRecorder.Replay
