import HftRecorder.Lib.LastWrite
import HftRecorder.Replay.Rows

/-!
# The book

`BookState` of `Replay/BookState.cpp`. A side is a map from prices to quantities; the hash tables that
hold it and the sorted views that `bids()` and `asks()` give are in `BookViews.lean`.

A row of depth is a list of writes to the two sides, and the rows of a replay are one list of writes.
So what a row has set is forgotten once the row has been applied again (`applyRows_applyRows`).
-/

namespace HftRecorder.Replay

open LastWrite

/-- `LevelMap`. -/
abbrev LevelMap := Int64 → Option Int64

structure BookState where
  bids : LevelMap := fun _ => none
  asks : LevelMap := fun _ => none
  lastTsNs : Int64 := 0

def applyLevel (side : LevelMap) (level : PricePair) : LevelMap :=
  Function.update side level.priceE8 (if level.qtyE8 = 0 then none else some level.qtyE8)

namespace BookState

/-- The level goes to the side it names; all that is not a bid is an ask. -/
def applyPair (book : BookState) (level : PricePair) : BookState :=
  if level.side = 0 then { book with bids := applyLevel book.bids level }
  else { book with asks := applyLevel book.asks level }

/-- `reset` and `applySnapshot`: levels without a quantity are not in a snapshot. -/
def applySnapshot (snap : SnapshotDocument) : BookState :=
  { (snap.levels.filter (fun level => 0 < level.qtyE8)).foldl applyPair {} with lastTsNs := snap.tsNs }

def applyDelta (book : BookState) (delta : DepthRow) : BookState :=
  { delta.levels.foldl applyPair book with lastTsNs := delta.tsNs }

def applyRows (book : BookState) (rows : List DepthRow) : BookState := rows.foldl applyDelta book

end BookState

/-! ## Rows as writes -/

def bidWrites (levels : List PricePair) : List (Int64 × Option Int64) :=
  (levels.filter fun level => level.side = 0).map fun level =>
    (level.priceE8, if level.qtyE8 = 0 then none else some level.qtyE8)

def askWrites (levels : List PricePair) : List (Int64 × Option Int64) :=
  (levels.filter fun level => level.side ≠ 0).map fun level =>
    (level.priceE8, if level.qtyE8 = 0 then none else some level.qtyE8)

theorem foldl_applyPair (levels : List PricePair) (book : BookState) :
    levels.foldl BookState.applyPair book =
      { book with bids := writes (bidWrites levels) book.bids
                  asks := writes (askWrites levels) book.asks } := by
  induction levels generalizing book with
  | nil => rfl
  | cons level levels ih =>
    rw [List.foldl_cons, ih]
    by_cases hside : level.side = 0 <;>
      simp [BookState.applyPair, hside, bidWrites, askWrites, applyLevel]

theorem applyRows_eq (rows : List DepthRow) (book : BookState) :
    book.applyRows rows =
      { bids := writes (bidWrites (rows.flatMap (·.levels))) book.bids
        asks := writes (askWrites (rows.flatMap (·.levels))) book.asks
        lastTsNs := (rows.getLast?.map (·.tsNs)).getD book.lastTsNs } := by
  induction rows generalizing book with
  | nil => rfl
  | cons row rows ih =>
    rw [BookState.applyRows, List.foldl_cons, ← BookState.applyRows, ih]
    simp only [BookState.applyDelta, foldl_applyPair, List.flatMap_cons, bidWrites, askWrites,
      List.filter_append, List.map_append, writes_append, List.getLast?_cons]
    cases rows.getLast? <;> rfl

theorem applyRows_append (rows rows' : List DepthRow) (book : BookState) :
    book.applyRows (rows ++ rows') = (book.applyRows rows).applyRows rows' := List.foldl_append

theorem applyRows_applyRows {before rows : List DepthRow} (h : before ⊆ rows) (book : BookState) :
    (book.applyRows before).applyRows rows = book.applyRows rows := by
  have hlevels : before.flatMap (·.levels) ⊆ rows.flatMap (·.levels) := by
    intro level hlevel
    obtain ⟨row, hrow, hmem⟩ := List.mem_flatMap.mp hlevel
    exact List.mem_flatMap.mpr ⟨row, h hrow, hmem⟩
  have hkeys : ∀ p : PricePair → Bool, ∀ f : PricePair → Int64 × Option Int64,
      (((before.flatMap (·.levels)).filter p).map f).map Prod.fst
        ⊆ (((rows.flatMap (·.levels)).filter p).map f).map Prod.fst := by
    intro p f
    exact List.map_subset _ (List.map_subset _ fun level hlevel => by
      rw [List.mem_filter] at hlevel ⊢
      exact ⟨hlevels hlevel.1, hlevel.2⟩)
  rw [applyRows_eq rows, applyRows_eq before, applyRows_eq rows book]
  rw [BookState.mk.injEq]
  refine ⟨writes_writes (hkeys _ _) _, writes_writes (hkeys _ _) _, ?_⟩
  cases rows with
  | nil =>
    have hnil : before = [] := List.subset_nil.mp h
    rw [hnil]
    rfl
  | cons row rows => rw [List.getLast?_cons]; rfl

end HftRecorder.Replay
