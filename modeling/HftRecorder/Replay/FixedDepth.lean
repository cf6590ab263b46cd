import HftRecorder.Replay.Book
import Mathlib.Data.List.Chain

/-!
# Rows of a fixed depth

Some exchanges send the best levels of a book anew with every row and never say that a level is gone.
`normalizeFixedDepthSnapshotDeltas` of `Replay/SessionReplay.cpp` adds the removals to each row: the
levels of the row before that are not in the row. A row and its removals then turn a book with the levels
of the row before into one with the levels of the row (`applyDelta_removals`), if levels of the two
rows that are one level in the book are also compared as one (`SidesAgree`).
-/

namespace HftRecorder.Replay

def sameLevelKey (lhs rhs : PricePair) : Bool := lhs.priceE8 = rhs.priceE8 && lhs.side = rhs.side

def containsLevelKey (levels : List PricePair) (needle : PricePair) : Bool :=
  levels.any fun level => sameLevelKey level needle

def hasDeleteLevel (rows : List DepthRow) : Bool := rows.any fun row => row.levels.any (·.qtyE8 = 0)

/-- The levels of a row that the next row is compared with. -/
def currentLevels (row : DepthRow) : List PricePair := row.levels.filter fun level => 0 < level.qtyE8

/-- The removals of the levels that are gone. -/
def removals (previous current : List PricePair) : List PricePair :=
  (previous.filter fun level => !containsLevelKey current level).map fun level =>
    { priceE8 := level.priceE8, qtyE8 := 0, side := level.side }

/-- The loop over the rows, from the levels of the row before. -/
def normalizeRows (previousLevels : List PricePair) : List DepthRow → List DepthRow
  | [] => []
  | row :: rows =>
    { row with levels := row.levels ++ removals previousLevels (currentLevels row) } ::
      normalizeRows (currentLevels row) rows

def normalizeFixedDepthSnapshotDeltas (rows : List DepthRow) : List DepthRow :=
  if hasDeleteLevel rows then rows else normalizeRows [] rows

/-! ## Levels -/

/-- The level is on the bid side, or else on the ask side. -/
def onSide (bid : Bool) (level : PricePair) : Bool := decide (level.side = 0) == bid

/-- The quantity at a price, by the last level that gives one. -/
def levelAt (levels : List PricePair) (bid : Bool) (price : Int64) : Option Int64 :=
  (levels.reverse.find? fun level => onSide bid level && level.priceE8 = price).map (·.qtyE8)

def BookState.side (book : BookState) (bid : Bool) : LevelMap := if bid then book.bids else book.asks

theorem levelAt_append (levels levels' : List PricePair) (bid : Bool) (price : Int64) :
    levelAt (levels ++ levels') bid price = (levelAt levels' bid price).or (levelAt levels bid price) := by
  rw [levelAt, List.reverse_append, List.find?_append, levelAt, levelAt]
  cases List.find? (fun level => onSide bid level && decide (level.priceE8 = price)) levels'.reverse <;>
    rfl

variable {bid : Bool} {price : Int64} {levels : List PricePair}

theorem levelAt_eq_none :
    levelAt levels bid price = none ↔
      ∀ level ∈ levels, onSide bid level = true → level.priceE8 ≠ price := by
  simp [levelAt]

theorem levelAt_eq_some {qty : Int64} (h : levelAt levels bid price = some qty) :
    ∃ level ∈ levels, onSide bid level = true ∧ level.priceE8 = price ∧ level.qtyE8 = qty := by
  obtain ⟨level, hfound, hqty⟩ := Option.map_eq_some_iff.mp h
  have hmem := List.mem_reverse.mp (List.mem_of_find?_eq_some hfound)
  have hkey := List.find?_some hfound
  simp only [Bool.and_eq_true, decide_eq_true_eq] at hkey
  exact ⟨level, hmem, hkey.1, hkey.2, hqty⟩

theorem applyPair_side (book : BookState) (level : PricePair) (bid : Bool) (price : Int64) :
    (book.applyPair level).side bid price =
      if onSide bid level && level.priceE8 = price then
        (if level.qtyE8 = 0 then none else some level.qtyE8)
      else book.side bid price := by
  by_cases hside : level.side = 0 <;> cases bid <;> by_cases hprice : level.priceE8 = price <;>
    simp [BookState.applyPair, BookState.side, applyLevel, onSide, hside, hprice, Ne.symm]

theorem foldl_applyPair_side (levels : List PricePair) (book : BookState) (bid : Bool) (price : Int64) :
    (levels.foldl BookState.applyPair book).side bid price =
      match levelAt levels bid price with
      | some qty => if qty = 0 then none else some qty
      | none => book.side bid price := by
  induction levels generalizing book with
  | nil => rfl
  | cons level levels ih =>
    rw [List.foldl_cons, ih, ← List.singleton_append, levelAt_append]
    cases levelAt levels bid price with
    | some qty => rfl
    | none =>
      rw [applyPair_side]
      cases hkey : onSide bid level && decide (level.priceE8 = price) <;>
        simp [levelAt, hkey]

theorem applyDelta_side (book : BookState) (row : DepthRow) (bid : Bool) (price : Int64) :
    (book.applyDelta row).side bid price = (row.levels.foldl BookState.applyPair book).side bid price :=
  rfl

/-! ## One row -/

/-- If the row has a level where the row before has one, then it has one with the same side value. -/
def SidesAgree (previous current : List PricePair) : Prop :=
  ∀ level ∈ previous, ∀ other ∈ current, level.side ≠ 0 → other.side ≠ 0 →
    level.priceE8 = other.priceE8 → containsLevelKey current level = true

variable {current previous : List PricePair}

theorem mem_removals {removal : PricePair} :
    removal ∈ removals previous current ↔ ∃ level ∈ previous, containsLevelKey current level = false ∧
      removal = { priceE8 := level.priceE8, qtyE8 := 0, side := level.side } := by
  simp only [removals, List.mem_map, List.mem_filter, Bool.not_eq_true']
  constructor
  · rintro ⟨level, ⟨hlevel, hgone⟩, rfl⟩
    exact ⟨level, hlevel, hgone, rfl⟩
  · rintro ⟨level, hlevel, hgone, rfl⟩
    exact ⟨level, ⟨hlevel, hgone⟩, rfl⟩

theorem levelAt_removals_eq_some {qty : Int64}
    (h : levelAt (removals previous current) bid price = some qty) :
    qty = 0 ∧ ∃ level ∈ previous, onSide bid level = true ∧ level.priceE8 = price ∧
      containsLevelKey current level = false := by
  obtain ⟨removal, hmem, hside, hprice, hqty⟩ := levelAt_eq_some h
  obtain ⟨level, hlevel, hgone, rfl⟩ := mem_removals.mp hmem
  exact ⟨hqty.symm, level, hlevel, hside, hprice, hgone⟩

theorem levelAt_removals_eq_none :
    levelAt (removals previous current) bid price = none ↔
      ∀ level ∈ previous, onSide bid level = true → level.priceE8 = price →
        containsLevelKey current level = true := by
  rw [levelAt_eq_none]
  constructor
  · intro h level hlevel hside hprice
    by_contra hgone
    rw [Bool.not_eq_true] at hgone
    exact h _ (mem_removals.mpr ⟨level, hlevel, hgone, rfl⟩) hside hprice
  · intro h removal hremoval hside hprice
    obtain ⟨level, hlevel, hgone, rfl⟩ := mem_removals.mp hremoval
    rw [h level hlevel hside hprice] at hgone
    cases hgone

theorem containsLevelKey_iff {needle : PricePair} :
    containsLevelKey levels needle = true ↔
      ∃ level ∈ levels, level.priceE8 = needle.priceE8 ∧ level.side = needle.side := by
  simp [containsLevelKey, sameLevelKey]

theorem sidesAgree_iff : SidesAgree previous current ↔
    ∀ bid, ∀ level ∈ previous, ∀ other ∈ current, onSide bid level = true → onSide bid other = true →
      level.priceE8 = other.priceE8 → containsLevelKey current level = true := by
  constructor
  · intro h bid level hlevel other hother hside hside' hprice
    cases bid with
    | true =>
      simp only [onSide, beq_true, decide_eq_true_eq] at hside hside'
      exact containsLevelKey_iff.mpr ⟨other, hother, hprice.symm, hside'.trans hside.symm⟩
    | false =>
      simp only [onSide, beq_false, Bool.not_eq_true', decide_eq_false_iff_not] at hside hside'
      exact h level hlevel other hother hside hside' hprice
  · intro h level hlevel other hother hside hside' hprice
    exact h false level hlevel other hother (by simp [onSide, hside]) (by simp [onSide, hside']) hprice

/-- A row and its removals put the levels of the row in the place of those of the row before. -/
theorem applyDelta_removals {book : BookState} {row : DepthRow}
    (hbook : ∀ bid price, book.side bid price = levelAt previous bid price)
    (hpositive : ∀ level ∈ row.levels, 0 < level.qtyE8) :
    (∀ bid price, (book.applyDelta
        { row with levels := row.levels ++ removals previous row.levels }).side bid price
          = levelAt row.levels bid price) ↔ SidesAgree previous row.levels := by
  have hqty : ∀ {bid price qty}, levelAt row.levels bid price = some qty → qty ≠ 0 := by
    rintro bid price qty h rfl
    obtain ⟨level, hlevel, -, -, hzero⟩ := levelAt_eq_some h
    have hpos := hpositive level hlevel
    rw [hzero] at hpos
    exact absurd hpos (by decide)
  simp only [applyDelta_side, foldl_applyPair_side, levelAt_append, hbook]
  rw [sidesAgree_iff]
  constructor
  · -- A level that is removed is not in the row.
    intro h bid level hlevel other hother hside hside' hprice
    cases hremoved : levelAt (removals previous row.levels) bid level.priceE8 with
    | none => exact levelAt_removals_eq_none.mp hremoved level hlevel hside rfl
    | some qty =>
      have hrow := h bid level.priceE8
      obtain ⟨rfl, -⟩ := levelAt_removals_eq_some hremoved
      rw [hremoved] at hrow
      have hnone : levelAt row.levels bid level.priceE8 = none := hrow.symm
      exact absurd hprice.symm (levelAt_eq_none.mp hnone other hother hside')
  · intro h bid price
    cases hremoved : levelAt (removals previous row.levels) bid price with
    | some qty =>
      obtain ⟨rfl, level, hlevel, hside, hprice, hgone⟩ := levelAt_removals_eq_some hremoved
      refine Eq.symm (levelAt_eq_none.mpr fun other hother hside' hprice' => ?_)
      rw [h bid level hlevel other hother hside hside' (hprice.trans hprice'.symm)] at hgone
      cases hgone
    | none =>
      rw [Option.none_or]
      cases hrow : levelAt row.levels bid price with
      | some qty => exact if_neg (hqty hrow)
      | none =>
        -- A level of the row before that is not removed is in the row.
        refine levelAt_eq_none.mpr fun level hlevel hside hprice => ?_
        have hkept := levelAt_removals_eq_none.mp hremoved level hlevel hside hprice
        obtain ⟨other, hother, hprice', hside'⟩ := containsLevelKey_iff.mp hkept
        refine levelAt_eq_none.mp hrow other hother ?_ (hprice'.trans hprice)
        rwa [onSide, hside']

/-! ## All rows -/

def AllPositive (rows : List DepthRow) : Prop := ∀ row ∈ rows, ∀ level ∈ row.levels, 0 < level.qtyE8

/-- After each row the book has the levels of the row as it was. -/
def Rebuilds (book : BookState) (rows normalized : List DepthRow) : Prop :=
  ∀ i row, rows[i]? = some row → ∀ bid price,
    (book.applyRows (normalized.take (i + 1))).side bid price = levelAt row.levels bid price

theorem currentLevels_eq {row : DepthRow} (h : ∀ level ∈ row.levels, 0 < level.qtyE8) :
    currentLevels row = row.levels := by
  rw [currentLevels, List.filter_eq_self]
  exact fun level hlevel => decide_eq_true (h level hlevel)

theorem rebuilds_cons (book : BookState) (row row' : DepthRow) (rows rows' : List DepthRow) :
    Rebuilds book (row :: rows) (row' :: rows') ↔
      (∀ bid price, (book.applyDelta row').side bid price = levelAt row.levels bid price) ∧
        Rebuilds (book.applyDelta row') rows rows' := by
  constructor
  · intro h
    refine ⟨fun bid price => h 0 row rfl bid price, fun i next hnext bid price => ?_⟩
    exact h (i + 1) next (by simpa using hnext) bid price
  · rintro ⟨hfirst, hrest⟩ i next hnext bid price
    cases i with
    | zero =>
      rw [List.getElem?_cons_zero, Option.some.injEq] at hnext
      subst hnext
      exact hfirst bid price
    | succ i => exact hrest i next (by simpa using hnext) bid price

theorem rebuilds_normalizeRows {book : BookState} {rows : List DepthRow}
    (hbook : ∀ bid price, book.side bid price = levelAt previous bid price)
    (hrows : AllPositive rows) :
    Rebuilds book rows (normalizeRows previous rows) ↔
      (previous :: rows.map (·.levels)).IsChain SidesAgree := by
  induction rows generalizing book previous with
  | nil => simp [Rebuilds]
  | cons row rows ih =>
    have hrow := hrows row List.mem_cons_self
    rw [normalizeRows, rebuilds_cons, currentLevels_eq hrow, applyDelta_removals hbook hrow,
      List.map_cons, List.isChain_cons_cons]
    refine and_congr_right fun hsides => ?_
    exact ih ((applyDelta_removals hbook hrow).mpr hsides) fun other hother =>
      hrows other (List.mem_cons_of_mem _ hother)

theorem prefix_normalizeRows (previous : List PricePair) (rows : List DepthRow) :
    List.Forall₂ (fun row row' => ∃ removed, row' = { row with levels := row.levels ++ removed }) rows
      (normalizeRows previous rows) := by
  induction rows generalizing previous with
  | nil => exact .nil
  | cons row rows ih => exact .cons ⟨_, rfl⟩ (ih _)

/-- The sides of all levels are those of the depth files. -/
def KnownSides (rows : List DepthRow) : Prop :=
  ∀ row ∈ rows, ∀ level ∈ row.levels, level.side = 0 ∨ level.side = 1

theorem KnownSides.isChain {rows : List DepthRow} (h : KnownSides rows) :
    (rows.map (·.levels)).IsChain SidesAgree := by
  rw [List.isChain_map]
  induction rows with
  | nil => exact .nil
  | cons row rows ih =>
    have htail := ih fun other hother => h other (List.mem_cons_of_mem _ hother)
    rw [List.isChain_cons]
    refine ⟨fun next hnext level hlevel other hother hside hside' hprice => ?_, htail⟩
    have hrow := h row List.mem_cons_self level hlevel
    have hnext' := h next (List.mem_cons_of_mem _ (List.mem_of_mem_head? hnext)) other hother
    have hsame : other.side = level.side := by
      rw [hrow.resolve_left hside, hnext'.resolve_left hside']
    exact containsLevelKey_iff.mpr ⟨other, hother, hprice.symm, hsame⟩

/-- Rows of positive quantities are rebuilt one by one, exactly if the asks that are one level of the
book in two rows on end are one level for `sameLevelKey`. -/
theorem normalized_rebuilds {rows : List DepthRow} (h : AllPositive rows) :
    List.Forall₂ (fun row row' => ∃ removed, row' = { row with levels := row.levels ++ removed }) rows
        (normalizeFixedDepthSnapshotDeltas rows) ∧
      (Rebuilds {} rows (normalizeFixedDepthSnapshotDeltas rows) ↔
        (rows.map (·.levels)).IsChain SidesAgree) ∧
      (KnownSides rows → Rebuilds {} rows (normalizeFixedDepthSnapshotDeltas rows)) := by
  have hdelete : hasDeleteLevel rows = false := by
    rw [hasDeleteLevel, List.any_eq_false]
    intro row hrow hany
    obtain ⟨level, hlevel, hzero⟩ := List.any_eq_true.mp hany
    have hpos := h row hrow level hlevel
    rw [of_decide_eq_true hzero] at hpos
    exact absurd hpos (by decide)
  have heq : normalizeFixedDepthSnapshotDeltas rows = normalizeRows [] rows := by
    simp [normalizeFixedDepthSnapshotDeltas, hdelete]
  have hiff : Rebuilds {} rows (normalizeRows [] rows) ↔ (rows.map (·.levels)).IsChain SidesAgree := by
    rw [rebuilds_normalizeRows (fun bid price => by cases bid <;> rfl) h]
    cases rows with
    | nil => simp
    | cons row rows =>
      rw [List.map_cons, List.isChain_cons_cons]
      exact and_iff_right fun level hlevel => absurd hlevel List.not_mem_nil
  rw [heq]
  exact ⟨prefix_normalizeRows [] rows, hiff, fun hsides => hiff.mpr hsides.isChain⟩

/-- Two rows of a bid and an ask; the ask of the first is gone in the second. -/
def twoRows : List DepthRow :=
  [ { levels := [{ priceE8 := 1, qtyE8 := 5 }, { priceE8 := 2, qtyE8 := 6, side := 1 }] },
    { levels := [{ priceE8 := 1, qtyE8 := 7 }, { priceE8 := 3, qtyE8 := 8, side := 1 }] } ]

theorem twoRows_rebuilt : AllPositive twoRows ∧
    Rebuilds {} twoRows (normalizeFixedDepthSnapshotDeltas twoRows) := by
  have hpositive : AllPositive twoRows := by simp [AllPositive, twoRows]
  exact ⟨hpositive, (normalized_rebuilds hpositive).2.2 (by simp [KnownSides, twoRows])⟩

/-- An ask with side value 1 and then one with side value 2 at its price: the book takes both for one
level, the comparison does not, and the ask of the second row is removed. -/
theorem ask_removed_with_other_side :
    let rows : List DepthRow := [{ levels := [{ priceE8 := 1, qtyE8 := 1, side := 1 }] },
      { levels := [{ priceE8 := 1, qtyE8 := 1, side := 2 }] }]
    AllPositive rows ∧ ¬ Rebuilds {} rows (normalizeFixedDepthSnapshotDeltas rows) := by
  refine ⟨by simp [AllPositive], fun h => ?_⟩
  have hask := h 1 _ rfl false 1
  revert hask
  decide

end HftRecorder.Replay
