import HftRecorder.Lib.Arena
import HftRecorder.Capture.Handoff

/-!
# The rows of the native market capture

The levels of a depth event lie in the arena from the time that `onDepth` has copied them until the
storage thread has stored the event's `rowEnd` into `rowTail_`. `NativeRows` says that the regions of
the events in flight lie one after another between `rowTail_` and `rowHead_`, with the levels of their
calls, and that the region that `onDepth` is writing lies after them. So a depth event is read with
the levels that it was published with.
-/

namespace HftRecorder.Capture

open Corpus Arena NativeState

variable {δ ℓ : Type} {T : NativeTopology} {s t : NativeState δ ℓ}

/-! ## Events and their calls -/

def callLevels (calls : List (MarketCall δ ℓ)) (n : ℕ) : List ℓ :=
  match calls[n]? with
  | some c => c.levels
  | none => []

def Made (calls : List (MarketCall δ ℓ)) (e : NativeEvent δ) : Prop :=
  ∃ c, calls[e.call]? = some c ∧ c.sourceId = e.sourceId ∧ c.value = e.value

/-- The event says where the levels of its call are. -/
structure Carries (T : NativeTopology) (calls : List (MarketCall δ ℓ)) (e : NativeEvent δ) :
    Prop where
  made : Made calls e
  levelCount_eq : e.levelCount = (callLevels calls e.call).length
  levels_eq : e.value.object = .depth →
    e.levelCount ≤ e.rowEnd ∧ e.levels = (e.rowEnd - e.levelCount) % T.rowCapacity

def region (calls : List (MarketCall δ ℓ)) (e : NativeEvent δ) : Option (Region ℓ) :=
  if e.value.object = .depth then some ⟨e.rowEnd - e.levelCount, callLevels calls e.call⟩ else none

variable {calls : List (MarketCall δ ℓ)} {e : NativeEvent δ}

theorem Made.call_lt (h : Made calls e) : e.call < calls.length := by
  obtain ⟨c, hc, _⟩ := h
  exact (List.getElem?_eq_some_iff.mp hc).1

theorem Made.append (h : Made calls e) (c : MarketCall δ ℓ) : Made (calls ++ [c]) e := by
  have hlt := h.call_lt
  obtain ⟨c', hc', heq⟩ := h
  exact ⟨c', by rw [List.getElem?_append_left hlt]; exact hc', heq⟩

theorem callLevels_append {n : ℕ} (h : n < calls.length) (c : MarketCall δ ℓ) :
    callLevels (calls ++ [c]) n = callLevels calls n := by
  rw [callLevels, callLevels, List.getElem?_append_left h]

theorem callLevels_last (calls : List (MarketCall δ ℓ)) (c : MarketCall δ ℓ) :
    callLevels (calls ++ [c]) calls.length = c.levels := by
  rw [callLevels, List.getElem?_concat_length]

theorem Carries.append (h : Carries T calls e) (c : MarketCall δ ℓ) : Carries T (calls ++ [c]) e :=
  ⟨h.made.append c, by rw [callLevels_append h.made.call_lt]; exact h.levelCount_eq, h.levels_eq⟩

theorem region_append (h : Made calls e) (c : MarketCall δ ℓ) :
    region (calls ++ [c]) e = region calls e := by
  rw [region, region, callLevels_append h.call_lt]

theorem Carries.stop_eq (h : Carries T calls e) (hdepth : e.value.object = .depth) :
    Region.stop ⟨e.rowEnd - e.levelCount, callLevels calls e.call⟩ = e.rowEnd := by
  rw [Region.stop, ← h.levelCount_eq]
  exact Nat.sub_add_cancel (h.levels_eq hdepth).1

/-! ## The events in flight -/

/-- The event whose rows are written and that is not yet pushed. -/
def MarketPc.placed : MarketPc δ ℓ → Option (NativeEvent δ)
  | .publishing e | .pushing e | .storing e | .stored e => some e
  | _ => none

/-- The event that is popped and whose rows are not yet given back. -/
def StoragePc.held : StoragePc δ ℓ → Option (NativeEvent δ)
  | .testing e | .consuming e | .reading e _ | .appending e _ | .failing e _ | .losing e _ _
  | .noting e _ | .retiring e => some e
  | _ => none

/-- The events whose rows are in use, in the order of their calls. -/
def NativeState.inFlight (s : NativeState δ ℓ) : List (NativeEvent δ) :=
  s.storage.held.toList ++ s.pushed.drop s.popped ++ s.market.placed.toList

theorem held_noted (e : NativeEvent δ) (note : Option String) :
    (StoragePc.noted e note : StoragePc δ ℓ).held = some e := by
  cases note <;> rfl

/-! ## The arena -/

/-- `onDepth` has copied the levels `copied` and has `levels` left to copy, from `row` on. -/
structure Copying (T : NativeTopology) (s : NativeState δ ℓ) (e : NativeEvent δ) (row : ℕ)
    (copied levels : List ℓ) : Prop where
  carries : Carries T s.calls e
  depth : e.value.object = .depth
  levels_eq : callLevels s.calls e.call = copied ++ levels
  head_le : s.rowHead ≤ e.rowEnd - e.levelCount
  end_le : e.rowEnd ≤ s.rowTail + T.rowCapacity
  end_max : e.rowEnd ≤ maximumUInt64
  fits : e.levels + e.levelCount ≤ T.rowCapacity
  row_eq : row = e.levels + copied.length
  written : Region.Written T.rowCapacity s.rows ⟨e.rowEnd - e.levelCount, copied⟩

/-- What `onDepth` knows at each of its steps. -/
def MarketRows (T : NativeTopology) (s : NativeState δ ℓ) : MarketPc δ ℓ → Prop
  | .testing e levels =>
    Made s.calls e ∧ e.value.object = .depth ∧ callLevels s.calls e.call = levels.rows
  | .placing e levels =>
    Made s.calls e ∧ e.value.object = .depth ∧ callLevels s.calls e.call = levels ∧
      T.rowCapacity ≠ 0 ∧ levels.length ≤ T.rowCapacity ∧
      s.rowHead + T.rowCapacity + levels.length ≤ maximumUInt64
  | .copying e row levels => ∃ copied, Copying T s e row copied levels
  | _ => True

def StorageRows (calls : List (MarketCall δ ℓ)) : StoragePc δ ℓ → Prop
  | .reading e levels => levels <+: callLevels calls e.call
  | .appending e levels => levels = callLevels calls e.call
  | _ => True

/-- The arena has the levels of the events in flight, and what was handed to a sink are the levels of
the event's call. -/
structure NativeRows (T : NativeTopology) (s : NativeState δ ℓ) : Prop where
  placed : Placed T.rowCapacity s.rows s.rowTail (s.inFlight.filterMap (region s.calls)) s.rowHead
  head_le : s.rowHead ≤ s.rowTail + T.rowCapacity
  head_max : s.rowHead ≤ maximumUInt64
  carries : ∀ e ∈ s.inFlight, Carries T s.calls e
  market : MarketRows T s s.market
  storage : StorageRows s.calls s.storage
  handed : ∀ row ∈ s.handed, Made s.calls row.1 ∧ row.2 = callLevels s.calls row.1.call

theorem nativeRows_configured (slots : ℕ → NativeEvent δ) (rows : ℕ → ℓ) :
    NativeRows T (.configured slots rows) :=
  ⟨le_refl 0, Nat.zero_le _, Nat.zero_le _, nofun, trivial, trivial, nofun⟩

/-- The arena, the calls, and the queue are the same. -/
structure SameRows (s t : NativeState δ ℓ) : Prop where
  rows_eq : t.rows = s.rows
  rowHead_eq : t.rowHead = s.rowHead
  rowTail_eq : t.rowTail = s.rowTail
  calls_eq : t.calls = s.calls
  pushed_eq : t.pushed = s.pushed
  popped_eq : t.popped = s.popped

theorem MarketRows.congr {m : MarketPc δ ℓ} (h : MarketRows T s m) (hsame : SameRows s t) :
    MarketRows T t m := by
  have ⟨hrows, hhead, htail, hcalls, _, _⟩ := hsame
  cases m with
  | copying =>
    obtain ⟨copied, hcopying⟩ := h
    have hc := hcopying
    refine ⟨copied, ?_⟩
    constructor <;> grind [Copying]
  | _ => grind [MarketRows]

theorem NativeRows.congr (h : NativeRows T s) (hsame : SameRows s t)
    (hflight : t.inFlight = s.inFlight) (hmarket : MarketRows T s t.market)
    (hstorage : StorageRows s.calls t.storage)
    (hhanded : ∀ row ∈ t.handed, Made s.calls row.1 ∧ row.2 = callLevels s.calls row.1.call) :
    NativeRows T t := by
  have hmarket' := hmarket.congr hsame
  obtain ⟨hrows, hhead, htail, hcalls, _, _⟩ := hsame
  have ⟨hplaced, hle, hmax, hcarries, _, _, _⟩ := h
  rw [← hcalls] at hstorage hhanded
  rw [← hflight, ← hcalls] at hcarries
  rw [← hflight, ← hcalls, ← hrows, ← hhead, ← htail] at hplaced
  exact ⟨hplaced, by rwa [hhead, htail], by rwa [hhead], hcarries, hmarket', hstorage, hhanded⟩

theorem NativeRows.marketMoves (h : NativeRows T s) (hsame : SameRows s t)
    (hstorage : t.storage = s.storage) (hhanded : t.handed = s.handed)
    (hplaced : t.market.placed = s.market.placed) (hmarket : MarketRows T s t.market) :
    NativeRows T t := by
  refine h.congr hsame ?_ hmarket (hstorage ▸ h.storage) (hhanded ▸ h.handed)
  rw [inFlight, inFlight, hstorage, hplaced, hsame.pushed_eq, hsame.popped_eq]

theorem NativeRows.storageMoves (h : NativeRows T s) (hsame : SameRows s t)
    (hmarket : t.market = s.market) (hhanded : t.handed = s.handed)
    (hheld : t.storage.held = s.storage.held) (hstorage : StorageRows s.calls t.storage) :
    NativeRows T t := by
  refine h.congr hsame ?_ (hmarket ▸ h.market) hstorage (hhanded ▸ h.handed)
  rw [inFlight, inFlight, hmarket, hheld, hsame.pushed_eq, hsame.popped_eq]

theorem storageRows_noted (calls : List (MarketCall δ ℓ)) (e : NativeEvent δ)
    (note : Option String) : StorageRows calls (.noted e note) := by
  cases note <;> trivial

/-! ## The steps of the market thread -/

theorem inFlight_idle (hm : s.market.placed = none) :
    s.inFlight = s.storage.held.toList ++ s.pushed.drop s.popped := by
  rw [inFlight, hm]
  exact List.append_nil _

theorem mem_inFlight_of_held (h : s.storage.held = some e) : e ∈ s.inFlight := by
  rw [inFlight, h]
  exact List.mem_append_left _ (List.mem_append_left _ (List.mem_singleton_self _))

theorem NativeRows.storage_append (h : NativeRows T s) (c : MarketCall δ ℓ) :
    StorageRows (s.calls ++ [c]) s.storage := by
  have hs := h.storage
  have hlevels : ∀ e, s.storage.held = some e →
      callLevels (s.calls ++ [c]) e.call = callLevels s.calls e.call := fun e he =>
    callLevels_append (h.carries e (mem_inFlight_of_held he)).made.call_lt c
  generalize s.storage = w at hs hlevels
  cases w with
  | reading e levels =>
    change levels <+: _
    rw [hlevels e rfl]
    exact hs
  | appending e levels =>
    change levels = _
    rw [hlevels e rfl]
    exact hs
  | _ => trivial

theorem filterMap_region_append {events : List (NativeEvent δ)} (h : ∀ e ∈ events, Made calls e)
    (c : MarketCall δ ℓ) :
    events.filterMap (region (calls ++ [c])) = events.filterMap (region calls) :=
  List.filterMap_congr fun e he => region_append (h e he) c

theorem entry_rows (s : NativeState δ ℓ) (c : MarketCall δ ℓ) :
    let t := { s with
      market := entry s.calls.length c
      calls := s.calls ++ [c] }
    (∀ e, t.market.placed = some e → Carries T t.calls e ∧ e.value.object ≠ .depth) ∧
      MarketRows T t t.market := by
  have hget : (s.calls ++ [c])[s.calls.length]? = some c := List.getElem?_concat_length
  have hlevels := callLevels_last s.calls c
  cases c with
  | onTrade | onBbo =>
    refine ⟨fun e he => ?_, trivial⟩
    cases he
    exact ⟨⟨⟨_, hget, rfl, rfl⟩, by rw [hlevels]; rfl, nofun⟩, nofun⟩
  | onDepth id delta nativeStream value levels =>
    exact ⟨nofun, ⟨_, hget, rfl, rfl⟩, rfl, hlevels⟩

/-- A new call has no rows yet. -/
theorem NativeRows.call (h : NativeRows T s) (c : MarketCall δ ℓ) (hm : s.market = .idle) :
    NativeRows T { s with
      market := entry s.calls.length c
      calls := s.calls ++ [c] } := by
  obtain ⟨hentry, hmarket⟩ := entry_rows (T := T) s c
  have hold : s.inFlight = s.storage.held.toList ++ s.pushed.drop s.popped :=
    inFlight_idle (by rw [hm]; rfl)
  have hmade : ∀ e ∈ s.inFlight, Made s.calls e := fun e he => (h.carries e he).made
  generalize hpc : entry s.calls.length c = m at hentry hmarket
  -- The new event has no region, so the regions are the same.
  have hregion : m.placed.toList.filterMap (region (s.calls ++ [c])) = [] := by
    cases he : m.placed with
    | none => rfl
    | some e => simp only [Option.toList_some, List.filterMap_cons, List.filterMap_nil, region,
        if_neg (hentry e he).2]
  have hflight : inFlight { s with market := m, calls := s.calls ++ [c] } =
      s.inFlight ++ m.placed.toList := by
    rw [hold]
    rfl
  refine ⟨?_, h.head_le, h.head_max, ?_, hmarket, h.storage_append c, ?_⟩
  · rw [hflight, List.filterMap_append, hregion, List.append_nil]
    change Placed _ _ _ (List.filterMap (region (s.calls ++ [c])) _) _
    rw [filterMap_region_append hmade]
    exact h.placed
  · intro e he
    rw [hflight] at he
    rcases List.mem_append.mp he with hbefore | hnew
    · exact (h.carries e hbefore).append c
    · exact (hentry e (Option.mem_toList.mp hnew)).1
  · intro row hrow
    obtain ⟨hmaderow, heq⟩ := h.handed row hrow
    exact ⟨hmaderow.append c, by
      change row.2 = callLevels (s.calls ++ [c]) _
      rw [callLevels_append hmaderow.call_lt]; exact heq⟩

theorem NativeRows.giveUp (h : NativeRows T s) (n id : ℕ) :
    NativeRows T { s with market := .losing n id .total } := by
  have hflight : s.inFlight =
      inFlight { s with market := .losing n id .total } ++ s.market.placed.toList := by
    rw [inFlight, inFlight]
    change _ = _ ++ _ ++ [] ++ _
    rw [List.append_nil]
  have hplaced := h.placed
  rw [hflight, List.filterMap_append] at hplaced
  refine ⟨hplaced.of_append, h.head_le, h.head_max, ?_, trivial, h.storage, h.handed⟩
  intro e he
  exact h.carries e (hflight ▸ List.mem_append_left _ he)

theorem DepthLevels.length_rows {levels : DepthLevels ℓ} (h : levels.absent = false) :
    levels.rows.length = levels.count := by
  cases levels with
  | missing n =>
    rw [DepthLevels.absent, decide_eq_false_iff_not, not_not] at h
    exact h.symm
  | given levels => rfl

theorem NativeRows.test (h : NativeRows T s) {levels : DepthLevels ℓ}
    (hm : s.market = .testing e levels) (hcapacity : T.rowCapacity ≠ 0)
    (hcount : levels.count ≤ T.rowCapacity) (hgiven : levels.absent = false)
    (hhead : s.rowHead ≤ subWrap (subWrap maximumUInt64 T.rowCapacity) levels.count) :
    NativeRows T { s with market := .placing e levels.rows } := by
  have hmarket := h.market
  rw [hm] at hmarket
  obtain ⟨hmade, hdepth, hlevels⟩ := hmarket
  have hlength := DepthLevels.length_rows hgiven
  have hbound := T.rowCapacity_le
  refine h.marketMoves ⟨rfl, rfl, rfl, rfl, rfl, rfl⟩ rfl rfl (by rw [hm]; rfl)
    ⟨hmade, hdepth, hlevels, hcapacity, hlength ▸ hcount, ?_⟩
  rw [hlength]
  rw [subWrap, subWrap, maximumUInt64] at hhead
  rw [maximumUInt64]
  omega

theorem rowBegin_spec (rowHead : ℕ) {capacity count : ℕ} (hcapacity : capacity ≠ 0)
    (hcount : count ≤ capacity) :
    rowHead ≤ rowBegin capacity rowHead count ∧
      rowBegin capacity rowHead count ≤ rowHead + capacity ∧
      rowBegin capacity rowHead count % capacity + count ≤ capacity := by
  have hlt := Nat.mod_lt rowHead (Nat.pos_of_ne_zero hcapacity)
  rw [rowBegin]
  split
  · have hmod : (rowHead + (capacity - rowHead % capacity)) % capacity = 0 := by
      rw [← Nat.mod_add_mod, Nat.add_sub_cancel' hlt.le, Nat.mod_self]
    rw [hmod]
    omega
  · omega

variable {levels : List ℓ}

/-- `onDepth` places the levels where there is room. -/
theorem NativeRows.place (h : NativeRows T s) {start : ℕ} (hm : s.market = .placing e levels)
    (hstart : start = rowBegin T.rowCapacity s.rowHead levels.length)
    (hroom : subWrap (start + levels.length) s.rowTail ≤ T.rowCapacity) :
    NativeRows T
      { s with
        market := .copying
          { e with
            levels := start % T.rowCapacity
            levelCount := levels.length
            rowEnd := start + levels.length }
          (start % T.rowCapacity) levels } := by
  have hmarket := h.market
  rw [hm] at hmarket
  obtain ⟨hmade, hdepth, hlevels, hcapacity, hcount, hmax⟩ := hmarket
  obtain ⟨hge, hle, hfits⟩ := rowBegin_spec s.rowHead hcapacity hcount
  rw [← hstart] at hge hle hfits
  have htail := h.placed.le
  refine h.marketMoves ⟨rfl, rfl, rfl, rfl, rfl, rfl⟩ rfl rfl (by rw [hm]; rfl) ⟨[], ?_⟩
  have hsub : start + levels.length - levels.length = start := Nat.add_sub_cancel ..
  refine ⟨⟨hmade, by rw [hlevels], fun _ => ⟨Nat.le_add_left _ _, by simp only [hsub]⟩⟩, hdepth,
    hlevels, by simp only [hsub]; exact hge, ?_, ?_, hfits, rfl, ?_⟩
  · -- The tail is not after the end, so that the difference does not wrap.
    rw [subWrap] at hroom
    rw [maximumUInt64] at hmax
    simp only
    omega
  · simp only
    omega
  · simp only [hsub]
    exact ⟨by simp only [List.length_nil]; omega, nofun⟩

/-- A row that `onDepth` writes lies after the regions in flight. -/
theorem NativeRows.copy (h : NativeRows T s) {row : ℕ} {level : ℓ}
    (hm : s.market = .copying e row (level :: levels)) :
    NativeRows T
      { s with
        rows := Function.update s.rows row level
        market := .copying e (row + 1) levels } := by
  have hmarket := h.market
  rw [hm] at hmarket
  obtain ⟨copied, hc⟩ := hmarket
  have hlength : e.levelCount = copied.length + (levels.length + 1) := by
    rw [hc.carries.levelCount_eq, hc.levels_eq, List.length_append, List.length_cons]
  obtain ⟨hle, hlevels⟩ := hc.carries.levels_eq hc.depth
  have hfits := hc.fits
  have hend := hc.end_le
  have hrow : row = (e.rowEnd - e.levelCount + copied.length) % T.rowCapacity := by
    rw [hc.row_eq, hlevels, ← Nat.mod_add_mod, ← hlevels, Nat.mod_eq_of_lt (by omega)]
  have hhead := hc.head_le
  have hflight : inFlight
      { s with
        rows := Function.update s.rows row level
        market := .copying e (row + 1) levels } = s.inFlight := by
    rw [inFlight, inFlight, hm]
    rfl
  refine ⟨?_, h.head_le, h.head_max, by rw [hflight]; exact h.carries, ⟨copied ++ [level], ?_⟩,
    h.storage, h.handed⟩
  · rw [hflight]
    change Placed _ (Function.update s.rows row level) _ _ _
    rw [hrow]
    exact h.placed.update (hhead.trans (Nat.le_add_right _ _)) (by omega) level
  · refine ⟨hc.carries, hc.depth, ?_, hhead, hend, hc.end_max, hfits, ?_, ?_⟩
    · rw [hc.levels_eq, List.append_assoc]
      rfl
    · rw [hc.row_eq, List.length_append, List.length_singleton]
      rfl
    · change Region.Written _ (Function.update s.rows row level) _
      rw [hc.row_eq, hlevels]
      exact hc.written.concat level (by rw [← hlevels]; omega)

/-- A depth event whose levels are copied is in flight. -/
theorem NativeRows.copied (h : NativeRows T s) {row : ℕ} (hm : s.market = .copying e row []) :
    NativeRows T { s with rowHead := e.rowEnd, market := .publishing e } := by
  have hmarket := h.market
  rw [hm] at hmarket
  obtain ⟨copied, hc⟩ := hmarket
  have hlevels := hc.levels_eq
  rw [List.append_nil] at hlevels
  have hwritten := hc.written
  rw [← hlevels] at hwritten
  have hregion : region s.calls e = some ⟨e.rowEnd - e.levelCount, callLevels s.calls e.call⟩ :=
    if_pos hc.depth
  have hflight : inFlight { s with rowHead := e.rowEnd, market := .publishing e } =
      s.inFlight ++ [e] := by
    rw [inFlight_idle (s := s) (by rw [hm]; rfl)]
    rfl
  refine ⟨?_, hc.end_le, hc.end_max, ?_, trivial, h.storage, h.handed⟩
  · rw [hflight, List.filterMap_append]
    simp only [List.filterMap_cons, List.filterMap_nil, hregion]
    have hplaced := h.placed.concat hwritten hc.head_le
    rw [hc.carries.stop_eq hc.depth] at hplaced
    exact hplaced
  · intro e' he'
    rw [hflight] at he'
    rcases List.mem_append.mp he' with hbefore | hnew
    · exact h.carries e' hbefore
    · rw [List.mem_singleton.mp hnew]
      exact hc.carries

theorem NativeRows.stored (h : NativeRows T s) (hq : NativeQueue s) (hm : s.market = .stored e) :
    NativeRows T
      { s with queue := s.queue.publish, pushed := s.pushed ++ [e], market := .idle } := by
  have hflight : inFlight
      { s with queue := s.queue.publish, pushed := s.pushed ++ [e], market := .idle } =
      s.inFlight := by
    rw [inFlight, inFlight, hm]
    change _ ++ (s.pushed ++ [e]).drop s.popped ++ [] = _ ++ _ ++ [e]
    rw [List.drop_append_of_le_length hq.popped_le, List.append_nil, List.append_assoc]
  exact ⟨by rw [hflight]; exact h.placed, h.head_le, h.head_max, by rw [hflight]; exact h.carries,
    trivial, h.storage, h.handed⟩

/-! ## The steps of the storage thread -/

theorem NativeRows.popped (h : NativeRows T s) (hq : NativeQueue s) (hw : s.storage = .popped e) :
    NativeRows T
      { s with queue := s.queue.advance, popped := s.popped + 1, storage := .testing e } := by
  have hfront := hq.front_eq e (by rw [hw]; rfl)
  have hflight : inFlight
      { s with queue := s.queue.advance, popped := s.popped + 1, storage := .testing e } =
      s.inFlight := by
    obtain ⟨hlt, hget⟩ := List.getElem?_eq_some_iff.mp hfront
    rw [inFlight, inFlight, hw, List.drop_eq_getElem_cons hlt, hget]
    rfl
  refine ⟨by rw [hflight]; exact h.placed, h.head_le, h.head_max, by rw [hflight]; exact h.carries,
    ?_, trivial, h.handed⟩
  have hmarket := h.market
  change MarketRows T _ s.market
  generalize s.market = m at hmarket
  cases m with
  | copying => exact hmarket.imp fun copied hc => { hc with }
  | _ => exact hmarket

/-- A level that the storage thread reads is the one of the call. -/
theorem NativeRows.read (h : NativeRows T s) (hw : s.storage = .reading e levels)
    (hlt : levels.length < e.levelCount) :
    levels ++ [s.rows (e.levels + levels.length)] <+: callLevels s.calls e.call := by
  have hcarries := h.carries e (mem_inFlight_of_held (by rw [hw]; rfl))
  have hread := h.storage
  rw [hw] at hread
  have hlength : levels.length < (callLevels s.calls e.call).length :=
    hcarries.levelCount_eq ▸ hlt
  have hdepth : e.value.object = .depth := by
    -- A call of another kind has no levels.
    obtain ⟨c, hc, _, hvalue⟩ := hcarries.made
    rw [callLevels, hc] at hlength
    rw [← hvalue]
    cases c with
    | onTrade => cases hlength
    | onBbo => cases hlength
    | onDepth => rfl
  have hmem : (⟨e.rowEnd - e.levelCount, callLevels s.calls e.call⟩ : Region ℓ) ∈
      s.inFlight.filterMap (region s.calls) :=
    List.mem_filterMap.mpr ⟨e, mem_inFlight_of_held (by rw [hw]; rfl), if_pos hdepth⟩
  have hcell := (h.placed.written hmem).cell_eq levels.length _ (List.getElem?_eq_getElem hlength)
  rw [(hcarries.levels_eq hdepth).2]
  simp only at hcell
  rw [hcell]
  obtain ⟨rest, hrest⟩ := hread
  generalize callLevels s.calls e.call = all at *
  subst hrest
  cases rest with
  | nil => simp at hlength
  | cons a rest =>
    refine ⟨rest, ?_⟩
    simp

/-- The storage thread gives the rows of its event back. -/
theorem NativeRows.retire (h : NativeRows T s) (hw : s.storage = .retiring e) :
    NativeRows T
      { s with
        rowTail := if e.value.object = .depth then e.rowEnd else s.rowTail
        storage := .top } := by
  have hflight : s.inFlight = e :: inFlight { s with
      rowTail := if e.value.object = .depth then e.rowEnd else s.rowTail
      storage := .top } := by
    rw [inFlight, hw]
    rfl
  have hcarries := h.carries e (mem_inFlight_of_held (by rw [hw]; rfl))
  have hplaced := h.placed
  rw [hflight] at hplaced
  -- Its rows are the first ones of the arena, so that the tail moves to the next.
  have hrest : s.rowTail ≤ (if e.value.object = .depth then e.rowEnd else s.rowTail) ∧
      Placed T.rowCapacity s.rows (if e.value.object = .depth then e.rowEnd else s.rowTail)
        ((inFlight { s with
          rowTail := if e.value.object = .depth then e.rowEnd else s.rowTail
          storage := .top }).filterMap (region s.calls)) s.rowHead := by
    by_cases hdepth : e.value.object = .depth
    · have hregion : region s.calls e =
          some ⟨e.rowEnd - e.levelCount, callLevels s.calls e.call⟩ := if_pos hdepth
      rw [List.filterMap_cons_some hregion] at hplaced
      obtain ⟨hlow, _, hafter⟩ := hplaced
      rw [hcarries.stop_eq hdepth] at hafter
      simp only [if_pos hdepth] at hafter ⊢
      exact ⟨hlow.trans (Nat.sub_le _ _), hafter⟩
    · have hregion : region s.calls e = none := if_neg hdepth
      rw [List.filterMap_cons_none hregion] at hplaced
      simp only [if_neg hdepth] at hplaced ⊢
      exact ⟨le_rfl, hplaced⟩
  refine ⟨hrest.2, h.head_le.trans (Nat.add_le_add_right hrest.1 _), h.head_max, ?_, ?_, trivial,
    h.handed⟩
  · intro e' he'
    exact h.carries e' (hflight ▸ List.mem_cons_of_mem _ he')
  · have hmarket := h.market
    change MarketRows T _ s.market
    generalize s.market = m at hmarket
    cases m with
    | copying =>
      exact hmarket.imp fun copied hc =>
        { hc with end_le := hc.end_le.trans (Nat.add_le_add_right hrest.1 _) }
    | _ => exact hmarket

theorem NativeRows.hand (h : NativeRows T s) (hw : s.storage = .appending e levels) :
    ∀ row ∈ s.handed ++ [(e, levels)],
      Made s.calls row.1 ∧ row.2 = callLevels s.calls row.1.call := by
  have hread := h.storage
  rw [hw] at hread
  intro row hrow
  rcases List.mem_append.mp hrow with hbefore | hlast
  · exact h.handed row hbefore
  · rw [List.mem_singleton.mp hlast]
    exact ⟨(h.carries e (mem_inFlight_of_held (by rw [hw]; rfl))).made, hread⟩

theorem inFlight_storage {w : StoragePc δ ℓ} (hheld : w.held = s.storage.held)
    (hpushed : t.pushed = s.pushed) (hpopped : t.popped = s.popped) (hmarket : t.market = s.market)
    (hstorage : t.storage = w) : t.inFlight = s.inFlight := by
  rw [inFlight, inFlight, hstorage, hheld, hpushed, hpopped, hmarket]

/-- Every step keeps the invariant of the rows. -/
theorem nativeRows_step (h : NativeStep T s t) (hq : NativeQueue s) (hs : NativeRows T s) :
    NativeRows T t := by
  cases h with
  | call c hm => exact hs.call c hm
  | giveUp e hm => exact hs.giveUp _ _
  | test e levels hm hcapacity hcount hgiven hhead =>
    exact hs.test hm hcapacity hcount hgiven hhead
  | place e levels start hm hstart hroom => exact hs.place hm hstart hroom
  | copy e row level levels hm => exact hs.copy hm
  | copied e row hm => exact hs.copied hm
  | stored e hm => exact hs.stored hq hm
  | shutdown hm | publish _ hm | push _ hm | store _ hm | loseTotal _ _ hm | loseBySource _ _ hm
  | loseFailed _ _ hm | join hm | report _ _ hm | reported _ hm =>
    exact hs.marketMoves ⟨rfl, rfl, rfl, rfl, rfl, rfl⟩ rfl rfl (by rw [hm]; rfl) trivial
  | popped e hw => exact hs.popped hq hw
  | retire e hw => exact hs.retire hw
  | foundEmpty hw | found hw | pop hw | skip _ hw | consume _ hw | outside _ hw
  | unrepresentable _ _ hw | dropTotal _ _ hw | dropBySource _ _ hw | note _ _ hw | goOn hw
  | finish hw =>
    exact hs.storageMoves ⟨rfl, rfl, rfl, rfl, rfl, rfl⟩ rfl rfl (by rw [hw]; rfl) trivial
  | represent e hw =>
    exact hs.storageMoves ⟨rfl, rfl, rfl, rfl, rfl, rfl⟩ rfl rfl (by rw [hw]; rfl)
      List.nil_prefix
  | read e levels hw hlt =>
    exact hs.storageMoves ⟨rfl, rfl, rfl, rfl, rfl, rfl⟩ rfl rfl (by rw [hw]; rfl) (hs.read hw hlt)
  | readAll e levels hw hle =>
    have hread := hs.storage
    rw [hw] at hread
    have hcarries := hs.carries e (mem_inFlight_of_held (by rw [hw]; rfl))
    exact hs.storageMoves ⟨rfl, rfl, rfl, rfl, rfl, rfl⟩ rfl rfl (by rw [hw]; rfl)
      (List.IsPrefix.eq_of_length_le hread (hcarries.levelCount_eq ▸ hle))
  | commit e levels hw | reject e levels detail hw =>
    exact hs.congr ⟨rfl, rfl, rfl, rfl, rfl, rfl⟩
      (inFlight_storage (by rw [hw]; rfl) rfl rfl rfl rfl) hs.market trivial (hs.hand hw)
  | fail e note hw | dropFailed e note hw =>
    exact hs.storageMoves ⟨rfl, rfl, rfl, rfl, rfl, rfl⟩ rfl rfl (by rw [hw]; exact held_noted e note)
      (storageRows_noted _ e note)

end HftRecorder.Capture
