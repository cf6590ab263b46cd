import HftRecorder.Capture.Conservation

/-!
# Room in a drained arena

`onDepth` keeps the levels of a frame together: if they do not fit between the head and the end of
the arena, it skips to the beginning. What it skips counts against the capacity, also when the storage
thread has given all rows back. `drained_handoff_admits_iff` says which frames an idle and drained
capture publishes: those that fit behind the head, and those that fit before it.

The storage thread may act while the call is made, as long as it does not fail (`duringCall`).
-/

namespace HftRecorder.Capture

open Corpus Arena NativeState

variable {δ ℓ : Type} {T : NativeTopology} {s t u v : NativeState δ ℓ}

/-- The capture has not failed, all rows of the arena are given back, the ring has a free slot, and
the head is far from the largest number. -/
structure HandoffDrained (s : NativeState δ ℓ) : Prop where
  working : s.failed = false
  rowTail_eq : s.rowTail = s.rowHead
  room : s.queue.full = false
  head_lt : s.rowHead < 2 ^ 63

/-- One action while a call is made: the market thread goes on, or the storage thread does without
failing. -/
def NativeState.duringCall (T : NativeTopology) (s : NativeState δ ℓ) :
    NativeAction δ ℓ → Option (NativeState δ ℓ)
  | .market => s.marketStep T
  | .storage ok lastError =>
    (s.storageStep T ok lastError).filter fun t => decide (t.failed = s.failed)
  | .call _ | .shutdown => none

/-- The rows behind the head suffice for the levels, or the rows before it do. -/
def ArenaAdmits (capacity rowHead count : ℕ) : Prop :=
  0 < capacity ∧ (rowHead % capacity + count ≤ capacity ∨ count ≤ rowHead % capacity)

theorem subWrap_rowBegin_le_iff {capacity count : ℕ} (rowHead : ℕ) (hcapacity : capacity ≤ 2 ^ 62)
    (hpos : 0 < capacity) (hcount : count ≤ capacity) :
    subWrap (rowBegin capacity rowHead count + count) rowHead ≤ capacity ↔
      ArenaAdmits capacity rowHead count := by
  have hmod := Nat.mod_lt rowHead hpos
  unfold rowBegin ArenaAdmits subWrap
  split <;> omega

theorem head_le_subWrap {capacity rowHead count : ℕ} (hcapacity : capacity ≤ 2 ^ 62)
    (hcount : count ≤ capacity) (hhead : rowHead < 2 ^ 63) :
    rowHead ≤ subWrap (subWrap maximumUInt64 capacity) count := by
  unfold subWrap maximumUInt64
  omega

/-! ## The storage thread meanwhile -/

/-- What a step of the storage thread leaves alone. -/
structure StorageKeeps (s t : NativeState δ ℓ) : Prop where
  market_eq : t.market = s.market
  rowHead_eq : t.rowHead = s.rowHead
  pushed_eq : t.pushed = s.pushed
  popped_le : s.popped ≤ t.popped
  lost_subset : s.lost ⊆ t.lost
  rowTail_eq : t.rowTail = s.rowTail ∨
    ∃ e, s.storage = .retiring e ∧ e.value.object = .depth ∧ t.rowTail = e.rowEnd

theorem storageStep_keeps {ok : Bool} {lastError : String}
    (h : s.storageStep T ok lastError = some t) : StorageKeeps s t := by
  unfold storageStep at h
  constructor <;> grind [lose]

variable {e : NativeEvent δ}

theorem NativeRows.retiring_between (h : NativeRows T s) (hw : s.storage = .retiring e)
    (hdepth : e.value.object = .depth) : s.rowTail ≤ e.rowEnd ∧ e.rowEnd ≤ s.rowHead := by
  have hcarries := h.carries e (mem_inFlight_of_held (by rw [hw]; rfl))
  have hplaced := h.placed
  have hregion : region s.calls e =
      some ⟨e.rowEnd - e.levelCount, callLevels s.calls e.call⟩ := if_pos hdepth
  rw [inFlight, hw, StoragePc.held, Option.toList_some, List.append_assoc,
    List.singleton_append, List.filterMap_cons_some hregion] at hplaced
  obtain ⟨hlow, _, hrest⟩ := hplaced
  have hstop := hrest.le
  rw [hcarries.stop_eq hdepth] at hstop
  exact ⟨hlow.trans (Nat.sub_le _ _), hstop⟩

theorem StorageKeeps.drained (h : StorageKeeps s t) (hrows : NativeRows T s)
    (hs : s.rowTail = s.rowHead) : t.rowTail = t.rowHead := by
  rw [h.rowHead_eq]
  rcases h.rowTail_eq with heq | ⟨e, hw, hdepth, heq⟩
  · rw [heq, hs]
  · have hbetween := hrows.retiring_between hw hdepth
    omega

/-! ## The call -/

/-- The capture works, and the ring has a second slot free. -/
def Ready (s : NativeState δ ℓ) : Prop :=
  s.failed = false ∧ s.pushed.length + 1 < s.popped + 2 ^ 7

/-- What is known at each step of `onDepth` with levels that a drained arena was given at `head`: it
goes on if the arena admits them, and is lost otherwise. -/
def InCall (T : NativeTopology) (head n : ℕ) (levels : DepthLevels ℓ) (s : NativeState δ ℓ) : Prop :=
  match s.market with
  | .testing e l => l = levels ∧ e.call = n ∧ Ready s ∧ s.rowHead = head ∧ s.rowTail = s.rowHead
  | .placing e l =>
    l = levels.rows ∧ e.call = n ∧ Ready s ∧ s.rowHead = head ∧ s.rowTail = s.rowHead ∧
      0 < T.rowCapacity
  | .copying e _ _ | .publishing e | .pushing e =>
    ArenaAdmits T.rowCapacity head levels.count ∧ e.call = n ∧ Ready s
  | .storing e | .stored e => ArenaAdmits T.rowCapacity head levels.count ∧ e.call = n
  | .losing m _ .total => ¬ ArenaAdmits T.rowCapacity head levels.count ∧ m = n
  | .losing m _ _ =>
    ¬ ArenaAdmits T.rowCapacity head levels.count ∧ m = n ∧ n ∈ s.lost.map Prod.fst
  | .idle => True
  | _ => False

/-- What the market thread has left to do in the call. -/
def MarketPc.left : MarketPc δ ℓ → ℕ
  | .testing _ levels => levels.count + 8
  | .placing _ levels => levels.length + 7
  | .copying _ _ levels => levels.length + 6
  | .publishing _ => 5
  | .pushing _ => 4
  | .storing _ => 2
  | .stored _ => 1
  | .losing _ _ .total => 3
  | .losing _ _ .bySource => 2
  | .losing _ _ .failed => 1
  | _ => 0

/-- What the call has come to when it returns. -/
def Returned (T : NativeTopology) (head n : ℕ) (levels : DepthLevels ℓ) (s : NativeState δ ℓ) : Prop :=
  (ArenaAdmits T.rowCapacity head levels.count ∧
      ∃ e pushed, e.call = n ∧ s.popped ≤ pushed.length ∧ s.pushed = pushed ++ [e]) ∨
    (¬ ArenaAdmits T.rowCapacity head levels.count ∧ n ∈ s.lost.map Prod.fst)

theorem Ready.full_eq (h : Ready s) (hq : NativeQueue s) : s.queue.full = false := by
  by_contra hfull
  rw [Bool.not_eq_false, SpscRing.full, decide_eq_true_eq, hq.tracks.head_eq, hq.tracks.tail_eq,
    SpscRing.next_mod] at hfull
  have hread := hq.tracks.read_le
  have hroom : s.slotRing.written + 1 < s.slotRing.read + 2 ^ 7 := h.2
  have heq := SlotRing.eq_of_mod_eq (hread.trans (Nat.le_succ _)) hroom hfull.symm
  omega

variable {levels : DepthLevels ℓ}

theorem inCall_storage {head n : ℕ} (h : StorageKeeps s t) (hfailed : t.failed = s.failed)
    (hrows : NativeRows T s) (hs : InCall T head n levels s) : InCall T head n levels t := by
  have hready : Ready s → Ready t := fun ⟨hworking, hroom⟩ => by
    have := h.popped_le
    refine ⟨hfailed.trans hworking, ?_⟩
    rw [h.pushed_eq]
    omega
  have hlost : n ∈ s.lost.map Prod.fst → n ∈ t.lost.map Prod.fst :=
    fun hn => List.map_subset _ h.lost_subset hn
  have hdrained := h.drained hrows
  have hhead := h.rowHead_eq
  unfold InCall at hs ⊢
  rw [h.market_eq]
  split at hs <;> grind

/-- The test of the levels at the beginning of `onDepth` is passed if there is an arena. -/
theorem testing_eq (hm : s.market = .testing e levels) (hgiven : levels.absent = false)
    (hcount : levels.count ≤ T.rowCapacity) (hhead : s.rowHead < 2 ^ 63)
    (hworking : s.failed = false) :
    s.marketStep T = some { s with
      market := if T.rowCapacity = 0 then .losing e.call e.sourceId .total
        else .placing e levels.rows } := by
  have htests : (s.failed = true ∨ T.rowCapacity = 0 ∨ levels.count > T.rowCapacity ∨
      levels.absent = true ∨
      s.rowHead > subWrap (subWrap maximumUInt64 T.rowCapacity) levels.count) ↔
      T.rowCapacity = 0 := by
    have hmax := head_le_subWrap T.rowCapacity_le hcount hhead
    simp [hworking, hgiven, hcount, hmax]
  rw [marketStep, hm]
  simp only [htests]

theorem placing_eq {levels : List ℓ} (hm : s.market = .placing e levels) (hpos : 0 < T.rowCapacity)
    (hcount : levels.length ≤ T.rowCapacity) (htail : s.rowTail = s.rowHead) :
    ∃ placed : NativeEvent δ, placed.call = e.call ∧
      ((ArenaAdmits T.rowCapacity s.rowHead levels.length ∧
        s.marketStep T = some { s with market := .copying placed placed.levels levels }) ∨
      (¬ ArenaAdmits T.rowCapacity s.rowHead levels.length ∧
        s.marketStep T = some { s with market := .losing e.call e.sourceId .total })) := by
  have hroom := subWrap_rowBegin_le_iff s.rowHead T.rowCapacity_le hpos hcount
  refine ⟨{ e with
    levels := rowBegin T.rowCapacity s.rowHead levels.length % T.rowCapacity
    levelCount := levels.length
    rowEnd := rowBegin T.rowCapacity s.rowHead levels.length + levels.length }, rfl, ?_⟩
  rw [marketStep, hm, htail]
  by_cases hadmits : ArenaAdmits T.rowCapacity s.rowHead levels.length
  · refine .inl ⟨hadmits, ?_⟩
    dsimp only
    rw [if_neg (not_lt.mpr (hroom.mpr hadmits))]
  · refine .inr ⟨hadmits, ?_⟩
    dsimp only
    rw [if_pos (not_le.mp (mt hroom.mp hadmits))]

/-- A step of `onDepth` keeps what is known, and has less left to do. -/
theorem inCall_market {head n : ℕ} (hhead : head < 2 ^ 63) (hgiven : levels.absent = false)
    (hcount : levels.count ≤ T.rowCapacity) (hq : NativeQueue s) (hs : InCall T head n levels s)
    (hbusy : s.market ≠ .idle) :
    ∃ t, s.marketStep T = some t ∧ InCall T head n levels t ∧ t.market.left < s.market.left ∧
      (t.market = .idle → Returned T head n levels t) := by
  have hlength := DepthLevels.length_rows hgiven
  unfold InCall at hs
  split at hs
  · rename_i e l hm
    obtain ⟨rfl, hcall, hready, rfl, htail⟩ := hs
    refine ⟨_, testing_eq hm hgiven hcount hhead hready.1, ?_⟩
    rw [hm]
    by_cases hcapacity : T.rowCapacity = 0
    · rw [if_pos hcapacity]
      refine ⟨⟨fun h => h.1.ne' hcapacity, hcall⟩, ?_, nofun⟩
      change 3 < l.count + 8
      omega
    · rw [if_neg hcapacity]
      refine ⟨⟨rfl, hcall, hready, rfl, htail, Nat.pos_of_ne_zero hcapacity⟩, ?_, nofun⟩
      change l.rows.length + 7 < l.count + 8
      omega
  · rename_i e l hm
    obtain ⟨rfl, hcall, hready, rfl, htail, hpos⟩ := hs
    rw [← hlength] at hcount
    obtain ⟨placed, hplaced, ⟨hadmits, hstep⟩ | ⟨hadmits, hstep⟩⟩ := placing_eq hm hpos hcount htail
    · rw [hlength] at hadmits
      refine ⟨_, hstep, ⟨hadmits, hplaced.trans hcall, hready⟩, ?_, nofun⟩
      rw [hm]
      exact Nat.lt_succ_self _
    · rw [hlength] at hadmits
      refine ⟨_, hstep, ⟨hadmits, hcall⟩, ?_, nofun⟩
      rw [hm]
      change 3 < levels.rows.length + 7
      omega
  · -- The levels are copied one by one.
    rename_i e row l hm
    cases l <;> rw [marketStep, hm] <;> refine ⟨_, rfl, ?_⟩ <;>
      exact ⟨hs, Nat.lt_succ_self _, nofun⟩
  · rename_i e hm
    rw [hm]
    refine ⟨{ s with market := .pushing e }, ?_, hs, Nat.lt_succ_self _, nofun⟩
    rw [marketStep, hm, hs.2.2.1]
    rfl
  · rename_i e hm
    rw [marketStep, hm, hs.2.2.full_eq hq]
    refine ⟨_, rfl, ?_⟩
    exact ⟨⟨hs.1, hs.2.1⟩, show 2 < 4 by decide, nofun⟩
  · rename_i e hm
    rw [marketStep, hm]
    refine ⟨_, rfl, ?_⟩
    exact ⟨hs, Nat.lt_succ_self _, nofun⟩
  · rename_i e hm
    rw [marketStep, hm]
    refine ⟨_, rfl, ?_⟩
    exact ⟨trivial, Nat.one_pos, fun _ => .inl ⟨hs.1, e, s.pushed, hs.2, hq.popped_le, rfl⟩⟩
  · -- The frame is counted as lost.
    rename_i m id hm
    rw [marketStep, hm]
    refine ⟨_, rfl, ⟨hs.1, hs.2, ?_⟩, Nat.lt_succ_self _, nofun⟩
    rw [← hs.2]
    exact List.mem_map_of_mem (List.mem_append_right _ (List.mem_singleton_self (m, id)))
  · rename_i m id step hne hm
    rw [marketStep, hm]
    refine ⟨_, rfl, ?_⟩
    cases step with
    | total => exact (hne rfl).elim
    | bySource => exact ⟨hs, Nat.lt_succ_self _, nofun⟩
    | failed => exact ⟨trivial, Nat.one_pos, fun _ => .inr ⟨hs.1, hs.2.2⟩⟩
  · rename_i hm
    exact absurd hm hbusy
  · exact hs.elim

/-! ## The frames that are published -/

/-- The invariants of the handoff and of the call along a run. -/
theorem inCall_run {head n : ℕ} (hhead : head < 2 ^ 63) (hgiven : levels.absent = false)
    (hcount : levels.count ≤ T.rowCapacity) {rest : List (NativeAction δ ℓ)}
    (hrun : Machine.run (duringCall T) u rest = some v)
    (hu : NativeInvariant T u ∧ InCall T head n levels u) :
    NativeInvariant T v ∧ InCall T head n levels v := by
  refine Machine.run_invariant (P := fun w => NativeInvariant T w ∧ InCall T head n levels w)
    (fun s a t hst hs => ?_) hrun hu
  cases a with
  | market =>
    refine ⟨nativeInvariant_step (nativeStep_of_marketStep hst) hs.1, ?_⟩
    have hbusy : s.market ≠ .idle := fun hm => by
      change s.marketStep T = some t at hst
      rw [marketStep, hm] at hst
      cases hst
    obtain ⟨t', ht', hin, _⟩ := inCall_market hhead hgiven hcount hs.1.queue hs.2 hbusy
    cases ht'.symm.trans hst
    exact hin
  | storage ok lastError =>
    obtain ⟨hstep, hfailed⟩ := Option.filter_eq_some_iff.mp hst
    exact ⟨nativeInvariant_step (nativeStep_of_storageStep hstep) hs.1,
      inCall_storage (storageStep_keeps hstep) (of_decide_eq_true hfailed) hs.1.rows hs.2⟩
  | call | shutdown => cases hst

theorem NativeInvariant.not_lost (h : NativeInvariant T s) {pushed : List (NativeEvent δ)}
    (hpushed : s.pushed = pushed ++ [e]) (hpopped : s.popped ≤ pushed.length) :
    e.call ∉ s.lost.map Prod.fst := by
  have hplaces := h.places e.call
  rw [NativeState.places, hpushed, List.drop_append_of_le_length hpopped, List.map_append,
    List.count_append, List.map_singleton, List.count_singleton_self] at hplaces
  rw [← List.count_eq_zero]
  split at hplaces <;> omega

/-- Let a capture be drained. Whatever the storage thread does meanwhile without failing, a call of
`onDepth` with at most as many levels as the arena has rows returns, and it has published its event
and not counted it as lost exactly if the levels fit behind the head or before it. -/
theorem drained_handoff_admits_iff (T : NativeTopology) (slots : ℕ → NativeEvent δ) (rows : ℕ → ℓ)
    {history : List (NativeAction δ ℓ)} {s : NativeState δ ℓ}
    (hreached : Machine.run (NativeState.step T) (.configured slots rows) history = some s)
    (hs : HandoffDrained s) (sourceId : ℕ) (delta nativeStream : Bool) (value : δ)
    {levels : DepthLevels ℓ} (hgiven : levels.absent = false)
    (hcount : levels.count ≤ T.rowCapacity) {u : NativeState δ ℓ}
    (hcall : s.step T (.call (.onDepth sourceId delta nativeStream value levels)) = some u) :
    (∃ (k : ℕ) (t : NativeState δ ℓ),
      Machine.run (NativeState.duringCall T) u (List.replicate k .market) = some t ∧
      t.market = .idle) ∧
    ∀ (rest : List (NativeAction δ ℓ)) (v t : NativeState δ ℓ),
      Machine.run (NativeState.duringCall T) u rest = some v → v.marketStep T = some t →
      t.market = .idle →
      (((∃ e ∈ t.pushed, e.call = s.calls.length) ∧ s.calls.length ∉ t.lost.map Prod.fst) ↔
        ArenaAdmits T.rowCapacity s.rowHead levels.count) := by
  have hinv : NativeInvariant T s :=
    native_invariant (fun _ _ h hs => nativeInvariant_step h hs) hreached
      (nativeInvariant_configured slots rows)
  have hu : NativeInvariant T u ∧ InCall T s.rowHead s.calls.length levels u := by
    refine ⟨nativeInvariant_step (nativeStep_of_step hcall) hinv, ?_⟩
    simp only [NativeState.step] at hcall
    split at hcall
    · cases hcall
      exact ⟨rfl, rfl, ⟨hs.working, hinv.queue.tracks.room hs.room⟩, rfl, hs.rowTail_eq⟩
    · cases hcall
  constructor
  · have hreturns : ∃ (k : ℕ) (t : NativeState δ ℓ),
        Machine.run (duringCall T) u (List.replicate k .market) = some t ∧
        (NativeInvariant T t ∧ InCall T s.rowHead s.calls.length levels t) ∧ t.market = .idle := by
      refine Machine.exists_run_replicate (fun v => v.market.left) NativeAction.market
        (fun v hv hbusy => ?_) u hu
      obtain ⟨t, hstep, hin, hleft, _⟩ :=
        inCall_market hs.head_lt hgiven hcount hv.1.queue hv.2 hbusy
      exact ⟨t, hstep, ⟨nativeInvariant_step (nativeStep_of_marketStep hstep) hv.1, hin⟩, hleft⟩
    obtain ⟨k, t, hrun, _, hidle⟩ := hreturns
    exact ⟨k, t, hrun, hidle⟩
  · intro rest v t hrun hstep hidle
    obtain ⟨hv, hin⟩ := inCall_run hs.head_lt hgiven hcount hrun hu
    have hbusy : v.market ≠ .idle := fun hm => by
      rw [marketStep, hm] at hstep
      cases hstep
    have ht := nativeInvariant_step (nativeStep_of_marketStep hstep) hv
    obtain ⟨t', ht', _, _, hreturned⟩ := inCall_market hs.head_lt hgiven hcount hv.queue hin hbusy
    cases ht'.symm.trans hstep
    rcases hreturned hidle with ⟨hadmits, e, pushed, he, hpopped, hpushed⟩ | ⟨hadmits, hlost⟩
    · refine iff_of_true ⟨⟨e, ?_, he⟩, ?_⟩ hadmits
      · rw [hpushed]
        exact List.mem_append_right _ (List.mem_singleton_self e)
      · rw [← he]
        exact ht.not_lost hpushed hpopped
    · exact ⟨fun h => absurd hlost h.2, fun h => absurd h hadmits⟩

def MarketPc.isIdle : MarketPc δ ℓ → Bool
  | .idle => true
  | _ => false

theorem eq_idle_of_isIdle {m : MarketPc δ ℓ} (h : m.isIdle = true) : m = .idle := by
  cases m with
  | idle => rfl
  | _ => cases h

/-- Two levels are committed and their rows given back. With the head and the tail in the middle of
the arena `onDepth` is called with more levels, and makes `k` steps and its last one. -/
def afterDrained (levels : List ℕ) (k : ℕ) :
    Option (NativeState Unit ℕ × NativeState Unit ℕ × NativeState Unit ℕ × NativeState Unit ℕ) :=
  (Machine.run (NativeState.step oneDepthSource) blankCapture committedDepth).bind fun s =>
    (s.step oneDepthSource (.call (.onDepth 1 true true () (.given levels)))).bind fun u =>
      (Machine.run (duringCall oneDepthSource) u (List.replicate k .market)).bind fun v =>
        (v.marketStep oneDepthSource).map fun t => (s, u, v, t)

theorem of_afterDrained {levels : List ℕ} {k : ℕ} {s u v t : NativeState Unit ℕ}
    (h : afterDrained levels k = some (s, u, v, t)) :
    Machine.run (NativeState.step oneDepthSource) blankCapture committedDepth = some s ∧
      s.step oneDepthSource (.call (.onDepth 1 true true () (.given levels))) = some u ∧
      Machine.run (duringCall oneDepthSource) u (List.replicate k .market) = some v ∧
      v.marketStep oneDepthSource = some t := by
  obtain ⟨s', hs, hrest⟩ := Option.bind_eq_some_iff.mp h
  obtain ⟨u', hu, hrest⟩ := Option.bind_eq_some_iff.mp hrest
  obtain ⟨v', hv, hrest⟩ := Option.bind_eq_some_iff.mp hrest
  obtain ⟨t', ht, heq⟩ := Option.map_eq_some_iff.mp hrest
  cases heq
  exact ⟨hs, hu, hv, ht⟩

/-- What is tested of the drained state, and where the call ends. -/
structure Observed where
  workingBefore : Bool
  rowTail : ℕ
  rowHead : ℕ
  full : Bool
  calls : ℕ
  idle : Bool
  pushed : List ℕ
  lost : List (ℕ × ℕ)
  failed : Bool
deriving DecidableEq

def observe : NativeState Unit ℕ × NativeState Unit ℕ × NativeState Unit ℕ × NativeState Unit ℕ →
    Observed
  | (s, _, _, t) =>
    ⟨!s.failed, s.rowTail, s.rowHead, s.queue.full, s.calls.length, t.market.isIdle,
      t.pushed.map NativeEvent.call, t.lost, t.failed⟩

theorem afterDrained_two : (afterDrained [7, 8] 8).map observe =
    some ⟨true, 2, 2, false, 1, true, [0, 1], [], false⟩ := by
  decide +kernel

theorem afterDrained_three : (afterDrained [7, 8, 9] 4).map observe =
    some ⟨true, 2, 2, false, 1, true, [0], [(1, 1)], true⟩ := by
  decide +kernel

/-- Two levels more are published. -/
theorem drained_handoff_admits_two :
    ∃ s u v t : NativeState Unit ℕ,
      Machine.run (NativeState.step oneDepthSource) blankCapture committedDepth = some s ∧
      HandoffDrained s ∧
      s.step oneDepthSource (.call (.onDepth 1 true true () (.given [7, 8]))) = some u ∧
      Machine.run (NativeState.duringCall oneDepthSource) u (List.replicate 8 .market) = some v ∧
      v.marketStep oneDepthSource = some t ∧ t.market = .idle ∧
      (∃ e ∈ t.pushed, e.call = s.calls.length) ∧ s.calls.length ∉ t.lost.map Prod.fst := by
  obtain ⟨⟨s, u, v, t⟩, hrun, hobserved⟩ := Option.map_eq_some_iff.mp afterDrained_two
  obtain ⟨hs, hu, hv, ht⟩ := of_afterDrained hrun
  simp only [observe, Observed.mk.injEq, Bool.not_eq_true'] at hobserved
  obtain ⟨hworking, htail, hhead, hfull, _, hidle, _⟩ := hobserved
  have hdrained : HandoffDrained s :=
    ⟨hworking, htail.trans hhead.symm, hfull, by rw [hhead]; decide⟩
  have hidle := eq_idle_of_isIdle hidle
  refine ⟨s, u, v, t, hs, hdrained, hu, hv, ht, hidle, ?_⟩
  refine ((drained_handoff_admits_iff oneDepthSource _ _ hs hdrained 1 true true () rfl (by decide)
    hu).2 _ v t hv ht hidle).mpr ?_
  rw [hhead]
  exact ⟨by decide, .inl (by decide)⟩

/-- A frame of three levels is lost although all four rows of the arena are free, and the capture has
failed. -/
theorem free_arena_loses_frame :
    ∃ s u v t : NativeState Unit ℕ,
      Machine.run (NativeState.step oneDepthSource) blankCapture committedDepth = some s ∧
      HandoffDrained s ∧ 3 ≤ oneDepthSource.rowCapacity ∧
      s.step oneDepthSource (.call (.onDepth 1 true true () (.given [7, 8, 9]))) = some u ∧
      Machine.run (NativeState.duringCall oneDepthSource) u (List.replicate 4 .market) = some v ∧
      v.marketStep oneDepthSource = some t ∧ t.market = .idle ∧ s.calls.length = 1 ∧
      t.pushed.map NativeEvent.call = [0] ∧ t.lost = [(1, 1)] ∧ t.failed = true := by
  obtain ⟨⟨s, u, v, t⟩, hrun, hobserved⟩ := Option.map_eq_some_iff.mp afterDrained_three
  obtain ⟨hs, hu, hv, ht⟩ := of_afterDrained hrun
  simp only [observe, Observed.mk.injEq, Bool.not_eq_true'] at hobserved
  obtain ⟨hworking, htail, hhead, hfull, hcalls, hidle, hpushed, hlost, hfailed⟩ := hobserved
  have hdrained : HandoffDrained s :=
    ⟨hworking, htail.trans hhead.symm, hfull, by rw [hhead]; decide⟩
  exact ⟨s, u, v, t, hs, hdrained, by decide, hu, hv, ht, eq_idle_of_isIdle hidle, hcalls, hpushed,
    hlost, hfailed⟩

end HftRecorder.Capture
